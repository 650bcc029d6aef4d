import StandaloneDHCP.Workers.DuplicateGate

/-! How long a worker is busy. The only loop of `ServeDHCP` is the jump back to `retry` after an
answered ping, and the only place where a worker waits is `GlobalTransactionLock`. From the first
attempt on that is not answered, the points ahead of a worker are counted by `budget`, so that a
worker makes a bounded number of accesses whatever the others do in between. A worker that owns the
lock never waits, so the workers together cannot get stuck. -/
namespace StandaloneDHCP
open Lib
set_option autoImplicit false

/-- No ping is answered from the attempt `n` on. -/
def Env.QuietFrom (env : Env) (n : ℕ) : Prop := ∀ round a, n ≤ round → env.ping round a = false

namespace Point

/-- How many accesses can follow at most if `n` attempts can be answered. -/
def budget (n : ℕ) : Point → ℕ
  | .lockGate => 16 + 6 * n
  | .getGate => 15 + 6 * n
  | .setGate => 14 + 6 * n
  | .unlockGate _ => 13 + 6 * n
  | .getCached => 12 + 6 * n
  | .checkCached _ => 11 + 6 * n
  | .deleteCached _ => 10 + 6 * n
  | .reserveCached _ => 9 + 6 * n
  | .replaceCached _ => 1
  | .countFree round true _ => 8 + 6 * (n - round)
  | .checkAsked round _ _ => 7 + 6 * (n - round)
  | .reserveAsked round _ _ => 6 + 6 * (n - round)
  | .countFree round false free => (if free = -1 then 6 else 5) + 6 * (n - round)
  | .grabNext round => 5 + 6 * (n - round)
  | .lockCandidate round _ => 4 + 6 * (n - round)
  | .setXid round _ => 3 + 6 * (n - round)
  | .deleteBusy round _ => 8 + 6 * (n - (round + 1))
  | .reserveBusy round _ => 7 + 6 * (n - (round + 1))
  | .sleepBusy round _ => 6 + 6 * (n - (round + 1))
  | .lockOffer _ _ => 2
  | .replaceXid _ _ => 1
  | .getRequested _ => 10
  | .lockSeen _ _ => 9
  | .getSeen _ _ => 8
  | .checkOwner _ _ => 7
  | .setSeen _ _ _ => 6
  | .unlockSeen _ _ _ => 5
  | .getXid => 2
  | .deleteMismatched => 1
  | .setIp _ _ _ => 4
  | .setMac _ _ _ => 3
  | .lockLease _ _ => 2
  | .reserveLease _ _ => 1
  | .getRetired _ => 5
  | .checkRetired _ => 4
  | .reserveRetired _ => 3
  | .sleepRetired _ => 2
  | .goDelete => 1
  | .done _ => 0

theorem budget_le (n : ℕ) (c : Point) : c.budget n ≤ 16 + 6 * n := by
  cases c with
  | countFree round firstTry free =>
    cases firstTry with
    | true =>
      simp only [budget]
      omega
    | false =>
      simp only [budget]
      split_ifs <;> omega
  | _ =>
    simp only [budget]
    omega

end Point

section Budget
variable {networkIP : String} {id n : ℕ} {s s' : Shared} {k k' : Worker}

theorem acknowledge_budget (h : DHCPHandler) (addr : IPv4) (index : Int) :
    (k.acknowledge h networkIP addr index).budget n ≤ 4 :=
  Worker.acknowledge_cases (P := fun c => c.budget n ≤ 4) (Nat.zero_le 4) fun _ _ _ => le_rfl

theorem dispatch_budget (h : DHCPHandler) :
    (k.dispatch h networkIP).budget n ≤ 12 + 6 * n := by
  refine Worker.dispatch_cases (P := fun c => c.budget n ≤ 12 + 6 * n) ?_ ?_ ?_ ?_ ?_
  · exact fun _ => Nat.zero_le _
  · exact fun _ => le_rfl
  · intro addr position _ _
    have hack : (k.acknowledge h networkIP addr position.toNat).budget n ≤ 4 :=
      acknowledge_budget h addr position.toNat
    omega
  · intro addr _
    show 10 ≤ 12 + 6 * n
    omega
  · intro addr _
    show 5 ≤ 12 + 6 * n
    omega

theorem candidate_budget (round : ℕ) (free : Int) :
    (Worker.candidate round free).budget n =
      (if free = -1 then 5 else 4) + 6 * (n - round) := by
  unfold Worker.candidate
  split_ifs <;> rfl

/-- Every access uses up a part of the budget. -/
theorem next_budget (hquiet : k.env.QuietFrom n) (hk : (k.next networkIP s).1 ≠ .stop) :
    (k.next networkIP s).2.budget n < k.point.budget n := by
  have hdispatch : (k.dispatch s.handler networkIP).budget n ≤ 12 + 6 * n :=
    dispatch_budget s.handler
  have hack : ∀ addr index, (k.acknowledge s.handler networkIP addr index).budget n ≤ 4 :=
    acknowledge_budget s.handler
  unfold Worker.next at hk ⊢
  cases hp : k.point with
  | done answer =>
    rw [hp] at hk
    exact absurd rfl hk
  | unlockGate found =>
    cases found with
    | true =>
      show 0 < 13 + 6 * n
      omega
    | false =>
      show (k.dispatch s.handler networkIP).budget n < 13 + 6 * n
      omega
  | unlockSeen addr index reply =>
    match reply with
    | none => exact Nat.succ_pos 4
    | some true => exact Nat.lt_succ_of_le (hack addr index)
    | some false => exact Nat.succ_pos 4
  | countFree round firstTry free =>
    have hcandidate : (Worker.candidate round free).budget n <
        (Point.countFree round firstTry free).budget n := by
      rw [candidate_budget]
      cases firstTry with
      | true =>
        simp only [Point.budget]
        split_ifs <;> omega
      | false =>
        simp only [Point.budget]
        split_ifs <;> omega
    dsimp only
    split_ifs
    · exact Nat.lt_of_le_of_lt (Nat.zero_le _) hcandidate
    split
    · split
      · exact Nat.lt_of_le_of_lt (Nat.zero_le _) hcandidate
      · simp only [Point.budget]
        omega
    · exact hcandidate
  | checkAsked round free element =>
    dsimp only
    split_ifs
    all_goals
      simp only [Point.budget]
      try split_ifs
      all_goals omega
  | reserveAsked round free element =>
    dsimp only
    split_ifs
    · simp only [Point.budget]
      omega
    · rw [candidate_budget]
      simp only [Point.budget]
      split_ifs <;> omega
  | setXid round free =>
    -- an answered attempt is one of the first `n`
    dsimp only
    split_ifs with hping
    · have hround : round < n := by
        by_contra hge
        rw [hquiet round _ (Nat.le_of_not_lt hge)] at hping
        cases hping
      simp only [Point.budget]
      omega
    · simp only [Point.budget]
      omega
  | sleepBusy round free =>
    show (if (0 : Int) = -1 then 6 else 5) + 6 * (n - (round + 1)) < 6 + 6 * (n - (round + 1))
    rw [if_neg (by decide)]
    omega
  | _ =>
    dsimp only
    repeat' split
    all_goals
      simp only [Point.budget]
      omega

theorem step_budget (hquiet : k.env.QuietFrom n)
    (hstep : Worker.step networkIP id s k = some (s', k')) :
    k'.env.QuietFrom n ∧ k'.point.budget n < k.point.budget n := by
  obtain ⟨hacc, rfl⟩ := Worker.step_eq_some hstep
  refine ⟨hquiet, next_budget hquiet fun hstop => ?_⟩
  rw [hstop] at hacc
  cases hacc

end Budget

theorem turns_le_budget {networkIP : String} {c c' : Serving} {es : List Serving.Turn}
    {i n : ℕ} {k : Worker} (hk : c.locals[i]? = some k) (hquiet : k.env.QuietFrom n)
    (hrun : c.follow (Worker.step networkIP) Shared.outside es = some c') :
    turns i es ≤ 16 + 6 * n := by
  obtain ⟨k', -, -, hle⟩ := Threads.turns_le (W := fun k => k.env.QuietFrom n)
    (μ := fun k => k.point.budget n) (fun _ _ _ _ hq hstep => step_budget hq hstep) hk hquiet hrun
  have hbudget := k.point.budget_le n
  omega

/-! ## No deadlock -/

theorem done_of_stop {networkIP : String} {s : Shared} {k : Worker}
    (hs : (k.next networkIP s).1 = .stop) : ∃ answer, k.point = .done answer := by
  unfold Worker.next at hs
  cases hp : k.point with
  | done answer => exact ⟨answer, rfl⟩
  | _ =>
    simp only [hp] at hs
    repeat' split at hs
    all_goals cases hs

theorem next_of_inside {networkIP : String} {s : Shared} {k : Worker}
    (hin : k.point.inside = true) :
    (k.next networkIP s).1 ≠ .acquire ∧ (k.next networkIP s).1 ≠ .stop := by
  have hbrackets := next_brackets networkIP s k
  rw [hin] at hbrackets
  refine ⟨fun ha => ?_, fun hs => ?_⟩
  · rw [ha] at hbrackets
    cases hbrackets.1
  · obtain ⟨answer, hp⟩ := done_of_stop hs
    rw [hp] at hin
    cases hin

theorem access_isSome {id : ℕ} {s : Shared} {k : Worker} {a : Access} (hstop : a ≠ .stop)
    (hfree : a = .acquire → s.locked = none) : ∃ s', s.access id k a = some s' := by
  cases a with
  | stop => exact absurd rfl hstop
  | acquire => exact ⟨_, if_pos (hfree rfl)⟩
  | _ => exact ⟨_, rfl⟩

/-- As long as a worker has not returned, some worker can go on. -/
theorem Serving.RunsTo.not_stuck {networkIP : String} {ok : Serving → Serving.Turn → Prop}
    {cfg : ScopeConfig} {now : Int} {c : Serving} (hrun : Serving.RunsTo networkIP ok cfg now c)
    (hstuck : ∀ i < c.locals.length, c.step networkIP (.run i) = none) :
    ∀ k ∈ c.locals, ∃ answer, k.point = .done answer := by
  intro k hk
  obtain ⟨i, hi⟩ := List.getElem?_of_mem hk
  -- a worker that could make its access would have a step
  have hblocked : ∀ (j : ℕ) (u : Worker), c.locals[j]? = some u →
      (u.next networkIP c.shared).1 ≠ .stop →
      (u.next networkIP c.shared).1 = .acquire ∧ c.shared.locked ≠ none := by
    intro j u hu hstop
    by_contra hcon
    obtain ⟨s', hacc⟩ : ∃ s', c.shared.access j u (u.next networkIP c.shared).1 = some s' := by
      refine access_isSome hstop fun ha => ?_
      by_contra hlocked
      exact hcon ⟨ha, hlocked⟩
    have hstep : Worker.step networkIP j c.shared u =
        some (s', u.goto (u.next networkIP c.shared).2) := by
      rw [Worker.step, hacc]
      rfl
    have hrunj : c.step networkIP (.run j) = _ := Threads.step_run_of hu hstep
    rw [hstuck j (List.getElem?_eq_some_iff.mp hu).1] at hrunj
    cases hrunj
  suffices hstop : (k.next networkIP c.shared).1 = .stop from done_of_stop hstop
  by_contra hstop
  obtain ⟨-, hlocked⟩ := hblocked i k hi hstop
  obtain ⟨j, hj⟩ := Option.ne_none_iff_exists'.mp hlocked
  -- the owner of the lock is inside its critical section, where no access waits
  have hgate := hrun.gate
  have hlt : j < c.locals.length := hgate.shared.holder j hj
  obtain ⟨u, hu⟩ : ∃ u, c.locals[j]? = some u := ⟨_, List.getElem?_eq_getElem hlt⟩
  have hin := (hgate.each j u hu).lock.mp hj
  have hnext : (u.next networkIP c.shared).1 ≠ .acquire ∧ (u.next networkIP c.shared).1 ≠ .stop :=
    next_of_inside hin
  exact hnext.1 (hblocked j u hu hnext.2).1

/-- A worker whose pings are not answered from the attempt `n` on makes at most `16 + 6 * n`
accesses, whatever the others do in between and however often they are answered. If only the
workers move, they have all returned when none of them can move any more, and if no ping of any
of them is answered from the attempt `n` on, that is so after at most `16 + 6 * n` accesses for
each. -/
theorem workers_all_return {networkIP : String} {ok : Serving → Serving.Turn → Prop}
    {cfg : ScopeConfig} {now : Int} {c c' : Serving}
    (hrun : Serving.RunsTo networkIP ok cfg now c) {es : List Serving.Turn}
    (hes : c.follow (Worker.step networkIP) Shared.outside es = some c') :
    (∀ (i n : ℕ) (k : Worker), c.locals[i]? = some k → k.env.QuietFrom n →
      turns i es ≤ 16 + 6 * n) ∧
    (Threads.OnlyRuns es → (∀ i < c'.locals.length, c'.step networkIP (.run i) = none) →
      ∀ k ∈ c'.locals, ∃ answer, k.point = .done answer) ∧
    ∀ n, (∀ k ∈ c.locals, k.env.QuietFrom n) → Threads.OnlyRuns es →
      es.length ≤ c.locals.length * (16 + 6 * n) := by
  have hturns : ∀ (i n : ℕ) (k : Worker), c.locals[i]? = some k → k.env.QuietFrom n →
      turns i es ≤ 16 + 6 * n := fun i n k hk hquiet => turns_le_budget hk hquiet hes
  refine ⟨hturns, fun honly hstuck => ?_, fun n hquiet honly => ?_⟩
  · have hreaches : Serving.RunsTo networkIP (fun _ _ => True) cfg now c' := by
      refine (Reaches.mono (fun _ _ h => ⟨h.1, trivial⟩) hrun).trans ?_
      exact Threads.reaches_of_follow honly (fun _ _ => ⟨trivial, trivial⟩) hes
    exact hreaches.not_stuck hstuck
  · rw [Threads.length_eq_sum_turns honly hes]
    have hsum := Finset.sum_le_card_nsmul (Finset.range c.locals.length) (fun i => turns i es)
      (16 + 6 * n) fun i hi => by
        have hlt := Finset.mem_range.mp hi
        exact hturns i n _ (List.getElem?_eq_getElem hlt) (hquiet _ (List.getElem_mem hlt))
    rwa [Finset.card_range, Nat.nsmul_eq_mul] at hsum

namespace Sample

theorem startled_quiet : startled.QuietFrom 1 := by
  intro round a hround
  exact beq_eq_false_iff_ne.mpr (by omega)

end Sample

/-- Two DISCOVER at the same time; the address offered to the second one answers its first ping. -/
theorem workers_all_return_sample : ∃ c c' : Serving, ∃ es : List Serving.Turn,
    Serving.RunsTo "10.0.0.0" (fun _ _ => True) (Sample.scope [] []) 0 c ∧
    c.follow (Worker.step "10.0.0.0") Shared.outside es = some c' ∧ c.locals.length = 2 ∧
    turns 0 es ≤ 16 ∧ turns 1 es ≤ 22 ∧ es.length ≤ 44 ∧
    ∀ k ∈ c'.locals, ∃ answer, k.point = .done answer := by
  let first := Sample.worker [2, 0, 0, 0, 0, 1] 1 none .discover
  let other := Worker.call (Sample.packet [2, 0, 0, 0, 0, 2] 2 none) .discover Sample.startled none
  let c : Serving := { Serving.init (Sample.scope [] []) 0 with locals := [first, other] }
  have hrun : Serving.RunsTo "10.0.0.0" (fun _ _ => True) (Sample.scope [] []) 0 c := by
    have hfirst : Serving.RunsTo "10.0.0.0" (fun _ _ => True) (Sample.scope [] []) 0
        { Serving.init (Sample.scope [] []) 0 with locals := [first] } :=
      .next (e := .start first) .start ⟨rfl, trivial⟩ rfl
    exact .next (e := .start other) hfirst ⟨rfl, trivial⟩ rfl
  have hsilent : first.env.QuietFrom 0 := fun _ _ _ => rfl
  have hquiet : ∀ k ∈ c.locals, k.env.QuietFrom 1 := by
    simp only [c, List.mem_cons, List.not_mem_nil, or_false, forall_eq_or_imp, forall_eq]
    exact ⟨fun _ _ _ => rfl, Sample.startled_quiet⟩
  let es := Sample.runs ([0, 0, 0, 0, 1, 1, 1, 1, 0, 1, 0, 1, 0, 1, 0, 1, 0, 1, 0, 1, 0] ++
    [1, 1, 1, 1, 1, 1, 1])
  have honly : Threads.OnlyRuns es := by
    intro e he
    obtain ⟨i, -, rfl⟩ := List.mem_map.mp he
    exact ⟨i, rfl⟩
  have hend : ((c.follow (Worker.step "10.0.0.0") Shared.outside es).map fun c' =>
      (List.range c'.locals.length).all fun i =>
        (Serving.step "10.0.0.0" c' (.run i)).isNone) = some true := by decide +kernel
  obtain ⟨c', hes, hnone⟩ := Option.map_eq_some_iff.mp hend
  have hstuck : ∀ i < c'.locals.length, Serving.step "10.0.0.0" c' (.run i) = none := by
    intro i hi
    exact Option.isNone_iff_eq_none.mp (List.all_eq_true.mp hnone i (List.mem_range.mpr hi))
  obtain ⟨hturns, hreturn, hlength⟩ := workers_all_return hrun hes
  exact ⟨c, c', es, hrun, hes, rfl, hturns 0 0 first rfl hsilent,
    hturns 1 1 other rfl Sample.startled_quiet, hlength 1 hquiet honly, hreturn honly hstuck⟩

end StandaloneDHCP
