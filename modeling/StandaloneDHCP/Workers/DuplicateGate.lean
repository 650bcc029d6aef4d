import StandaloneDHCP.Workers.WorkerSteps

/-! The duplicate gate under interleaving. Two workers with the same packet can both be on their
way into the gate, and between the test and the write of a worker any number of steps of others can
happen. `GlobalTransactionLock` makes the pair one step for the other workers at the gate, so that
one key passes at most once in a second. -/
namespace StandaloneDHCP
open Lib
set_option autoImplicit false

/-- Between `Lock` and `Unlock`. -/
def Point.inside : Point → Bool
  | .getGate | .setGate | .unlockGate _ => true
  | .getSeen _ _ | .checkOwner _ _ | .setSeen _ _ _ | .unlockSeen _ _ _ => true
  | _ => false

/-- `acquire` leads in, `release` leads out, everything else stays where it is. -/
def Access.Brackets : Access → Bool → Bool → Prop
  | .acquire, before, after => before = false ∧ after = true
  | .release, before, after => before = true ∧ after = false
  | _, before, after => after = before

section Points
variable {networkIP : String} {s : Shared} {k : Worker}

theorem acknowledge_outside (k : Worker) (networkIP : String) (h : DHCPHandler) (addr : IPv4)
    (index : Int) : (k.acknowledge h networkIP addr index).inside = false :=
  Worker.acknowledge_cases (P := fun c => c.inside = false) rfl fun _ _ _ => rfl

theorem dispatch_outside (k : Worker) (networkIP : String) (h : DHCPHandler) :
    (k.dispatch h networkIP).inside = false :=
  Worker.dispatch_cases (P := fun c => c.inside = false) (fun _ => rfl) (fun _ => rfl)
    (fun _ _ _ _ => acknowledge_outside k networkIP h _ _) (fun _ _ => rfl) fun _ _ => rfl

theorem candidate_outside (round : ℕ) (free : Int) :
    (Worker.candidate round free).inside = false :=
  Worker.candidate_cases (P := fun c => c.inside = false) (fun _ => rfl) fun _ => rfl

theorem next_brackets (networkIP : String) (s : Shared) (k : Worker) :
    (k.next networkIP s).1.Brackets k.point.inside (k.next networkIP s).2.inside := by
  have hdispatch := dispatch_outside k networkIP s.handler
  have hack := acknowledge_outside k networkIP s.handler
  unfold Worker.next
  cases k.point with
  | lockGate => exact ⟨rfl, rfl⟩
  | lockSeen addr index => exact ⟨rfl, rfl⟩
  | unlockGate found =>
    cases found with
    | true => exact ⟨rfl, rfl⟩
    | false => exact ⟨rfl, hdispatch⟩
  | unlockSeen addr index reply =>
    match reply with
    | none => exact ⟨rfl, rfl⟩
    | some true => exact ⟨rfl, hack addr index⟩
    | some false => exact ⟨rfl, rfl⟩
  | countFree round firstTry free =>
    dsimp only
    split_ifs
    · rfl
    split
    · split <;> rfl
    · exact candidate_outside round free
  | reserveAsked round free element =>
    dsimp only
    split_ifs
    · rfl
    · exact candidate_outside round free
  | _ =>
    dsimp only
    repeat' split
    all_goals rfl

/-- Only the worker at `setGate` writes the gate. -/
theorem point_of_pass (hpass : (k.next networkIP s).1 = .pass) : k.point = .setGate := by
  unfold Worker.next at hpass
  cases hp : k.point with
  | setGate => rfl
  | _ =>
    simp only [hp] at hpass
    repeat' split at hpass
    all_goals cases hpass

/-- A worker comes to `setGate` from a test that found nothing. -/
theorem point_of_setGate (hnext : (k.next networkIP s).2 = .setGate) :
    k.point = .getGate ∧ s.globals.globalTransactionCache.get s.now (k.p.cacheKey k.t) = none := by
  have hdispatch := dispatch_outside k networkIP s.handler
  have hack := acknowledge_outside k networkIP s.handler
  have houtside : ∀ c : Point, c.inside = false → c ≠ .setGate := by
    rintro c hc rfl
    cases hc
  unfold Worker.next at hnext
  cases hp : k.point with
  | getGate =>
    simp only [hp] at hnext
    split at hnext
    · cases hnext
    · next hnone => exact ⟨rfl, hnone⟩
  | unlockGate found =>
    simp only [hp] at hnext
    split at hnext
    · cases hnext
    · exact absurd hnext (houtside _ hdispatch)
  | unlockSeen addr index reply =>
    simp only [hp] at hnext
    split at hnext
    · cases hnext
    · exact absurd hnext (houtside _ (hack addr index))
    · cases hnext
  | countFree round firstTry free =>
    simp only [hp] at hnext
    repeat' split at hnext
    all_goals first
      | cases hnext
      | exact absurd hnext (houtside _ (candidate_outside round free))
  | reserveAsked round free element =>
    simp only [hp] at hnext
    split at hnext
    · cases hnext
    · exact absurd hnext (houtside _ (candidate_outside round free))
  | _ =>
    simp only [hp] at hnext
    repeat' split at hnext
    all_goals cases hnext

end Points

/-! ## The lock -/

namespace Shared
variable {id : ℕ} {k : Worker} {s s' : Shared}

theorem access_locked {a : Access} (ha : a ≠ .acquire) (hr : a ≠ .release)
    (h : s.access id k a = some s') : s'.locked = s.locked := by
  cases a with
  | acquire => exact absurd rfl ha
  | release => exact absurd rfl hr
  | stop => cases h
  | _ =>
    cases h
    rfl

/-- A worker that brackets its critical section owns the lock exactly inside it, and does not
change whether another worker owns it. -/
theorem access_lock {a : Access} {before after : Bool} (hb : a.Brackets before after)
    (h : s.access id k a = some s') (hown : s.locked = some id ↔ before = true) :
    (s'.locked = some id ↔ after = true) ∧
      ∀ j, j ≠ id → (s'.locked = some j ↔ s.locked = some j) := by
  by_cases ha : a = .acquire
  · subst ha
    obtain ⟨hfree, rfl⟩ := access_acquire h
    obtain ⟨-, rfl⟩ := hb
    refine ⟨by simp, fun j hj => ?_⟩
    simp [hfree, hj.symm]
  by_cases hr : a = .release
  · subst hr
    cases h
    obtain ⟨rfl, rfl⟩ := hb
    have hheld := hown.mpr rfl
    refine ⟨by simp, fun j hj => ?_⟩
    simp [hheld, hj.symm]
  · have hsame := access_locked ha hr h
    have hafter : after = before := by
      cases a with
      | acquire => exact absurd rfl ha
      | release => exact absurd rfl hr
      | _ => exact hb
    rw [hsame, hafter]
    exact ⟨hown, fun _ _ => Iff.rfl⟩

theorem access_gate {a : Access} (ha : a ≠ .pass) (h : s.access id k a = some s') :
    s'.passed = s.passed ∧
      s'.globals.globalTransactionCache = s.globals.globalTransactionCache := by
  cases a with
  | pass => exact absurd rfl ha
  | acquire =>
    obtain ⟨-, rfl⟩ := access_acquire h
    exact ⟨rfl, rfl⟩
  | stop => cases h
  | _ =>
    cases h
    exact ⟨rfl, rfl⟩

end Shared

/-! ## The gate -/

/-- The lock is owned by one of the workers. Two passages of one key are more than a second apart,
and a passage of the last second is in the cache. -/
structure GateKept (n : ℕ) (s : Shared) : Prop where
  holder : ∀ i, s.locked = some i → i < n
  spaced : s.passed.Pairwise fun newer older => newer.1 = older.1 → older.2 + second < newer.2
  past : ∀ key t, (key, t) ∈ s.passed → t ≤ s.now
  recorded : ∀ key t, (key, t) ∈ s.passed → s.now ≤ t + second →
    ∃ e, s.globals.globalTransactionCache.peek key = some e ∧
      ∀ x, e.expiration = some x → t + second ≤ x

/-- A worker owns the lock exactly inside its critical sections, and from its test of the gate to
its write its key has not passed for more than a second. -/
structure AtGate (i : ℕ) (s : Shared) (k : Worker) : Prop where
  lock : s.locked = some i ↔ k.point.inside = true
  absent : k.point = .setGate → ∀ t, (k.p.cacheKey k.t, t) ∈ s.passed → t + second < s.now

theorem GateKept.pass {n : ℕ} {s : Shared} {k : Worker} (hs : GateKept n s)
    (habsent : ∀ t, (k.p.cacheKey k.t, t) ∈ s.passed → t + second < s.now) :
    GateKept n (s.pass k) := by
  have hpos : (0 : Int) < 1 * second := by decide
  have hone : (1 : Int) * second = second := one_mul second
  refine ⟨hs.holder, ?_, ?_, ?_⟩
  · refine List.Pairwise.cons ?_ hs.spaced
    rintro ⟨key, t⟩ hmem hkey
    cases hkey
    exact habsent t hmem
  · intro key t hmem
    rcases List.mem_cons.mp hmem with heq | hmem
    · cases heq
      exact Int.le_refl _
    · exact hs.past key t hmem
  · intro key t hmem hrecent
    show ∃ e, (s.globals.globalTransactionCache.set s.now (k.p.cacheKey k.t) 1
      (1 * second)).peek key = some e ∧ _
    by_cases hkey : key = k.p.cacheKey k.t
    · subst hkey
      refine ⟨_, Cache.peek_set _ _ _ _ _, fun x hx => ?_⟩
      have ht : t ≤ s.now := by
        rcases List.mem_cons.mp hmem with heq | hmem
        · cases heq
          exact Int.le_refl _
        · exact hs.past _ t hmem
      cases (Cache.deadline_of_pos _ s.now hpos).symm.trans hx
      omega
    · rw [Cache.peek_set_ne _ _ _ _ hkey]
      rcases List.mem_cons.mp hmem with heq | hmem
      · cases heq
        exact absurd rfl hkey
      · exact hs.recorded key t hmem hrecent

theorem GateKept.absent {n : ℕ} {s : Shared} (hs : GateKept n s) {key : String}
    (hnone : s.globals.globalTransactionCache.get s.now key = none) {t : Int}
    (hmem : (key, t) ∈ s.passed) : t + second < s.now := by
  by_contra hrecent
  obtain ⟨e, he, hlive⟩ := hs.recorded key t hmem (by omega)
  have hexp := Cache.get_eq_none.mp hnone e he
  unfold Item.expired at hexp
  cases hx : e.expiration with
  | none => simp [hx] at hexp
  | some x =>
    have hle := hlive x hx
    simp only [hx, decide_eq_true_eq] at hexp
    omega

theorem GateKept.outside {n : ℕ} {s s' : Shared} {e : Outside} (hs : GateKept n s)
    (h : s.outside e = some s') :
    GateKept n s' ∧ s.now ≤ s'.now ∧ s'.passed = s.passed ∧ s'.locked = s.locked := by
  cases e with
  | tick d =>
    cases h
    refine ⟨⟨hs.holder, hs.spaced, fun key t hmem => ?_, fun key t hmem hrecent => ?_⟩, ?_, rfl,
      rfl⟩
    · have := hs.past key t hmem
      show t ≤ s.now + d
      omega
    · have hrecent' : s.now + d ≤ t + second := hrecent
      exact hs.recorded key t hmem (by omega)
    · show s.now ≤ s.now + d
      omega
  | purge =>
    cases h
    exact ⟨⟨hs.holder, hs.spaced, hs.past, hs.recorded⟩, Int.le_refl _, rfl, rfl⟩
  | purgeGate =>
    cases h
    refine ⟨⟨hs.holder, hs.spaced, hs.past, fun key t hmem hrecent => ?_⟩, Int.le_refl _, rfl, rfl⟩
    obtain ⟨e, he, hlive⟩ := hs.recorded key t hmem hrecent
    refine ⟨e, Cache.peek_deleteExpired.mpr ⟨he, ?_⟩, hlive⟩
    have hrecent' : s.now ≤ t + second := hrecent
    unfold Item.expired
    cases hx : e.expiration with
    | none => rfl
    | some x =>
      have hle := hlive x hx
      simp only [decide_eq_false_iff_not]
      omega
  | fire k =>
    simp only [Shared.outside] at h
    repeat' split at h
    all_goals cases h
    exact ⟨⟨hs.holder, hs.spaced, hs.past, hs.recorded⟩, Int.le_refl _, rfl, rfl⟩
  | delete k =>
    simp only [Shared.outside] at h
    split at h
    · cases h
      exact ⟨⟨hs.holder, hs.spaced, hs.past, hs.recorded⟩, Int.le_refl _, rfl, rfl⟩
    · cases h

section Turns
variable {networkIP : String} {n id : ℕ} {s s' : Shared} {k k' : Worker}

theorem gate_own (hid : id < n) (hs : GateKept n s) (hk : AtGate id s k)
    (hstep : Worker.step networkIP id s k = some (s', k')) : GateKept n s' ∧ AtGate id s' k' := by
  obtain ⟨hacc, rfl⟩ := Worker.step_eq_some hstep
  have hlock := Shared.access_lock (next_brackets networkIP s k) hacc hk.lock
  by_cases hpass : (k.next networkIP s).1 = .pass
  · have hpoint := point_of_pass hpass
    rw [hpass] at hacc
    cases hacc
    refine ⟨hs.pass (hk.absent hpoint), hlock.1, fun hset => ?_⟩
    have hget := (point_of_setGate hset).1
    rw [hpoint] at hget
    cases hget
  · have hnow := Shared.access_now hacc
    obtain ⟨hpassed, hcache⟩ := Shared.access_gate hpass hacc
    refine ⟨⟨fun i hi => ?_, ?_, ?_, ?_⟩, hlock.1, fun hset t hmem => ?_⟩
    · by_cases hne : i = id
      · rw [hne]
        exact hid
      · exact hs.holder i ((hlock.2 i hne).mp hi)
    · rw [hpassed]
      exact hs.spaced
    · rw [hpassed, hnow]
      exact hs.past
    · rw [hpassed, hnow, hcache]
      exact hs.recorded
    · rw [hpassed] at hmem
      rw [hnow]
      exact hs.absent (point_of_setGate hset).2 hmem

theorem gate_other {j : ℕ} {u : Worker} (hk : AtGate id s k) (hu : AtGate j s u) (hj : j ≠ id)
    (hstep : Worker.step networkIP id s k = some (s', k')) : AtGate j s' u := by
  obtain ⟨hacc, rfl⟩ := Worker.step_eq_some hstep
  have hlock := (Shared.access_lock (next_brackets networkIP s k) hacc hk.lock).2 j hj
  refine ⟨hlock.trans hu.lock, fun hset t hmem => ?_⟩
  -- while `u` stands before its write it owns the lock, so the step is not a passage
  have howner : s.locked = some j := hu.lock.mpr (by rw [hset]; rfl)
  have hpass : (k.next networkIP s).1 ≠ .pass := by
    intro hpass
    have hheld := hk.lock.mpr (by rw [point_of_pass hpass]; rfl)
    rw [howner] at hheld
    exact hj (Option.some.inj hheld)
  rw [(Shared.access_gate hpass hacc).1] at hmem
  rw [Shared.access_now hacc]
  exact hu.absent hset t hmem

end Turns

theorem gate_kept (networkIP : String) (ok : Serving → Serving.Turn → Prop) :
    Threads.Kept (Worker.step networkIP) Shared.outside
      (fun c e => Serving.Starts e ∧ ok c e) GateKept AtGate where
  own c i k s' k' hc _ hi hstep :=
    gate_own (List.getElem?_eq_some_iff.mp hi).1 hc.shared (hc.each i k hi) hstep
  other c i k s' k' j u hc _ hi hstep hj hne :=
    gate_other (hc.each i k hi) (hc.each j u hj) hne hstep
  start c k hc hok := by
    have hpoint : k.point = .lockGate := hok.1
    have hs := hc.shared
    refine ⟨⟨fun i hi => Nat.lt_succ_of_lt (hs.holder i hi), hs.spaced, hs.past, hs.recorded⟩,
      ⟨fun hlocked => ?_, fun hinside => ?_⟩, fun hset => ?_⟩
    · exact absurd (hs.holder _ hlocked) (Nat.lt_irrefl _)
    · rw [hpoint] at hinside
      cases hinside
    · rw [hpoint] at hset
      cases hset
  outside c e s' hc _ hout := by
    obtain ⟨hkept, hnow, hpassed, hlocked⟩ := hc.shared.outside hout
    refine ⟨hkept, fun j u hu => ?_⟩
    have hlocal := hc.each j u hu
    refine ⟨by rw [hlocked]; exact hlocal.lock, fun hset t hmem => ?_⟩
    rw [hpassed] at hmem
    have := hlocal.absent hset t hmem
    omega

namespace Serving
variable {networkIP : String} {ok : Serving → Turn → Prop} {cfg : ScopeConfig} {now : Int}
  {c : Serving}

theorem RunsTo.gate (hrun : RunsTo networkIP ok cfg now c) : Threads.Good GateKept AtGate c := by
  refine Threads.Good.invariant (gate_kept networkIP ok) ⟨⟨?_, ?_, ?_, ?_⟩, ?_⟩ hrun
  · intro i hi
    cases hi
  · exact List.Pairwise.nil
  · intro key t hmem
    cases hmem
  · intro key t hmem
    cases hmem
  · intro i k hi
    cases hi

/-- At most one worker is between `Lock` and `Unlock`. -/
theorem RunsTo.inside_unique (hrun : RunsTo networkIP ok cfg now c) {i j : ℕ} {k u : Worker}
    (hi : c.locals[i]? = some k) (hj : c.locals[j]? = some u) (hk : k.point.inside = true)
    (hu : u.point.inside = true) : i = j := by
  have hgate := hrun.gate
  have hown := (hgate.each i k hi).lock.mpr hk
  rw [(hgate.each j u hj).lock.mpr hu] at hown
  exact (Option.some.inj hown).symm

end Serving

namespace Sample

def worker (chaddr : Bytes) (xid : BitVec 32) (want : Option IPv4) (t : MessageType) : Worker :=
  Worker.call (packet chaddr xid want) t (env []) none

/-- The turns `run i` for the listed workers. -/
def runs (l : List ℕ) : List Serving.Turn := l.map fun i => .run i

theorem exists_serving (cfg : ScopeConfig) (ok : Serving → Serving.Turn → Prop)
    [∀ c e, Decidable (ok c e)] (es : List Serving.Turn) (p : Serving → Bool)
    (hall : ∀ e ∈ es, Serving.Starts e)
    (h : (replay (Serving.step "10.0.0.0") ok (Serving.init cfg 0) es).map p = some true) :
    ∃ c, Serving.RunsTo "10.0.0.0" ok cfg 0 c ∧ p c = true :=
  exists_reaches_of_replay es hall h

end Sample

end StandaloneDHCP
