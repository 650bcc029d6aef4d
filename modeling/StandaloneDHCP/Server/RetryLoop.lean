import StandaloneDHCP.Server.HandlerRun

/-! The loop at the `retry` label with its pings written down. `retryTrace` computes what
`retry` computes and lists the probed indexes on the way. The first round chooses an index; after
a conflict the variable `free` is 0, so every later round probes index 0 and the loop ends only
when that address stays silent or nothing but it was left in the pool. -/
namespace StandaloneDHCP
open Lib
set_option autoImplicit false

/-! ## The loop with its trace -/

/-- One ping. If it was answered, `conflict` is the pool once the index is declared unusable. -/
structure Probe where
  index : Int
  conflict : Option DHCPPool

/-- The handler after a ping that nobody answered. -/
def settled (now : Int) (p : Packet) (h : DHCPHandler) (index : Int) : DHCPHandler :=
  ((h.lock now p.clientMac index (5 * second)).setXid now p).replaceXid now p

/-- The handler after a ping that was answered. -/
def contested (now : Int) (p : Packet) (h : DHCPHandler) (index : Int) : DHCPHandler :=
  (((h.lock now p.clientMac index (5 * second)).setXid now p).evict now p.clientMac).quarantine
    now index

def retryTrace (env : Env) (now : Int) (p : Packet) :
    ℕ → ℕ → Bool → Int → DHCPHandler → List Probe × Option (DHCPHandler × Option Int)
  | 0, _, _, _, _ => ([], none)
  | fuel + 1, round, firstTry, free, h =>
    if h.available.freeIPsRemaining = 0 then ([], some (h, none))
    else
      match tryRequested h p firstTry free with
      | .panicked => ([], some (h, none))
      | .taken => retryTrace env now p fuel round false free h
      | .candidate available free =>
        match grabNext available (env.choice round) p.clientMac free with
        | none => ([], some ({ h with available := available }, none))
        | some (available, free) =>
          let h : DHCPHandler := { h with available := available }
          if env.ping round (ipAdd h.start free) then
            let h := contested now p h free
            let r := retryTrace env now p fuel (round + 1) false 0 h
            (⟨free, some h.available⟩ :: r.1, r.2)
          else ([⟨free, none⟩], some (settled now p h free, some free))

variable {env : Env} {now : Int} {p : Packet}

theorem retryTrace_snd (fuel : ℕ) : ∀ (round : ℕ) (firstTry : Bool) (free : Int) (h : DHCPHandler),
    (retryTrace env now p fuel round firstTry free h).2 =
      retry env now p fuel round firstTry free h := by
  induction fuel with
  | zero =>
    intro round firstTry free h
    rfl
  | succ fuel ih =>
    intro round firstTry free h
    rw [retryTrace, retry]
    split
    · rfl
    cases tryRequested h p firstTry free with
    | panicked => rfl
    | taken => exact ih round false free h
    | candidate available free =>
      simp only
      cases grabNext available (env.choice round) p.clientMac free with
      | none => rfl
      | some r =>
        simp only [lock_again]
        by_cases hping : env.ping round (ipAdd h.start r.2) = true
        · exact (congrArg Prod.snd (if_pos hping)).trans
            ((ih _ _ _ _).trans (if_pos hping).symm)
        · exact (congrArg Prod.snd (if_neg hping)).trans (if_neg hping).symm

/-- What a round does once the index is chosen. -/
def afterChoice (env : Env) (now : Int) (p : Packet) (fuel round : ℕ) (index : Int)
    (h : DHCPHandler) : List Probe × Option (DHCPHandler × Option Int) :=
  if env.ping round (ipAdd h.start index) then
    let r := retryTrace env now p fuel (round + 1) false 0 (contested now p h index)
    (⟨index, some (contested now p h index).available⟩ :: r.1, r.2)
  else ([⟨index, none⟩], some (settled now p h index, some index))

theorem retryTrace_candidate {fuel round : ℕ} {firstTry : Bool} {free free' index : Int}
    {h : DHCPHandler} {available available' : DHCPPool}
    (hcard : h.available.freeIPsRemaining ≠ 0)
    (htry : tryRequested h p firstTry free = .candidate available free')
    (hgrab : grabNext available (env.choice round) p.clientMac free' = some (available', index)) :
    retryTrace env now p (fuel + 1) round firstTry free h =
      afterChoice env now p fuel round index { h with available := available' } := by
  rw [retryTrace, if_neg hcard, htry]
  simp only [hgrab]
  rfl

/-- Fuel beyond what the loop needs changes nothing. -/
theorem retryTrace_succ (fuel : ℕ) : ∀ (round : ℕ) (firstTry : Bool) (free : Int)
    (h : DHCPHandler) {r : DHCPHandler × Option Int},
    (retryTrace env now p fuel round firstTry free h).2 = some r →
      retryTrace env now p (fuel + 1) round firstTry free h =
        retryTrace env now p fuel round firstTry free h := by
  induction fuel with
  | zero =>
    intro round firstTry free h r hr
    cases hr
  | succ fuel ih =>
    intro round firstTry free h r hr
    by_cases hcard : h.available.freeIPsRemaining = 0
    · simp only [retryTrace, if_pos hcard]
    cases htry : tryRequested h p firstTry free with
    | panicked => simp only [retryTrace, if_neg hcard, htry]
    | taken =>
      rw [retryTrace, if_neg hcard, htry] at hr
      conv_rhs => rw [retryTrace, if_neg hcard, htry]
      conv_lhs => rw [retryTrace, if_neg hcard, htry]
      exact ih round false free h hr
    | candidate available free' =>
      cases hgrab : grabNext available (env.choice round) p.clientMac free' with
      | none => simp only [retryTrace, if_neg hcard, htry, hgrab]
      | some s =>
        rw [retryTrace_candidate hcard htry hgrab] at hr ⊢
        rw [retryTrace_candidate hcard htry hgrab]
        unfold afterChoice at hr ⊢
        split
        · next hping =>
          rw [if_pos hping] at hr
          rw [ih _ _ _ _ hr]
        · rfl

/-! ## The first round -/

/-- The index that `GetFreeIPIndex` draws in the first round. -/
def drawnIndex (env : Env) (h : DHCPHandler) (p : Packet) : ℕ :=
  (h.available.getFreeIPIndex (env.choice 0) p.clientMac).2.1

/-- The index of the first ping: the requested one where it is the client's or free, else the
one that is drawn. -/
def firstIndex (env : Env) (h : DHCPHandler) (p : Packet) : ℕ :=
  match requestedIndex h p with
  | some i =>
    if h.ownerOf i = p.clientMac ∨ i ∈ h.available.free then i else drawnIndex env h p
  | none => drawnIndex env h p

/-- The pool once it is chosen: an index that is taken for the client's own is not reserved. -/
def chosenPool (env : Env) (h : DHCPHandler) (p : Packet) : DHCPPool :=
  match requestedIndex h p with
  | some i =>
    if h.ownerOf i = p.clientMac then h.available
    else h.available.grant (firstIndex env h p) p.clientMac
  | none => h.available.grant (firstIndex env h p) p.clientMac

/-- How the first round can come by an index, and the pool it leaves. -/
inductive Chosen (h : DHCPHandler) (p : Packet) : ℕ → DHCPPool → Prop
  | own (i : ℕ) (hreq : requestedIndex h p = some i) (hown : h.ownerOf i = p.clientMac) :
      Chosen h p i h.available
  | granted (i : ℕ) (hfree : i ∈ h.available.free) :
      Chosen h p i (h.available.grant i p.clientMac)

variable {h : DHCPHandler}

theorem retryTrace_refused (hno : ¬ h.CanAllot p) (fuel round : ℕ) :
    retryTrace env now p (fuel + 1) round true (-1) h = ([], some (h, none)) := by
  by_cases hcard : h.available.freeIPsRemaining = 0
  · rw [retryTrace, if_pos hcard]
  · obtain ⟨v, hv, hlen⟩ : ∃ v ∈ p.options optionRequestedIPAddress, ¬ 4 ≤ v.length := by
      by_contra hall
      push Not at hall
      exact hno ⟨hcard, hall⟩
    rw [retryTrace, if_neg hcard, tryRequested_short hv hlen]

theorem grabNext_drawn (env : Env) (p : Packet) (hs : h.Sound)
    (hcard : h.available.freeIPsRemaining ≠ 0) :
    drawnIndex env h p ∈ h.available.free ∧
      grabNext h.available (env.choice 0) p.clientMac (-1) =
        some (h.available.grant (drawnIndex env h p) p.clientMac, (drawnIndex env h p : Int)) := by
  obtain ⟨i, hi, heq⟩ := DHCPPool.getFreeIPIndex_ok hs.pool (env.choice 0) p.clientMac hcard
  have hdrawn : drawnIndex env h p = i := congrArg (·.2.1) heq
  have hlt := hs.pool.free_lt hi
  have hfits := hs.fits
  have hmax : i ≤ maxInt := by
    unfold maxInt
    omega
  rw [hdrawn]
  exact ⟨hi, by simp [grabNext, heq, safeUint64ToInt_of_le hmax]⟩

theorem retryTrace_first (env : Env) (now : Int) (hs : h.Sound) (hcan : h.CanAllot p) (fuel : ℕ) :
    ∃ fuel', fuel ≤ fuel' ∧ Chosen h p (firstIndex env h p) (chosenPool env h p) ∧
      retryTrace env now p (fuel + 2) 0 true (-1) h =
        afterChoice env now p fuel' 0 (firstIndex env h p)
          { h with available := chosenPool env h p } := by
  obtain ⟨hcard, hopt⟩ := hcan
  obtain ⟨hdrawn, hgrab⟩ := grabNext_drawn env p hs hcard
  unfold chosenPool firstIndex
  cases hreq : requestedIndex h p with
  | none =>
    have htry : tryRequested h p true (-1) = .candidate h.available (-1) := by
      cases hv : p.options optionRequestedIPAddress with
      | none => simp [tryRequested, hv]
      | some v =>
        obtain ⟨a, ha⟩ := beUint32_isSome (hopt v hv)
        simp [requestedIndex, hv, ha] at hreq
    exact ⟨fuel + 1, by omega, .granted _ hdrawn, retryTrace_candidate hcard htry hgrab⟩
  | some i =>
    have htry := tryRequested_asked hreq (-1)
    simp only
    by_cases hown : h.ownerOf i = p.clientMac
    · rw [if_pos hown] at htry
      rw [if_pos (.inl hown), if_pos hown]
      exact ⟨fuel + 1, by omega, .own i hreq hown,
        retryTrace_candidate hcard htry (grabNext_keep _ _ _ i)⟩
    rw [if_neg hown] at htry
    rw [if_neg hown]
    by_cases hfree : i ∈ h.available.free
    · have hsent : h.ownerOf i = FreeMac := hs.ownerOf_free (by rwa [safeIntToUint64_natCast])
      rw [if_pos hsent, DHCPPool.reserveIPIndex_of_free hs.pool hfree, if_pos ⟨rfl, rfl⟩] at htry
      rw [if_pos (.inr hfree)]
      exact ⟨fuel + 1, by omega, .granted i hfree,
        retryTrace_candidate hcard htry (grabNext_keep _ _ _ i)⟩
    rw [if_neg (by tauto)]
    by_cases hsent : h.ownerOf i = FreeMac
    · -- the sentinel is the recorded owner, or the address is outside the pool
      obtain ⟨hfree', -⟩ | ⟨-, hsame, herr⟩ := h.available.reserveIPIndex_cases i p.clientMac
      · exact absurd hfree' hfree
      rw [if_pos hsent, if_neg (fun hc => herr hc.1), hsame] at htry
      exact ⟨fuel + 1, by omega, .granted _ hdrawn, retryTrace_candidate hcard htry hgrab⟩
    · rw [if_neg hsent] at htry
      refine ⟨fuel, le_rfl, .granted _ hdrawn, ?_⟩
      rw [retryTrace, if_neg hcard, htry]
      exact retryTrace_candidate hcard (tryRequested_later h p (-1)) hgrab

/-! ## The rounds after a conflict -/

theorem contested_available (now : Int) (p : Packet) (h : DHCPHandler) (index : Int) :
    (contested now p h index).available =
      (h.available.reserveIPIndex (safeIntToUint64 index) FakeMac).1 := by
  unfold contested DHCPHandler.quarantine DHCPHandler.reserve
  rw [DHCPHandler.evict_available]
  rfl

theorem contested_start (now : Int) (p : Packet) (h : DHCPHandler) (index : Int) :
    (contested now p h index).start = h.start := by
  unfold contested
  rw [DHCPHandler.evict_eq]
  rfl

/-- A conflict leaves a well-formed pool without the index. -/
theorem contested_pool (now : Int) (p : Packet) (hwf : h.available.WellFormed) (index : Int) :
    (contested now p h index).available.WellFormed ∧
      (contested now p h index).available.free =
        h.available.free.erase (safeIntToUint64 index) := by
  rw [contested_available]
  obtain ⟨hfree, -, heq⟩ | ⟨hno, heq, -⟩ :=
    h.available.reserveIPIndex_cases (safeIntToUint64 index) FakeMac
  · rw [heq]
    exact ⟨hwf.grant hfree FakeMac, rfl⟩
  · rw [heq]
    refine ⟨hwf, (Finset.erase_eq_of_notMem fun hmem => ?_).symm⟩
    have hlt := hwf.free_lt hmem
    rcases hno with hno | hno
    · exact hno hmem
    · omega

theorem retryTrace_zero (hcard : h.available.freeIPsRemaining ≠ 0) (fuel round : ℕ) :
    retryTrace env now p (fuel + 1) round false 0 h = afterChoice env now p fuel round 0 h :=
  retryTrace_candidate hcard (tryRequested_later h p 0)
    (grabNext_keep h.available (env.choice round) p.clientMac 0)

theorem retryTrace_full (hcard : h.available.freeIPsRemaining = 0) (fuel round : ℕ)
    (firstTry : Bool) (free : Int) :
    retryTrace env now p (fuel + 1) round firstTry free h = ([], some (h, none)) := by
  rw [retryTrace, if_pos hcard]

theorem ipAdd_zero (start : IPv4) : ipAdd start 0 = start := by
  simp [ipAdd]

/-- Once the rounds probe an index 0 that answers and some other index is free, they go on
for ever. -/
theorem retryTrace_zero_forever (env : Env) (now : Int) (p : Packet) (fuel : ℕ) :
    ∀ (round : ℕ) (h : DHCPHandler),
    h.available.WellFormed → (∀ k, env.ping k h.start = true) → (∃ j ∈ h.available.free, j ≠ 0) →
    (retryTrace env now p fuel round false 0 h).2 = none := by
  induction fuel with
  | zero =>
    intro round h _ _ _
    rfl
  | succ fuel ih =>
    intro round h hwf hping hfree
    obtain ⟨j, hj, hne⟩ := hfree
    have hcard : h.available.freeIPsRemaining ≠ 0 := Finset.card_ne_zero_of_mem hj
    rw [retryTrace_zero hcard, afterChoice, ipAdd_zero, if_pos (hping round)]
    obtain ⟨hwf', hfree'⟩ := contested_pool now p hwf 0
    refine ih _ _ hwf' (fun k => ?_) ⟨j, ?_, hne⟩
    · rw [contested_start]
      exact hping k
    · rw [hfree']
      exact Finset.mem_erase.mpr ⟨hne, hj⟩

theorem Chosen.pool {i : ℕ} {available : DHCPPool} (hch : Chosen h p i available)
    (hwf : h.available.WellFormed) :
    available.WellFormed ∧ available.free.erase i = h.available.free.erase i := by
  cases hch with
  | own => exact ⟨hwf, rfl⟩
  | granted hfree => exact ⟨hwf.grant hfree _, Finset.erase_idem⟩

/-! ## What the search ends with -/

/-- The owner of index 0 after a conflict at the index. -/
theorem contested_lookup_zero (now : Int) (p : Packet) (hwf : h.available.WellFormed) (i : ℕ) :
    (contested now p h i).available.mac.lookup 0 =
      if i = 0 ∧ 0 ∈ h.available.free then some FakeMac else h.available.mac.lookup 0 := by
  rw [contested_available, safeIntToUint64_natCast]
  obtain ⟨hfree, -, heq⟩ | ⟨hno, heq, -⟩ := h.available.reserveIPIndex_cases i FakeMac
  · rw [heq]
    by_cases hi : i = 0
    · subst hi
      rw [if_pos ⟨rfl, hfree⟩]
      exact Finmap.lookup_insert _
    · rw [if_neg fun hc => hi hc.1]
      exact Finmap.lookup_insert_of_ne _ (Ne.symm hi)
  · rw [heq, if_neg]
    rintro ⟨rfl, hfree⟩
    have hlt := hwf.free_lt hfree
    rcases hno with hno | hno
    · exact hno hfree
    · omega

theorem contested_zero_free (now : Int) (p : Packet) (hwf : h.available.WellFormed) :
    (contested now p h 0).available.free = h.available.free.erase 0 :=
  (contested_pool now p hwf 0).2

/-- After a conflict at index 0 the rounds stop there and then only if nothing else was free. -/
theorem contested_zero_stops_iff (now : Int) (p : Packet) (hwf : h.available.WellFormed)
    (hsome : h.available.free ≠ ∅) (answers : Prop) :
    ((contested now p h 0).available.free = ∅ ∨
      (contested now p h 0).available.free = {0} ∧ answers) ↔ h.available.free = {0} := by
  rw [contested_zero_free now p hwf]
  constructor
  · rintro (hnone | ⟨hone, -⟩)
    · exact (Finset.erase_eq_empty_iff _ _).mp hnone |>.resolve_left hsome
    · have hgone := Finset.notMem_erase 0 h.available.free
      rw [hone] at hgone
      exact absurd (Finset.mem_singleton_self 0) hgone
  · intro hone
    left
    rw [hone]
    rfl

theorem get_settled (now : Int) (p : Packet) (h : DHCPHandler) (index : Int) :
    (settled now p h index).hwcache.get now p.clientMac = some index :=
  Cache.get_set _ _ _ _ _

/-- The rounds after a conflict end without an index when nothing is free any more, or nothing but
an index 0 that answers; else with index 0, whoever has it. -/
theorem retryTrace_zero_outcome (env : Env) (now : Int) (p : Packet) (fuel : ℕ) :
    ∀ (round : ℕ) (h : DHCPHandler) {h' : DHCPHandler} {out : Option Int},
    h.available.WellFormed → (retryTrace env now p fuel round false 0 h).2 = some (h', out) →
    ((h.available.free = ∅ ∨ h.available.free = {0} ∧ env.ping round h.start = true) ∧
      out = none) ∨
    (¬ (h.available.free = ∅ ∨ h.available.free = {0} ∧ env.ping round h.start = true) ∧
      out = some 0 ∧ h'.hwcache.get now p.clientMac = some 0 ∧
      h'.available.mac.lookup 0 =
        if 0 ∈ h.available.free ∧ env.ping round h.start = true then some FakeMac
        else h.available.mac.lookup 0) := by
  induction fuel with
  | zero =>
    intro round h h' out _ hr
    cases hr
  | succ fuel ih =>
    intro round h h' out hwf hr
    by_cases hempty : h.available.free = ∅
    · rw [retryTrace_full (Finset.card_eq_zero.mpr hempty)] at hr
      cases hr
      exact .inl ⟨.inl hempty, rfl⟩
    have hcard : h.available.freeIPsRemaining ≠ 0 := fun hc => hempty (Finset.card_eq_zero.mp hc)
    rw [retryTrace_zero hcard, afterChoice, ipAdd_zero] at hr
    by_cases hping : env.ping round h.start = true
    swap
    · rw [if_neg hping] at hr
      cases hr
      refine .inr ⟨by tauto, rfl, get_settled now p h 0, ?_⟩
      rw [if_neg fun hc => hping hc.2]
      rfl
    -- one more conflict at index 0, after which it is not free
    rw [if_pos hping] at hr
    have hwf' := (contested_pool now p hwf 0).1
    have hlookup := contested_lookup_zero now p hwf 0
    have hgone : 0 ∉ (contested now p h 0).available.free := by
      rw [contested_zero_free now p hwf]
      exact Finset.notMem_erase 0 _
    have hends := contested_zero_stops_iff now p hwf hempty
      (env.ping (round + 1) (contested now p h 0).start = true)
    obtain ⟨hstop, rfl⟩ | ⟨hgoes, rfl, hget, howner⟩ := ih (round + 1) (contested now p h 0) hwf' hr
    · exact .inl ⟨.inr ⟨hends.mp hstop, hping⟩, rfl⟩
    · rw [hends] at hgoes
      refine .inr ⟨by tauto, rfl, hget, ?_⟩
      rw [howner, if_neg fun hc => hgone hc.1]
      simpa [hping] using hlookup

/-- After a conflict at the first index no other index is left, or only an index 0 that answers. -/
def Exhausted (env : Env) (h : DHCPHandler) (p : Packet) : Prop :=
  (chosenPool env h p).free.erase (firstIndex env h p) = ∅ ∨
    (chosenPool env h p).free.erase (firstIndex env h p) = {0} ∧ env.ping 1 h.start = true

/-- The owner of index 0 when it is offered after a conflict: declared unusable if it was free and
answered, else as before. -/
def fallbackOwner (env : Env) (h : DHCPHandler) (p : Packet) : Option String :=
  if 0 ∈ (chosenPool env h p).free ∧ (firstIndex env h p = 0 ∨ env.ping 1 h.start = true) then
    some FakeMac
  else (chosenPool env h p).mac.lookup 0

/-- How a search ends: with the first index, without an index, or with index 0. -/
inductive Found (env : Env) (now : Int) (p : Packet) (h : DHCPHandler) :
    DHCPHandler → Option Int → Prop
  | first (h' : DHCPHandler) (hsilent : env.ping 0 (ipAdd h.start (firstIndex env h p)) = false)
      (hget : h'.hwcache.get now p.clientMac = some (firstIndex env h p : Int))
      (hpool : h'.available = chosenPool env h p) : Found env now p h h' (some (firstIndex env h p))
  | nothing (h' : DHCPHandler) (hping : env.ping 0 (ipAdd h.start (firstIndex env h p)) = true)
      (hexhausted : Exhausted env h p) : Found env now p h h' none
  | fallback (h' : DHCPHandler) (hping : env.ping 0 (ipAdd h.start (firstIndex env h p)) = true)
      (hgoes : ¬ Exhausted env h p) (hget : h'.hwcache.get now p.clientMac = some 0)
      (howner : h'.available.mac.lookup 0 = fallbackOwner env h p) :
      Found env now p h h' (some 0)

theorem retryTrace_found (hs : h.Sound) (hcan : h.CanAllot p) {fuel : ℕ} {h' : DHCPHandler}
    {out : Option Int} (hr : (retryTrace env now p fuel 0 true (-1) h).2 = some (h', out)) :
    Found env now p h h' out := by
  -- two rounds of fuel more change nothing
  have hone := retryTrace_succ fuel 0 true (-1) h hr
  rw [← hone] at hr
  have htwo := retryTrace_succ (fuel + 1) 0 true (-1) h hr
  rw [← htwo] at hr
  obtain ⟨fuel', -, hch, heq⟩ := retryTrace_first env now hs hcan fuel
  obtain ⟨hwf, -⟩ := hch.pool hs.pool
  let h₀ : DHCPHandler := { h with available := chosenPool env h p }
  have hwf₀ : h₀.available.WellFormed := hwf
  rw [heq] at hr
  have hr₀ : (afterChoice env now p fuel' 0 (firstIndex env h p) h₀).2 = some (h', out) := hr
  have hstart : h₀.start = h.start := rfl
  rw [afterChoice, hstart] at hr₀
  by_cases hping : env.ping 0 (ipAdd h.start (firstIndex env h p)) = true
  swap
  · rw [if_neg hping] at hr₀
    cases hr₀
    exact .first _ (by simpa using hping) (get_settled _ _ _ _) rfl
  rw [if_pos hping] at hr₀
  obtain ⟨hwf₁, hfree₁⟩ := contested_pool now p hwf₀ (firstIndex env h p)
  have hfree₁ : (contested now p h₀ (firstIndex env h p)).available.free =
      (chosenPool env h p).free.erase (firstIndex env h p) := by
    rw [hfree₁, safeIntToUint64_natCast]
  have hlookup := contested_lookup_zero now p hwf₀ (firstIndex env h p)
  have hzero := retryTrace_zero_outcome env now p fuel' (0 + 1) _ hwf₁ hr₀
  rw [contested_start, hfree₁, hlookup, hstart] at hzero
  obtain ⟨hexhausted, rfl⟩ | ⟨hgoes, rfl, hget, howner⟩ := hzero
  · exact .nothing _ hping hexhausted
  · refine .fallback _ hping hgoes hget (howner.trans ?_)
    have hpool : h₀.available = chosenPool env h p := rfl
    rw [fallbackOwner, hpool]
    by_cases hmem : 0 ∈ (chosenPool env h p).free
    · by_cases hfirst : firstIndex env h p = 0
      · simp [hfirst, hmem]
      · have hne : ¬ 0 = firstIndex env h p := fun heq => hfirst heq.symm
        simp [hfirst, hne, hmem]
    · simp [hmem]

/-! ## When the search ends -/

/-- Each conflict retired an index of the pool `dp` that had not been probed before, and there
were at most two pings more than free indexes. -/
structure Orderly (dp : DHCPPool) (probes : List Probe) : Prop where
  fresh : probes.Pairwise fun earlier later => later.conflict ≠ none → earlier.index ≠ later.index
  retires : ∀ probe ∈ probes, ∀ pool, probe.conflict = some pool →
    ∃ i < dp.capacity, probe.index = (i : ℕ) ∧ i ∉ pool.free
  bounded : probes.length ≤ dp.freeIPsRemaining + 2

theorem Orderly.nil (dp : DHCPPool) : Orderly dp [] :=
  ⟨List.Pairwise.nil, by simp, Nat.zero_le _⟩

/-- The address of the index answers, and the index is outside the pool or the search runs into
an answering `start` while a third index is free. -/
def Clashes (pings : IPv4 → Bool) (h : DHCPHandler) (i : ℕ) : Prop :=
  pings (ipAdd h.start i) = true ∧ (h.available.capacity ≤ i ∨
    (pings h.start = true ∧ ∃ j ∈ h.available.free, j ≠ i ∧ j ≠ 0))

/-- With nothing else free, or a silent `start`, the rounds after a conflict send at most one
more ping. -/
theorem retryTrace_zero_ends {pings : IPv4 → Bool} (now : Int) (p : Packet)
    (hping : ∀ k a, env.ping k a = pings a) (hwf : h.available.WellFormed)
    (honly : pings h.start = true → ∀ j ∈ h.available.free, j = 0) (fuel round : ℕ) :
    ∃ r, retryTrace env now p (fuel + 2) round false 0 h = ([], some r) ∨
      (pings h.start = false ∧
        retryTrace env now p (fuel + 2) round false 0 h = ([⟨0, none⟩], some r)) ∨
      ∃ pool : DHCPPool, 0 ∈ h.available.free ∧ 0 ∉ pool.free ∧
        retryTrace env now p (fuel + 2) round false 0 h = ([⟨0, some pool⟩], some r) := by
  by_cases hcard : h.available.freeIPsRemaining = 0
  · exact ⟨_, .inl (retryTrace_full hcard _ _ _ _)⟩
  rw [retryTrace_zero hcard, afterChoice, hping, ipAdd_zero]
  by_cases hzero : pings h.start = true
  · rw [if_pos hzero]
    obtain ⟨j, hj⟩ := Finset.card_ne_zero.mp hcard
    obtain rfl := honly hzero j hj
    have hfree := (contested_pool now p hwf 0).2
    have hempty : (contested now p h 0).available.free = ∅ := by
      rw [hfree, Finset.eq_empty_iff_forall_notMem]
      intro j hj
      have hj0 := honly hzero j (Finset.mem_of_mem_erase hj)
      exact Finset.ne_of_mem_erase hj hj0
    have hfull : (contested now p h 0).available.freeIPsRemaining = 0 :=
      Finset.card_eq_zero.mpr hempty
    refine ⟨(contested now p h 0, none), .inr (.inr ⟨(contested now p h 0).available, hj, ?_, ?_⟩)⟩
    · rw [hempty]
      exact Finset.notMem_empty 0
    · rw [retryTrace_full hfull]
  · rw [if_neg hzero]
    exact ⟨_, .inr (.inl ⟨by simpa using hzero, rfl⟩)⟩

section Ends
variable {pings : IPv4 → Bool} (hping : ∀ k a, env.ping k a = pings a) (hs : h.Sound)
include hping hs

theorem retryTrace_orderly (hcan : h.CanAllot p)
    (hno : ¬ Clashes pings h (firstIndex env h p)) (fuel : ℕ) :
    (retryTrace env now p (fuel + 4) 0 true (-1) h).2.isSome = true ∧
      Orderly h.available (retryTrace env now p (fuel + 4) 0 true (-1) h).1 := by
  obtain ⟨fuel', hle, hch, heq⟩ := retryTrace_first env now hs hcan (fuel + 2)
  generalize chosenPool env h p = available at hch heq
  obtain ⟨f, rfl⟩ : ∃ f, fuel' = f + 2 := ⟨fuel' - 2, by omega⟩
  obtain ⟨hwf, herase⟩ := hch.pool hs.pool
  rw [heq]
  generalize firstIndex env h p = i at *
  let h₀ : DHCPHandler := { h with available := available }
  have hstart : h₀.start = h.start := rfl
  show (afterChoice env now p (f + 2) 0 i h₀).2.isSome = true ∧
    Orderly h.available (afterChoice env now p (f + 2) 0 i h₀).1
  rw [afterChoice, hping, hstart]
  by_cases hi : pings (ipAdd h.start i) = true
  swap
  · rw [if_neg hi]
    exact ⟨rfl, by simp, by simp, by simp⟩
  rw [if_pos hi]
  have hlt : i < h.available.capacity := by
    by_contra hge
    exact hno ⟨hi, .inl (by omega)⟩
  obtain ⟨hwf₁, hfree₁⟩ := contested_pool now p (h := h₀) hwf i
  have hfree₁ : (contested now p h₀ i).available.free = h.available.free.erase i := by
    rw [hfree₁, safeIntToUint64_natCast]
    exact herase
  have hgone : i ∉ (contested now p h₀ i).available.free := by
    rw [hfree₁]
    exact Finset.notMem_erase i _
  have honly : pings (contested now p h₀ i).start = true →
      ∀ j ∈ (contested now p h₀ i).available.free, j = 0 := by
    intro hzero j hj
    by_contra hj0
    rw [contested_start] at hzero
    rw [hfree₁, Finset.mem_erase] at hj
    exact hno ⟨hi, .inr ⟨hzero, j, hj.2, hj.1, hj0⟩⟩
  obtain ⟨r, htail | ⟨-, htail⟩ | ⟨pool, hmem, hgone₂, htail⟩⟩ :=
    retryTrace_zero_ends now p hping hwf₁ honly f (0 + 1)
  · rw [htail]
    exact ⟨rfl, by simp, by simp [hlt, hgone], by simp⟩
  · rw [htail]
    exact ⟨rfl, by simp, by simp [hlt, hgone], by simp⟩
  · -- index 0 was still free after the first conflict, so it is another one
    rw [htail]
    rw [hfree₁, Finset.mem_erase] at hmem
    have hne : ¬ i = 0 := fun hi0 => hmem.1 hi0.symm
    have hzero : ∃ j < h.available.capacity, (0 : Int) = (j : ℕ) ∧ j ∉ pool.free :=
      ⟨0, hs.pool.free_lt hmem.2, rfl, hgone₂⟩
    exact ⟨rfl, by simpa using hne, by simpa [hlt, hgone] using hzero, by simp⟩

theorem retryTrace_disorderly (hcan : h.CanAllot p)
    (hclash : Clashes pings h (firstIndex env h p)) (fuel : ℕ) :
    ¬ ((retryTrace env now p fuel 0 true (-1) h).2.isSome = true ∧
      Orderly h.available (retryTrace env now p fuel 0 true (-1) h).1) := by
  intro hord
  obtain ⟨r, hr⟩ := Option.isSome_iff_exists.mp hord.1
  have hone := retryTrace_succ fuel 0 true (-1) h hr
  have hmore := retryTrace_succ (fuel + 1) 0 true (-1) h (by rw [hone]; exact hr)
  rw [← hone, ← hmore] at hord
  obtain ⟨fuel', -, hch, heq⟩ := retryTrace_first env now hs hcan fuel
  generalize chosenPool env h p = available at hch heq
  obtain ⟨hwf, herase⟩ := hch.pool hs.pool
  rw [heq] at hord
  generalize firstIndex env h p = i at *
  let h₀ : DHCPHandler := { h with available := available }
  have hord' : (afterChoice env now p fuel' 0 i h₀).2.isSome = true ∧
      Orderly h.available (afterChoice env now p fuel' 0 i h₀).1 := hord
  have hstart : h₀.start = h.start := rfl
  obtain ⟨hi, hout | ⟨hzero, j, hj, hji, hj0⟩⟩ := hclash
  · rw [afterChoice, hping, hstart, if_pos hi] at hord'
    obtain ⟨j, hlt, hij, -⟩ := hord'.2.retires _ List.mem_cons_self _ rfl
    have hij' : (i : Int) = (j : ℕ) := hij
    omega
  · rw [afterChoice, hping, hstart, if_pos hi] at hord'
    obtain ⟨hwf₁, hfree₁⟩ := contested_pool now p (h := h₀) hwf i
    have hnever := retryTrace_zero_forever env now p fuel' (0 + 1) (contested now p h₀ i)
      hwf₁ (fun k => by rw [hping, contested_start]; exact hzero) ⟨j, by
        rw [hfree₁, safeIntToUint64_natCast]
        show j ∈ available.free.erase i
        rw [herase]
        exact Finset.mem_erase.mpr ⟨hji, hj⟩, hj0⟩
    have hret := hord'.1
    simp only [hnever] at hret
    cases hret

end Ends

end StandaloneDHCP
