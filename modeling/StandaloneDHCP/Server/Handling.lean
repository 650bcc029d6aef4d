import StandaloneDHCP.Server.Moves

/-! The message switch makes only the moves of `Move`, and its answers are backed by them.
`Handled` says for every message type what the handler looks like afterwards and what is sent:
`serveMessage_handled` is the one place where the code of the switch is taken apart. -/
namespace StandaloneDHCP
open Lib
set_option autoImplicit false

/-! ## The DISCOVER case -/

theorem beUint32_isSome {v : Bytes} (hlen : 4 ≤ v.length) : ∃ a, beUint32 v = some a := by
  match v, hlen with
  | _ :: _ :: _ :: _ :: _, _ => exact ⟨_, rfl⟩

theorem beUint32_eq_none {v : Bytes} (hlen : ¬ 4 ≤ v.length) : beUint32 v = none := by
  match v, hlen with
  | [], _ => rfl
  | [_], _ => rfl
  | [_, _], _ => rfl
  | [_, _, _], _ => rfl
  | _ :: _ :: _ :: _ :: _, hlen => simp at hlen

theorem tryRequested_short {p : Packet} {v : Bytes}
    (hv : v ∈ p.options optionRequestedIPAddress) (hlen : ¬ 4 ≤ v.length) (h : DHCPHandler)
    (free : Int) : tryRequested h p true free = .panicked := by
  simp only [tryRequested, Option.mem_def.mp hv, beUint32_eq_none hlen]

theorem canAllot_of_try {h : DHCPHandler} {p : Packet} {free : Int}
    (hcard : h.available.freeIPsRemaining ≠ 0)
    (htry : tryRequested h p true free ≠ .panicked) : h.CanAllot p :=
  ⟨hcard, fun _ hv => by_contra fun hlen => htry (tryRequested_short hv hlen h free)⟩

theorem tryRequested_later (h : DHCPHandler) (p : Packet) (free : Int) :
    tryRequested h p false free = .candidate h.available free := by
  unfold tryRequested
  split
  · next heq => cases heq
  · rfl

theorem tryRequested_asked {h : DHCPHandler} {p : Packet} {i : ℕ}
    (hreq : requestedIndex h p = some i) (free : Int) :
    tryRequested h p true free =
      if h.ownerOf i = p.clientMac then .candidate h.available i
      else if h.ownerOf i = FreeMac then
        if (h.available.reserveIPIndex i p.clientMac).2.1 = none ∧
            (h.available.reserveIPIndex i p.clientMac).2.2 = p.clientMac then
          .candidate (h.available.reserveIPIndex i p.clientMac).1 i
        else .candidate (h.available.reserveIPIndex i p.clientMac).1 free
      else .taken := by
  obtain ⟨a, ha, rfl⟩ := Option.map_eq_some_iff.mp hreq
  obtain ⟨v, hv, ha⟩ := Option.bind_eq_some_iff.mp ha
  simp only [tryRequested, hv, ha]

theorem tryRequested_first (h : DHCPHandler) (p : Packet) (free : Int) :
    (requestedIndex h p = none ∧ (tryRequested h p true free = .panicked ∨
      tryRequested h p true free = .candidate h.available free)) ∨
    ∃ i : ℕ, requestedIndex h p = some i ∧
      ((h.ownerOf i = p.clientMac ∧ tryRequested h p true free = .candidate h.available i) ∨
       (h.ownerOf i ≠ p.clientMac ∧ i ∈ h.available.free ∧
          tryRequested h p true free = .candidate (h.available.grant i p.clientMac) i) ∨
       (h.ownerOf i ≠ p.clientMac ∧
          tryRequested h p true free = .candidate h.available free) ∨
       (h.ownerOf i ≠ p.clientMac ∧ tryRequested h p true free = .taken)) := by
  cases hreq : requestedIndex h p with
  | none =>
    refine .inl ⟨rfl, ?_⟩
    cases hopt : p.options optionRequestedIPAddress with
    | none => exact .inr (by simp [tryRequested, hopt])
    | some v =>
      have hshort : beUint32 v = none := by simpa [requestedIndex, hopt] using hreq
      exact .inl (by simp [tryRequested, hopt, hshort])
  | some i =>
    refine .inr ⟨i, rfl, ?_⟩
    rw [tryRequested_asked hreq]
    by_cases hown : h.ownerOf i = p.clientMac
    · exact .inl ⟨hown, if_pos hown⟩
    rw [if_neg hown]
    by_cases hsent : h.ownerOf i = FreeMac
    · rw [if_pos hsent]
      obtain ⟨hfree, -, heq⟩ | ⟨-, heq, herr⟩ := h.available.reserveIPIndex_cases i p.clientMac
      · rw [heq, if_pos ⟨rfl, rfl⟩]
        exact .inr (.inl ⟨hown, hfree, rfl⟩)
      · rw [heq, if_neg fun hc => herr hc.1]
        exact .inr (.inr (.inl ⟨hown, rfl⟩))
    · rw [if_neg hsent]
      exact .inr (.inr (.inr ⟨hown, rfl⟩))

theorem grabNext_keep (available : DHCPPool) (choice : Choice) (mac : String) (i : ℕ) :
    grabNext available choice mac (i : Int) = some (available, (i : Int)) := by
  have hi : ¬ ((i : Int) = -1) := by omega
  simp [grabNext, hi]

theorem grabNext_new {available : DHCPPool} (hwf : available.WellFormed)
    (hcap : available.capacity ≤ 2 ^ 32) (choice : Choice) (mac : String)
    (hcard : available.freeIPsRemaining ≠ 0) :
    ∃ i ∈ available.free,
      grabNext available choice mac (-1) = some (available.grant i mac, (i : Int)) := by
  obtain ⟨i, hi, heq⟩ := DHCPPool.getFreeIPIndex_ok hwf choice mac hcard
  have hlt := hwf.free_lt hi
  have hmax : i ≤ maxInt := by
    unfold maxInt
    omega
  refine ⟨i, hi, ?_⟩
  simp [grabNext, heq, safeUint64ToInt_of_le hmax]

theorem lock_again (h : DHCPHandler) (now : Int) (p : Packet) (index d : Int) :
    ((h.lock now p.clientMac index d).setXid now p).lock now p.clientMac index d =
      (h.lock now p.clientMac index d).setXid now p := by
  simp only [DHCPHandler.lock, DHCPHandler.setXid, Cache.set_set]

variable {env : Env} {now : Int} {p : Packet} {t : MessageType} {h₀ : DHCPHandler}

/-- One round of the retry block once an index is chosen: the index is offered, or a ping
conflict starts the next round. -/
theorem retry_candidate {fuel round : ℕ} {firstTry : Bool} {free free' index : Int}
    {h h' : DHCPHandler} {available available' : DHCPPool} {out : Option Int}
    (hcard : h.available.freeIPsRemaining ≠ 0)
    (htry : tryRequested h p firstTry free = .candidate available free')
    (hgrab : grabNext available (env.choice round) p.clientMac free' = some (available', index))
    (hr : retry env now p (fuel + 1) round firstTry free h = some (h', out)) :
    let h₁ := ({ h with available := available' } : DHCPHandler).lock now p.clientMac index
      (5 * second)
    (out = some index ∧ h' = (h₁.setXid now p).replaceXid now p) ∨
    (env.ping round (ipAdd h.start index) = true ∧
      retry env now p fuel (round + 1) false 0
        (((h₁.setXid now p).evict now p.clientMac).quarantine now index) = some (h', out)) := by
  intro h₁
  rw [retry, if_neg hcard, htry] at hr
  simp only [hgrab, lock_again] at hr
  split at hr
  · next hping => exact .inr ⟨hping, hr⟩
  · cases hr
    exact .inl ⟨rfl, rfl⟩

theorem Moves.marked {h₁ h₂ : DHCPHandler} (hm : Moves env now p t h₀ h₁ h₂) :
    Moves env now p t h₀ h₁ ((h₂.setXid now p).replaceXid now p) :=
  hm.tail (.note h₂ ((h₂.setXid now p).replaceXid now p).xid)

theorem Moves.conflict {h h₂ : DHCPHandler} {k : ℕ} {index : Int}
    (hm : Moves env now p .discover h₀ h (h₂.lock now p.clientMac index (5 * second)))
    (hping : env.ping k (ipAdd h₂.start index) = true)
    (hown : h₂.ownerOf index = p.clientMac ∨ index = 0) :
    Moves env now p .discover h₀ h
      ((((h₂.lock now p.clientMac index (5 * second)).setXid now p).evict
        now p.clientMac).quarantine now index) := by
  have hmark : Moves env now p .discover h₀ h
      ((h₂.lock now p.clientMac index (5 * second)).setXid now p) :=
    hm.tail (.note _ ((h₂.lock now p.clientMac index (5 * second)).setXid now p).xid)
  have hpeek : ((h₂.lock now p.clientMac index (5 * second)).setXid now p).hwcache.peek
      p.clientMac = some ⟨index, h₂.hwcache.deadline now (5 * second)⟩ :=
    Cache.peek_set _ _ _ _ _
  exact hmark.tail
    (.contest _ k ⟨index, h₂.hwcache.deadline now (5 * second)⟩ rfl hping hpeek hown)

theorem conflict_peek (h : DHCPHandler) (index : Int) :
    ((h.evict now p.clientMac).quarantine now index).hwcache.peek p.clientMac = none := by
  show (h.evict now p.clientMac).hwcache.peek p.clientMac = none
  exact h.peek_evict now p.clientMac

theorem conflict_assigned (h : DHCPHandler) (index : Int) :
    ((h.evict now p.clientMac).quarantine now index).ipAssigned = h.ipAssigned := by
  rw [DHCPHandler.evict_eq]
  rfl

theorem retry_zero (fuel : ℕ) : ∀ (round : ℕ) (h h' : DHCPHandler) (out : Option Int),
    h.ipAssigned.lookup p.clientMac = none → env.Answered →
    h.hwcache.peek p.clientMac = none →
    retry env now p fuel round false 0 h = some (h', out) →
    Moves env now p .discover h₀ h h' ∧
      ∀ index, out = some index → index = 0 ∧ h'.hwcache.get now p.clientMac = some 0 := by
  -- the rounds after a conflict: `free` is 0 from here on, so none of them draws again
  induction fuel with
  | zero =>
    intro round h h' out _ _ _ hr
    simp [retry] at hr
  | succ fuel ih =>
    intro round h h' out hdyn hping hpeek hr
    by_cases hcard : h.available.freeIPsRemaining = 0
    · rw [retry, if_pos hcard] at hr
      cases hr
      exact ⟨.refl, fun _ hi => nomatch hi⟩
    · have hlock : Moves env now p .discover h₀ h (h.lock now p.clientMac 0 (5 * second)) :=
        .single (.fallback h rfl hdyn hping hpeek)
      obtain ⟨rfl, rfl⟩ | ⟨hp, hr'⟩ := retry_candidate hcard (tryRequested_later h p 0)
        (grabNext_keep h.available (env.choice round) p.clientMac 0) hr
      · refine ⟨hlock.marked, fun index hi => ?_⟩
        cases hi
        exact ⟨rfl, Cache.get_set _ _ _ _ _⟩
      · obtain ⟨hm, hout⟩ := ih (round + 1) _ h' out
          (by rw [conflict_assigned]; exact hdyn) hping (conflict_peek _ _) hr'
        exact ⟨(hlock.conflict hp (.inr rfl)).trans hm, hout⟩

/-- Where the index of an OFFER comes from, with the handler that sends it. -/
inductive Offered (env : Env) (now : Int) (p : Packet) (h : DHCPHandler) :
    DHCPHandler → Int → Prop
  | cached (index : Int) (hget : h.hwcache.get now p.clientMac = some index)
      (hown : h.ownerOf index = p.clientMac) :
      Offered env now p h (h.lock now p.clientMac index (5 * second)) index
  | claimed (h₁ : DHCPHandler) (i : ℕ) (x : Cache String Int) (hfirst : Untouched now p h h₁)
      (hreq : requestedIndex h p = some i) (hown : h.ownerOf i = p.clientMac) :
      Offered env now p h { h₁.lock now p.clientMac i (5 * second) with xid := x } i
  | allotted (h₁ : DHCPHandler) (i : ℕ) (x : Cache String Int) (hfirst : Untouched now p h h₁)
      (hfree : i ∈ h.available.free) :
      Offered env now p h { h₁.lock now p.clientMac i (5 * second) with
        available := h.available.grant i p.clientMac, xid := x } i
  | fallback (h' : DHCPHandler) (hping : env.Answered)
      (hget : h'.hwcache.get now p.clientMac = some 0) : Offered env now p h h' 0

theorem Untouched.available {h : DHCPHandler} (hfirst : Untouched now p h₀ h) :
    h.available = h₀.available := by
  obtain rfl | rfl := hfirst.base
  · rfl
  · exact h₀.evict_available now p.clientMac

theorem offered_allotted {h : DHCPHandler} (hfirst : Untouched now p h₀ h) {i : ℕ}
    (hfree : i ∈ h.available.free) (x : Cache String Int) :
    Offered env now p h₀ { h.lock now p.clientMac i (5 * second) with
      available := h.available.grant i p.clientMac, xid := x } i := by
  rw [hfirst.available] at hfree ⊢
  exact .allotted h i x hfirst hfree

theorem offered_claimed {h : DHCPHandler} (hfirst : Untouched now p h₀ h) {i : ℕ}
    (hreq : requestedIndex h p = some i) (hown : h.ownerOf i = p.clientMac)
    (x : Cache String Int) :
    Offered env now p h₀ { h.lock now p.clientMac i (5 * second) with xid := x } i := by
  refine .claimed h i x hfirst ?_ ?_
  · obtain rfl | rfl := hfirst.base
    · exact hreq
    · rwa [DHCPHandler.evict_eq] at hreq
  · obtain rfl | rfl := hfirst.base
    · exact hown
    · rwa [DHCPHandler.evict_eq] at hown

theorem ownerOf_granted {h : DHCPHandler} (hs : h.Sound) {i : ℕ} (hfree : i ∈ h.available.free) :
    ({ h with available := h.available.grant i p.clientMac } : DHCPHandler).ownerOf i =
      p.clientMac := by
  have hown : (h.available.grant i p.clientMac).mac.lookup (safeIntToUint64 i) =
      some p.clientMac := by
    rw [safeIntToUint64_natCast]
    exact Finmap.lookup_insert _
  exact congrArg (·.2.1) (DHCPPool.getMACIndex_of_lookup (hs.pool.grant hfree _) hown)

/-- The whole retry block: what it moves, and what it offers. -/
def RetrySpec (env : Env) (now : Int) (p : Packet)
    (h₀ h h' : DHCPHandler) (out : Option Int) : Prop :=
  Moves env now p .discover h₀ h h' ∧ ∀ index, out = some index → Offered env now p h₀ h' index

section Retry
variable {fuel round : ℕ} {h h' : DHCPHandler} {out : Option Int}
  (hdyn : h.ipAssigned.lookup p.clientMac = none) (hs : h.Sound)
include hdyn

theorem retry_round {firstTry : Bool} {free free' index : Int} {available available' : DHCPPool}
    (hcard : h.available.freeIPsRemaining ≠ 0)
    (htry : tryRequested h p firstTry free = .candidate available free')
    (hgrab : grabNext available (env.choice round) p.clientMac free' = some (available', index))
    (hmove : Move env now p .discover h₀ h (({ h with available := available' } : DHCPHandler).lock
      now p.clientMac index (5 * second)))
    (hown : ({ h with available := available' } : DHCPHandler).ownerOf index = p.clientMac)
    (hoffer : ∀ x, Offered env now p h₀ { ({ h with available := available' } : DHCPHandler).lock
      now p.clientMac index (5 * second) with xid := x } index)
    (hr : retry env now p (fuel + 1) round firstTry free h = some (h', out)) :
    RetrySpec env now p h₀ h h' out := by
  have hlock : Moves env now p .discover h₀ h _ := .single hmove
  obtain ⟨rfl, rfl⟩ | ⟨hp, hr'⟩ := retry_candidate hcard htry hgrab hr
  · refine ⟨hlock.marked, fun i hi => ?_⟩
    cases hi
    exact hoffer _
  · have hnext := hlock.conflict hp (.inl hown)
    obtain ⟨hm, hout⟩ := retry_zero fuel (round + 1) _ h' out
      (by rw [conflict_assigned]; exact hdyn) ⟨_, _, hp⟩ (conflict_peek _ _) hr'
    refine ⟨hnext.trans hm, fun i hi => ?_⟩
    obtain ⟨rfl, hget⟩ := hout i hi
    exact .fallback h' ⟨_, _, hp⟩ hget

include hs

theorem retry_grab {firstTry : Bool} (hfirst : Untouched now p h₀ h)
    (hcard : h.available.freeIPsRemaining ≠ 0)
    (htry : tryRequested h p firstTry (-1) = .candidate h.available (-1))
    (hreq : ∀ j, requestedIndex h p = some j → h.ownerOf j ≠ p.clientMac)
    (hr : retry env now p (fuel + 1) round firstTry (-1) h = some (h', out)) :
    RetrySpec env now p h₀ h h' out := by
  have hcap : h.available.capacity ≤ 2 ^ 32 := by
    have := hs.fits
    omega
  obtain ⟨i, hfree, hgrab⟩ :=
    grabNext_new hs.pool hcap (env.choice round) p.clientMac hcard
  refine retry_round hdyn hcard htry hgrab (.allot h i rfl hdyn hfree hreq hfirst)
    (ownerOf_granted hs hfree) ?_ hr
  intro x
  exact offered_allotted hfirst hfree x

theorem retry_spec (hbase : h = h₀ ∨ h = h₀.evict now p.clientMac)
    (hsearch : h₀.Searches now p)
    (hr : retry env now p fuel round true (-1) h = some (h', out)) :
    RetrySpec env now p h₀ h h' out := by
  cases fuel with
  | zero => simp [retry] at hr
  | succ fuel =>
    by_cases hcard : h.available.freeIPsRemaining = 0
    · rw [retry, if_pos hcard] at hr
      cases hr
      exact ⟨.refl, fun _ hi => nomatch hi⟩
    have hother : ∀ i, requestedIndex h p = some i → h.ownerOf i ≠ p.clientMac →
        ∀ j, requestedIndex h p = some j → h.ownerOf j ≠ p.clientMac := by
      intro i hi hown j hj
      cases hi.symm.trans hj
      exact hown
    by_cases hpanic : tryRequested h p true (-1) = .panicked
    · -- option 50 is too short: the panic leaves the handler as it is
      rw [retry, if_neg hcard, hpanic] at hr
      cases hr
      exact ⟨.refl, fun _ hi => nomatch hi⟩
    have hcan : h₀.CanAllot p := by
      have hcan := canAllot_of_try hcard hpanic
      obtain rfl | rfl := hbase
      · exact hcan
      · rwa [DHCPHandler.CanAllot, DHCPHandler.evict_available] at hcan
    have hfirst : Untouched now p h₀ h := ⟨hbase, hsearch, hcan⟩
    obtain ⟨hreq, htry | htry⟩ | ⟨i, hreq, ⟨hown, htry⟩ | ⟨hown, hfree, htry⟩ | ⟨hown, htry⟩ |
      ⟨hown, htry⟩⟩ := tryRequested_first h p (-1)
    · exact absurd htry hpanic
    · exact retry_grab hdyn hs hfirst hcard htry (fun j hj => by simp [hreq] at hj) hr
    · refine retry_round hdyn hcard htry (grabNext_keep _ _ _ i)
        (.claim h i rfl hdyn hreq hown hfirst) hown (fun x => ?_) hr
      exact offered_claimed hfirst hreq hown x
    · refine retry_round hdyn hcard htry (grabNext_keep _ _ _ i)
        (.allot h i rfl hdyn hfree (hother i hreq hown) hfirst) (ownerOf_granted hs hfree)
        (fun x => ?_) hr
      exact offered_allotted hfirst hfree x
    · exact retry_grab hdyn hs hfirst hcard htry (hother i hreq hown) hr
    · -- the address belongs to somebody else: the block starts over without it
      rw [retry, if_neg hcard, htry] at hr
      cases fuel with
      | zero => simp [retry] at hr
      | succ fuel =>
        exact retry_grab hdyn hs hfirst hcard (tryRequested_later h p (-1))
          (hother i hreq hown) hr

end Retry

/-! ## The message switch -/

/-- What the DISCOVER case does to the handler and to the answer. -/
structure DiscoverSpec (env : Env) (now : Int) (p : Packet)
    (h h' : DHCPHandler) (answer : Answer) : Prop where
  moves : Moves env now p .discover h h h'
  acked : answer.acked = none
  offered : ∀ a, answer.offered = some a →
    (∃ position, h.ipAssigned.lookup p.clientMac = some position ∧ h' = h ∧
      a = ipAdd h.start position.toNat) ∨
    (h.ipAssigned.lookup p.clientMac = none ∧
      ∃ index, Offered env now p h h' index ∧ a = ipAdd h.start index)

theorem replyOffer_acked (h : DHCPHandler) (networkIP : String) {answer : Answer}
    (free : Int) (hnone : answer.d = none) :
    (replyOffer env h networkIP p answer free).acked = none := by
  unfold replyOffer
  split
  · simp [Answer.acked, Answer.addressOf, hnone]
  · rfl

theorem replyOffer_offered {h : DHCPHandler} {networkIP : String} {answer : Answer}
    {free : Int} (hnone : answer.d = none) {a : IPv4}
    (ha : (replyOffer env h networkIP p answer free).offered = some a) :
    a = ipAdd h.start free := by
  unfold replyOffer at ha
  split at ha
  · simp [Answer.offered, Answer.addressOf, hnone] at ha
  · cases ha
    rfl

theorem Answer.not_granted {answer : Answer} (hack : answer.acked = none)
    (hoffer : answer.offered = none) {a : IPv4}
    (ha : answer.offered = some a ∨ answer.acked = some a) : False := by
  rcases ha with ha | ha
  · cases hoffer.symm.trans ha
  · cases hack.symm.trans ha

theorem Answer.silent {answer : Answer} (hnone : answer.d = none) :
    answer.acked = none ∧ answer.offered = none := by
  simp [Answer.acked, Answer.offered, Answer.addressOf, hnone]

section Switch
variable {fuel : ℕ} {h h' : DHCPHandler} {networkIP : String} {answer answer' : Answer}
  (hnone : answer.d = none)
include hnone

theorem allocate_spec (hdyn : h.ipAssigned.lookup p.clientMac = none)
    (hbase : h = h₀ ∨ h = h₀.evict now p.clientMac) (hsearch : h₀.Searches now p)
    (hs : h.Sound) (hm₀ : Moves env now p .discover h₀ h₀ h)
    (hr : allocate env fuel now h networkIP p answer = some (h', answer')) :
    DiscoverSpec env now p h₀ h' answer' := by
  unfold allocate at hr
  cases hretry : retry env now p fuel 0 true (-1) h with
  | none => simp [hretry] at hr
  | some r =>
    obtain ⟨h₁, out⟩ := r
    obtain ⟨hm, hout⟩ := retry_spec hdyn hs hbase hsearch hretry
    rw [hretry] at hr
    have hstart : h₁.start = h₀.start :=
      DHCPHandler.start_of_settings (Moves.settings (hm₀.trans hm))
    cases out with
    | none =>
      cases hr
      obtain ⟨hack, hoffer⟩ := Answer.silent hnone
      exact ⟨hm₀.trans hm, hack, fun a ha => by simp [hoffer] at ha⟩
    | some index =>
      cases hr
      refine ⟨hm₀.trans hm, replyOffer_acked h₁ networkIP index hnone, fun a ha => .inr ?_⟩
      refine ⟨hsearch.1, index, hout index rfl, ?_⟩
      rw [← hstart]
      exact replyOffer_offered hnone ha

theorem confirm_spec (hdyn : h.ipAssigned.lookup p.clientMac = none) {x : Int}
    (hget : h.hwcache.get now p.clientMac = some x) (hown : h.ownerOf x = p.clientMac) :
    DiscoverSpec env now p h (confirm env now h networkIP p answer x).1
      (confirm env now h networkIP p answer x).2 := by
  have hrep : h.hwcache.replace now p.clientMac x (5 * second) =
      some (h.hwcache.set now p.clientMac x (5 * second)) :=
    Cache.replace_eq_some.mpr ⟨⟨x, hget⟩, rfl⟩
  unfold confirm
  rw [hrep]
  refine ⟨.single (.renew h x _ hdyn hget hown), replyOffer_acked _ _ _ hnone, fun a ha => .inr ?_⟩
  exact ⟨hdyn, x, .cached x hget hown, replyOffer_offered hnone ha⟩

/-- The cached index was freed: it is granted again, but the `Replace` that follows the
`Delete` fails, so nothing is offered. -/
theorem regain_spec (hs : h.Sound) (hdyn : h.ipAssigned.lookup p.clientMac = none) {x : Int}
    (hget : h.hwcache.get now p.clientMac = some x) (hown : h.ownerOf x ≠ p.clientMac)
    (hr : (let h := h.evict now p.clientMac
      let r := h.available.reserveIPIndex (safeIntToUint64 x) p.clientMac
      let h : DHCPHandler := { h with available := r.1 }
      if r.2.1 = none ∧ r.2.2 = p.clientMac then some (confirm env now h networkIP p answer x)
      else allocate env fuel now h networkIP p answer) = some (h', answer')) :
    DiscoverSpec env now p h h' answer' := by
  have hgone := h.peek_evict now p.clientMac
  have hevict : Move env now p .discover h h (h.evict now p.clientMac) := .evict h
  have hpool := h.evict_available now p.clientMac
  obtain ⟨hfree, -, heq⟩ | ⟨hno, heq, herr⟩ :=
    (h.evict now p.clientMac).available.reserveIPIndex_cases (safeIntToUint64 x) p.clientMac
  · rw [hpool] at hfree heq
    have hrep : (h.evict now p.clientMac).hwcache.replace now p.clientMac x (5 * second) =
        none := by
      have hno : (h.evict now p.clientMac).hwcache.get now p.clientMac = none :=
        Cache.get_eq_none.mpr fun e he => nomatch hgone.symm.trans he
      rw [Cache.replace, hno]
    simp only [hpool, heq, confirm, hrep, and_self, if_true, Option.some.injEq,
      Prod.mk.injEq] at hr
    obtain ⟨rfl, rfl⟩ := hr
    obtain ⟨hack, hoffer⟩ := Answer.silent hnone
    exact ⟨.single (.regain h x hdyn hget hfree), hack, fun a ha => by simp [hoffer] at ha⟩
  · simp only [heq, herr, false_and, if_false] at hr
    rw [hpool] at hno
    have hused : safeIntToUint64 x ∉ h.available.free := by
      intro hfree
      have hlt := hs.pool.free_lt hfree
      rcases hno with hno | hno
      · exact hno hfree
      · omega
    exact allocate_spec hnone (by rw [DHCPHandler.evict_eq]; exact hdyn) (.inr rfl)
      (searches_of_get hdyn hget hown hused) (hevict.sound hs) (.single hevict) hr

theorem serveDiscover_spec (hs : h.Sound)
    (hr : serveDiscover env fuel now h networkIP p answer = some (h', answer')) :
    DiscoverSpec env now p h h' answer' := by
  unfold serveDiscover at hr
  cases hstat : h.ipAssigned.lookup p.clientMac with
  | some position =>
    rw [hstat] at hr
    cases hr
    refine ⟨.refl, replyOffer_acked _ _ _ hnone, fun a ha => .inl ?_⟩
    exact ⟨position, hstat, rfl, replyOffer_offered hnone ha⟩
  | none =>
    rw [hstat] at hr
    cases hget : h.hwcache.get now p.clientMac with
    | none =>
      rw [hget] at hr
      exact allocate_spec hnone hstat (.inl rfl) (searches_of_get_none hstat hget) hs .refl hr
    | some x =>
      rw [hget] at hr
      by_cases hown : h.ownerOf x = p.clientMac
      · simp only [if_pos hown, Option.some.injEq, Prod.ext_iff] at hr
        obtain ⟨rfl, rfl⟩ := hr
        exact confirm_spec hnone hstat hget hown
      · by_cases hsent : h.ownerOf x = FreeMac
        · simp only [if_neg hown, if_pos hsent] at hr
          exact regain_spec hnone hs hstat hget hown hr
        · simp only [if_neg hown, if_neg hsent] at hr
          have hsearch : h.Searches now p := searches_of_get hstat hget hown fun hfree =>
            hsent (hs.ownerOf_free hfree)
          exact allocate_spec hnone hstat (.inl rfl) hsearch hs .refl hr

end Switch

/-- What the REQUEST and INFORM cases do to the handler and to the answer. -/
inductive Requested (now : Int) (p : Packet) (h : DHCPHandler) : DHCPHandler → Answer → Prop
  | unchanged (answer : Answer) (hack : answer.acked = none) (hoffer : answer.offered = none) :
      Requested now p h h answer
  | dropped (answer : Answer) (hack : answer.acked = none) (hoffer : answer.offered = none)
      (hnak : answer.isNak = true) : Requested now p h (h.evict now p.clientMac) answer
  | renewed (answer : Answer) (index : Int) (hdyn : h.ipAssigned.lookup p.clientMac = none)
      (hget : h.hwcache.get now p.clientMac = some index)
      (hown : h.ownerOf index = p.clientMac)
      (hack : answer.acked = some (ipAdd h.start index)) (hoffer : answer.offered = none) :
      Requested now p h ((h.lock now p.clientMac index (h.leaseDuration + 15 * second)).reserve
        index p.clientMac) answer
  | pinned (answer : Answer) (position : BitVec 32)
      (hstat : h.ipAssigned.lookup p.clientMac = some position)
      (hack : answer.acked = some (ipAdd h.start position.toNat))
      (hoffer : answer.offered = none) :
      Requested now p h ((h.lock now p.clientMac position.toNat
        (h.leaseDuration + 15 * second)).reserve position.toNat p.clientMac) answer

theorem judge_cases {g g' : Globals} {h h' : DHCPHandler} {addr : IPv4} {v : Verdict}
    (hj : judge now g h p t addr = (v, g', h')) :
    (v = .nak ∧ h' = h.evict now p.clientMac) ∨
    (h' = h ∧ ∀ index, v = .ack index → ipAdd h.start index = addr ∧
      (h.ipAssigned.lookup p.clientMac = none ∧ h.hwcache.get now p.clientMac = some index ∧
          h.ownerOf index = p.clientMac ∨
        ∃ position, h.ipAssigned.lookup p.clientMac = some position ∧
          index = position.toNat)) := by
  unfold judge at hj
  simp only at hj
  split at hj
  swap
  · cases hj
    exact .inr ⟨rfl, fun _ hi => nomatch hi⟩
  cases hstat : h.ipAssigned.lookup p.clientMac with
  | some position =>
    rw [hstat] at hj
    by_cases hpos : (position.toNat : Int) = ipRange h.start addr - 1
    · simp only [if_pos hpos] at hj
      cases hj
      refine .inr ⟨rfl, fun index hi => ?_⟩
      cases hi
      exact ⟨ipAdd_of_ipRange hpos.symm, .inr ⟨position, rfl, rfl⟩⟩
    · simp only [if_neg hpos] at hj
      cases hj
      exact .inr ⟨rfl, fun _ hi => nomatch hi⟩
  | none =>
    rw [hstat] at hj
    cases hget : h.hwcache.get now p.clientMac with
    | none =>
      rw [hget] at hj
      cases hj
      exact .inr ⟨rfl, fun _ hi => nomatch hi⟩
    | some index =>
      rw [hget] at hj
      by_cases haddr : ipAdd h.start index = addr
      · simp only [if_pos haddr] at hj
        by_cases hown : h.ownerOf index = p.clientMac
        · simp only [if_pos hown] at hj
          refine .inr ⟨by split at hj <;> cases hj <;> rfl, fun i hi => ?_⟩
          split at hj <;> cases hj <;> cases hi
          exact ⟨haddr, .inl ⟨rfl, rfl, hown⟩⟩
        · simp only [if_neg hown] at hj
          refine .inr ⟨by split at hj <;> cases hj <;> rfl, fun i hi => ?_⟩
          split at hj <;> cases hj <;> cases hi
      · simp only [if_neg haddr] at hj
        split at hj
        · cases hj
          exact .inl ⟨rfl, rfl⟩
        · cases hj
          exact .inr ⟨rfl, fun _ hi => nomatch hi⟩

theorem serveRequest_spec {g g' : Globals} {h h' : DHCPHandler} {networkIP : String}
    {answer answer' : Answer} (hnone : answer.d = none)
    (hr : serveRequest env now g h networkIP p t answer = (g', h', answer')) :
    Requested now p h h' answer' := by
  unfold serveRequest at hr
  split at hr
  · cases hr
    exact .unchanged _ rfl rfl
  simp only at hr
  cases hvalid : validAddress p.reqIP with
  | none =>
    rw [hvalid] at hr
    cases hr
    exact .unchanged _ rfl rfl
  | some addr =>
    rw [hvalid] at hr
    rcases hj : judge now g h p t addr with ⟨v, g₁, h₁⟩
    have hcases := judge_cases hj
    simp only [hj] at hr
    have hsilent : ({ answer with ip := p.reqIP } : Answer).d = none := hnone
    obtain ⟨hack, hoffer⟩ := Answer.silent hsilent
    cases v with
    | unknown =>
      obtain ⟨hv, -⟩ | ⟨rfl, -⟩ := hcases
      · cases hv
      · cases hr
        exact .unchanged _ rfl rfl
    | duplicate =>
      obtain ⟨hv, -⟩ | ⟨rfl, -⟩ := hcases
      · cases hv
      · cases hr
        exact .unchanged _ hack hoffer
    | nak =>
      obtain ⟨-, rfl⟩ | ⟨rfl, -⟩ := hcases
      · cases hr
        exact .dropped _ rfl rfl rfl
      · cases hr
        exact .unchanged _ rfl rfl
    | ack index =>
      obtain ⟨hv, -⟩ | ⟨rfl, hindex⟩ := hcases
      · cases hv
      obtain ⟨haddr, hwhy⟩ := hindex index rfl
      simp only [acknowledge] at hr
      split at hr
      · cases hr
        exact .unchanged _ hack hoffer
      · cases hr
        obtain ⟨hdyn, hget, hown⟩ | ⟨position, hstat, rfl⟩ := hwhy
        · exact .renewed _ index hdyn hget hown (by rw [haddr]; rfl) rfl
        · exact .pinned _ position hstat (by rw [haddr]; rfl) rfl

theorem retire_cases (now : Int) (h : DHCPHandler) (p : Packet) :
    retire now h p = h ∨ ∃ x, h.hwcache.get now p.clientMac = some x ∧
      h.ownerOf x = p.clientMac ∧
      retire now h p = (h.quarantine now x).evict now p.clientMac := by
  unfold retire
  cases (to4 p.reqIP).bind beUint32 with
  | none => exact .inl rfl
  | some addr =>
    simp only
    split
    · cases hget : h.hwcache.get now p.clientMac with
      | none => exact .inl rfl
      | some x =>
        by_cases hcond : ipRange h.start addr - 1 = x ∧ h.ownerOf x = p.clientMac
        · refine .inr ⟨x, rfl, hcond.2, ?_⟩
          simp only [if_pos hcond]
          rw [hcond.1]
        · simp only [if_neg hcond]
          exact .inl trivial
    · exact .inl rfl

/-- What the message switch does, by the type of the packet. -/
inductive Handled (env : Env) (now : Int) (p : Packet) (t : MessageType) (h : DHCPHandler) :
    DHCPHandler → Answer → Prop
  | discover (h' : DHCPHandler) (answer : Answer) (htype : t = .discover)
      (hspec : DiscoverSpec env now p h h' answer) : Handled env now p t h h' answer
  | request (h' : DHCPHandler) (answer : Answer) (htype : t = .request ∨ t = .inform)
      (hspec : Requested now p h h' answer) : Handled env now p t h h' answer
  | retire (answer : Answer) (htype : t = .release ∨ t = .decline) (hnone : answer.d = none) :
      Handled env now p t h (StandaloneDHCP.retire now h p) answer
  | refuse (answer : Answer) (hack : answer.acked = none) (hoffer : answer.offered = none)
      (hnak : answer.isNak = true) : Handled env now p t h h answer

theorem serveMessage_handled {fuel : ℕ} {g g' : Globals} {h h' : DHCPHandler}
    {networkIP : String} {answer answer' : Answer} (hs : h.Sound) (hnone : answer.d = none)
    (hr : serveMessage env fuel now g h networkIP p t answer = some (g', h', answer')) :
    Handled env now p t h h' answer' := by
  cases t with
  | discover =>
    simp only [serveMessage] at hr
    cases hd : serveDiscover env fuel now h networkIP p answer with
    | none => simp [hd] at hr
    | some r =>
      rw [hd] at hr
      cases hr
      exact .discover _ _ rfl (serveDiscover_spec hnone hs hd)
  | request => exact .request _ _ (.inl rfl) (serveRequest_spec hnone (Option.some.inj hr))
  | inform => exact .request _ _ (.inr rfl) (serveRequest_spec hnone (Option.some.inj hr))
  | release =>
    cases hr
    exact .retire _ (.inl rfl) hnone
  | decline =>
    cases hr
    exact .retire _ (.inr rfl) hnone
  | offer =>
    cases hr
    exact .refuse _ rfl rfl rfl
  | ack =>
    cases hr
    exact .refuse _ rfl rfl rfl
  | nak =>
    cases hr
    exact .refuse _ rfl rfl rfl

theorem Requested.moves {h h' : DHCPHandler} {answer : Answer}
    (hr : Requested now p h h' answer) (htype : t = .request ∨ t = .inform) :
    Moves env now p t h h h' := by
  cases hr with
  | unchanged => exact .refl
  | dropped => exact .single (.evict h)
  | renewed answer index hdyn hget hown =>
    refine .tail (.single (.renew h index _ hdyn hget hown)) (.secure _ index hdyn ?_ hown)
    exact Cache.get_set _ _ _ _ _
  | pinned answer position hstat => exact .single (.pin h position _ htype hstat)

/-- The handling of a packet is a sequence of moves. -/
theorem Handled.moves {h h' : DHCPHandler} {answer : Answer}
    (hh : Handled env now p t h h' answer) : Moves env now p t h h h' := by
  cases hh with
  | discover _ _ htype hspec =>
    subst htype
    exact hspec.moves
  | request _ _ htype hspec => exact hspec.moves htype
  | retire answer htype hnone =>
    obtain heq | ⟨x, hget, hown, heq⟩ := retire_cases now h p
    · rw [heq]
    · rw [heq]
      exact .single (.retire h x htype hget hown)
  | refuse => exact .refl

/-- Where the index of an OFFER or ACK to a client without a static address comes from. -/
inductive Source (env : Env) (now : Int) (p : Packet) (t : MessageType) (h : DHCPHandler) :
    Int → Prop
  | cached (index : Int) (hget : h.hwcache.get now p.clientMac = some index)
      (hown : h.ownerOf index = p.clientMac) : Source env now p t h index
  | asked (i : ℕ) (htype : t = .discover) (hsearch : h.Searches now p) (hcan : h.CanAllot p)
      (hreq : requestedIndex h p = some i) (hown : h.ownerOf i = p.clientMac) :
      Source env now p t h i
  | fresh (i : ℕ) (htype : t = .discover) (hfree : i ∈ h.available.free) : Source env now p t h i
  | fallback (htype : t = .discover) (hping : env.Answered) : Source env now p t h 0

theorem Source.isOffset {h : DHCPHandler} {index : Int} (hsrc : Source env now p t h index)
    (hs : h.Sound) (hoff : h.Indexes IsOffset) : IsOffset index := by
  cases hsrc with
  | cached _ hget => exact hoff.of_get hget
  | asked i _ _ _ hreq => exact isOffset_natCast (requestedIndex_lt hreq)
  | fresh i _ hfree =>
    have hlt := hs.pool.free_lt hfree
    have hfits := hs.fits
    exact isOffset_natCast (by omega)
  | fallback => exact isOffset_natCast (by decide)

/-- How a packet comes to be answered with an OFFER or ACK of an index, and the handler after. -/
inductive Granted (env : Env) (now : Int) (p : Packet) (t : MessageType) (h : DHCPHandler) :
    DHCPHandler → Int → Prop
  | offered (h' : DHCPHandler) (index : Int) (htype : t = .discover)
      (hoff : Offered env now p h h' index) : Granted env now p t h h' index
  | static (position : BitVec 32) (htype : t = .discover)
      (hstat : h.ipAssigned.lookup p.clientMac = some position) :
      Granted env now p t h h position.toNat
  | renewed (index : Int) (htype : t = .request ∨ t = .inform)
      (hget : h.hwcache.get now p.clientMac = some index) (hown : h.ownerOf index = p.clientMac) :
      Granted env now p t h ((h.lock now p.clientMac index
        (h.leaseDuration + 15 * second)).reserve index p.clientMac) index
  | pinned (position : BitVec 32) (htype : t = .request ∨ t = .inform)
      (hstat : h.ipAssigned.lookup p.clientMac = some position) :
      Granted env now p t h ((h.lock now p.clientMac position.toNat
        (h.leaseDuration + 15 * second)).reserve position.toNat p.clientMac) position.toNat

theorem Handled.granted {h h' : DHCPHandler} {answer : Answer}
    (hh : Handled env now p t h h' answer) {a : IPv4}
    (ha : answer.offered = some a ∨ answer.acked = some a) :
    ∃ index, Granted env now p t h h' index ∧ a = ipAdd h.start index := by
  cases hh with
  | discover _ _ htype hspec =>
    have hoffer : answer.offered = some a :=
      ha.resolve_right fun ha => nomatch hspec.acked.symm.trans ha
    obtain ⟨position, hstat, rfl, haddr⟩ | ⟨-, index, hoff, haddr⟩ := hspec.offered a hoffer
    · exact ⟨_, .static position htype hstat, haddr⟩
    · exact ⟨index, .offered h' index htype hoff, haddr⟩
  | request _ _ htype hspec =>
    cases hspec with
    | unchanged _ hack hoffer => exact (Answer.not_granted hack hoffer ha).elim
    | dropped _ hack hoffer => exact (Answer.not_granted hack hoffer ha).elim
    | renewed _ index _ hget hown hack hoffer =>
      have hacked := ha.resolve_left fun ha => nomatch hoffer.symm.trans ha
      exact ⟨index, .renewed index htype hget hown, Option.some.inj (hacked.symm.trans hack)⟩
    | pinned _ position hstat hack hoffer =>
      have hacked := ha.resolve_left fun ha => nomatch hoffer.symm.trans ha
      exact ⟨_, .pinned position htype hstat, Option.some.inj (hacked.symm.trans hack)⟩
  | retire _ _ hnone =>
    obtain ⟨hack, hoffer⟩ := Answer.silent hnone
    exact (Answer.not_granted hack hoffer ha).elim
  | refuse _ hack hoffer => exact (Answer.not_granted hack hoffer ha).elim

theorem Granted.source {h h' : DHCPHandler} {index : Int} (hg : Granted env now p t h h' index) :
    (∃ position, h.ipAssigned.lookup p.clientMac = some position ∧ index = position.toNat) ∨
      Source env now p t h index := by
  cases hg with
  | static position _ hstat => exact .inl ⟨position, hstat, rfl⟩
  | pinned position _ hstat => exact .inl ⟨position, hstat, rfl⟩
  | renewed _ _ hget hown => exact .inr (.cached index hget hown)
  | offered _ _ htype hoff =>
    right
    cases hoff with
    | cached _ hget hown => exact .cached index hget hown
    | claimed h₁ i x hfirst hreq hown =>
      exact .asked i htype hfirst.searches hfirst.canAllot hreq hown
    | allotted h₁ i x _ hfree => exact .fresh i htype hfree
    | fallback _ hping => exact .fallback htype hping

theorem Granted.isOffset {h h' : DHCPHandler} {index : Int}
    (hg : Granted env now p t h h' index) (hs : h.Sound) (hoff : h.Indexes IsOffset) :
    IsOffset index := by
  obtain ⟨position, -, rfl⟩ | hsrc := hg.source
  · exact isOffset_toNat position
  · exact hsrc.isOffset hs hoff

theorem Handled.source {h h' : DHCPHandler} {answer : Answer}
    (hh : Handled env now p t h h' answer) {a : IPv4}
    (ha : answer.offered = some a ∨ answer.acked = some a) :
    (∃ position, h.ipAssigned.lookup p.clientMac = some position ∧
      a = ipAdd h.start position.toNat) ∨
    ∃ index, Source env now p t h index ∧ a = ipAdd h.start index := by
  obtain ⟨index, hgrant, haddr⟩ := hh.granted ha
  obtain ⟨position, hstat, rfl⟩ | hsrc := hgrant.source
  · exact .inl ⟨position, hstat, haddr⟩
  · exact .inr ⟨index, hsrc, haddr⟩

/-! ## The transaction caches -/

/-- The transaction caches agree on every key but `key`. -/
structure Globals.SameExcept (key : String) (g g' : Globals) : Prop where
  seen : ∀ k, k ≠ key → g'.globalTransactionCache.peek k = g.globalTransactionCache.peek k
  requested : ∀ k, k ≠ key →
    g'.requestGlobalTransactionCache.peek k = g.requestGlobalTransactionCache.peek k

theorem judge_globals {g g' : Globals} {h h' : DHCPHandler} {addr : IPv4} {v : Verdict}
    (hj : judge now g h p t addr = (v, g', h')) : g.SameExcept (p.cacheKey t) g' := by
  have hsame : g.SameExcept (p.cacheKey t) g := ⟨fun _ _ => rfl, fun _ _ => rfl⟩
  have hset : ∀ g₁ : Globals, g₁.globalTransactionCache = g.globalTransactionCache →
      g₁.requestGlobalTransactionCache =
        g.requestGlobalTransactionCache.set now (p.cacheKey t) 1 (1 * second) →
      g.SameExcept (p.cacheKey t) g₁ := by
    intro g₁ hseen hreq
    refine ⟨fun k _ => by rw [hseen], fun k hk => ?_⟩
    rw [hreq]
    exact Cache.peek_set_ne _ _ _ _ hk
  unfold judge at hj
  simp only at hj
  repeat' split at hj
  all_goals
    cases hj
    first
    | exact hsame
    | exact hset _ rfl rfl

theorem serveRequest_globals {g g' : Globals} {h h' : DHCPHandler} {networkIP : String}
    {answer answer' : Answer}
    (hr : serveRequest env now g h networkIP p t answer = (g', h', answer')) :
    g.SameExcept (p.cacheKey t) g' := by
  unfold serveRequest at hr
  split at hr
  · cases hr
    exact ⟨fun _ _ => rfl, fun _ _ => rfl⟩
  simp only at hr
  split at hr
  · cases hr
    exact ⟨fun _ _ => rfl, fun _ _ => rfl⟩
  split at hr
  · next hj =>
    cases hr
    exact judge_globals hj
  · next hj =>
    cases hr
    exact judge_globals hj
  · next hj =>
    cases hr
    exact judge_globals hj
  · next hj =>
    have hg := judge_globals hj
    unfold acknowledge at hr
    split at hr
    · cases hr
      exact hg
    · cases hr
      exact ⟨hg.seen, hg.requested⟩

theorem serveMessage_globals {fuel : ℕ} {g g' : Globals} {h h' : DHCPHandler}
    {networkIP : String} {answer answer' : Answer}
    (hr : serveMessage env fuel now g h networkIP p t answer = some (g', h', answer')) :
    g.SameExcept (p.cacheKey t) g' := by
  have hsame : g.SameExcept (p.cacheKey t) g := ⟨fun _ _ => rfl, fun _ _ => rfl⟩
  cases t with
  | discover =>
    simp only [serveMessage, Option.map_eq_some_iff] at hr
    obtain ⟨r, -, heq⟩ := hr
    cases heq
    exact hsame
  | request => exact serveRequest_globals (Option.some.inj hr)
  | inform => exact serveRequest_globals (Option.some.inj hr)
  | release =>
    cases hr
    exact hsame
  | decline =>
    cases hr
    exact hsame
  | offer =>
    cases hr
    exact hsame
  | ack =>
    cases hr
    exact hsame
  | nak =>
    cases hr
    exact hsame

end StandaloneDHCP
