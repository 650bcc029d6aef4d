import StandaloneDHCP.Workers.DuplicateGate

/-! One worker at a time. A worker that runs from the gate to its return without anything in between
does what `serveHandler` does in one step: phase by phase its accesses follow the equations of
`retry`, `serveDiscover`, `judge`, `acknowledge` and `retire`. So every run of the server with
packets handled one after the other is a schedule of the workers, with the same replies. -/
namespace StandaloneDHCP
open Lib
set_option autoImplicit false

/-- Worker `id` goes from point `c` to point `c'` with nothing else happening. -/
def Goes (networkIP : String) (id : ℕ) (k : Worker) (s : Shared) (c : Point) (s' : Shared)
    (c' : Point) : Prop :=
  Threads.Alone (Worker.step networkIP) id (s, k.goto c) (s', k.goto c')

namespace Goes
variable {networkIP : String} {id : ℕ} {k : Worker} {s s₁ s' : Shared} {c c₁ c' : Point}

theorem refl : Goes networkIP id k s c s c := Relation.ReflTransGen.refl

theorem trans (h₁ : Goes networkIP id k s c s₁ c₁) (h₂ : Goes networkIP id k s₁ c₁ s' c') :
    Goes networkIP id k s c s' c' :=
  Relation.ReflTransGen.trans h₁ h₂

theorem single {a : Access} (hnext : (k.goto c).next networkIP s = (a, c'))
    (hacc : s.access id k a = some s') : Goes networkIP id k s c s' c' := by
  refine Relation.ReflTransGen.single ?_
  show Worker.step networkIP id s (k.goto c) = some (s', k.goto c')
  have hacc' : s.access id (k.goto c) a = some s' := hacc
  rw [Worker.step, hnext, hacc']
  rfl

theorem read (hnext : (k.goto c).next networkIP s = (.read, c')) :
    Goes networkIP id k s c s c' :=
  single hnext rfl

/-- `GlobalTransactionLock.Lock` while nobody holds it. -/
theorem enter (hfree : s.locked = none) (hnext : (k.goto c).next networkIP s = (.acquire, c')) :
    Goes networkIP id k s c { s with locked := some id } c' :=
  single hnext (if_pos hfree)

end Goes

theorem Shared.unlocked_eq {s : Shared} (hfree : s.locked = none) :
    { s with locked := none } = s := by
  cases s
  cases hfree
  rfl

section Phases
variable {networkIP : String} {id : ℕ} {k : Worker} {s : Shared}

/-! ## DISCOVER -/

theorem replyOffer_of_settings {h h' : DHCPHandler} (hset : h'.settings = h.settings) (env : Env)
    (networkIP : String) (p : Packet) (answer : Answer) (free : Int) :
    replyOffer env h' networkIP p answer free = replyOffer env h networkIP p answer free := by
  unfold replyOffer
  rw [DHCPHandler.ip_of_settings hset, DHCPHandler.options_of_settings hset,
    DHCPHandler.start_of_settings hset, DHCPHandler.leaseDuration_of_settings hset]

/-- The handler between the two `hwcache.Set` of an attempt. -/
def probed (s : Shared) (k : Worker) (free : Int) : DHCPHandler :=
  (s.handler.lock s.now k.mac free (5 * second)).setXid s.now k.p

theorem goes_probe (networkIP : String) (id : ℕ) (k : Worker) (s : Shared) (round : ℕ)
    (free : Int) :
    Goes networkIP id k s (.lockCandidate round free) (s.setHandler (probed s k free))
      (if k.env.ping round (ipAdd s.handler.start free) then .deleteBusy round free
       else .lockOffer round free) :=
  .trans (.single rfl rfl) (.single rfl rfl)

theorem goes_offer (round : ℕ) (free : Int)
    (hping : k.env.ping round (ipAdd s.handler.start free) = false) :
    Goes networkIP id k s (.lockCandidate round free)
      (s.setHandler (((probed s k free).lock s.now k.mac free (5 * second)).replaceXid s.now k.p))
      (.done (replyOffer k.env s.handler networkIP k.p k.answer free)) := by
  have hprobe := goes_probe networkIP id k s round free
  rw [hping] at hprobe
  exact hprobe.trans (.trans (.single rfl rfl) (.single rfl rfl))

theorem goes_busy (round : ℕ) (free : Int)
    (hping : k.env.ping round (ipAdd s.handler.start free) = true) :
    Goes networkIP id k s (.lockCandidate round free)
      (s.setHandler (((probed s k free).evict s.now k.mac).quarantine s.now free))
      (.countFree (round + 1) false 0) := by
  have hprobe := goes_probe networkIP id k s round free
  rw [hping] at hprobe
  exact hprobe.trans (.trans (.single rfl rfl) (.trans (.single rfl rfl) (.single rfl rfl)))

theorem goes_grab_full {round : ℕ} {free : Int}
    (hgrab : grabNext s.handler.available (k.env.choice round) k.mac free = none) :
    Goes networkIP id k s (Worker.candidate round free) s (.done k.answer) := by
  unfold grabNext at hgrab
  split_ifs at hgrab with hfree
  subst hfree
  rcases hget : s.handler.available.getFreeIPIndex (k.env.choice round) k.mac with
    ⟨dp, i, m, _ | error⟩
  · simp [hget] at hgrab
  · exact .read (by simp [Worker.next, Worker.candidate, hget])

theorem goes_grab {round : ℕ} {free free' : Int} {available : DHCPPool}
    (hgrab : grabNext s.handler.available (k.env.choice round) k.mac free =
      some (available, free')) :
    Goes networkIP id k s (Worker.candidate round free) (s.setPool available)
      (.lockCandidate round free') := by
  unfold grabNext at hgrab
  split_ifs at hgrab with hfree
  · subst hfree
    rcases hget : s.handler.available.getFreeIPIndex (k.env.choice round) k.mac with
      ⟨dp, i, m, _ | error⟩
    · simp only [hget, Option.some.injEq, Prod.mk.injEq] at hgrab
      obtain ⟨rfl, rfl⟩ := hgrab
      have hacc : s.access id k (.grab (k.env.choice round)) = some (s.setPool dp) := by
        show some (s.setPool (s.handler.available.getFreeIPIndex (k.env.choice round) k.mac).1) = _
        rw [hget]
      exact .single (by simp [Worker.next, Worker.candidate, hget]) hacc
    · simp [hget] at hgrab
  · cases hgrab
    rw [Worker.candidate, if_neg hfree]
    exact .refl

theorem candidate_natCast (round n : ℕ) :
    Worker.candidate round (n : Int) = .lockCandidate round n := by
  rw [Worker.candidate, if_neg (by omega)]

theorem goes_own {round element : ℕ} {free : Int} (hown : s.handler.ownerOf element = k.mac) :
    Goes networkIP id k s (.checkAsked round free element) s (.lockCandidate round element) :=
  .read (if_pos hown)

theorem goes_taken {round element : ℕ} {free : Int} (hown : s.handler.ownerOf element ≠ k.mac)
    (hfree : s.handler.ownerOf element ≠ FreeMac) :
    Goes networkIP id k s (.checkAsked round free element) s (.countFree round false free) :=
  .read ((if_neg hown).trans (if_neg hfree))

theorem goes_reserved {round element : ℕ} {free : Int} (hown : s.handler.ownerOf element ≠ k.mac)
    (hfree : s.handler.ownerOf element = FreeMac) (hres : s.Reserves element k.mac) :
    Goes networkIP id k s (.checkAsked round free element)
      (s.setPool (s.handler.available.reserveIPIndex element k.mac).1)
      (.lockCandidate round element) :=
  .trans (.read ((if_neg hown).trans (if_pos hfree)))
    (.single (congrArg (Prod.mk _) (if_pos hres)) rfl)

theorem goes_unreserved {round element : ℕ} {free : Int}
    (hown : s.handler.ownerOf element ≠ k.mac) (hfree : s.handler.ownerOf element = FreeMac)
    (hres : ¬ s.Reserves element k.mac) :
    Goes networkIP id k s (.checkAsked round free element)
      (s.setPool (s.handler.available.reserveIPIndex element k.mac).1)
      (Worker.candidate round free) :=
  .trans (.read ((if_neg hown).trans (if_pos hfree)))
    (.single (congrArg (Prod.mk _) (if_neg hres)) rfl)

theorem goes_asking {round : ℕ} {free : Int} (hany : s.handler.available.freeIPsRemaining ≠ 0)
    {v : Bytes} (hoption : k.p.options optionRequestedIPAddress = some v) {a : BitVec 32}
    (ha : beUint32 v = some a) :
    Goes networkIP id k s (.countFree round true free) s
      (.checkAsked round free (a - s.handler.start).toNat) :=
  .read (by simp only [Worker.next, Worker.goto_point, Worker.goto_p, if_neg hany, hoption, ha])

theorem goes_asked {round : ℕ} {firstTry : Bool} {free free' : Int} {available : DHCPPool}
    (hany : s.handler.available.freeIPsRemaining ≠ 0)
    (hasked : tryRequested s.handler k.p firstTry free = .candidate available free') :
    Goes networkIP id k s (.countFree round firstTry free) (s.setPool available)
      (Worker.candidate round free') := by
  have hsame : s.setPool s.handler.available = s := rfl
  unfold tryRequested at hasked
  split at hasked
  · next v hoption =>
    split at hasked
    · cases hasked
    · next a ha =>
      dsimp only at hasked
      split_ifs at hasked with hown hfree hres
      · cases hasked
        rw [hsame, candidate_natCast]
        exact (goes_asking hany hoption ha).trans (goes_own hown)
      · cases hasked
        rw [candidate_natCast]
        exact (goes_asking hany hoption ha).trans (goes_reserved hown hfree hres)
      · cases hasked
        exact (goes_asking hany hoption ha).trans (goes_unreserved hown hfree hres)
  · next hoption =>
    cases hasked
    rw [hsame]
    refine .read ?_
    simp only [Worker.next, Worker.goto_point, Worker.goto_p, if_neg hany]

theorem tryRequested_panicked {h : DHCPHandler} {p : Packet} {firstTry : Bool} {free : Int}
    (hasked : tryRequested h p firstTry free = .panicked) :
    ∃ v, p.options optionRequestedIPAddress = some v ∧ firstTry = true ∧ beUint32 v = none := by
  unfold tryRequested at hasked
  split at hasked
  · next v hoption =>
    split at hasked
    · next hv => exact ⟨v, hoption, rfl, hv⟩
    · dsimp only at hasked
      split_ifs at hasked
  · cases hasked

theorem tryRequested_taken {h : DHCPHandler} {p : Packet} {firstTry : Bool} {free : Int}
    (hasked : tryRequested h p firstTry free = .taken) :
    ∃ v a, p.options optionRequestedIPAddress = some v ∧ firstTry = true ∧ beUint32 v = some a ∧
      h.ownerOf (a - h.start).toNat ≠ p.clientMac ∧ h.ownerOf (a - h.start).toNat ≠ FreeMac := by
  unfold tryRequested at hasked
  split at hasked
  · next v hoption =>
    split at hasked
    · cases hasked
    · next a ha =>
      dsimp only at hasked
      split_ifs at hasked with hown hfree
      exact ⟨v, a, hoption, rfl, ha, hown, hfree⟩
  · cases hasked

/-- The answer to a DISCOVER for which `retry` found the index, or none. -/
def offerOf (networkIP : String) (k : Worker) (h : DHCPHandler) : Option Int → Answer
  | none => k.answer
  | some free => replyOffer k.env h networkIP k.p k.answer free

/-- The block at the `retry` label. -/
theorem goes_retry {fuel round : ℕ} {firstTry : Bool} {free : Int} {h : DHCPHandler}
    {result : Option Int}
    (hretry : retry k.env s.now k.p fuel round firstTry free s.handler = some (h, result)) :
    Goes networkIP id k s (.countFree round firstTry free) (s.setHandler h)
      (.done (offerOf networkIP k h result)) := by
  induction fuel generalizing s round firstTry free with
  | zero => cases hretry
  | succ fuel ih =>
    rw [retry] at hretry
    by_cases hany : s.handler.available.freeIPsRemaining = 0
    · rw [if_pos hany] at hretry
      cases hretry
      exact .read (if_pos hany)
    rw [if_neg hany] at hretry
    cases hasked : tryRequested s.handler k.p firstTry free with
    | panicked =>
      rw [hasked] at hretry
      cases hretry
      obtain ⟨v, hoption, rfl, hv⟩ := tryRequested_panicked hasked
      exact .read (by simp only [Worker.next, Worker.goto_point, Worker.goto_p, if_neg hany,
        hoption, hv, Worker.goto_answer, offerOf])
    | taken =>
      rw [hasked] at hretry
      obtain ⟨v, a, hoption, rfl, ha, hown, hfree⟩ := tryRequested_taken hasked
      exact ((goes_asking hany hoption ha).trans (goes_taken hown hfree)).trans (ih hretry)
    | candidate available free' =>
      rw [hasked] at hretry
      dsimp only at hretry
      refine (goes_asked hany hasked).trans ?_
      cases hgrab : grabNext available (k.env.choice round) k.p.clientMac free' with
      | none =>
        rw [hgrab] at hretry
        cases hretry
        exact goes_grab_full (s := s.setPool available) hgrab
      | some r =>
        obtain ⟨available', free''⟩ := r
        rw [hgrab] at hretry
        dsimp only at hretry
        refine (goes_grab (s := s.setPool available) hgrab).trans ?_
        split_ifs at hretry with hping
        · exact (goes_busy (s := s.setPool available') round free'' hping).trans (ih hretry)
        · cases hretry
          exact goes_offer (s := s.setPool available') round free'' (Bool.not_eq_true _ ▸ hping)

theorem goes_allocate {fuel : ℕ} {h : DHCPHandler} {answer : Answer}
    (hallocate : allocate k.env fuel s.now s.handler networkIP k.p k.answer = some (h, answer)) :
    Goes networkIP id k s (.countFree 0 true (-1)) (s.setHandler h) (.done answer) := by
  obtain ⟨⟨h', result⟩, hretry, heq⟩ := Option.map_eq_some_iff.mp hallocate
  have hgoes : Goes networkIP id k s (.countFree 0 true (-1)) (s.setHandler h')
      (.done (offerOf networkIP k h' result)) := goes_retry hretry
  cases result with
  | none =>
    cases heq
    exact hgoes
  | some free =>
    cases heq
    exact hgoes

theorem goes_confirm {free : Int} {h : DHCPHandler} {answer : Answer}
    (hconfirm : confirm k.env s.now s.handler networkIP k.p k.answer free = (h, answer)) :
    Goes networkIP id k s (.replaceCached free) (s.setHandler h) (.done answer) := by
  unfold confirm at hconfirm
  cases hrep : s.handler.hwcache.replace s.now k.p.clientMac free (5 * second) with
  | none =>
    rw [hrep] at hconfirm
    cases hconfirm
    exact .read (by simp [Worker.next, hrep])
  | some hwcache =>
    rw [hrep] at hconfirm
    cases hconfirm
    obtain ⟨-, rfl⟩ := Cache.replace_eq_some.mp hrep
    have hset : (s.handler.lock s.now k.mac free (5 * second)).settings = s.handler.settings := rfl
    have hnext : (k.goto (.replaceCached free)).next networkIP s = (.lock free (5 * second),
        .done (replyOffer k.env (s.handler.lock s.now k.mac free (5 * second)) networkIP k.p
          k.answer free)) := by
      rw [replyOffer_of_settings hset]
      simp [Worker.next, hrep]
    exact .single hnext rfl

theorem goes_regain {x : Int} (hown : s.handler.ownerOf x ≠ k.mac)
    (hfree : s.handler.ownerOf x = FreeMac) :
    Goes networkIP id k s (.checkCached x) (s.setHandler (s.handler.evict s.now k.mac))
      (.reserveCached x) :=
  .trans (.read ((if_neg hown).trans (if_pos hfree))) (.single rfl rfl)

theorem goes_discover {fuel : ℕ} {h : DHCPHandler} {answer : Answer} (htype : k.t = .discover)
    (hserve : serveDiscover k.env fuel s.now s.handler networkIP k.p k.answer =
      some (h, answer)) :
    Goes networkIP id k s (k.dispatch s.handler networkIP) (s.setHandler h) (.done answer) := by
  unfold serveDiscover at hserve
  cases hstatic : s.handler.ipAssigned.lookup k.p.clientMac with
  | some position =>
    rw [hstatic] at hserve
    cases hserve
    simp only [Worker.dispatch, htype, hstatic]
    exact .refl
  | none =>
    rw [hstatic] at hserve
    have hdispatch : k.dispatch s.handler networkIP = .getCached := by
      simp only [Worker.dispatch, htype, hstatic]
    rw [hdispatch]
    cases hget : s.handler.hwcache.get s.now k.p.clientMac with
    | none =>
      rw [hget] at hserve
      have hmiss : Goes networkIP id k s .getCached s (.countFree 0 true (-1)) :=
        .read (by simp [Worker.next, hget])
      exact hmiss.trans (goes_allocate hserve)
    | some x =>
      rw [hget] at hserve
      dsimp only at hserve
      have hhit : Goes networkIP id k s .getCached s (.checkCached x) :=
        .read (by simp [Worker.next, hget])
      refine hhit.trans ?_
      split_ifs at hserve with hown hfree hres
      · exact .trans (.read (if_pos hown)) (goes_confirm (Option.some.inj hserve))
      · exact (goes_regain hown hfree).trans (.trans
          (.single (congrArg (Prod.mk _) (if_pos hres)) rfl)
          (goes_confirm (Option.some.inj hserve)))
      · exact (goes_regain hown hfree).trans (.trans
          (.single (congrArg (Prod.mk _) (if_neg hres)) rfl) (goes_allocate hserve))
      · exact .trans (.read ((if_neg hown).trans (if_neg hfree))) (goes_allocate hserve)

/-! ## REQUEST, INFORM, RELEASE and DECLINE -/

/-- The shared state after an ACK of `addr`. -/
def leased (s : Shared) (k : Worker) (addr : IPv4) (index : Int) (reply : Reply) : Shared :=
  let s := ((s.setIp k addr).setMac k addr).lease k index reply
  s.setHandler (s.handler.reserve index k.mac)

theorem goes_ack {addr : IPv4} {index : Int} {reply : Reply} :
    Goes networkIP id k s (.setIp addr index reply) (leased s k addr index reply)
      (.done { k.requested with d := some reply }) :=
  .trans (.single rfl rfl) (.trans (.single rfl rfl) (.trans (.single rfl rfl) (.single rfl rfl)))

/-- The shared states that differ in the ghosts only. -/
def Shared.Same (s : Shared) (g : Globals) (h : DHCPHandler) (deletes : List String)
    (s' : Shared) : Prop :=
  s'.now = s.now ∧ s'.globals = g ∧ s'.handler = h ∧ s'.locked = none ∧ s'.deletes = deletes

theorem goes_acknowledge (hfree : s.locked = none) {addr : IPv4} {index : Int} {g : Globals}
    {h : DHCPHandler} {answer : Answer}
    (hack : acknowledge k.env s.now s.globals s.handler networkIP k.p k.requested addr index =
      (g, h, answer)) :
    ∃ s', Goes networkIP id k s (k.acknowledge s.handler networkIP addr index) s' (.done answer) ∧
      s.Same g h s.deletes s' := by
  unfold acknowledge at hack
  unfold Worker.acknowledge
  cases hbuild : buildReplyOptions k.env.toReplyEnv s.handler.options k.p networkIP
      k.p.clientMac with
  | none =>
    rw [hbuild] at hack
    cases hack
    exact ⟨s, .refl, rfl, rfl, rfl, hfree, rfl⟩
  | some options =>
    rw [hbuild] at hack
    cases hack
    exact ⟨_, goes_ack, rfl, rfl, rfl, hfree, rfl⟩

theorem goes_duplicate (hfree : s.locked = none) {addr : IPv4} {index x : Int}
    (hseen : s.globals.requestGlobalTransactionCache.get s.now (k.p.cacheKey k.t) = some x) :
    Goes networkIP id k s (.lockSeen addr index) s (.done k.requested) := by
  have hget : Goes networkIP id k { s with locked := some id } (.getSeen addr index)
      { s with locked := some id } (.unlockSeen addr index none) :=
    .read (by simp [Worker.next, hseen])
  have hleave : Goes networkIP id k { s with locked := some id } (.unlockSeen addr index none)
      { s with locked := none } (.done k.requested) := .single rfl rfl
  rw [Shared.unlocked_eq hfree] at hleave
  exact (Goes.enter hfree rfl).trans (hget.trans hleave)

theorem goes_judged (hfree : s.locked = none) {addr : IPv4} {index : Int}
    (hseen : s.globals.requestGlobalTransactionCache.get s.now (k.p.cacheKey k.t) = none) :
    Goes networkIP id k s (.lockSeen addr index) (s.noteRequest k)
      (if s.handler.ownerOf index = k.mac then k.acknowledge s.handler networkIP addr index
       else .done (k.nak s.handler)) := by
  have hget : Goes networkIP id k { s with locked := some id } (.getSeen addr index)
      { s with locked := some id } (.checkOwner addr index) :=
    .read (by simp [Worker.next, hseen])
  have hset : ∀ reply, Goes networkIP id k { s with locked := some id }
      (.setSeen addr index reply) { s.noteRequest k with locked := some id }
      (.unlockSeen addr index (some reply)) := fun reply => .single rfl rfl
  have hleave : ∀ reply, Goes networkIP id k { s.noteRequest k with locked := some id }
      (.unlockSeen addr index (some reply)) { s.noteRequest k with locked := none }
      (if reply then k.acknowledge s.handler networkIP addr index
       else .done (k.nak s.handler)) := by
    intro reply
    cases reply <;> exact .single rfl rfl
  have hfree' : (s.noteRequest k).locked = none := hfree
  rw [Shared.unlocked_eq hfree'] at hleave
  have henter : Goes networkIP id k s (.lockSeen addr index) { s with locked := some id }
      (.getSeen addr index) := .enter hfree rfl
  have hcheck : Goes networkIP id k { s with locked := some id } (.checkOwner addr index)
      { s with locked := some id }
      (.setSeen addr index (decide (s.handler.ownerOf index = k.mac))) := .read rfl
  have hrun := henter.trans (hget.trans (hcheck.trans ((hset _).trans (hleave _))))
  simpa only [decide_eq_true_eq] using hrun

theorem nakReply_evict (h : DHCPHandler) (now : Int) (mac : String) :
    nakReply (h.evict now mac) = nakReply h := by
  unfold nakReply
  rw [DHCPHandler.ip_of_settings (h.evict_settings now mac)]

/-- The REQUEST case once the address is valid and in the range of a dynamic client. -/
theorem goes_requested (hfree : s.locked = none) {addr : IPv4}
    (hrange : 0 ≤ ipRange s.handler.start addr - 1 ∧
      ipRange s.handler.start addr - 1 < s.handler.leaseRange)
    (hdyn : s.handler.ipAssigned.lookup k.p.clientMac = none) {g : Globals} {h : DHCPHandler}
    {answer : Answer}
    (hserve : (match judge s.now s.globals s.handler k.p k.t addr with
      | (.unknown, g, h) => (g, h, {})
      | (.duplicate, g, h) => (g, h, k.requested)
      | (.nak, g, h) => (g, h, { k.requested with d := some (nakReply h) })
      | (.ack index, g, h) => acknowledge k.env s.now g h networkIP k.p k.requested addr index) =
      (g, h, answer)) :
    ∃ s', Goes networkIP id k s (.getRequested addr) s' (.done answer) ∧
      s.Same g h s.deletes s' := by
  have hsame : s.Same s.globals s.handler s.deletes s := ⟨rfl, rfl, rfl, hfree, rfl⟩
  simp only [judge, if_pos hrange, hdyn] at hserve
  cases hget : s.handler.hwcache.get s.now k.p.clientMac with
  | none =>
    simp only [hget] at hserve
    cases hserve
    exact ⟨s, .read (by simp [Worker.next, hget]), hsame⟩
  | some index =>
    simp only [hget] at hserve
    by_cases haddr : ipAdd s.handler.start index = addr
    · have hfound : Goes networkIP id k s (.getRequested addr) s (.lockSeen addr index) :=
        .read (by simp [Worker.next, hget, haddr])
      simp only [if_pos haddr] at hserve
      cases hseen : s.globals.requestGlobalTransactionCache.get s.now (k.p.cacheKey k.t) with
      | some x =>
        simp only [hseen] at hserve
        cases hserve
        exact ⟨s, hfound.trans (goes_duplicate hfree hseen), hsame⟩
      | none =>
        simp only [hseen] at hserve
        by_cases hown : s.handler.ownerOf index = k.p.clientMac
        · have hjudged : Goes networkIP id k s (.lockSeen addr index) (s.noteRequest k)
              (if s.handler.ownerOf index = k.mac then k.acknowledge s.handler networkIP addr index
               else .done (k.nak s.handler)) := goes_judged hfree hseen
          rw [if_pos hown] at hjudged
          simp only [if_pos hown] at hserve
          have hnote : (s.noteRequest k).locked = none := hfree
          obtain ⟨s', hack, hsame'⟩ := goes_acknowledge hnote hserve
          exact ⟨s', (hfound.trans hjudged).trans hack, hsame'⟩
        · have hjudged : Goes networkIP id k s (.lockSeen addr index) (s.noteRequest k)
              (if s.handler.ownerOf index = k.mac then k.acknowledge s.handler networkIP addr index
               else .done (k.nak s.handler)) := goes_judged hfree hseen
          rw [if_neg hown] at hjudged
          simp only [if_neg hown] at hserve
          cases hserve
          exact ⟨s.noteRequest k, hfound.trans hjudged, rfl, rfl, rfl, hfree, rfl⟩
    · have hwrong : Goes networkIP id k s (.getRequested addr) s .getXid :=
        .read (by simp [Worker.next, hget, haddr])
      simp only [if_neg haddr] at hserve
      by_cases hxid : s.handler.xid.get s.now (toString k.p.xid.toNat) = some 1
      · have hmarked : Goes networkIP id k s .getXid s .deleteMismatched :=
          .read (by simp only [Worker.next, Worker.goto_point, Worker.goto_p, hxid])
        have hdelete : Goes networkIP id k s .deleteMismatched
            (s.setHandler (s.handler.evict s.now k.mac)) (.done (k.nak s.handler)) :=
          .single rfl rfl
        simp only [hxid] at hserve
        rw [nakReply_evict] at hserve
        cases hserve
        exact ⟨_, hwrong.trans (hmarked.trans hdelete), rfl, rfl, rfl, hfree, rfl⟩
      · have hunmarked : Goes networkIP id k s .getXid s (.done (k.nak s.handler)) := by
          refine .read ?_
          simp only [Worker.next, Worker.goto_point, Worker.goto_p]
          rfl
        simp only at hserve
        cases hserve
        exact ⟨s, hwrong.trans hunmarked, hsame⟩

theorem goes_request (hfree : s.locked = none) (htype : k.t = .request ∨ k.t = .inform)
    {g : Globals} {h : DHCPHandler} {answer : Answer}
    (hserve : serveRequest k.env s.now s.globals s.handler networkIP k.p k.t k.answer =
      (g, h, answer)) :
    ∃ s', Goes networkIP id k s (k.dispatch s.handler networkIP) s' (.done answer) ∧
      s.Same g h s.deletes s' := by
  have hsame : s.Same s.globals s.handler s.deletes s := ⟨rfl, rfl, rfl, hfree, rfl⟩
  have hdispatch : k.dispatch s.handler networkIP = k.request s.handler networkIP := by
    rcases htype with ht | ht <;> simp only [Worker.dispatch, ht]
  rw [hdispatch, Worker.request]
  unfold serveRequest at hserve
  split_ifs at hserve ⊢ with hother
  · cases hserve
    exact ⟨s, .refl, hsame⟩
  cases hvalid : validAddress k.p.reqIP with
  | none =>
    simp only [hvalid] at hserve
    cases hserve
    exact ⟨s, .refl, hsame⟩
  | some addr =>
    simp only [hvalid] at hserve
    dsimp only
    by_cases hrange : 0 ≤ ipRange s.handler.start addr - 1 ∧
        ipRange s.handler.start addr - 1 < s.handler.leaseRange
    · rw [if_pos hrange]
      cases hstatic : s.handler.ipAssigned.lookup k.p.clientMac with
      | none => exact goes_requested hfree hrange hstatic hserve
      | some position =>
        simp only [judge, if_pos hrange, hstatic] at hserve
        dsimp only
        split_ifs at hserve ⊢ with hposition
        · exact goes_acknowledge hfree hserve
        · cases hserve
          exact ⟨s, .refl, hsame⟩
    · rw [if_neg hrange]
      simp only [judge, if_neg hrange] at hserve
      cases hserve
      exact ⟨s, .refl, hsame⟩

/-- The state after the message was handled: what is still to be done is the deletion of the
sender's entry, which a goroutine makes after the worker has returned. -/
def Shared.Settles (s : Shared) (g : Globals) (h : DHCPHandler) (mac : String) (s' : Shared) :
    Prop :=
  s.Same g h s.deletes s' ∨
    ∃ h', s.Same g h' (s.deletes ++ [mac]) s' ∧ h'.evict s.now mac = h

theorem goes_retire (hfree : s.locked = none) (htype : k.t = .release ∨ k.t = .decline) :
    ∃ s', Goes networkIP id k s (k.dispatch s.handler networkIP) s' (.done k.answer) ∧
      s.Settles s.globals (retire s.now s.handler k.p) k.mac s' := by
  have hsame : s.Same s.globals s.handler s.deletes s := ⟨rfl, rfl, rfl, hfree, rfl⟩
  have hdispatch : k.dispatch s.handler networkIP = k.retire s.handler := by
    rcases htype with ht | ht <;> simp only [Worker.dispatch, ht]
  rw [hdispatch, Worker.retire, retire]
  cases haddr : (to4 k.p.reqIP).bind beUint32 with
  | none => exact ⟨s, .refl, .inl hsame⟩
  | some addr =>
    dsimp only
    by_cases hrange : 0 ≤ ipRange s.handler.start addr - 1 ∧
        ipRange s.handler.start addr - 1 < s.handler.leaseRange
    · rw [if_pos hrange, if_pos hrange]
      generalize ipRange s.handler.start addr - 1 = leaseNum
      cases hget : s.handler.hwcache.get s.now k.p.clientMac with
      | none => exact ⟨s, .read (by simp [Worker.next, hget]), .inl hsame⟩
      | some x =>
        dsimp only
        by_cases hx : leaseNum = x
        · subst hx
          have hfound : Goes networkIP id k s (.getRetired leaseNum) s (.checkRetired leaseNum) :=
            .read (by simp [Worker.next, hget])
          by_cases hown : s.handler.ownerOf leaseNum = k.p.clientMac
          · rw [if_pos ⟨rfl, hown⟩]
            have hcheck : Goes networkIP id k s (.checkRetired leaseNum) s
                (.reserveRetired leaseNum) := .read (congrArg (Prod.mk _) (if_pos hown))
            have hrest : Goes networkIP id k s (.reserveRetired leaseNum)
                { s.setHandler (s.handler.quarantine s.now leaseNum) with
                  deletes := s.deletes ++ [k.mac] } (.done k.answer) :=
              .trans (.single rfl rfl) (.trans (.single rfl rfl) (.single rfl rfl))
            exact ⟨_, hfound.trans (hcheck.trans hrest), .inr ⟨s.handler.quarantine s.now leaseNum,
              ⟨rfl, rfl, rfl, hfree, rfl⟩, rfl⟩⟩
          · rw [if_neg fun h => hown h.2]
            have hcheck : Goes networkIP id k s (.checkRetired leaseNum) s (.done k.answer) :=
              .read (congrArg (Prod.mk _) (if_neg hown))
            exact ⟨s, hfound.trans hcheck, .inl hsame⟩
        · rw [if_neg fun h => hx h.1]
          exact ⟨s, .read (by simp [Worker.next, hget, hx]), .inl hsame⟩
    · rw [if_neg hrange, if_neg hrange]
      exact ⟨s, .refl, .inl hsame⟩

/-! ## The whole call -/

theorem goes_message {fuel : ℕ} {g : Globals} {h : DHCPHandler} {answer : Answer}
    (hfree : s.locked = none)
    (hserve : serveMessage k.env fuel s.now s.globals s.handler networkIP k.p k.t k.answer =
      some (g, h, answer)) :
    ∃ s', Goes networkIP id k s (k.dispatch s.handler networkIP) s' (.done answer) ∧
      s.Settles g h k.mac s' := by
  have hrequest : (k.t = .request ∨ k.t = .inform) →
      serveRequest k.env s.now s.globals s.handler networkIP k.p k.t k.answer = (g, h, answer) →
      ∃ s', Goes networkIP id k s (k.dispatch s.handler networkIP) s' (.done answer) ∧
        s.Settles g h k.mac s' := by
    intro htype heq
    obtain ⟨s', hgoes, hsame⟩ := goes_request hfree htype heq
    exact ⟨s', hgoes, .inl hsame⟩
  have hanswered : (k.t = .offer ∨ k.t = .ack ∨ k.t = .nak) →
      some (s.globals, s.handler, { k.answer with d := some (nakReply s.handler) }) =
        some (g, h, answer) →
      ∃ s', Goes networkIP id k s (k.dispatch s.handler networkIP) s' (.done answer) ∧
        s.Settles g h k.mac s' := by
    intro htype heq
    cases heq
    refine ⟨s, ?_, .inl ⟨rfl, rfl, rfl, hfree, rfl⟩⟩
    have hdispatch : k.dispatch s.handler networkIP =
        .done { k.answer with d := some (nakReply s.handler) } := by
      rcases htype with ht | ht | ht <;> simp only [Worker.dispatch, ht]
    rw [hdispatch]
    exact .refl
  have hretire : (k.t = .release ∨ k.t = .decline) →
      some (s.globals, retire s.now s.handler k.p, k.answer) = some (g, h, answer) →
      ∃ s', Goes networkIP id k s (k.dispatch s.handler networkIP) s' (.done answer) ∧
        s.Settles g h k.mac s' := by
    intro htype heq
    cases heq
    exact goes_retire hfree htype
  cases ht : k.t with
  | discover =>
    rw [serveMessage.eq_def, ht] at hserve
    obtain ⟨⟨h', answer'⟩, hdiscover, heq⟩ := Option.map_eq_some_iff.mp hserve
    cases heq
    exact ⟨_, goes_discover ht hdiscover, .inl ⟨rfl, rfl, rfl, hfree, rfl⟩⟩
  | request =>
    rw [serveMessage.eq_def, ht] at hserve
    exact hrequest (.inl ht) (ht ▸ Option.some.inj hserve)
  | inform =>
    rw [serveMessage.eq_def, ht] at hserve
    exact hrequest (.inr ht) (ht ▸ Option.some.inj hserve)
  | release =>
    rw [serveMessage.eq_def, ht] at hserve
    exact hretire (.inl ht) hserve
  | decline =>
    rw [serveMessage.eq_def, ht] at hserve
    exact hretire (.inr ht) hserve
  | offer =>
    rw [serveMessage.eq_def, ht] at hserve
    exact hanswered (.inl ht) hserve
  | ack =>
    rw [serveMessage.eq_def, ht] at hserve
    exact hanswered (.inr (.inl ht)) hserve
  | nak =>
    rw [serveMessage.eq_def, ht] at hserve
    exact hanswered (.inr (.inr ht)) hserve

/-- A worker that is not interrupted does what `serveHandler` does. -/
theorem goes_serve {fuel : ℕ} {g : Globals} {h : DHCPHandler} {answer : Answer}
    (hfree : s.locked = none)
    (hserve : serveHandler k.env fuel s.now s.globals s.handler networkIP k.p k.t k.answer =
      some (g, h, answer)) :
    ∃ s', Goes networkIP id k s .lockGate s' (.done answer) ∧ s.Settles g h k.mac s' := by
  have henter : Goes networkIP id k s .lockGate { s with locked := some id } .getGate :=
    .enter hfree rfl
  unfold serveHandler at hserve
  cases hget : s.globals.globalTransactionCache.get s.now (k.p.cacheKey k.t) with
  | some x =>
    rw [hget] at hserve
    cases hserve
    have hfound : Goes networkIP id k { s with locked := some id } .getGate
        { s with locked := some id } (.unlockGate true) := .read (by simp [Worker.next, hget])
    have hleave : Goes networkIP id k { s with locked := some id } (.unlockGate true)
        { s with locked := none } (.done k.answer) := .single rfl rfl
    rw [Shared.unlocked_eq hfree] at hleave
    exact ⟨s, henter.trans (hfound.trans hleave), .inl ⟨rfl, rfl, rfl, hfree, rfl⟩⟩
  | none =>
    rw [hget] at hserve
    have hnew : Goes networkIP id k { s with locked := some id } .getGate
        { s with locked := some id } .setGate := .read (by simp [Worker.next, hget])
    have hpass : Goes networkIP id k { s with locked := some id } .setGate
        { s.pass k with locked := some id } (.unlockGate false) := .single rfl rfl
    have hleave : Goes networkIP id k { s.pass k with locked := some id } (.unlockGate false)
        { s.pass k with locked := none } (k.dispatch s.handler networkIP) := .single rfl rfl
    have hfree' : (s.pass k).locked = none := hfree
    rw [Shared.unlocked_eq hfree'] at hleave
    obtain ⟨s', hgoes, hsettles⟩ := goes_message (s := s.pass k) hfree' hserve
    exact ⟨s', henter.trans (hnew.trans (hpass.trans (hleave.trans hgoes))), hsettles⟩

end Phases

/-! ## Whole runs -/

/-- A record of a packet that got a reply: the sender, the type and the answer. -/
def Record.sent (r : Record) : Option (String × MessageType × Answer) :=
  if r.answer.d.isSome then some (r.mac, r.messageType, r.answer) else none

/-- What a worker that has returned hands to the sending side. -/
def Worker.sent (k : Worker) : Option (String × MessageType × Answer) :=
  match k.point with
  | .done answer => if answer.d.isSome then some (k.mac, k.t, answer) else none
  | _ => none

/-- Between two packets of a sequential run: the workers have all returned, the goroutines that
they started have ended, and the replies were the same in the same order. -/
structure Serving.Follows (c : Serving) (w : World) : Prop where
  now : c.shared.now = w.now
  globals : c.shared.globals = w.globals
  handler : c.shared.handler = w.handler
  unlocked : c.shared.locked = none
  deleted : c.shared.deletes = []
  returned : ∀ k ∈ c.locals, ∃ answer, k.point = .done answer
  replies : (c.locals.filterMap Worker.sent).reverse = w.log.filterMap Record.sent

namespace Serving.Follows
variable {cfg : ScopeConfig} {network : IPNet} {ipv4 : Option IPv4} {now : Int} {c : Serving}
  {w w' : World}

theorem init : (Serving.init cfg now).Follows (World.init cfg network ipv4 now) where
  now := rfl
  globals := rfl
  handler := rfl
  unlocked := rfl
  deleted := rfl
  returned := by simp [Serving.init]
  replies := rfl

/-- The worker of a packet has returned and the deletion it left behind is made. -/
theorem after (hf : c.Follows w) {p : Packet} {t : MessageType} {g : Globals} {h : DHCPHandler}
    {answer : Answer} {k : Worker} (hp : k.p = p) (ht : k.t = t) {s : Shared}
    (hsame : c.shared.Same g h [] s) :
    Serving.Follows ⟨s, c.locals ++ [k.goto (.done answer)]⟩ (w.after p t g h answer) := by
  obtain ⟨hnow, hglobals, hhandler, hfree, hdeletes⟩ := hsame
  subst hp ht
  refine ⟨hnow.trans hf.now, hglobals, hhandler, hfree, hdeletes, ?_, ?_⟩
  · intro u hu
    rcases List.mem_append.mp hu with hu | hu
    · exact hf.returned u hu
    · rw [List.mem_singleton] at hu
      exact ⟨answer, hu ▸ rfl⟩
  · have hlast : (k.goto (.done answer)).sent =
        Record.sent ⟨w.now, k.p.clientMac, k.t, answer⟩ := rfl
    rw [List.filterMap_append, List.reverse_append, hf.replies, World.after,
      List.filterMap_cons (f := Record.sent), ← hlast]
    cases hsent : (k.goto (.done answer)).sent <;> simp [hsent]

/-- The turns of one packet: the worker starts, runs to its return, and the deletion follows. -/
theorem packet (hf : c.Follows w) {p : Packet} {t : MessageType} {env : Env} {fuel : ℕ}
    (hstep : w.step (.packet p t env fuel) = some w') :
    ∃ c', Reaches (Serving.step w.network.network.text) (fun _ e => Starts e ∧ True) c c' ∧
      c'.Follows w' := by
  obtain ⟨g, h, answer, hserve, rfl⟩ := World.step_packet hstep
  unfold World.serve at hserve
  split_ifs at hserve with hsel
  · let k := Worker.call p t env w.ipv4
    have hstart : Reaches (Serving.step w.network.network.text) (fun _ e => Starts e ∧ True) c
        ⟨c.shared, c.locals ++ [k]⟩ := .next (e := .start k) .start ⟨rfl, trivial⟩ rfl
    have hserve' : serveHandler k.env fuel c.shared.now c.shared.globals c.shared.handler
        w.network.network.text k.p k.t k.answer = some (g, h, answer) := by
      rw [hf.now, hf.globals, hf.handler]
      exact hserve
    obtain ⟨s', hgoes, hsettles⟩ : ∃ s', Goes w.network.network.text c.locals.length k c.shared
        .lockGate s' (.done answer) ∧ c.shared.Settles g h k.mac s' :=
      goes_serve hf.unlocked hserve'
    have hlast : (c.locals ++ [k])[c.locals.length]? = some (k.goto .lockGate) := by simp [k]; rfl
    have halone : Reaches (Serving.step w.network.network.text) (fun _ e => Starts e ∧ True)
        ⟨c.shared, c.locals ++ [k]⟩
        ⟨s', (c.locals ++ [k]).set c.locals.length (k.goto (.done answer))⟩ :=
      Threads.Alone.reaches hgoes hlast fun _ => ⟨trivial, trivial⟩
    rw [List.set_append_right _ _ le_rfl, Nat.sub_self, List.set_cons_zero] at halone
    obtain hsame | ⟨h', ⟨hnow, hglobals, hhandler, hfree, hdeletes⟩, hevict⟩ := hsettles
    · exact ⟨_, hstart.trans halone, hf.after rfl rfl (hf.deleted ▸ hsame)⟩
    · rw [hf.deleted] at hdeletes
      have hdelete : Serving.step w.network.network.text ⟨s', c.locals ++ [k.goto (.done answer)]⟩
          (.outside (.delete 0)) = some ⟨{ s'.setHandler h with deletes := [] },
            c.locals ++ [k.goto (.done answer)]⟩ := by
        simp [Serving.step, Threads.step, Shared.outside, hdeletes, hhandler, hnow, hevict]
      have hstarts : Starts (.outside (.delete 0)) ∧ True := ⟨trivial, trivial⟩
      refine ⟨_, .next (hstart.trans halone) hstarts hdelete, ?_⟩
      exact hf.after rfl rfl ⟨hnow, hglobals, rfl, hfree, rfl⟩
  · cases hserve
    refine ⟨c, .start, hf.now, hf.globals, hf.handler, hf.unlocked, hf.deleted, hf.returned, ?_⟩
    exact hf.replies

theorem outside (hf : c.Follows w) {e : Outside} {s : Shared}
    (hs : c.shared.outside e = some s)
    (hsame : s.now = w'.now ∧ s.globals = w'.globals ∧ s.handler = w'.handler ∧
      s.locked = c.shared.locked ∧ s.deletes = c.shared.deletes) (hlog : w'.log = w.log)
    {networkIP : String} :
    ∃ c', Reaches (Serving.step networkIP) (fun _ e => Starts e ∧ True) c c' ∧ c'.Follows w' := by
  obtain ⟨hnow, hglobals, hhandler, hlocked, hdeletes⟩ := hsame
  have hstep : Serving.step networkIP c (.outside e) = some ⟨s, c.locals⟩ := by
    simp [Serving.step, Threads.step, hs]
  refine ⟨⟨s, c.locals⟩, .next (e := .outside e) .start ⟨trivial, trivial⟩ hstep, hnow, hglobals,
    hhandler, hlocked.trans hf.unlocked, hdeletes.trans hf.deleted, hf.returned, ?_⟩
  rw [hlog]
  exact hf.replies

theorem step (hf : c.Follows w) {e : Event} (hstep : w.step e = some w') :
    ∃ c', Reaches (Serving.step w.network.network.text) (fun _ e => Starts e ∧ True) c c' ∧
      c'.Follows w' := by
  cases e with
  | packet p t env fuel => exact hf.packet hstep
  | tick d =>
    cases hstep
    refine hf.outside (e := .tick d) rfl ⟨?_, ?_, ?_, rfl, rfl⟩ ?_
    · exact congrArg (· + (d : Int)) hf.now
    · exact hf.globals
    · exact hf.handler
    · rfl
  | purge =>
    cases hstep
    refine hf.outside (e := .purge) rfl ⟨?_, ?_, ?_, rfl, rfl⟩ ?_
    · exact hf.now
    · exact hf.globals
    · show c.shared.handler.purge c.shared.now = w.handler.purge w.now
      rw [hf.handler, hf.now]
    · rfl
  | fire j =>
    simp only [World.step] at hstep
    split at hstep
    · next task htask =>
      split_ifs at hstep with hdue
      cases hstep
      rw [← hf.handler] at htask
      rw [← hf.now] at hdue
      have hfire : c.shared.outside (.fire j) =
          some (c.shared.setHandler (c.shared.handler.fire c.shared.now j task)) := by
        simp only [Shared.outside, htask, if_pos hdue]
      refine hf.outside hfire ⟨?_, ?_, ?_, rfl, rfl⟩ ?_
      · exact hf.now
      · exact hf.globals
      · show c.shared.handler.fire c.shared.now j task = w.handler.fire w.now j task
        rw [hf.handler, hf.now]
      · rfl
    · cases hstep

end Serving.Follows

theorem World.step_network {w w' : World} {e : Event} (hstep : w.step e = some w') :
    w'.network.network = w.network.network := by
  cases e with
  | packet p t env fuel =>
    obtain ⟨g, h, answer, -, rfl⟩ := step_packet hstep
    rfl
  | tick d =>
    cases hstep
    rfl
  | purge =>
    cases hstep
    rfl
  | fire j =>
    simp only [step] at hstep
    split at hstep
    · split_ifs at hstep
      cases hstep
      rfl
    · cases hstep

/-- Every run that handles the packets one after the other is a schedule of the workers: it ends in
the same state, and the workers return the same replies in the same order. -/
theorem sequential_runs_are_schedules {ok : World → Event → Prop} {cfg : ScopeConfig}
    {network : IPNet} {ipv4 : Option IPv4} {now : Int} {w : World}
    (hrun : World.RunsTo ok cfg network ipv4 now w) :
    ∃ c, Serving.RunsTo network.text (fun _ _ => True) cfg now c ∧ c.Follows w := by
  suffices hinv : w.network.network = network ∧
      ∃ c, Serving.RunsTo network.text (fun _ _ => True) cfg now c ∧ c.Follows w from hinv.2
  refine Reaches.invariant (fun w => w.network.network = network ∧
    ∃ c, Serving.RunsTo network.text (fun _ _ => True) cfg now c ∧ c.Follows w) hrun
    ⟨rfl, Serving.init cfg now, .start, .init⟩ ?_
  rintro w e w' ⟨hnet, c, hc, hf⟩ - hstep
  obtain ⟨c', hc', hf'⟩ := hf.step hstep
  rw [hnet] at hc'
  exact ⟨(World.step_network hstep).trans hnet, c', hc.trans hc', hf'⟩

/-- A lease, a request for another address and a RELEASE. -/
theorem sequential_runs_are_schedules_sample : ∃ w, World.RunsTo (fun _ _ => True)
      (Sample.scope [] []) Sample.network none 0 w ∧ (w.log.filterMap Record.sent).length = 3 ∧
    ∃ c, Serving.RunsTo Sample.network.text (fun _ _ => True) (Sample.scope [] []) 0 c ∧
      c.Follows w := by
  let first := Sample.send [2, 0, 0, 0, 0, 1]
  let es := [first 1 none .discover, first 1 (some 0x0a00000a#32) .request, .tick 2000000000,
    first 2 (some 0x0a00000c#32) .request, .purge, first 3 (some 0x0a00000a#32) .release]
  obtain ⟨w, hrun, hp⟩ := Sample.exists_run (Sample.scope [] []) es
    (fun w => decide ((w.log.filterMap Record.sent).length = 3)) (fun _ _ => trivial)
    (by decide +kernel)
  exact ⟨w, hrun, of_decide_eq_true hp, sequential_runs_are_schedules hrun⟩

end StandaloneDHCP
