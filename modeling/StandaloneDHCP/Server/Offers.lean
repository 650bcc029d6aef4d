import StandaloneDHCP.Server.DiscoverOutcome

/-! What an OFFER is worth. Right after it was sent, the pool records the client as the owner
of the offered index and the hardware cache maps the client to it; the two ways around the
reservation are the index 0 that the code falls back to after a ping conflict, and the sentinel
`FreeMac` in the place of a hardware address. As long as the offer stands, packets of other
clients cannot take it away: the REQUEST for it is answered with an ACK. -/
namespace StandaloneDHCP
open Lib
set_option autoImplicit false

/-! ## An OFFER is backed by a reservation -/

/-- The index that a DISCOVER leads to, if it leads to one, will be the client's in the pool. -/
def World.BacksOffer (w : World) (p : Packet) (env : Env) : Prop :=
  match route w.now w.handler p with
  | .static _ => True
  | .renew x => w.handler.available.mac.lookup (safeIntToUint64 x) = some p.clientMac
  -- not answered
  | .regain _ => True
  | .search h => h.CanAllot p →
    if env.ping 0 (ipAdd h.start (firstIndex env h p)) then
      Exhausted env h p ∨ fallbackOwner env h p = some p.clientMac
    else (chosenPool env h p).mac.lookup (firstIndex env h p) = some p.clientMac

/-- `GetMACIndex` knows the owner of the index that the client has in the cache and of the one
it asks for. -/
def World.KnowsIndexes (w : World) (p : Packet) : Prop :=
  (∀ x, w.handler.hwcache.get w.now p.clientMac = some x →
    (w.handler.available.getMACIndex (safeIntToUint64 x)).2.2 = none) ∧
  ∀ i, requestedIndex w.handler p = some i → (w.handler.available.getMACIndex i).2.2 = none

section Routes
variable {now : Int} {h : DHCPHandler} {p : Packet} {env : Env} {networkIP : String}
  {answer : Answer}

theorem serveDiscover_answer {fuel : ℕ} {h' : DHCPHandler} {answer' : Answer}
    (hr : serveDiscover env fuel now h networkIP p answer = some (h', answer')) :
    answer' = answer ∨ ∃ index, answer' = replyOffer env h' networkIP p answer index := by
  rw [serveDiscover_route] at hr
  cases hroute : route now h p with
  | static position =>
    rw [hroute] at hr
    cases hr
    exact .inr ⟨_, rfl⟩
  | renew x =>
    rw [hroute] at hr
    cases hr
    exact .inr ⟨x, rfl⟩
  | regain x =>
    rw [hroute] at hr
    cases hr
    exact .inl rfl
  | search h₁ =>
    rw [hroute] at hr
    obtain ⟨⟨h₂, out⟩, -, heq⟩ := Option.map_eq_some_iff.mp hr
    cases out with
    | none =>
      cases heq
      exact .inl rfl
    | some free =>
      cases heq
      exact .inr ⟨free, rfl⟩

theorem lookup_of_static {position : BitVec 32} (hroute : route now h p = .static position) :
    h.ipAssigned.lookup p.clientMac = some position := by
  unfold route at hroute
  split at hroute
  · next hstat =>
    cases hroute
    exact hstat
  · repeat' split at hroute
    all_goals cases hroute

theorem cached_of_renew {x : Int} (hroute : route now h p = .renew x) :
    h.hwcache.get now p.clientMac = some x ∧ h.ownerOf x = p.clientMac := by
  unfold route at hroute
  split at hroute
  · cases hroute
  split at hroute
  · cases hroute
  · next hget =>
    split_ifs at hroute with hown
    cases hroute
    exact ⟨hget, hown⟩

end Routes

section Silent
variable {w : World} {p : Packet} {env : Env} (hs : w.handler.Sound)
  (hknows : p.clientMac = FreeMac → w.KnowsIndexes p)
include hs hknows

theorem owner_of_cached {index : Int}
    (hget : w.handler.hwcache.get w.now p.clientMac = some index)
    (hown : w.handler.ownerOf index = p.clientMac) :
    w.handler.available.mac.lookup (safeIntToUint64 index) = some p.clientMac := by
  by_cases hmac : p.clientMac = FreeMac
  · exact DHCPPool.lookup_of_getMACIndex_ok hs.pool ((hknows hmac).1 index hget) hown
  · exact hs.lookup_of_ownerOf hmac hown

theorem owner_of_requested {i : ℕ} (hreq : requestedIndex w.handler p = some i)
    (hown : w.handler.ownerOf i = p.clientMac) :
    w.handler.available.mac.lookup i = some p.clientMac := by
  rw [← safeIntToUint64_natCast i]
  by_cases hmac : p.clientMac = FreeMac
  · refine DHCPPool.lookup_of_getMACIndex_ok hs.pool ?_ hown
    rw [safeIntToUint64_natCast]
    exact (hknows hmac).2 i hreq
  · exact hs.lookup_of_ownerOf hmac hown

/-- While no ping is answered, only the sentinel can do harm. -/
theorem backsOffer_of_silent (hsilent : env.Silent) : w.BacksOffer p env := by
  unfold World.BacksOffer
  cases hroute : route w.now w.handler p with
  | static => trivial
  | regain => trivial
  | renew x =>
    obtain ⟨hget, hown⟩ := cached_of_renew hroute
    exact owner_of_cached hs hknows hget hown
  | search h =>
    intro hcan
    obtain ⟨-, hbase⟩ := searches_of_route hs hroute
    obtain ⟨hs', hpool, hstart, -⟩ := search_congr env hbase hs
    obtain ⟨-, -, hch, -⟩ := retryTrace_first env w.now hs' hcan 0
    rw [hsilent, if_neg Bool.false_ne_true]
    generalize chosenPool env h p = available at hch ⊢
    generalize firstIndex env h p = i at hch ⊢
    cases hch with
    | granted => exact Finmap.lookup_insert _
    | own hreq hown =>
      rw [hpool]
      apply owner_of_requested hs hknows
      · rwa [requestedIndex, hstart] at hreq
      · rwa [DHCPHandler.ownerOf, hpool] at hown

end Silent

section Offer
variable {cfg : ScopeConfig} {w : World} {p : Packet} {env : Env} {h : DHCPHandler}
  {answer : Answer}

/-- The OFFER names an address of the range, the pool records the client for its index, and the
cache maps the client to it. -/
def Answer.Backed (cfg : ScopeConfig) (now : Int) (p : Packet) (h : DHCPHandler)
    (answer : Answer) : Prop :=
  ∀ a, answer.offered = some a → (cfg.dhcpStart.toNat ≤ a.toNat ∧ a.toNat ≤ cfg.dhcpEnd.toNat) ∧
    h.available.mac.lookup (cfg.position a).toNat = some p.clientMac ∧
    h.hwcache.get now p.clientMac = some ((cfg.position a).toNat : Int)

theorem Answer.backed_of_not_offered (hnone : answer.offered = none) :
    answer.Backed cfg w.now p h := fun _ ha => nomatch hnone.symm.trans ha

/-- An index in the cache is the one that is offered, so that only its owner is in question. -/
theorem Answer.backed_iff (hreg : w.Regular cfg) (hs : h.Sound) (hoff : h.Indexes IsOffset)
    (hset : h.settings = w.handler.settings) {index : Int}
    (hget : h.hwcache.get w.now p.clientMac = some index)
    (hoffer : answer.offered = some (ipAdd w.handler.start index)) :
    answer.Backed cfg w.now p h ↔
      h.available.mac.lookup (safeIntToUint64 index) = some p.clientMac := by
  have hindex : index = (cfg.position (ipAdd w.handler.start index)).toNat :=
    hreg.index_eq (hoff.of_get hget) rfl
  generalize ipAdd w.handler.start index = a at hindex hoffer
  subst hindex
  rw [safeIntToUint64_natCast]
  constructor
  · intro hbacked
    exact (hbacked a hoffer).2.1
  · intro howner b hb
    cases hoffer.symm.trans hb
    refine ⟨cfg.inside_of_position_lt ?_, howner, hget⟩
    have hlt := hs.pool.owned_lt howner
    rwa [hreg.sound.capacity_eq hs (DHCPHandler.leaseRange_of_settings hset), hreg.capacity] at hlt

/-- The cases of a DISCOVER that passes the gate and whose reply can be built. -/
theorem backed_iff_backsOffer (hreg : w.Regular cfg) (hs : h.Sound) (hoff : h.Indexes IsOffset)
    (hset : h.settings = w.handler.settings)
    (hdyn : w.handler.ipAssigned.lookup p.clientMac = none) (hreply : w.handler.CanReply p)
    {fuel : ℕ} (hr : serveDiscover env fuel w.now w.handler w.network.network.text p
      (w.greeting p) = some (h, answer)) :
    answer.Backed cfg w.now p h ↔ w.BacksOffer p env := by
  have hstart := DHCPHandler.start_of_settings hset
  have hoffer : ∀ index, answer = replyOffer env h w.network.network.text p (w.greeting p) index →
      answer.offered = some (ipAdd w.handler.start index) := by
    rintro index rfl
    rw [← hstart]
    refine replyOffer_answers ?_ index
    rwa [DHCPHandler.CanReply, DHCPHandler.options_of_settings hset]
  rw [serveDiscover_route] at hr
  unfold World.BacksOffer
  cases hroute : route w.now w.handler p with
  | static position => cases hdyn.symm.trans (lookup_of_static hroute)
  | regain x =>
    rw [hroute] at hr
    cases hr
    exact iff_of_true (Answer.backed_of_not_offered rfl) trivial
  | renew x =>
    rw [hroute] at hr
    cases hr
    exact Answer.backed_iff hreg hs hoff hset (Cache.get_set _ _ _ _ _) (hoffer x rfl)
  | search h₁ =>
    rw [hroute] at hr
    obtain ⟨⟨h₂, out⟩, hretry, heq⟩ := Option.map_eq_some_iff.mp hr
    rw [← retryTrace_snd] at hretry
    obtain ⟨-, hbase⟩ := searches_of_route hreg.sound hroute
    obtain ⟨hs₁, -⟩ := search_congr env hbase hreg.sound
    by_cases hcan : h₁.CanAllot p
    swap
    · -- the search gives up at once
      have hone := retryTrace_succ fuel 0 true (-1) h₁ hretry
      rw [← hone, retryTrace_refused hcan] at hretry
      cases hretry
      cases heq
      exact iff_of_true (Answer.backed_of_not_offered rfl) fun hc => absurd hc hcan
    dsimp only
    rw [imp_iff_right hcan]
    cases retryTrace_found hs₁ hcan hretry with
    | first hsilent hget hpool =>
      cases heq
      have hiff := Answer.backed_iff hreg hs hoff hset hget (hoffer _ rfl)
      rw [safeIntToUint64_natCast] at hiff
      rw [hsilent, if_neg Bool.false_ne_true, ← hpool]
      exact hiff
    | nothing hping hexhausted =>
      cases heq
      rw [if_pos hping]
      exact iff_of_true (Answer.backed_of_not_offered rfl) (.inl hexhausted)
    | fallback hping hgoes hget howner =>
      cases heq
      rw [if_pos hping, or_iff_right hgoes, ← howner]
      exact Answer.backed_iff hreg hs hoff hset hget (hoffer 0 rfl)

end Offer

/-- Whatever happened before, a DISCOVER leads to an OFFER of an address of the range that is
reserved for the client, or to no OFFER, exactly when the packet is dropped, the reply cannot be
built, or the index that the handling ends with is the client's. That is so whenever no ping is
answered, unless a client with the free MAC as hardware address names an index that has no owner. -/
theorem offer_backed_iff {cfg : ScopeConfig} {network : IPNet} {ipv4 : Option IPv4}
    {now : Int} {w : World} (hrun : World.RunsTo (fun _ _ => True) cfg network ipv4 now w)
    {p : Packet} {env : Env} {fuel : ℕ} {g : Globals} {h : DHCPHandler} {answer : Answer}
    (hserve : w.serve p .discover env fuel = some (g, h, answer))
    (hdyn : w.handler.ipAssigned.lookup p.clientMac = none) :
    (answer.Backed cfg w.now p h ↔
      (w.Admits p .discover → w.handler.CanReply p → w.BacksOffer p env)) ∧
    (env.Silent → (p.clientMac = FreeMac → w.KnowsIndexes p) → w.BacksOffer p env) := by
  have hreg := World.RunsTo.regular hrun
  refine ⟨?_, fun hsilent hknows => backsOffer_of_silent hreg.sound hknows hsilent⟩
  by_cases hadmits : w.Admits p .discover
  swap
  · rw [World.serve_rejected hadmits] at hserve
    cases hserve
    exact iff_of_true (Answer.backed_of_not_offered rfl) fun hc => absurd hc hadmits
  have hmoves : h.Sound ∧ h.Indexes IsOffset ∧ h.settings = w.handler.settings := by
    obtain ⟨-, rfl, -⟩ | ⟨-, -, hh⟩ := World.serve_cases hreg.sound hserve
    · exact ⟨hreg.sound, hreg.offsets, rfl⟩
    · exact ⟨hh.moves.sound hreg.sound, hh.moves.offsets hreg.sound hreg.offsets,
        hh.moves.settings⟩
  obtain ⟨hs, hoff, hset⟩ := hmoves
  rw [World.serve_discover hadmits] at hserve
  obtain ⟨⟨h', answer'⟩, hr, heq⟩ := Option.map_eq_some_iff.mp hserve
  cases heq
  by_cases hreply : w.handler.CanReply p
  · rw [backed_iff_backsOffer hreg hs hoff hset hdyn hreply hr]
    exact ⟨fun hb _ _ => hb, fun himp => himp hadmits hreply⟩
  · refine iff_of_true (Answer.backed_of_not_offered ?_) fun _ hc => absurd hc hreply
    obtain rfl | ⟨index, rfl⟩ := serveDiscover_answer hr
    · rfl
    · refine replyOffer_panics ?_ rfl index
      rwa [DHCPHandler.CanReply, DHCPHandler.options_of_settings hset]

/-- `02:…:02` asks for 10.0.0.10, which answers the first ping and not the second one. -/
theorem offer_backed_sample : ∃ w g h answer,
    World.RunsTo (fun _ _ => True) (Sample.scope [] []) Sample.network none 0 w ∧
    w.serve (Sample.packet [2, 0, 0, 0, 0, 2] 2 (some 0x0a00000a#32)) .discover Sample.startled 3 =
      some (g, h, answer) ∧ answer.offered = some 0x0a00000a#32 ∧
    h.available.mac.lookup 0 = some "02:00:00:00:00:02" := by
  let p := Sample.packet [2, 0, 0, 0, 0, 2] 2 (some 0x0a00000a#32)
  have hmac : p.clientMac = "02:00:00:00:00:02" := by decide +kernel
  obtain ⟨w, hrun, hp⟩ := Sample.exists_run (Sample.scope [] [])
    [Sample.send [2, 0, 0, 0, 0, 1] 1 (some 0x0a00000b#32) .discover]
    (fun w => decide (w.handler.ipAssigned.lookup p.clientMac = none) &&
      decide (w.handler.hwcache.get w.now p.clientMac = none) &&
      decide (firstIndex Sample.startled w.handler p = 0) &&
      decide (fallbackOwner Sample.startled w.handler p = some p.clientMac) &&
      ((w.serve p .discover Sample.startled 3).map fun r => r.2.2.offered) ==
        some (some 0x0a00000a#32))
    (fun _ _ => trivial) (by decide +kernel)
  simp only [Bool.and_eq_true, decide_eq_true_eq, beq_iff_eq, Option.map_eq_some_iff] at hp
  obtain ⟨⟨⟨⟨hdyn, hget⟩, hfirst⟩, howner⟩, ⟨g, h, answer⟩, hserve, hoffer⟩ := hp
  have hbacks : w.BacksOffer p Sample.startled := by
    unfold World.BacksOffer route
    rw [hdyn, hget]
    intro _
    have hping : Sample.startled.ping 0 (ipAdd w.handler.start (0 : ℕ)) = true := rfl
    rw [hfirst, if_pos hping]
    exact .inr howner
  have hbacked := (offer_backed_iff hrun hserve hdyn).1.mpr (fun _ _ => hbacks) _ hoffer
  rw [hmac] at hbacked
  exact ⟨w, g, h, answer, hrun, hserve, hoffer, hbacked.2.1⟩

/-- `02:…:01` owns 10.0.0.10. The index chosen for `02:…:02` answers the ping, and the offer
falls back to index 0. -/
theorem unbacked_offer : ¬ ∀ (cfg : ScopeConfig) (network : IPNet) (ipv4 : Option IPv4)
    (now : Int) (w : World), World.RunsTo (fun _ _ => True) cfg network ipv4 now w →
    ∀ (p : Packet) (env : Env) (fuel : ℕ) (g : Globals) (h : DHCPHandler) (answer : Answer),
      6 ≤ p.chaddr.length → (∀ v, p.options optionRequestedIPAddress = some v → 4 ≤ v.length) →
      w.handler.ipAssigned.lookup p.clientMac = none →
      w.serve p .discover env fuel = some (g, h, answer) →
      ∀ a, answer.offered = some a →
        (cfg.dhcpStart.toNat ≤ a.toNat ∧ a.toNat ≤ cfg.dhcpEnd.toNat) ∧
        h.available.mac.lookup (cfg.position a).toNat = some p.clientMac ∧
        h.hwcache.get w.now p.clientMac = some ((cfg.position a).toNat : Int) := by
  intro hclaim
  let p := Sample.packet [2, 0, 0, 0, 0, 2] 2 none
  let env := Sample.env [0x0a00000b#32]
  obtain ⟨w, hrun, hp⟩ := Sample.exists_run (Sample.scope [] [])
    [Sample.send [2, 0, 0, 0, 0, 1] 1 none .discover]
    (fun w => decide (w.handler.ipAssigned.lookup p.clientMac = none) &&
      ((w.serve p .discover env 3).map fun r =>
        (r.2.2.offered, r.2.1.available.mac.lookup 0)) ==
        some (some 0x0a00000a#32, some "02:00:00:00:00:01"))
    (fun _ _ => trivial) (by decide +kernel)
  simp only [Bool.and_eq_true, decide_eq_true_eq, beq_iff_eq, Option.map_eq_some_iff,
    Prod.mk.injEq] at hp
  obtain ⟨hdyn, ⟨g, h, answer⟩, hserve, hoffer, howner⟩ := hp
  have hbacked := hclaim (Sample.scope [] []) Sample.network none 0 w hrun p env 3 g h answer
    (by decide) (fun v hv => nomatch hv) hdyn hserve _ hoffer
  have hmac := howner.symm.trans hbacked.2.1
  exact absurd hmac (by decide +kernel)

/-! ## An offer cannot be taken away -/

/-- A REQUEST for `a` that names no other server. -/
structure AsksFor (h : DHCPHandler) (p : Packet) (a : IPv4) : Prop where
  length : 6 ≤ p.chaddr.length
  address : p.options optionRequestedIPAddress = some (beBytes a) ∨
    (p.options optionRequestedIPAddress = none ∧ p.ciaddr = a)
  nonzero : a ≠ 0
  server : p.options optionServerIdentifier = none ∨
    p.options optionServerIdentifier = some (beBytes h.ip)

section Request
variable {h : DHCPHandler} {p : Packet} {a : IPv4} (hasks : AsksFor h p a)
include hasks

theorem AsksFor.reqIP : p.reqIP = beBytes a := by
  unfold Packet.reqIP
  obtain hopt | ⟨hopt, hci⟩ := hasks.address
  · rw [hopt]
  · rw [hopt, hci]

theorem AsksFor.validAddress : validAddress p.reqIP = some a := by
  rw [hasks.reqIP, StandaloneDHCP.validAddress, if_pos (length_beBytes a), beUint32_beBytes]
  exact if_neg hasks.nonzero

theorem AsksFor.namesOtherServer : namesOtherServer h p = false := by
  unfold StandaloneDHCP.namesOtherServer
  obtain hopt | hopt := hasks.server
  · rw [hopt]
  · rw [hopt]
    simp [beUint32_beBytes]

theorem AsksFor.buildReplyOptions (env : ReplyEnv) (networkIP : String) :
    ∃ options, buildReplyOptions env h.options p networkIP p.clientMac = some options := by
  have hlen := hasks.length
  have hlast : ∃ b, p.chaddr[5]? = some b := ⟨_, List.getElem?_eq_getElem (by omega)⟩
  obtain ⟨b, hb⟩ := hlast
  rw [StandaloneDHCP.buildReplyOptions, hb]
  exact ⟨_, rfl⟩

end Request

theorem leaseNum_ipAdd {h : DHCPHandler} (hs : h.Sound) {i : ℕ} (hi : i < h.available.capacity) :
    ipRange h.start (ipAdd h.start i) - 1 = i ∧ (i : Int) < h.leaseRange := by
  have hfits := hs.fits
  have hrange := hs.range
  have hadd := ipAdd_toNat h.start i
  unfold ipRange
  omega

theorem judge_ack {now : Int} {g : Globals} {h : DHCPHandler} {p : Packet} {t : MessageType}
    {i : ℕ} (hs : h.Sound) (hdyn : h.ipAssigned.lookup p.clientMac = none)
    (hget : h.hwcache.get now p.clientMac = some (i : Int))
    (hown : h.available.mac.lookup i = some p.clientMac)
    (hfresh : g.requestGlobalTransactionCache.get now (p.cacheKey t) = none) :
    ∃ g', judge now g h p t (ipAdd h.start i) = (.ack i, g', h) := by
  obtain ⟨hnum, hlt⟩ := leaseNum_ipAdd hs (hs.pool.owned_lt hown)
  have howner : h.ownerOf i = p.clientMac := by
    rw [← safeIntToUint64_natCast i] at hown
    exact hs.ownerOf_of_lookup hown
  have hin : 0 ≤ (i : Int) ∧ (i : Int) < h.leaseRange := ⟨by omega, hlt⟩
  unfold judge
  simp only [hnum, if_pos hin, hdyn, hget, if_true, hfresh, if_pos howner]
  exact ⟨_, rfl⟩

theorem request_acknowledged {w : World} {p : Packet} {i : ℕ} (hs : w.handler.Sound)
    (hdyn : w.handler.ipAssigned.lookup p.clientMac = none)
    (hget : w.handler.hwcache.get w.now p.clientMac = some (i : Int))
    (hown : w.handler.available.mac.lookup i = some p.clientMac)
    (hasks : AsksFor w.handler p (ipAdd w.handler.start i)) (hadmits : w.Admits p .request)
    (hfresh : w.globals.requestGlobalTransactionCache.get w.now (p.cacheKey .request) = none)
    (env : Env) (fuel : ℕ) :
    ∃ g h answer, w.serve p .request env fuel = some (g, h, answer) ∧
      answer.acked = some (ipAdd w.handler.start i) := by
  obtain ⟨hsel, hseen⟩ := hadmits
  obtain ⟨options, hoptions⟩ := hasks.buildReplyOptions env.toReplyEnv w.network.network.text
  let g₁ : Globals :=
    { w.globals with
      globalTransactionCache :=
        w.globals.globalTransactionCache.set w.now (p.cacheKey .request) 1 (1 * second) }
  have hfresh₁ : g₁.requestGlobalTransactionCache.get w.now (p.cacheKey .request) = none := hfresh
  obtain ⟨g', hjudge⟩ := judge_ack hs hdyn hget hown hfresh₁
  let answer : Answer := { mac := p.chaddr, srcIP := w.ipv4, ip := p.reqIP }
  have hserve : w.serve p .request env fuel = some (acknowledge env w.now g' w.handler
      w.network.network.text p answer (ipAdd w.handler.start i) i) := by
    unfold World.serve serveHandler
    simp only [if_pos hsel, hseen, serveMessage, serveRequest, hasks.namesOtherServer,
      Bool.false_eq_true, if_false, hasks.validAddress]
    rw [hjudge]
  refine ⟨_, _, _, hserve, ?_⟩
  rw [hoptions]
  rfl

/-! ### What the packets of other clients leave -/

/-- The entry of `m`, if there is one, has not expired. -/
def World.Live (w : World) (m : String) : Prop :=
  ∀ e ∈ w.handler.hwcache.peek m, e.expired w.now = false

/-- The event is not a packet of `m` and does not free the index `i`. -/
def World.Spares (w : World) (m : String) (i : ℕ) : Event → Prop
  | .packet p _ _ _ => p.clientMac ≠ m
  | .fire k => ∀ task ∈ w.handler.tasks[k]?, safeIntToUint64 task.index ≠ i
  | _ => True

instance (w : World) (m : String) : Decidable (w.Live m) := Option.decidableForallMem _

instance (w : World) (m : String) (i : ℕ) (e : Event) : Decidable (w.Spares m i e) :=
  match e with
  | .packet _ _ _ _ => inferInstanceAs (Decidable (_ ≠ _))
  | .fire _ => Option.decidableForallMem _
  | .tick _ => inferInstanceAs (Decidable True)
  | .purge => inferInstanceAs (Decidable True)

/-- What `m` still has in `w`, compared with an earlier `w₀`. -/
structure Keeps (w₀ : World) (m : String) (i : ℕ) (e : Item Int) (w : World) : Prop where
  sound : w.handler.Sound
  settings : w.handler.settings = w₀.handler.settings
  network : w.network.network = w₀.network.network
  entry : w.handler.hwcache.peek m = some e
  owner : w.handler.available.mac.lookup i = some m
  seen : ∀ (p : Packet) t, p.clientMac = m → w.globals.globalTransactionCache.peek (p.cacheKey t) =
    w₀.globals.globalTransactionCache.peek (p.cacheKey t)
  requested : ∀ (p : Packet) t, p.clientMac = m →
    w.globals.requestGlobalTransactionCache.peek (p.cacheKey t) =
      w₀.globals.requestGlobalTransactionCache.peek (p.cacheKey t)

theorem Keeps.packet {w₀ w : World} {m : String} {i : ℕ} {e : Item Int} (hk : Keeps w₀ m i e w)
    {p : Packet} {t : MessageType} {env : Env} {g : Globals} {h : DHCPHandler} {answer : Answer}
    (hne : p.clientMac ≠ m) (hg : w.globals.SameExcept (p.cacheKey t) g)
    (hh : Handled env w.now p t w.handler h answer) : Keeps w₀ m i e (w.after p t g h answer) := by
  have hm := hh.moves
  -- the keys of another client are other keys
  have hkey : ∀ (q : Packet) u, q.clientMac = m → q.cacheKey u ≠ p.cacheKey t := by
    intro q u hq heq
    exact hne ((Packet.clientMac_of_cacheKey heq).symm.trans hq)
  exact {
    sound := hm.sound hk.sound
    settings := hm.settings.trans hk.settings
    network := hk.network
    entry := (hm.peek_ne (fun heq => hne heq.symm)).trans hk.entry
    owner := hm.owner hk.sound hk.owner
    seen := fun q u hq => (hg.seen _ (hkey q u hq)).trans (hk.seen q u hq)
    requested := fun q u hq => (hg.requested _ (hkey q u hq)).trans (hk.requested q u hq) }

theorem Keeps.step {w₀ w w' : World} {m : String} {i : ℕ} {e : Item Int} {event : Event}
    (hk : Keeps w₀ m i e w) (hspares : w.Spares m i event) (hlive : w.Live m)
    (hst : World.Stepped w event w') : Keeps w₀ m i e w' := by
  cases hst with
  | dropped => exact { hk with }
  | handled p t env fuel g h answer _ hg hh => exact hk.packet hspares hg hh
  | tick => exact { hk with }
  | purge =>
    have hentry : (w.handler.purge w.now).hwcache.peek m = some e := by
      rw [DHCPHandler.purge_eq]
      exact Cache.peek_deleteExpired.mpr ⟨hk.entry, hlive e hk.entry⟩
    have hsame : (w.handler.purge w.now).settings = w.handler.settings ∧
        (w.handler.purge w.now).available = w.handler.available := by
      rw [DHCPHandler.purge_eq]
      exact ⟨rfl, rfl⟩
    exact {
      sound := hk.sound.purge w.now
      settings := hsame.1.trans hk.settings
      network := hk.network
      entry := hentry
      owner := by
        show (w.handler.purge w.now).available.mac.lookup i = some m
        rw [hsame.2]
        exact hk.owner
      seen := hk.seen
      requested := hk.requested }
  | fire k task htask =>
    have hne : i ≠ safeIntToUint64 task.index := fun heq => hspares task htask heq.symm
    exact {
      sound := hk.sound.fire w.now k task
      settings := hk.settings
      network := hk.network
      entry := hk.entry
      owner := (DHCPHandler.fire_lookup_ne hne).trans hk.owner
      seen := hk.seen
      requested := hk.requested }

/-- The index `i` is reserved for `m` and in its cache entry. Whatever other clients send, as
long as the entry does not expire and the index is not freed, the REQUEST of `m` for it is
answered with an ACK. -/
theorem offer_not_stolen {w₀ w : World} {m : String} {i : ℕ} (hs : w₀.handler.Sound)
    (hdyn : w₀.handler.ipAssigned.lookup m = none)
    (hget : w₀.handler.hwcache.get w₀.now m = some (i : Int))
    (hown : w₀.handler.available.mac.lookup i = some m)
    (hrun : Reaches World.step (fun u e => u.Spares m i e ∧ u.Live m) w₀ w) (hlive : w.Live m)
    {p : Packet} (hmac : p.clientMac = m) (hsel : w₀.network.selects p = true)
    (hasks : AsksFor w₀.handler p (ipAdd w₀.handler.start i))
    (hseen : w₀.globals.globalTransactionCache.get w.now (p.cacheKey .request) = none)
    (hreq : w₀.globals.requestGlobalTransactionCache.get w.now (p.cacheKey .request) = none)
    (env : Env) (fuel : ℕ) :
    ∃ g h answer, w.serve p .request env fuel = some (g, h, answer) ∧
      answer.acked = some (ipAdd w₀.handler.start i) := by
  obtain ⟨e, he, -, hobj⟩ := Cache.get_eq_some.mp hget
  have hk : Keeps w₀ m i e w := by
    refine Reaches.invariant (Keeps w₀ m i e) hrun
      ⟨hs, rfl, rfl, he, hown, fun _ _ _ => rfl, fun _ _ _ => rfl⟩ ?_
    intro u event u' hk hok hstep
    exact hk.step hok.1 hok.2 (World.step_stepped hk.sound hstep)
  have hstart := DHCPHandler.start_of_settings hk.settings
  subst hmac
  have hget' : w.handler.hwcache.get w.now p.clientMac = some (i : Int) :=
    Cache.get_eq_some.mpr ⟨e, hk.entry, hlive e hk.entry, hobj⟩
  have hasks' : AsksFor w.handler p (ipAdd w.handler.start i) := by
    rw [hstart]
    refine ⟨hasks.length, hasks.address, hasks.nonzero, ?_⟩
    rw [DHCPHandler.ip_of_settings hk.settings]
    exact hasks.server
  have hsel' : w.network.selects p = true := by
    unfold Network.selects at hsel ⊢
    rw [DHCPHandler.layer2_of_settings hk.settings, hk.network]
    exact hsel
  have hdyn' : w.handler.ipAssigned.lookup p.clientMac = none := by
    rw [DHCPHandler.ipAssigned_of_settings hk.settings]
    exact hdyn
  have hadmits : w.Admits p .request :=
    ⟨hsel', (Cache.get_congr (hk.seen p .request rfl) w.now).trans hseen⟩
  rw [← hstart]
  exact request_acknowledged hk.sound hdyn' hget' hk.owner hasks'
    hadmits ((Cache.get_congr (hk.requested p .request rfl) w.now).trans hreq) env fuel

/-- `02:…:01` is offered 10.0.0.10; then `02:…:02` asks for the same address, a second passes,
and the first client requests what it was offered. -/
theorem offer_not_stolen_sample : ∃ w₀ w g h answer,
    World.RunsTo (fun _ _ => True) (Sample.scope [] []) Sample.network none 0 w₀ ∧
    Reaches World.step (fun u e => u.Spares "02:00:00:00:00:01" 0 e ∧
      u.Live "02:00:00:00:00:01") w₀ w ∧
    w.serve (Sample.packet [2, 0, 0, 0, 0, 1] 1 (some 0x0a00000a#32)) .request (Sample.env []) 3 =
      some (g, h, answer) ∧ answer.acked = some 0x0a00000a#32 := by
  let p := Sample.packet [2, 0, 0, 0, 0, 1] 1 (some 0x0a00000a#32)
  obtain ⟨w₀, hrun₀, hp⟩ := Sample.exists_run (Sample.scope [] [])
    [Sample.send [2, 0, 0, 0, 0, 1] 1 none .discover]
    (fun w₀ => decide (w₀.handler.ipAssigned.lookup "02:00:00:00:00:01" = none) &&
      decide (w₀.handler.hwcache.get w₀.now "02:00:00:00:00:01" = some 0) &&
      decide (w₀.handler.available.mac.lookup 0 = some "02:00:00:00:00:01") &&
      w₀.network.selects p &&
      (replay World.step (fun u e => u.Spares "02:00:00:00:00:01" 0 e ∧
          u.Live "02:00:00:00:00:01") w₀
        [Sample.send [2, 0, 0, 0, 0, 2] 2 (some 0x0a00000a#32) .discover, .tick 1000000000]).map
        (fun w => decide (w.Live "02:00:00:00:00:01") &&
          decide (w₀.globals.globalTransactionCache.get w.now (p.cacheKey .request) = none) &&
          decide (w₀.globals.requestGlobalTransactionCache.get w.now (p.cacheKey .request) =
            none)) == some true)
    (fun _ _ => trivial) (by decide +kernel)
  simp only [Bool.and_eq_true, decide_eq_true_eq, beq_iff_eq, Option.map_eq_some_iff] at hp
  obtain ⟨⟨⟨⟨hdyn, hget⟩, hown⟩, hsel⟩, w, hreplay, ⟨hlive, hseen⟩, hreq⟩ := hp
  have hrun := reaches_of_replay hreplay
  have hreg := World.RunsTo.regular hrun₀
  have hstart : w₀.handler.start = 0x0a00000a#32 := hreg.start
  have haddr : ipAdd w₀.handler.start (0 : ℕ) = 0x0a00000a#32 := by
    rw [hstart]
    decide
  obtain ⟨g, h, answer, hserve, hack⟩ := offer_not_stolen hreg.sound hdyn hget hown hrun hlive
    (p := p) (by decide +kernel) hsel
    ⟨by decide, .inl (by rw [haddr]; rfl), by rw [haddr]; decide, .inl rfl⟩ hseen hreq
    (Sample.env []) 3
  exact ⟨w₀, w, g, h, answer, hrun₀, hrun, hserve, hack.trans (congrArg some haddr)⟩

end StandaloneDHCP
