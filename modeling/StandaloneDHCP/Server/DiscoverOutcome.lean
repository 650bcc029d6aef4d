import StandaloneDHCP.Server.RetryLoop

/-! What becomes of a DISCOVER. The case starts with four ways to go (`route`), of which only
the search at the `retry` label takes an index from the pool. An OFFER needs an index and a
reply that can be built; two of the ways write to the pool and to the hardware cache before
either is certain. -/
namespace StandaloneDHCP
open Lib
set_option autoImplicit false

/-! ## The four ways -/

/-- What the DISCOVER case does with the client, before the `retry` label. -/
inductive Route
  | static (position : BitVec 32)
  | renew (x : Int)
  -- the cached index had been freed, and is reserved again
  | regain (x : Int)
  | search (h : DHCPHandler)

def route (now : Int) (h : DHCPHandler) (p : Packet) : Route :=
  match h.ipAssigned.lookup p.clientMac with
  | some position => .static position
  | none =>
    match h.hwcache.get now p.clientMac with
    | none => .search h
    | some x =>
      if h.ownerOf x = p.clientMac then .renew x
      else if h.ownerOf x = FreeMac then
        if h.available.isFreeIPAtIndex (safeIntToUint64 x) then .regain x
        else .search (h.evict now p.clientMac)
      else .search h

variable {env : Env} {now : Int} {p : Packet} {h : DHCPHandler} {networkIP : String}
  {answer : Answer}

theorem confirm_visible {x : Int} (hget : h.hwcache.get now p.clientMac = some x) :
    confirm env now h networkIP p answer x = (h.lock now p.clientMac x (5 * second),
      replyOffer env (h.lock now p.clientMac x (5 * second)) networkIP p answer x) := by
  have hrep : h.hwcache.replace now p.clientMac x (5 * second) =
      some (h.hwcache.set now p.clientMac x (5 * second)) :=
    Cache.replace_eq_some.mpr ⟨⟨x, hget⟩, rfl⟩
  rw [confirm, hrep]
  rfl

theorem confirm_gone {x : Int} (hget : h.hwcache.get now p.clientMac = none) :
    confirm env now h networkIP p answer x = (h, answer) := by
  rw [confirm, Cache.replace, hget]

theorem get_evict (h : DHCPHandler) (now : Int) (mac : String) :
    (h.evict now mac).hwcache.get now mac = none :=
  Cache.get_eq_none.mpr fun _ he => by cases (h.peek_evict now mac).symm.trans he

theorem isFreeIPAtIndex_iff {dp : DHCPPool} {i : ℕ} :
    dp.isFreeIPAtIndex i = true ↔ i < dp.capacity ∧ i ∈ dp.free := by
  simp [DHCPPool.isFreeIPAtIndex, DHCPPool.indexInPool]

theorem serveDiscover_route (fuel : ℕ) :
    serveDiscover env fuel now h networkIP p answer =
      match route now h p with
      | .static position => some (h, replyOffer env h networkIP p answer position.toNat)
      | .renew x => some (h.lock now p.clientMac x (5 * second),
          replyOffer env (h.lock now p.clientMac x (5 * second)) networkIP p answer x)
      | .regain x => some ({ h.evict now p.clientMac with
          available := h.available.grant (safeIntToUint64 x) p.clientMac }, answer)
      | .search h₁ => allocate env fuel now h₁ networkIP p answer := by
  unfold serveDiscover route
  cases h.ipAssigned.lookup p.clientMac with
  | some position => rfl
  | none =>
    cases hget : h.hwcache.get now p.clientMac with
    | none => rfl
    | some x =>
      by_cases hown : h.ownerOf x = p.clientMac
      · simp only [if_pos hown]
        rw [confirm_visible hget]
      by_cases hsent : h.ownerOf x = FreeMac
      swap
      · simp only [if_neg hown, if_neg hsent]
      simp only [if_neg hown, if_pos hsent, DHCPHandler.evict_available]
      obtain ⟨hfree, hlt, heq⟩ | ⟨hno, hsame, herr⟩ :=
        h.available.reserveIPIndex_cases (safeIntToUint64 x) p.clientMac
      · -- the entry was deleted, so the `Replace` that follows fails
        simp only [heq, and_self, if_true, if_pos (isFreeIPAtIndex_iff.mpr ⟨hlt, hfree⟩)]
        exact congrArg some (confirm_gone (get_evict h now p.clientMac))
      · have hfree : ¬ h.available.isFreeIPAtIndex (safeIntToUint64 x) = true := by
          intro hfree
          obtain ⟨hlt, hmem⟩ := isFreeIPAtIndex_iff.mp hfree
          rcases hno with hno | hno
          · exact hno hmem
          · omega
        simp only [hsame, herr, false_and, if_false, if_neg hfree]
        rw [← h.evict_available now p.clientMac]

theorem searches_of_route {h₁ : DHCPHandler} (hs : h.Sound) (hroute : route now h p = .search h₁) :
    h.Searches now p ∧ (h₁ = h ∨ h₁ = h.evict now p.clientMac) := by
  unfold route at hroute
  cases hstat : h.ipAssigned.lookup p.clientMac with
  | some position => simp [hstat] at hroute
  | none =>
    simp only [hstat] at hroute
    cases hget : h.hwcache.get now p.clientMac with
    | none =>
      simp only [hget] at hroute
      cases hroute
      exact ⟨searches_of_get_none hstat hget, .inl rfl⟩
    | some x =>
      simp only [hget] at hroute
      split at hroute
      · cases hroute
      next hown =>
      split at hroute
      · split at hroute
        · cases hroute
        next hfree =>
        cases hroute
        refine ⟨searches_of_get hstat hget hown fun hmem => hfree ?_, .inr rfl⟩
        exact isFreeIPAtIndex_iff.mpr ⟨hs.pool.free_lt hmem, hmem⟩
      · next hsent =>
        cases hroute
        exact ⟨searches_of_get hstat hget hown fun hmem => hsent (hs.ownerOf_free hmem), .inl rfl⟩

theorem route_of_searches (hsearch : h.Searches now p) : ∃ h₁, route now h p = .search h₁ := by
  obtain ⟨hstat, hx⟩ := hsearch
  unfold route
  rw [hstat]
  cases hget : h.hwcache.get now p.clientMac with
  | none => exact ⟨_, rfl⟩
  | some x =>
    obtain ⟨hown, hfree⟩ := hx x hget
    have hfree' : ¬ h.available.isFreeIPAtIndex (safeIntToUint64 x) = true :=
      fun hf => hfree (isFreeIPAtIndex_iff.mp hf).2
    simp only [if_neg hown, if_neg hfree']
    split
    · exact ⟨_, rfl⟩
    · exact ⟨_, rfl⟩

/-- The search reads nothing of a handler that the eviction of the client's entry changes. -/
theorem search_congr (env : Env) {h₁ : DHCPHandler} (hbase : h₁ = h ∨ h₁ = h.evict now p.clientMac)
    (hs : h.Sound) : h₁.Sound ∧ h₁.available = h.available ∧ h₁.start = h.start ∧
      h₁.options = h.options ∧ firstIndex env h₁ p = firstIndex env h p := by
  obtain rfl | rfl := hbase
  · exact ⟨hs, rfl, rfl, rfl, rfl⟩
  · rw [DHCPHandler.evict_eq]
    exact ⟨⟨hs.pool, hs.range, hs.fits⟩, rfl, rfl, rfl, rfl⟩

/-! ## A DISCOVER at the interface -/

namespace World

/-- The answer before the message switch. -/
def greeting (w : World) (p : Packet) : Answer := { mac := p.chaddr, srcIP := w.ipv4 }

/-- The caches once the key of the packet is remembered. -/
def noted (w : World) (p : Packet) : Globals :=
  { w.globals with globalTransactionCache :=
      w.globals.globalTransactionCache.set w.now (p.cacheKey .discover) 1 (1 * second) }

theorem serve_discover {w : World} (hadmits : w.Admits p .discover) (env : Env) (fuel : ℕ) :
    w.serve p .discover env fuel = (serveDiscover env fuel w.now w.handler
      w.network.network.text p (w.greeting p)).map fun r => (w.noted p, r.1, r.2) := by
  unfold serve serveHandler
  simp only [if_pos hadmits.1, hadmits.2, serveMessage]
  rfl

theorem serve_rejected {w : World} {t : MessageType} (hno : ¬ w.Admits p t) (env : Env)
    (fuel : ℕ) : w.serve p t env fuel = some (w.globals, w.handler, w.greeting p) := by
  unfold serve serveHandler
  by_cases hsel : w.network.selects p = true
  · simp only [if_pos hsel]
    cases hkey : w.globals.globalTransactionCache.get w.now (p.cacheKey t) with
    | none => exact absurd ⟨hsel, hkey⟩ hno
    | some _ => rfl
  · simp only [if_neg hsel]
    rfl

/-- The pings of the handling of a DISCOVER. -/
def probes (w : World) (p : Packet) (env : Env) (fuel : ℕ) : List Probe :=
  if w.Admits p .discover then
    match route w.now w.handler p with
    | .search h => (retryTrace env w.now p fuel 0 true (-1) h).1
    | _ => []
  else []

theorem isSome_serve_search {w : World} (hadmits : w.Admits p .discover) {h₁ : DHCPHandler}
    (hroute : route w.now w.handler p = .search h₁) (env : Env) (fuel : ℕ) :
    (w.serve p .discover env fuel).isSome =
      (retryTrace env w.now p fuel 0 true (-1) h₁).2.isSome := by
  rw [serve_discover hadmits, serveDiscover_route, hroute, retryTrace_snd, Option.isSome_map]
  exact Option.isSome_map

theorem probes_search {w : World} (hadmits : w.Admits p .discover) {h₁ : DHCPHandler}
    (hroute : route w.now w.handler p = .search h₁) (env : Env) (fuel : ℕ) :
    w.probes p env fuel = (retryTrace env w.now p fuel 0 true (-1) h₁).1 := by
  rw [probes, if_pos hadmits, hroute]

/-- The handling of a DISCOVER returns, and it probed in good order. -/
def SearchEnds (w : World) (p : Packet) (env : Env) : Prop :=
  ∃ fuel, (w.serve p .discover env fuel).isSome = true ∧
    Orderly w.handler.available (w.probes p env fuel)

theorem searchEnds_of_not_clashes {w : World} (hs : w.handler.Sound) {env : Env}
    {pings : IPv4 → Bool} (hping : ∀ k a, env.ping k a = pings a)
    (hno : ¬ (w.Admits p .discover ∧ w.handler.Searches w.now p ∧ w.handler.CanAllot p ∧
      Clashes pings w.handler (firstIndex env w.handler p))) : w.SearchEnds p env := by
  by_cases hadmits : w.Admits p .discover
  swap
  · refine ⟨0, by rw [serve_rejected hadmits]; rfl, ?_⟩
    rw [probes, if_neg hadmits]
    exact .nil _
  cases hroute : route w.now w.handler p with
  | search h₁ =>
    obtain ⟨hsearch, hbase⟩ := searches_of_route hs hroute
    obtain ⟨hs₁, hpool, hstart, -, hfirst⟩ := search_congr env hbase hs
    refine ⟨4, ?_⟩
    rw [isSome_serve_search hadmits hroute, probes_search hadmits hroute, ← hpool]
    by_cases hcan : h₁.CanAllot p
    · refine retryTrace_orderly hping hs₁ hcan (fun hclash => hno ⟨hadmits, hsearch, ?_, ?_⟩) 0
      · rwa [DHCPHandler.CanAllot, ← hpool]
      · rwa [hfirst, Clashes, hpool, hstart] at hclash
    · rw [retryTrace_refused hcan]
      exact ⟨rfl, .nil _⟩
  | _ =>
    refine ⟨0, ?_, ?_⟩
    · rw [serve_discover hadmits, serveDiscover_route, hroute]
      rfl
    · rw [probes, if_pos hadmits, hroute]
      exact .nil _

theorem not_searchEnds_of_clashes {w : World} (hs : w.handler.Sound) {env : Env}
    {pings : IPv4 → Bool} (hping : ∀ k a, env.ping k a = pings a)
    (hadmits : w.Admits p .discover) (hsearch : w.handler.Searches w.now p)
    (hcan : w.handler.CanAllot p) (hclash : Clashes pings w.handler (firstIndex env w.handler p)) :
    ¬ w.SearchEnds p env := by
  rintro ⟨fuel, hsome, hord⟩
  obtain ⟨h₁, hroute⟩ := route_of_searches hsearch
  obtain ⟨-, hbase⟩ := searches_of_route hs hroute
  obtain ⟨hs₁, hpool, hstart, -, hfirst⟩ := search_congr env hbase hs
  rw [isSome_serve_search hadmits hroute] at hsome
  rw [probes_search hadmits hroute, ← hpool] at hord
  have hcan₁ : h₁.CanAllot p := by rwa [DHCPHandler.CanAllot, hpool]
  have hclash₁ : Clashes pings h₁ (firstIndex env h₁ p) := by
    rwa [hfirst, Clashes, hpool, hstart]
  exact retryTrace_disorderly hping hs₁ hcan₁ hclash₁ fuel ⟨hsome, hord⟩

/-- The DISCOVER handling returns after probing distinct indexes, unless the first index it
probes answers, `start` answers as well and a third index is free; or the first index is not in
the pool at all, which only a client with the free MAC can ask for. -/
theorem search_ends_iff {w : World} (hs : w.handler.Sound) (p : Packet) {env : Env}
    {pings : IPv4 → Bool} (hping : ∀ k a, env.ping k a = pings a) :
    w.SearchEnds p env ↔ ¬ (w.Admits p .discover ∧ w.handler.Searches w.now p ∧
      w.handler.CanAllot p ∧ Clashes pings w.handler (firstIndex env w.handler p)) := by
  constructor
  · rintro hends ⟨hadmits, hsearch, hcan, hclash⟩
    exact not_searchEnds_of_clashes hs hping hadmits hsearch hcan hclash hends
  · exact searchEnds_of_not_clashes hs hping

/-- The client asks for 10.0.0.11, which answers its ping; then 10.0.0.10 is probed, which is
silent. -/
theorem search_ends_sample :
    let w := init (Sample.scope [] []) Sample.network none 0
    let p := Sample.packet [2, 0, 0, 0, 0, 1] 1 (some 0x0a00000b#32)
    let env := Sample.env [0x0a00000b#32]
    (w.probes p env 3).map (fun probe => (probe.index, probe.conflict.isSome)) =
        [(1, true), (0, false)] ∧
      w.SearchEnds p env := by
  intro w p env
  have hping : ∀ k a, env.ping k a = [0x0a00000b#32].contains a := fun _ _ => rfl
  refine ⟨by decide +kernel, (search_ends_iff (readConfig_sound _) p hping).mpr ?_⟩
  rintro ⟨-, -, -, -, houtside | ⟨hstart, -⟩⟩
  · exact absurd houtside (by decide +kernel)
  · exact absurd hstart (by decide +kernel)

/-- Every address of a fresh scope answers: the first conflict is at 10.0.0.10, and the search
keeps coming back to it. -/
theorem search_never_ends : ¬ ∀ (w : World) (p : Packet) (env : Env) (pings : IPv4 → Bool),
    w.handler.Sound → (∀ k a, env.ping k a = pings a) → w.SearchEnds p env := by
  intro hclaim
  let w := init (Sample.scope [] []) Sample.network none 0
  let p := Sample.packet [2, 0, 0, 0, 0, 1] 1 none
  let env : Env := { Sample.env [] with ping := fun _ _ => true }
  have hs : w.handler.Sound := readConfig_sound _
  have hping : ∀ k a, env.ping k a = (fun _ => true) a := fun _ _ => rfl
  refine not_searchEnds_of_clashes hs hping ?_ ?_ ?_ ?_ (hclaim w p env _ hs hping)
  · decide +kernel
  · have hget : w.handler.hwcache.get w.now p.clientMac = none := by decide +kernel
    exact ⟨by decide +kernel, fun x hx => by simp [hget] at hx⟩
  · exact ⟨by decide +kernel, fun v hv => by cases hv⟩
  · exact ⟨rfl, .inr ⟨rfl, 1, by decide +kernel, by decide +kernel, by decide⟩⟩

end World

/-! ## Which DISCOVERs are answered -/

/-- `CHAddr()[5]` exists, or nothing is shuffled by it. -/
def DHCPHandler.CanReply (h : DHCPHandler) (p : Packet) : Prop :=
  6 ≤ p.chaddr.length ∨
    (h.options optionDomainNameServer = none ∧ h.options optionRouter = none)

theorem buildReplyOptions_isSome (hcan : h.CanReply p) (env : ReplyEnv) (mac : String) :
    ∃ options, buildReplyOptions env h.options p networkIP mac = some options := by
  unfold buildReplyOptions
  cases hb : p.chaddr[5]? with
  | some b => exact ⟨_, rfl⟩
  | none =>
    have hlen := List.getElem?_eq_none_iff.mp hb
    obtain hlong | ⟨hdns, hrouter⟩ := hcan
    · omega
    · simp only [hdns, hrouter]
      exact ⟨_, rfl⟩

theorem buildReplyOptions_eq_none (hno : ¬ h.CanReply p) (env : ReplyEnv) (mac : String) :
    buildReplyOptions env h.options p networkIP mac = none := by
  unfold DHCPHandler.CanReply at hno
  push Not at hno
  obtain ⟨hshort, hsome⟩ := hno
  have hb : p.chaddr[5]? = none := List.getElem?_eq_none_iff.mpr (by omega)
  unfold buildReplyOptions
  rw [hb]
  cases hdns : h.options optionDomainNameServer with
  | some v => rfl
  | none =>
    obtain ⟨v, hv⟩ := Option.ne_none_iff_exists'.mp (hsome hdns)
    simp [hv]

theorem replyOffer_answers (hcan : h.CanReply p) (free : Int) :
    (replyOffer env h networkIP p answer free).offered = some (ipAdd h.start free) := by
  obtain ⟨options, hoptions⟩ := buildReplyOptions_isSome hcan env.toReplyEnv p.clientMac
  unfold replyOffer
  rw [hoptions]
  rfl

theorem replyOffer_panics (hno : ¬ h.CanReply p) (hnone : answer.d = none) (free : Int) :
    (replyOffer env h networkIP p answer free).offered = none := by
  unfold replyOffer
  rw [buildReplyOptions_eq_none hno]
  exact (Answer.silent hnone).2

theorem allocate_refused (hno : ¬ h.CanAllot p) (fuel : ℕ) :
    allocate env (fuel + 1) now h networkIP p answer = some (h, answer) := by
  rw [allocate, ← retryTrace_snd, retryTrace_refused hno]
  rfl

theorem allocate_silent (hsilent : env.Silent) (hs : h.Sound) (hcan : h.CanAllot p) (fuel : ℕ) :
    ∃ available, Chosen h p (firstIndex env h p) available ∧
      allocate env (fuel + 2) now h networkIP p answer =
        some (settled now p { h with available := available } (firstIndex env h p),
          replyOffer env (settled now p { h with available := available } (firstIndex env h p))
            networkIP p answer (firstIndex env h p)) := by
  obtain ⟨fuel', -, hch, heq⟩ := retryTrace_first env now hs hcan fuel
  refine ⟨_, hch, ?_⟩
  rw [allocate, ← retryTrace_snd, heq, afterChoice, hsilent 0]
  rfl

/-- The client has a visible entry whose index was freed behind its back. -/
def DHCPHandler.Freed (h : DHCPHandler) (now : Int) (p : Packet) : Prop :=
  h.ipAssigned.lookup p.clientMac = none ∧ p.clientMac ≠ FreeMac ∧
    ∃ x, h.hwcache.get now p.clientMac = some x ∧ safeIntToUint64 x ∈ h.available.free

theorem freed_of_regain {x : Int} (hroute : route now h p = .regain x) :
    h.Freed now p := by
  unfold route at hroute
  cases hstat : h.ipAssigned.lookup p.clientMac with
  | some position => simp [hstat] at hroute
  | none =>
    cases hget : h.hwcache.get now p.clientMac with
    | none => simp [hstat, hget] at hroute
    | some y =>
      simp only [hstat, hget] at hroute
      split at hroute
      · cases hroute
      next hown =>
      split at hroute
      · next hsent =>
        split at hroute
        · next hfree =>
          refine ⟨hstat, fun hmac => hown (hsent.trans hmac.symm), y, hget, ?_⟩
          exact (isFreeIPAtIndex_iff.mp hfree).2
        · cases hroute
      · cases hroute

theorem route_of_freed (hs : h.Sound) (hfreed : h.Freed now p) :
    ∃ x, route now h p = .regain x := by
  obtain ⟨hstat, hmac, x, hget, hfree⟩ := hfreed
  have hsent := hs.ownerOf_free hfree
  have hown : ¬ h.ownerOf x = p.clientMac := fun hown => hmac (hown.symm.trans hsent)
  unfold route
  simp only [hstat, hget, if_neg hown, if_pos hsent,
    if_pos (isFreeIPAtIndex_iff.mpr ⟨hs.pool.free_lt hfree, hfree⟩)]
  exact ⟨x, rfl⟩

theorem serveDiscover_offers (hsilent : env.Silent) (hs : h.Sound) (hcan : h.CanAllot p)
    (hreply : h.CanReply p) (hno : ¬ h.Freed now p) (fuel : ℕ) :
    ∃ h' answer' a, serveDiscover env (fuel + 2) now h networkIP p answer = some (h', answer') ∧
      answer'.offered = some a := by
  rw [serveDiscover_route]
  cases hroute : route now h p with
  | static position => exact ⟨_, _, _, rfl, replyOffer_answers hreply _⟩
  | renew x =>
    exact ⟨_, _, _, rfl, replyOffer_answers (h := h.lock now p.clientMac x (5 * second)) hreply _⟩
  | regain x => exact absurd (freed_of_regain hroute) hno
  | search h₁ =>
    obtain ⟨hs₁, hpool, -, hoptions, -⟩ := search_congr env (searches_of_route hs hroute).2 hs
    have hcan₁ : h₁.CanAllot p := by rwa [DHCPHandler.CanAllot, hpool]
    have hreply₁ : h₁.CanReply p := by rwa [DHCPHandler.CanReply, hoptions]
    obtain ⟨available, -, heq⟩ := allocate_silent hsilent hs₁ hcan₁ fuel
    exact ⟨_, _, _, heq, replyOffer_answers
      (h := settled now p { h₁ with available := available } (firstIndex env h₁ p)) hreply₁ _⟩

theorem World.not_offered_of_freed {w : World} (hs : w.handler.Sound)
    (hadmits : w.Admits p .discover) (hfreed : w.handler.Freed w.now p) {fuel : ℕ} {g : Globals}
    {h : DHCPHandler} {answer : Answer}
    (hserve : w.serve p .discover env fuel = some (g, h, answer)) : answer.offered = none := by
  obtain ⟨x, hroute⟩ := route_of_freed hs hfreed
  rw [World.serve_discover hadmits, serveDiscover_route, hroute] at hserve
  cases hserve
  rfl

/-- While addresses remain, a DISCOVER with a full hardware address is answered with an OFFER
exactly if the index in the client's visible entry was not freed behind its back. -/
theorem discover_answered_iff {cfg : ScopeConfig} {network : IPNet} {ipv4 : Option IPv4}
    {now : Int} {w : World} (hrun : World.RunsTo (fun _ e => e.Silent) cfg network ipv4 now w)
    (hfree : w.handler.available.freeIPsRemaining ≠ 0) {p : Packet}
    (hadmits : w.Admits p .discover) (hlen : 6 ≤ p.chaddr.length)
    (hopt : ∀ v ∈ p.options optionRequestedIPAddress, v.length = 4) {env : Env}
    (hsilent : env.Silent) (fuel : ℕ) :
    (∃ g h answer a, w.serve p .discover env (fuel + 2) = some (g, h, answer) ∧
      answer.offered = some a) ↔ ¬ w.handler.Freed w.now p := by
  have hs := (World.RunsTo.regular hrun).sound
  constructor
  · rintro ⟨g, h, answer, a, hserve, hoffer⟩ hfreed
    cases (World.not_offered_of_freed hs hadmits hfreed hserve).symm.trans hoffer
  · intro hno
    rw [World.serve_discover hadmits]
    have hcan : w.handler.CanAllot p := ⟨hfree, fun v hv => (hopt v hv).ge⟩
    obtain ⟨h, answer, a, heq, hoffer⟩ :=
      serveDiscover_offers hsilent hs hcan (.inl hlen) hno fuel
    exact ⟨_, h, answer, a, by rw [heq]; rfl, hoffer⟩

/-- `02:…:01` has 10.0.0.10 on lease and `02:…:02` has 10.0.0.11 when the first of them discovers
again. -/
theorem discover_answered_sample : ∃ w,
    World.RunsTo (fun _ e => e.Silent) (Sample.scope [] []) Sample.network none 0 w ∧
    w.handler.available.freeIPsRemaining = 1 ∧
    w.handler.hwcache.get w.now "02:00:00:00:00:01" = some 0 ∧
    ∃ g h answer a, w.serve (Sample.packet [2, 0, 0, 0, 0, 1] 3 none) .discover (Sample.env []) 2 =
      some (g, h, answer) ∧ answer.offered = some a := by
  let first := Sample.send [2, 0, 0, 0, 0, 1]
  let other := Sample.send [2, 0, 0, 0, 0, 2]
  let p := Sample.packet [2, 0, 0, 0, 0, 1] 3 none
  have hmac : p.clientMac = "02:00:00:00:00:01" := by decide +kernel
  have hall : ∀ e ∈ [first 1 none .discover, first 1 (some 0x0a00000a#32) .request,
      other 2 none .discover, other 2 (some 0x0a00000b#32) .request], e.Silent := by
    simp [first, other, Event.Silent, Sample.send, Sample.silent_env]
  obtain ⟨w, hrun, hp⟩ := Sample.exists_run (Sample.scope [] []) _
    (fun w => decide (w.handler.available.freeIPsRemaining = 1) &&
      decide (w.handler.hwcache.get w.now "02:00:00:00:00:01" = some 0) &&
      decide (0 ∉ w.handler.available.free) && decide (w.Admits p .discover)) hall
    (by decide +kernel)
  simp only [Bool.and_eq_true, decide_eq_true_eq] at hp
  obtain ⟨⟨⟨hcard, hget⟩, htaken⟩, hadmits⟩ := hp
  refine ⟨w, hrun, hcard, hget, (discover_answered_iff hrun (by omega) hadmits (by decide)
    (fun v hv => by cases hv) Sample.silent_env 0).mpr ?_⟩
  rintro ⟨-, -, x, hx, hfree⟩
  rw [hmac] at hx
  cases hget.symm.trans hx
  exact htaken hfree

/-- The offer to `02:…:01` expires and is purged, which starts a free in 30 seconds. The client
comes back for the same address and gets its lease; then the free fires. -/
def freedLeaseRun : List Event :=
  let a : IPv4 := 0x0a00000a#32
  let chaddr : Bytes := [2, 0, 0, 0, 0, 1]
  [Sample.send chaddr 1 none .discover, .tick 10000000001, .purge,
    Sample.send chaddr 2 (some a) .discover, Sample.send chaddr 2 (some a) .request,
    .tick 30000000000, .fire 0]

theorem unanswered_discover : ¬ ∀ (cfg : ScopeConfig) (network : IPNet) (ipv4 : Option IPv4)
    (now : Int) (w : World), World.RunsTo (fun _ e => e.Silent) cfg network ipv4 now w →
    w.handler.available.freeIPsRemaining ≠ 0 → ∀ p : Packet, w.Admits p .discover →
    6 ≤ p.chaddr.length → (∀ v ∈ p.options optionRequestedIPAddress, v.length = 4) →
    ∀ env : Env, env.Silent → ∃ fuel g h answer a,
      w.serve p .discover env fuel = some (g, h, answer) ∧ answer.offered = some a := by
  intro hclaim
  let p := Sample.packet [2, 0, 0, 0, 0, 1] 3 none
  have hall : ∀ e ∈ freedLeaseRun, e.Silent := by
    simp [freedLeaseRun, Event.Silent, Sample.send, Sample.silent_env]
  obtain ⟨w, hrun, hp⟩ := Sample.exists_run (Sample.scope [] []) freedLeaseRun
    (fun w => decide (w.handler.available.freeIPsRemaining ≠ 0) && decide (w.Admits p .discover) &&
      decide (w.handler.ipAssigned.lookup p.clientMac = none) &&
      decide (w.handler.hwcache.get w.now p.clientMac = some 0) &&
      decide (0 ∈ w.handler.available.free)) hall (by decide +kernel)
  simp only [Bool.and_eq_true, decide_eq_true_eq] at hp
  obtain ⟨⟨⟨⟨hcard, hadmits⟩, hstat⟩, hget⟩, hfree⟩ := hp
  obtain ⟨fuel, g, h, answer, a, hserve, hoffer⟩ := hclaim _ _ _ _ w hrun hcard p hadmits
    (by decide) (fun v hv => by cases hv) (Sample.env []) Sample.silent_env
  have hfreed : w.handler.Freed w.now p := ⟨hstat, by decide +kernel, 0, hget, hfree⟩
  have hnone := World.not_offered_of_freed (World.RunsTo.regular hrun).sound hadmits hfreed hserve
  cases hnone.symm.trans hoffer

/-! ## What an unanswered DISCOVER leaves behind -/

/-- The pool and the hardware cache are as before. -/
structure Unspent (h h' : DHCPHandler) : Prop where
  free : h'.available.free = h.available.free
  owners : h'.available.mac = h.available.mac
  cache : ∀ m, h'.hwcache.peek m = h.hwcache.peek m

/-- An entry that is written again as it is, an index that can be given and a reply that can be
built, or no index to give: the cases in which the DISCOVER of a client leaves no trace unless
it is answered. -/
def DHCPHandler.Harmless (h : DHCPHandler) (now : Int) (p : Packet) : Prop :=
  match h.ipAssigned.lookup p.clientMac, h.hwcache.get now p.clientMac with
  | some _, _ => True
  | none, none => h.CanAllot p → h.CanReply p
  | none, some x =>
    if h.ownerOf x = p.clientMac then
      h.CanReply p ∨ h.hwcache.peek p.clientMac = some ⟨x, some (now + 5 * second)⟩
    else if h.ownerOf x = FreeMac then
      safeIntToUint64 x ∉ h.available.free ∧ h.CanAllot p ∧ h.CanReply p
    else h.CanAllot p → h.CanReply p

theorem Unspent.refl (h : DHCPHandler) : Unspent h h := ⟨rfl, rfl, fun _ => rfl⟩

theorem not_unspent_grant {h' : DHCPHandler} {i : ℕ} {mac : String} (hfree : i ∈ h.available.free)
    (hpool : h'.available = h.available.grant i mac) : ¬ Unspent h h' := by
  intro hun
  have hmem : i ∈ h'.available.free := by
    rw [hun.free]
    exact hfree
  rw [hpool] at hmem
  exact Finset.notMem_erase i _ hmem

theorem unspent_lock_iff {x : Int} :
    Unspent h (h.lock now p.clientMac x (5 * second)) ↔
      h.hwcache.peek p.clientMac = some ⟨x, some (now + 5 * second)⟩ := by
  have hentry : (h.lock now p.clientMac x (5 * second)).hwcache.peek p.clientMac =
      some ⟨x, some (now + 5 * second)⟩ := by
    rw [DHCPHandler.peek_lock, Cache.deadline_of_pos _ _ (by decide)]
  constructor
  · intro hun
    rw [← hun.cache, hentry]
  · intro hsame
    refine ⟨rfl, rfl, fun m => ?_⟩
    by_cases hm : m = p.clientMac
    · rw [hm, hentry, hsame]
    · exact h.peek_lock_ne now x _ hm

/-- The search wrote its index to the cache, where no entry of the client's own was visible. -/
theorem not_unspent_settled {h₁ : DHCPHandler} {i : ℕ} {available : DHCPPool}
    (hsearch : h.Searches now p) (hpool : h₁.available = h.available)
    (hch : Chosen h₁ p i available) :
    ¬ Unspent h (settled now p { h₁ with available := available } i) := by
  intro hun
  cases hch with
  | granted hfree =>
    rw [hpool] at hfree
    have hgrant : (settled now p { h₁ with available := h₁.available.grant i p.clientMac }
        i).available = h.available.grant i p.clientMac := by
      rw [← hpool]
      rfl
    exact not_unspent_grant hfree hgrant hun
  | own hreq hown =>
    have hentry : h.hwcache.peek p.clientMac =
        some ⟨i, h₁.hwcache.deadline now (5 * second)⟩ := by
      rw [← hun.cache]
      exact Cache.peek_set _ _ _ _ _
    have hget : h.hwcache.get now p.clientMac = some (i : Int) :=
      Cache.get_eq_some.mpr ⟨_, hentry, Cache.deadline_unexpired _ _ _ _, rfl⟩
    refine (hsearch.2 i hget).1 ?_
    rw [DHCPHandler.ownerOf, ← hpool]
    exact hown

theorem not_unspent_evict {x : Int} (hget : h.hwcache.get now p.clientMac = some x) :
    ¬ Unspent h (h.evict now p.clientMac) := by
  intro hun
  obtain ⟨e, he, -, -⟩ := Cache.get_eq_some.mp hget
  have hgone := hun.cache p.clientMac
  rw [DHCPHandler.peek_evict, he] at hgone
  cases hgone

section Outcome
variable (hsilent : env.Silent) (hs : h.Sound) (hnone : answer.d = none)
include hsilent hs hnone

/-- A search ends without an index, with an OFFER, or with an index and no OFFER. -/
theorem allocate_outcome {h₁ : DHCPHandler} (hbase : h₁ = h ∨ h₁ = h.evict now p.clientMac)
    (hsearch : h.Searches now p) (fuel : ℕ) :
    ∃ h' answer', allocate env (fuel + 2) now h₁ networkIP p answer = some (h', answer') ∧
      ((¬ h.CanAllot p ∧ h' = h₁ ∧ answer'.offered = none) ∨
       (h.CanAllot p ∧ h.CanReply p ∧ ∃ a, answer'.offered = some a) ∨
       (h.CanAllot p ∧ ¬ h.CanReply p ∧ answer'.offered = none ∧ ¬ Unspent h h')) := by
  obtain ⟨hs₁, hpool, -, hoptions, -⟩ := search_congr env hbase hs
  by_cases hcan : h.CanAllot p
  swap
  · have hcan₁ : ¬ h₁.CanAllot p := by rwa [DHCPHandler.CanAllot, hpool]
    exact ⟨_, _, allocate_refused hcan₁ (fuel + 1),
      .inl ⟨hcan, rfl, (Answer.silent hnone).2⟩⟩
  have hcan₁ : h₁.CanAllot p := by rwa [DHCPHandler.CanAllot, hpool]
  obtain ⟨available, hch, heq⟩ := allocate_silent hsilent hs₁ hcan₁ fuel
  refine ⟨_, _, heq, .inr ?_⟩
  by_cases hreply : h.CanReply p
  · have hreply₁ : (settled now p { h₁ with available := available }
        (firstIndex env h₁ p)).CanReply p := by
      show h₁.CanReply p
      rwa [DHCPHandler.CanReply, hoptions]
    exact .inl ⟨hcan, hreply, _, replyOffer_answers hreply₁ _⟩
  · have hreply₁ : ¬ (settled now p { h₁ with available := available }
        (firstIndex env h₁ p)).CanReply p := by
      show ¬ h₁.CanReply p
      rwa [DHCPHandler.CanReply, hoptions]
    exact .inr ⟨hcan, hreply, replyOffer_panics hreply₁ hnone _,
      not_unspent_settled hsearch hpool hch⟩

/-- A search that started in `h` itself. -/
theorem allocate_harmless_iff (hsearch : h.Searches now p) (fuel : ℕ) :
    ∃ h' answer', allocate env (fuel + 2) now h networkIP p answer = some (h', answer') ∧
      ((answer'.offered = none → Unspent h h') ↔ (h.CanAllot p → h.CanReply p)) := by
  obtain ⟨h', answer', heq, hout⟩ := allocate_outcome hsilent hs hnone (.inl rfl) hsearch fuel
  refine ⟨h', answer', heq, ?_⟩
  obtain ⟨hcan, rfl, -⟩ | ⟨-, hreply, a, hoffer⟩ | ⟨hcan, hreply, hoffer, hspent⟩ := hout
  · exact iff_of_true (fun _ => .refl h') fun hc => absurd hc hcan
  · exact iff_of_true (fun hno => by cases hno.symm.trans hoffer) fun _ => hreply
  · exact iff_of_false (fun hun => hspent (hun hoffer)) fun himp => hreply (himp hcan)

/-- A search that deleted the client's entry first. -/
theorem allocate_evicted_harmless_iff (hsearch : h.Searches now p) {x : Int}
    (hget : h.hwcache.get now p.clientMac = some x) (fuel : ℕ) :
    ∃ h' answer', allocate env (fuel + 2) now (h.evict now p.clientMac) networkIP p answer =
        some (h', answer') ∧
      ((answer'.offered = none → Unspent h h') ↔ (h.CanAllot p ∧ h.CanReply p)) := by
  obtain ⟨h', answer', heq, hout⟩ := allocate_outcome hsilent hs hnone (.inr rfl) hsearch fuel
  refine ⟨h', answer', heq, ?_⟩
  obtain ⟨hcan, rfl, hoffer⟩ | ⟨hcan, hreply, a, hoffer⟩ | ⟨-, hreply, hoffer, hspent⟩ := hout
  · exact iff_of_false (fun hun => not_unspent_evict hget (hun hoffer)) fun hc => hcan hc.1
  · exact iff_of_true (fun hno => by cases hno.symm.trans hoffer) ⟨hcan, hreply⟩
  · exact iff_of_false (fun hun => hspent (hun hoffer)) fun hc => hreply hc.2

theorem serveDiscover_harmless_iff (fuel : ℕ) :
    ∃ h' answer', serveDiscover env (fuel + 2) now h networkIP p answer = some (h', answer') ∧
      ((answer'.offered = none → Unspent h h') ↔ h.Harmless now p) := by
  rw [serveDiscover_route]
  unfold route DHCPHandler.Harmless
  cases hstat : h.ipAssigned.lookup p.clientMac with
  | some position => exact ⟨_, _, rfl, iff_of_true (fun _ => .refl h) trivial⟩
  | none =>
    cases hget : h.hwcache.get now p.clientMac with
    | none =>
      exact allocate_harmless_iff hsilent hs hnone (searches_of_get_none hstat hget) fuel
    | some x =>
      simp only
      by_cases hown : h.ownerOf x = p.clientMac
      · simp only [if_pos hown]
        refine ⟨_, _, rfl, ?_⟩
        rw [← unspent_lock_iff]
        let h₁ := h.lock now p.clientMac x (5 * second)
        by_cases hreply : h.CanReply p
        · have hoffer : (replyOffer env h₁ networkIP p answer x).offered = _ :=
            replyOffer_answers hreply x
          exact iff_of_true (fun hno => by cases hno.symm.trans hoffer) (.inl hreply)
        · have hoffer : (replyOffer env h₁ networkIP p answer x).offered = none :=
            replyOffer_panics hreply hnone x
          exact ⟨fun hun => .inr (hun hoffer), fun hor _ => hor.resolve_left hreply⟩
      have hsearch : safeIntToUint64 x ∉ h.available.free → h.Searches now p :=
        searches_of_get hstat hget hown
      by_cases hsent : h.ownerOf x = FreeMac
      swap
      · simp only [if_neg hown, if_neg hsent]
        exact allocate_harmless_iff hsilent hs hnone
          (hsearch fun hfree => hsent (hs.ownerOf_free hfree)) fuel
      simp only [if_neg hown, if_pos hsent]
      by_cases hfree : safeIntToUint64 x ∈ h.available.free
      · rw [if_pos (isFreeIPAtIndex_iff.mpr ⟨hs.pool.free_lt hfree, hfree⟩)]
        refine ⟨_, _, rfl, iff_of_false (fun hun => ?_) fun hc => hc.1 hfree⟩
        exact not_unspent_grant hfree rfl (hun (Answer.silent hnone).2)
      · rw [if_neg fun hf => hfree (isFreeIPAtIndex_iff.mp hf).2]
        obtain ⟨h', answer', heq, hiff⟩ :=
          allocate_evicted_harmless_iff hsilent hs hnone (hsearch hfree) hget fuel
        exact ⟨h', answer', heq, hiff.trans (and_iff_right hfree).symm⟩

end Outcome

/-- A DISCOVER that is not answered, while no ping is, leaves the pool and the hardware cache
alone exactly if it is not admitted or harmless. -/
theorem unanswered_discover_free_iff {w : World} (hs : w.handler.Sound) (p : Packet) {env : Env}
    (hsilent : env.Silent) (fuel : ℕ) :
    ∃ g h answer, w.serve p .discover env (fuel + 2) = some (g, h, answer) ∧
      ((answer.offered = none → Unspent w.handler h) ↔
        (w.Admits p .discover → w.handler.Harmless w.now p)) := by
  by_cases hadmits : w.Admits p .discover
  · obtain ⟨h, answer, heq, hiff⟩ : ∃ h answer, serveDiscover env (fuel + 2) w.now w.handler
        w.network.network.text p (w.greeting p) = some (h, answer) ∧
        ((answer.offered = none → Unspent w.handler h) ↔ w.handler.Harmless w.now p) :=
      serveDiscover_harmless_iff hsilent hs rfl fuel
    refine ⟨w.noted p, h, answer, ?_, hiff.trans ⟨fun hh _ => hh, fun hh => hh hadmits⟩⟩
    rw [World.serve_discover hadmits, heq]
    rfl
  · refine ⟨_, _, _, World.serve_rejected hadmits env _, ?_⟩
    exact iff_of_true (fun _ => .refl _) fun hc => absurd hc hadmits

/-- Three clients have the three addresses, and `02:…:04` gets no answer. -/
theorem unanswered_discover_free_sample : ∃ w g h answer,
    World.RunsTo (fun _ _ => True) (Sample.scope [] []) Sample.network none 0 w ∧
    w.handler.available.freeIPsRemaining = 0 ∧
    w.serve (Sample.packet [2, 0, 0, 0, 0, 4] 4 none) .discover (Sample.env []) 2 =
      some (g, h, answer) ∧
    answer.offered = none ∧ Unspent w.handler h := by
  let p := Sample.packet [2, 0, 0, 0, 0, 4] 4 none
  obtain ⟨w, hrun, hp⟩ := Sample.exists_run (Sample.scope [] [])
    [Sample.send [2, 0, 0, 0, 0, 1] 1 none .discover,
      Sample.send [2, 0, 0, 0, 0, 2] 2 none .discover,
      Sample.send [2, 0, 0, 0, 0, 3] 3 none .discover]
    (fun w => decide (w.handler.available.freeIPsRemaining = 0) &&
      decide (w.handler.ipAssigned.lookup p.clientMac = none) &&
      decide (w.handler.hwcache.get w.now p.clientMac = none) &&
      ((w.serve p .discover (Sample.env []) 2).map fun r => r.2.2.offered) == some none)
    (fun _ _ => trivial) (by decide +kernel)
  simp only [Bool.and_eq_true, decide_eq_true_eq, beq_iff_eq, Option.map_eq_some_iff] at hp
  obtain ⟨⟨⟨hcard, hstat⟩, hget⟩, ⟨g₁, h₁, answer₁⟩, hserve₁, hoffer⟩ := hp
  obtain ⟨g, h, answer, hserve, hiff⟩ := unanswered_discover_free_iff
    (World.RunsTo.regular hrun).sound p Sample.silent_env 0
  cases hserve₁.symm.trans hserve
  refine ⟨w, _, _, _, hrun, hcard, hserve, hoffer, hiff.mpr (fun _ => ?_) hoffer⟩
  unfold DHCPHandler.Harmless
  rw [hstat, hget]
  exact fun hcan => absurd hcard hcan.1

/-- A hardware address of length 0: the index is taken from the pool, then `CHAddr()[5]` panics
on the DNS servers of the scope. -/
theorem unanswered_discover_costs : ¬ ∀ (w : World) (p : Packet) (env : Env) (fuel : ℕ)
    (g : Globals) (h : DHCPHandler) (answer : Answer), w.handler.Sound → p.chaddr.length ≤ 16 →
    env.Silent → w.serve p .discover env fuel = some (g, h, answer) →
    answer.offered = none → Unspent w.handler h := by
  intro hclaim
  let w := World.init (Sample.scope [] []) Sample.network none 0
  let p := Sample.packet [] 1 none
  have hrun : ((w.serve p .discover (Sample.env []) 3).map fun r =>
      (r.2.2.offered, decide (r.2.1.available.free = {1, 2}))) = some (none, true) := by
    decide +kernel
  obtain ⟨⟨g, h, answer⟩, hserve, hout⟩ := Option.map_eq_some_iff.mp hrun
  simp only [Prod.mk.injEq, decide_eq_true_eq] at hout
  have hun := hclaim w p (Sample.env []) 3 g h answer (readConfig_sound _) (by decide)
    Sample.silent_env hserve hout.1
  have hfree : w.handler.available.free = {1, 2} := hun.free.symm.trans hout.2
  exact absurd hfree (by decide +kernel)

end StandaloneDHCP
