import StandaloneDHCP.Lib.CoveringCaches
import StandaloneDHCP.Server.ScopeSelection
import StandaloneDHCP.Server.ServerRun

/-! The networks of a server one by one. All networks share the clock and the transaction caches,
and nothing else. A packet that another network has just seen is dropped here too, so a run of the
server is not a run of one of its networks with the same packets; it is one with the packets that
the gate let through. What is needed for that: the gate of the server forgets no key before the
gate of the network alone, and the second transaction cache, which the REQUEST case reads, has
nothing to say about a packet that has passed the gate. -/
namespace StandaloneDHCP
open Lib
set_option autoImplicit false

/-! ## What a handling does with the transaction caches -/

namespace Globals

/-- A key that the gate misses is missed by the cache of the REQUEST case. -/
def Gated (now : Int) (g : Globals) : Prop :=
  Cache.Covers now g.globalTransactionCache g.requestGlobalTransactionCache

/-- The gate lets the packet pass. -/
def enter (g : Globals) (now : Int) (key : String) : Globals :=
  { g with globalTransactionCache := g.globalTransactionCache.set now key 1 (1 * second) }

/-- After the gate: at most the cache of the REQUEST case is written, under the key of the
packet. -/
structure Noted (now : Int) (key : String) (g g' : Globals) : Prop where
  seen : g'.globalTransactionCache = g.globalTransactionCache
  requested : g'.requestGlobalTransactionCache = g.requestGlobalTransactionCache ∨
    g'.requestGlobalTransactionCache = g.requestGlobalTransactionCache.set now key 1 (1 * second)

theorem Noted.refl (now : Int) (key : String) (g : Globals) : Noted now key g g :=
  ⟨rfl, .inl rfl⟩

theorem Gated.enter {now : Int} {key : String} {g g' : Globals} (hg : g.Gated now)
    (habsent : g.globalTransactionCache.get now key = none)
    (hnoted : (g.enter now key).Noted now key g') : g'.Gated now := by
  unfold Gated
  rw [hnoted.seen]
  obtain hreq | hreq := hnoted.requested
  · rw [hreq]
    exact hg.set_left habsent 1 _
  · rw [hreq]
    exact hg.set_both key 1 1 (by decide)

end Globals

section Handling
variable {env : Env} {now : Int} {p : Packet} {t : MessageType} {fuel : ℕ} {g g₁ g' : Globals}
  {h h' : DHCPHandler} {networkIP : String} {answer answer' : Answer}

theorem judge_noted {addr : IPv4} {v : Verdict} (hj : judge now g h p t addr = (v, g', h')) :
    g.Noted now (p.cacheKey t) g' := by
  unfold judge at hj
  simp only at hj
  repeat' split at hj
  all_goals
    cases hj
    first
      | exact .refl _ _ _
      | exact ⟨rfl, .inr rfl⟩

theorem serveRequest_noted
    (hr : serveRequest env now g h networkIP p t answer = (g', h', answer')) :
    g.Noted now (p.cacheKey t) g' := by
  unfold serveRequest at hr
  split at hr
  · cases hr
    exact .refl _ _ _
  simp only at hr
  split at hr
  · cases hr
    exact .refl _ _ _
  split at hr
  · next hj =>
    cases hr
    exact judge_noted hj
  · next hj =>
    cases hr
    exact judge_noted hj
  · next hj =>
    cases hr
    exact judge_noted hj
  · next hj =>
    have hnoted := judge_noted hj
    unfold acknowledge at hr
    split at hr
    · cases hr
      exact hnoted
    · cases hr
      exact ⟨hnoted.seen, hnoted.requested⟩

theorem serveMessage_noted
    (hr : serveMessage env fuel now g h networkIP p t answer = some (g', h', answer')) :
    g.Noted now (p.cacheKey t) g' := by
  cases t with
  | discover =>
    obtain ⟨r, -, heq⟩ := Option.map_eq_some_iff.mp hr
    cases heq
    exact .refl _ _ _
  | request => exact serveRequest_noted (Option.some.inj hr)
  | inform => exact serveRequest_noted (Option.some.inj hr)
  | release | decline | offer | ack | nak =>
    cases hr
    exact .refl _ _ _

/-! ## The answer does not depend on the caches of the other networks -/

theorem judge_agrees {addr : IPv4}
    (hg : g.requestGlobalTransactionCache.get now (p.cacheKey t) = none)
    (hg₁ : g₁.requestGlobalTransactionCache.get now (p.cacheKey t) = none) :
    (judge now g₁ h p t addr).1 = (judge now g h p t addr).1 ∧
      (judge now g₁ h p t addr).2.2 = (judge now g h p t addr).2.2 := by
  unfold judge
  simp only [hg, hg₁]
  repeat' split
  all_goals exact ⟨rfl, rfl⟩

theorem serveRequest_agrees
    (hg : g.requestGlobalTransactionCache.get now (p.cacheKey t) = none)
    (hg₁ : g₁.requestGlobalTransactionCache.get now (p.cacheKey t) = none) :
    (serveRequest env now g₁ h networkIP p t answer).2 =
      (serveRequest env now g h networkIP p t answer).2 := by
  unfold serveRequest
  split_ifs
  · rfl
  dsimp only
  cases validAddress p.reqIP with
  | none => rfl
  | some addr =>
    have hagree : (judge now g₁ h p t addr).1 = (judge now g h p t addr).1 ∧
        (judge now g₁ h p t addr).2.2 = (judge now g h p t addr).2.2 := judge_agrees hg hg₁
    dsimp only
    generalize judge now g h p t addr = r at hagree ⊢
    generalize judge now g₁ h p t addr = r₁ at hagree ⊢
    obtain ⟨v, g', h'⟩ := r
    obtain ⟨v₁, g₁', h₁'⟩ := r₁
    obtain ⟨hverdict, hhandler⟩ := hagree
    cases hverdict
    cases hhandler
    cases v with
    | unknown => rfl
    | duplicate => rfl
    | nak => rfl
    | ack index =>
      simp only [acknowledge]
      split <;> rfl

theorem serveMessage_agrees
    (hg : g.requestGlobalTransactionCache.get now (p.cacheKey t) = none)
    (hg₁ : g₁.requestGlobalTransactionCache.get now (p.cacheKey t) = none)
    (hr : serveMessage env fuel now g h networkIP p t answer = some (g', h', answer')) :
    ∃ g₁', serveMessage env fuel now g₁ h networkIP p t answer = some (g₁', h', answer') := by
  have hrequest : some (serveRequest env now g h networkIP p t answer) = some (g', h', answer') →
      ∃ g₁', some (serveRequest env now g₁ h networkIP p t answer) = some (g₁', h', answer') := by
    intro heq
    refine ⟨(serveRequest env now g₁ h networkIP p t answer).1, congrArg some ?_⟩
    rw [Prod.ext_iff]
    refine ⟨rfl, ?_⟩
    rw [serveRequest_agrees hg hg₁, Option.some.inj heq]
  cases t with
  | discover =>
    obtain ⟨r, hserve, heq⟩ := Option.map_eq_some_iff.mp hr
    cases heq
    exact ⟨g₁, Option.map_eq_some_iff.mpr ⟨r, hserve, rfl⟩⟩
  | request => exact hrequest hr
  | inform => exact hrequest hr
  | release | decline | offer | ack | nak =>
    cases hr
    exact ⟨g₁, rfl⟩

/-- A packet is dropped by the gate, or it passes and leaves the caches gated. -/
theorem serveHandler_cases (hgated : g.Gated now)
    (hr : serveHandler env fuel now g h networkIP p t answer = some (g', h', answer')) :
    (g' = g ∧ h' = h ∧ answer' = answer) ∨
    (g.globalTransactionCache.get now (p.cacheKey t) = none ∧ g'.Gated now ∧
      g'.globalTransactionCache =
        g.globalTransactionCache.set now (p.cacheKey t) 1 (1 * second) ∧
      serveMessage env fuel now (g.enter now (p.cacheKey t)) h networkIP p t answer =
        some (g', h', answer')) := by
  unfold serveHandler at hr
  split at hr
  · cases hr
    exact .inl ⟨rfl, rfl, rfl⟩
  · next habsent =>
    have hnoted := serveMessage_noted hr
    exact .inr ⟨habsent, hgated.enter habsent hnoted, hnoted.seen, hr⟩

end Handling

/-! ## One network of the server -/

/-- What the event is for network `j` of interface `i`. -/
def ServerEvent.at (i j : ℕ) : ServerEvent → Option Event
  | .packet i' p t env fuel => if i' = i then some (.packet p t env fuel) else none
  | .tick d => some (.tick d)
  | .purge i' j' => if i' = i ∧ j' = j then some .purge else none
  | .fire i' j' k => if i' = i ∧ j' = j then some (.fire k) else none
  | .purgeIps | .purgeMacs | .release _ => none

def ServerEvent.IsRelease : ServerEvent → Prop
  | .release _ => True
  | _ => False

namespace Server

def networkAt (s : Server) (i j : ℕ) : Option Network := (s.intsNet[i]?).bind fun v => v.network[j]?

/-- The world shows network `j` of interface `i`. -/
structure Shows (s : Server) (i j : ℕ) (w : World) : Prop where
  now : w.now = s.now
  ipv4 : (s.intsNet[i]?).map ServerInterface.ipv4 = some w.ipv4
  network : s.networkAt i j = some w.network

/-- The world is reached with the packets that the gate of the server lets through. -/
structure Projects (s : Server) (i j : ℕ) (w : World) : Prop where
  shown : s.Shows i j w
  gate : Cache.Covers s.now s.globals.globalTransactionCache w.globals.globalTransactionCache
  gated : s.globals.Gated s.now
  alone : w.globals.Gated w.now

/-- A packet at interface `i` that the detection loop gives to network `j`. -/
def Selects (s : Server) (i j : ℕ) (p : Packet) : Prop :=
  ∃ v, s.intsNet[i]? = some v ∧ v.network.findIdx? (fun n => n.selects p) = some j

end Server

/-- The loop over the networks of an interface changes at most the network it breaks at. -/
theorem serveNetworks_cases {env : Env} {fuel : ℕ} {now : Int} {g g' : Globals} {p : Packet}
    {t : MessageType} {answer answer' : Answer} {networks networks' : List Network}
    (hr : serveNetworks env fuel now g p t answer networks = some (g', networks', answer')) :
    (networks.findIdx? (fun n => n.selects p) = none ∧ g' = g ∧ networks' = networks ∧
      answer' = answer) ∨
    ∃ j v h', networks.findIdx? (fun n => n.selects p) = some j ∧ networks[j]? = some v ∧
      v.selects p = true ∧ networks' = networks.set j { v with dhcpHandler := h' } ∧
      serveHandler env fuel now g v.dhcpHandler v.network.text p t answer =
        some (g', h', answer') := by
  induction networks generalizing networks' with
  | nil =>
    cases hr
    exact .inl ⟨rfl, rfl, rfl, rfl⟩
  | cons v rest ih =>
    rw [serveNetworks] at hr
    split_ifs at hr with hsel
    · obtain ⟨⟨g₁, h₁, answer₁⟩, hserve, heq⟩ := Option.map_eq_some_iff.mp hr
      cases heq
      exact .inr ⟨0, v, h₁, by simp [List.findIdx?_cons, hsel], rfl, hsel, rfl, hserve⟩
    · obtain ⟨⟨g₁, networks₁, answer₁⟩, hserve, heq⟩ := Option.map_eq_some_iff.mp hr
      cases heq
      obtain ⟨hnone, rfl, rfl, rfl⟩ | ⟨j, u, h', hfind, hget, hu, rfl, hhandler⟩ := ih hserve
      · exact .inl ⟨by simp [List.findIdx?_cons, hsel, hnone], rfl, rfl, rfl⟩
      · exact .inr ⟨j + 1, u, h', by simp [List.findIdx?_cons, hsel, hfind], hget, hu, rfl,
          hhandler⟩

namespace Server
variable {s s' : Server} {i j : ℕ} {w : World}

/-! ## Frames -/

theorem networkAt_modifyHandler_self {n : Network} (hn : s.networkAt i j = some n)
    (f : DHCPHandler → DHCPHandler) :
    (s.modifyHandler i j f).networkAt i j =
      some { n with dhcpHandler := f n.dhcpHandler } := by
  obtain ⟨v, hv, hj⟩ := Option.bind_eq_some_iff.mp hn
  simp [networkAt, modifyHandler, hv, hj]

theorem networkAt_modifyHandler_ne {i' j' : ℕ} (hne : ¬ (i' = i ∧ j' = j))
    (f : DHCPHandler → DHCPHandler) :
    (s.modifyHandler i' j' f).networkAt i j = s.networkAt i j := by
  simp only [networkAt, modifyHandler, List.getElem?_modify]
  cases s.intsNet[i]? with
  | none => rfl
  | some v =>
    by_cases hi : i' = i
    · have hj : j' ≠ j := fun hj => hne ⟨hi, hj⟩
      simp [hi, hj]
    · simp [hi]

theorem ipv4_modifyHandler (i i' j' : ℕ) (f : DHCPHandler → DHCPHandler) :
    ((s.modifyHandler i' j' f).intsNet[i]?).map ServerInterface.ipv4 =
      (s.intsNet[i]?).map ServerInterface.ipv4 := by
  simp only [modifyHandler, List.getElem?_modify]
  cases s.intsNet[i]? with
  | none => rfl
  | some v =>
    by_cases hi : i' = i
    · simp [hi]
    · simp [hi]

theorem ipv4_setNetworks (i i' : ℕ) (networks : List Network) :
    ((s.setNetworks i' networks)[i]?).map ServerInterface.ipv4 =
      (s.intsNet[i]?).map ServerInterface.ipv4 := by
  simp only [setNetworks, List.getElem?_modify]
  cases s.intsNet[i]? with
  | none => rfl
  | some v =>
    by_cases hi : i' = i
    · simp [hi]
    · simp [hi]

/-! ## One step -/

/-- A packet that network `j` of interface `i` does not handle. -/
theorem Projects.elsewhere (hp : s.Projects i j w) {g : Globals}
    {intsNet : List ServerInterface}
    (hipv4 : (intsNet[i]?).map ServerInterface.ipv4 = (s.intsNet[i]?).map ServerInterface.ipv4)
    (hnetwork : ((intsNet[i]?).bind fun v => v.network[j]?) = s.networkAt i j)
    (hgate : Cache.Covers s.now g.globalTransactionCache w.globals.globalTransactionCache)
    (hgated : g.Gated s.now) :
    ({ s with globals := g, intsNet := intsNet } : Server).Projects i j w where
  shown := ⟨hp.shown.now, hipv4.trans hp.shown.ipv4, hnetwork.trans hp.shown.network⟩
  gate := hgate
  gated := hgated
  alone := hp.alone

/-- What the gate of the server lets through passes the gate of the network alone, and gets the
same answer. -/
theorem Projects.serve (hp : s.Projects i j w) {p : Packet} {t : MessageType} {env : Env}
    {fuel : ℕ} {g : Globals} {h : DHCPHandler} {answer : Answer} (hsel : w.network.selects p = true)
    (habsent : s.globals.globalTransactionCache.get s.now (p.cacheKey t) = none)
    (hserve : serveMessage env fuel s.now (s.globals.enter s.now (p.cacheKey t)) w.handler
      w.network.network.text p t { mac := p.chaddr, srcIP := w.ipv4 } = some (g, h, answer)) :
    ∃ g₁, w.serve p t env fuel = some (g₁, h, answer) ∧ g₁.Gated w.now ∧
      g₁.globalTransactionCache =
        w.globals.globalTransactionCache.set w.now (p.cacheKey t) 1 (1 * second) := by
  have hnow := hp.shown.now
  have habsent₁ : w.globals.globalTransactionCache.get w.now (p.cacheKey t) = none := by
    rw [hnow]
    exact hp.gate _ _ (Int.le_refl _) habsent
  have hreq : (s.globals.enter s.now (p.cacheKey t)).requestGlobalTransactionCache.get s.now
      (p.cacheKey t) = none := hp.gated _ _ (Int.le_refl _) habsent
  have hreq₁ : (w.globals.enter s.now (p.cacheKey t)).requestGlobalTransactionCache.get s.now
      (p.cacheKey t) = none := by
    rw [← hnow]
    exact hp.alone _ _ (Int.le_refl _) habsent₁
  obtain ⟨g₁, hserve₁⟩ := serveMessage_agrees hreq hreq₁ hserve
  rw [← hnow] at hserve₁
  have hnoted := serveMessage_noted hserve₁
  refine ⟨g₁, ?_, hp.alone.enter habsent₁ hnoted, hnoted.seen⟩
  rw [World.serve, if_pos hsel, serveHandler, habsent₁]
  exact hserve₁

theorem Shows.interface (hs : s.Shows i j w) :
    ∃ v, s.intsNet[i]? = some v ∧ v.ipv4 = w.ipv4 ∧ v.network[j]? = some w.network := by
  obtain ⟨v, hv, hj⟩ := Option.bind_eq_some_iff.mp hs.network
  have hipv4 := hs.ipv4
  rw [hv] at hipv4
  exact ⟨v, hv, Option.some.inj hipv4, hj⟩

/-- A packet at interface `i'`: it is none of the network's business, or the network handles it
the way it does alone. -/
theorem Projects.packet (hp : s.Projects i j w) {i' : ℕ} {p : Packet} {t : MessageType}
    {env : Env} {fuel : ℕ} (hstep : s.step (.packet i' p t env fuel) = some s') :
    s'.Projects i j w ∨
      i' = i ∧ ∃ w', w.step (.packet p t env fuel) = some w' ∧ s'.Projects i j w' := by
  obtain ⟨⟨g, networks, answer⟩, hserve, rfl⟩ := Option.map_eq_some_iff.mp hstep
  unfold Server.serve at hserve
  cases hint : s.intsNet[i']? with
  | none =>
    rw [hint] at hserve
    cases hserve
  | some v =>
    rw [hint] at hserve
    have hipv4 := ipv4_setNetworks (s := s) i i' networks
    -- where the handler of the network is not written, only the gate can have changed
    have hquiet : ((s.setNetworks i' networks)[i]?.bind fun v => v.network[j]?) = s.networkAt i j →
        Cache.Covers s.now g.globalTransactionCache w.globals.globalTransactionCache →
        g.Gated s.now → ({ s with globals := g, intsNet := s.setNetworks i' networks } :
          Server).Projects i j w := fun hnetwork hgate hgated =>
      hp.elsewhere hipv4 hnetwork hgate hgated
    have hother : ∀ networks', (i' = i → networks'[j]? = v.network[j]?) →
        ((s.setNetworks i' networks')[i]?.bind fun v => v.network[j]?) = s.networkAt i j := by
      intro networks' hsame
      simp only [setNetworks, List.getElem?_modify, networkAt]
      by_cases hi : i' = i
      · subst hi
        simp [hint, hsame rfl]
      · simp [hi]
    obtain ⟨-, rfl, rfl, rfl⟩ | ⟨j', u, h, -, hu, hsel, rfl, hhandler⟩ := serveNetworks_cases hserve
    · exact .inl (hquiet (hother _ fun _ => rfl) hp.gate hp.gated)
    obtain ⟨rfl, rfl, rfl⟩ | ⟨habsent, hgated, hgate, hmessage⟩ :=
      serveHandler_cases hp.gated hhandler
    · have hsame : v.network.set j' { u with dhcpHandler := u.dhcpHandler } = v.network := by
        obtain ⟨hlt, rfl⟩ := List.getElem?_eq_some_iff.mp hu
        exact List.set_getElem_self hlt
      exact .inl (hquiet (hother _ fun _ => by rw [hsame]) hp.gate hp.gated)
    by_cases hhere : i' = i ∧ j' = j
    · obtain ⟨rfl, rfl⟩ := hhere
      obtain ⟨v', hv', hipv4', hj'⟩ := hp.shown.interface
      cases hint.symm.trans hv'
      cases hu.symm.trans hj'
      rw [hipv4'] at hmessage
      obtain ⟨g₁, hserve₁, hgated₁, hgate₁⟩ := hp.serve hsel habsent hmessage
      refine .inr ⟨rfl, w.after p t g₁ h answer, ?_, ?_, ?_, hgated, hgated₁⟩
      · rw [World.step, hserve₁]
        rfl
      · refine ⟨hp.shown.now, hipv4.trans hp.shown.ipv4, ?_⟩
        have hlt : j' < v.network.length := (List.getElem?_eq_some_iff.mp hu).1
        simp [networkAt, setNetworks, hint, List.getElem?_set_self hlt, World.after,
          World.setHandler]
      · show Cache.Covers s.now g.globalTransactionCache g₁.globalTransactionCache
        rw [hgate, hgate₁, hp.shown.now]
        exact hp.gate.set_both _ 1 1 (by decide)
    · refine .inl (hquiet (hother _ fun hi => ?_) ?_ hgated)
      · exact List.getElem?_set_ne fun hj => hhere ⟨hi, hj⟩
      · rw [hgate]
        exact hp.gate.set_left habsent 1 _

/-- An event of one handler. -/
theorem Projects.modify (hp : s.Projects i j w) (f : DHCPHandler → DHCPHandler) :
    (s.modifyHandler i j f).Projects i j (w.setHandler (f w.handler)) where
  shown := ⟨hp.shown.now, (ipv4_modifyHandler i i j f).trans hp.shown.ipv4,
    networkAt_modifyHandler_self hp.shown.network f⟩
  gate := hp.gate
  gated := hp.gated
  alone := hp.alone

theorem Projects.modify_ne (hp : s.Projects i j w) {i' j' : ℕ} (hne : ¬ (i' = i ∧ j' = j))
    (f : DHCPHandler → DHCPHandler) : (s.modifyHandler i' j' f).Projects i j w where
  shown := ⟨hp.shown.now, (ipv4_modifyHandler i i' j' f).trans hp.shown.ipv4,
    (networkAt_modifyHandler_ne hne f).trans hp.shown.network⟩
  gate := hp.gate
  gated := hp.gated
  alone := hp.alone

theorem handlerAt_of_networkAt {n : Network} (hn : s.networkAt i j = some n) :
    s.handlerAt i j = some n.dhcpHandler := by
  obtain ⟨v, hv, hj⟩ := Option.bind_eq_some_iff.mp hn
  simp [handlerAt, hv, hj]

/-- Every step of the server is no step or one step of the network. -/
theorem Projects.step (hp : s.Projects i j w) {e : ServerEvent} (he : ¬ e.IsRelease)
    (hstep : s.step e = some s') :
    s'.Projects i j w ∨ ∃ e' w', e.at i j = some e' ∧ w.step e' = some w' ∧ s'.Projects i j w' := by
  cases e with
  | packet i' p t env fuel =>
    obtain hsame | ⟨rfl, w', hw', hp'⟩ := hp.packet hstep
    · exact .inl hsame
    · exact .inr ⟨_, w', if_pos rfl, hw', hp'⟩
  | tick d =>
    cases hstep
    have hle : s.now ≤ s.now + (d : Int) := by omega
    have hle' : w.now ≤ w.now + (d : Int) := by omega
    refine .inr ⟨.tick d, { w with now := w.now + d }, rfl, rfl, ⟨?_, ?_, ?_⟩, ?_, ?_, ?_⟩
    · exact congrArg (· + (d : Int)) hp.shown.now
    · exact hp.shown.ipv4
    · exact hp.shown.network
    · exact hp.gate.later hle
    · exact hp.gated.later hle
    · exact hp.alone.later hle'
  | purge i' j' =>
    cases hstep
    by_cases hhere : i' = i ∧ j' = j
    · obtain ⟨rfl, rfl⟩ := hhere
      refine .inr ⟨.purge, _, if_pos ⟨rfl, rfl⟩, rfl, ?_⟩
      rw [hp.shown.now]
      exact hp.modify fun h => h.purge s.now
    · exact .inl (hp.modify_ne hhere _)
  | fire i' j' k =>
    simp only [Server.step] at hstep
    split at hstep
    · next task htask =>
      split_ifs at hstep with hdue
      cases hstep
      by_cases hhere : i' = i ∧ j' = j
      · obtain ⟨rfl, rfl⟩ := hhere
        rw [handlerAt_of_networkAt hp.shown.network] at htask
        refine .inr ⟨.fire k, w.setHandler (w.handler.fire w.now k task), if_pos ⟨rfl, rfl⟩, ?_, ?_⟩
        · have htask' : w.handler.tasks[k]? = some task := htask
          rw [← hp.shown.now] at hdue
          simp only [World.step, htask', if_pos hdue]
        · rw [hp.shown.now]
          exact hp.modify fun h => h.fire s.now k task
      · exact .inl (hp.modify_ne hhere _)
    · cases hstep
  | purgeIps =>
    cases hstep
    exact .inl ⟨⟨hp.shown.now, hp.shown.ipv4, hp.shown.network⟩, hp.gate, hp.gated, hp.alone⟩
  | purgeMacs =>
    cases hstep
    exact .inl ⟨⟨hp.shown.now, hp.shown.ipv4, hp.shown.network⟩, hp.gate, hp.gated, hp.alone⟩
  | release mac => exact absurd trivial he

theorem projects_init {cfg : List (Option IPv4 × List (IPNet × ScopeConfig))} {now : Int}
    {ipv4 : Option IPv4} {scopes : List (IPNet × ScopeConfig)} {network : IPNet}
    {scope : ScopeConfig} (hi : cfg[i]? = some (ipv4, scopes))
    (hj : scopes[j]? = some (network, scope)) :
    (Server.init cfg now).Projects i j (World.init scope network ipv4 now) where
  shown := ⟨rfl, by simp [Server.init, hi, World.init], by
    simp [networkAt, Server.init, hi, hj, World.init]⟩
  gate := Cache.Covers.empty _ _ _
  gated := Cache.Covers.empty _ _ _
  alone := Cache.Covers.empty _ _ _

/-- A reply that the server gives through the network is the reply of the network alone. -/
theorem Projects.reply (hp : s.Projects i j w) {p : Packet} {t : MessageType} {env : Env}
    {fuel : ℕ} {g : Globals} {networks : List Network} {answer : Answer} (hsel : s.Selects i j p)
    (hserve : s.serve i p t env fuel = some (g, networks, answer)) (hreply : answer.d ≠ none) :
    ∃ g₁ h, w.serve p t env fuel = some (g₁, h, answer) := by
  obtain ⟨v, hv, hfind⟩ := hsel
  obtain ⟨v', hv', hipv4, hj⟩ := hp.shown.interface
  cases hv.symm.trans hv'
  unfold Server.serve at hserve
  rw [hv] at hserve
  obtain ⟨hnone, -⟩ | ⟨j', u, h, hfind', hu, hsel, -, hhandler⟩ := serveNetworks_cases hserve
  · rw [hfind] at hnone
    cases hnone
  cases hfind.symm.trans hfind'
  cases hu.symm.trans hj
  obtain ⟨-, -, rfl⟩ | ⟨habsent, -, -, hmessage⟩ := serveHandler_cases hp.gated hhandler
  · exact absurd rfl hreply
  rw [hipv4] at hmessage
  obtain ⟨g₁, hserve₁, -⟩ := hp.serve hsel habsent hmessage
  exact ⟨g₁, h, hserve₁⟩

end Server

/-- Seen from one of its networks, every run of the server without API releases is a run of that
network alone, with the same handler and clock, and every reply that the server then gives through
the network is the reply that the network gives alone. -/
theorem network_runs_alone {cfg : List (Option IPv4 × List (IPNet × ScopeConfig))} {now : Int}
    {s : Server} {i j : ℕ} {ipv4 : Option IPv4} {scopes : List (IPNet × ScopeConfig)}
    {network : IPNet} {scope : ScopeConfig} (hi : cfg[i]? = some (ipv4, scopes))
    (hj : scopes[j]? = some (network, scope)) {ok : World → Event → Prop}
    (hrun : Server.RunsTo (fun s e => ¬ e.IsRelease ∧
      ∀ w e', s.Shows i j w → e.at i j = some e' → ok w e') cfg now s) :
    ∃ w, World.RunsTo ok scope network ipv4 now w ∧ s.Shows i j w ∧
      ∀ p t env fuel g networks answer, s.Selects i j p →
        s.serve i p t env fuel = some (g, networks, answer) → answer.d ≠ none →
        ∃ g' h, w.serve p t env fuel = some (g', h, answer) := by
  suffices hproj : ∃ w, World.RunsTo ok scope network ipv4 now w ∧ s.Projects i j w by
    obtain ⟨w, hw, hp⟩ := hproj
    exact ⟨w, hw, hp.shown, fun p t env fuel g networks answer hsel hserve hreply =>
      hp.reply hsel hserve hreply⟩
  refine Reaches.invariant (fun s => ∃ w, World.RunsTo ok scope network ipv4 now w ∧
    s.Projects i j w) hrun ⟨_, .start, Server.projects_init hi hj⟩ ?_
  rintro s e s' ⟨w, hw, hp⟩ ⟨he, hok⟩ hstep
  obtain hp' | ⟨e', w', hat, hw', hp'⟩ := hp.step he hstep
  · exact ⟨w, hw, hp'⟩
  · exact ⟨w', .next hw (hok w e' hp.shown hat) hw', hp'⟩

namespace Sample

/-- The addresses 10.0.1.10, 10.0.1.11 and 10.0.1.12. -/
def farScope : ScopeConfig :=
  { scope [] [] with
    ip := 0x0a000101#32
    dhcpStart := 0x0a00010a#32
    dhcpEnd := 0x0a00010c#32
    start_le_end := by decide }

/-- One interface with two networks. -/
def twoNetworks : List (Option IPv4 × List (IPNet × ScopeConfig)) :=
  [(none, [(near.network, scope [] []), (far.network, farScope)])]

end Sample

/-- A DISCOVER reaches the server directly and through a relay. The second copy is dropped by the
gate that the first one has passed; when it is sent again it is answered by the second network. -/
theorem network_runs_alone_sample : ∃ s w, Server.RunsTo (fun s e => ¬ e.IsRelease ∧
      ∀ w e', s.Shows 0 1 w → e.at 0 1 = some e' → e'.Ordinary) Sample.twoNetworks 0 s ∧
    World.RunsTo (fun _ e => e.Ordinary) Sample.farScope Sample.far.network none 0 w ∧
    s.Shows 0 1 w ∧ w.handler.available.freeIPsRemaining = 2 := by
  let relayed : ServerEvent := .packet 0 Sample.relayed .discover (Sample.env []) 3
  let es := [Sample.arrive [2, 0, 0, 0, 0, 1] 1 none .discover, relayed, .tick 2000000000, relayed]
  have hall : ∀ e ∈ es, ¬ e.IsRelease ∧ ∀ e', e.at 0 1 = some e' → e'.Ordinary := by
    have hordinary : 6 ≤ Sample.relayed.chaddr.length ∧ Sample.relayed.clientMac ≠ FreeMac ∧
        Sample.relayed.clientMac ≠ FakeMac := by decide
    simp only [es, List.mem_cons, List.not_mem_nil, or_false, forall_eq_or_imp, forall_eq, relayed,
      Sample.arrive, ServerEvent.IsRelease, ServerEvent.at, if_true, Option.some.injEq,
      forall_eq', not_false_eq_true, true_and, Event.Ordinary]
    exact ⟨hordinary, hordinary, hordinary⟩
  have hend : (replay Server.step (fun _ _ => True) (Server.init Sample.twoNetworks 0) es).map
      (fun s => decide ((s.networkAt 0 1).map (fun n =>
        n.dhcpHandler.available.freeIPsRemaining) = some 2)) = some true := by decide +kernel
  obtain ⟨s, hs, hfree⟩ := exists_reaches_of_replay es hall hend
  have hrun : Server.RunsTo (fun s e => ¬ e.IsRelease ∧
      ∀ w e', s.Shows 0 1 w → e.at 0 1 = some e' → e'.Ordinary) Sample.twoNetworks 0 s :=
    hs.mono fun _ e hok => ⟨hok.1.1, fun _ e' _ hat => hok.1.2 e' hat⟩
  obtain ⟨w, hw, hshows, -⟩ := network_runs_alone (i := 0) (j := 1) rfl rfl hrun
  refine ⟨s, w, hrun, hw, hshows, ?_⟩
  have hfree' := of_decide_eq_true hfree
  rw [hshows.network] at hfree'
  exact Option.some.inj hfree'

end StandaloneDHCP
