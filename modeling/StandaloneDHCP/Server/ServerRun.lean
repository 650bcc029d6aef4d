import StandaloneDHCP.Server.HandlerRun
import StandaloneDHCP.Wire.AddressText

/-! The whole server: every interface with its networks, and the caches that they share. A packet
arrives at one interface; the clock, the janitors, the sleeping tasks and the release of a lease
through the API (`InterfaceScopeFromMac` of `utils.go`) are the other events. -/
namespace StandaloneDHCP
open Lib
set_option autoImplicit false

/-! ## Networks -/

/-- `net.IPNet.Contains` for an address of any length. -/
def IPNet.containsIP (n : IPNet) (ip : Bytes) : Bool :=
  match n.ip, n.mask with
  | some _, some _ =>
    match (to4 ip).bind beUint32 with
    | some a => n.contains a
    | none => false
  -- without a network number there is nothing to compare, so only nil is inside
  | _, _ => ip = []

/-- The number of leading ones of a mask that has no others. -/
def maskLength (mask : IPv4) : Option ℕ :=
  (List.range 33).find? fun n => mask = BitVec.ofNat 32 (2 ^ 32 - 2 ^ (32 - n))

/-- `net.IPNet.String`. -/
def IPNet.cidr (n : IPNet) : String :=
  match n.ip, n.mask with
  | some ip, some mask =>
    match maskLength mask with
    | some l => ipString ip ++ "/" ++ toString l
    | none => ipString ip ++ "/" ++ String.ofList ((beBytes mask).flatMap fun b =>
        [hexDigit (b.toNat / 16), hexDigit (b.toNat % 16)])
  | _, _ => "<nil>"

/-- An interface of type `server`. -/
structure ServerInterface where
  ipv4 : Option IPv4
  network : List Network

structure Server where
  now : Int
  globals : Globals
  intsNet : List ServerInterface

inductive ServerEvent
  | packet (i : ℕ) (p : Packet) (t : MessageType) (env : Env) (fuel : ℕ)
  | tick (d : ℕ)
  | purge (i j : ℕ)
  | fire (i j k : ℕ)
  | purgeIps
  | purgeMacs
  | release (mac : String)

/-! ## `InterfaceScopeFromMac` -/

/-- What `InterfaceScopeFromMac` did: the networks after it, the last network that holds the
address, and the handlers that it logs as removed, as they were before. -/
structure ScopeResult (α : Type) where
  after : α
  netWork : String
  removed : List DHCPHandler

/-- The body of the inner loop on a network that holds the address. -/
def DHCPHandler.shorten (h : DHCPHandler) (now : Int) (mac : String) : DHCPHandler :=
  match h.hwcache.get now mac with
  | some x => { h with hwcache := (h.hwcache.replace now mac x (3 * second)).getD h.hwcache }
  | none => h

def scopeNetworks (now : Int) (mac : String) (ip : Bytes) :
    List Network → String → ScopeResult (List Network)
  | [], netWork => ⟨[], netWork, []⟩
  | v :: rest, netWork =>
    if v.network.containsIP ip then
      let r := scopeNetworks now mac ip rest v.network.cidr
      let removed := if (v.dhcpHandler.hwcache.get now mac).isSome then [v.dhcpHandler] else []
      ⟨{ v with dhcpHandler := v.dhcpHandler.shorten now mac } :: r.after, r.netWork,
        removed ++ r.removed⟩
    else
      let r := scopeNetworks now mac ip rest netWork
      ⟨v :: r.after, r.netWork, r.removed⟩

def scopeInterfaces (now : Int) (mac : String) (ip : Bytes) :
    List ServerInterface → String → ScopeResult (List ServerInterface)
  | [], netWork => ⟨[], netWork, []⟩
  | v :: rest, netWork =>
    let r := scopeNetworks now mac ip v.network netWork
    let r' := scopeInterfaces now mac ip rest r.netWork
    ⟨{ v with network := r.after } :: r'.after, r'.netWork, r.removed ++ r'.removed⟩

namespace Server

def interfaceScopeFromMac (s : Server) (mac : String) : ScopeResult (List ServerInterface) :=
  match s.globals.globalMacCache.get s.now mac with
  | some index => scopeInterfaces s.now mac ((parseIP index).getD []) s.intsNet ""
  | none => ⟨s.intsNet, "", []⟩

/-! ## Steps -/

/-- `ServeDHCP` for a packet that arrives at interface `i`. -/
def serve (s : Server) (i : ℕ) (p : Packet) (t : MessageType) (env : Env) (fuel : ℕ) :
    Option (Globals × List Network × Answer) :=
  match s.intsNet[i]? with
  | some v =>
    serveNetworks env fuel s.now s.globals p t { mac := p.chaddr, srcIP := v.ipv4 } v.network
  | none => none

def setNetworks (s : Server) (i : ℕ) (networks : List Network) : List ServerInterface :=
  s.intsNet.modify i fun v => { v with network := networks }

def modifyHandler (s : Server) (i j : ℕ) (f : DHCPHandler → DHCPHandler) : Server :=
  { s with intsNet := s.intsNet.modify i fun v =>
      { v with network := v.network.modify j fun n => { n with dhcpHandler := f n.dhcpHandler } } }

def handlerAt (s : Server) (i j : ℕ) : Option DHCPHandler :=
  (s.intsNet[i]?).bind fun v => (v.network[j]?).map Network.dhcpHandler

def step (s : Server) : ServerEvent → Option Server
  | .packet i p t env fuel =>
    (s.serve i p t env fuel).map fun r =>
      { s with globals := r.1, intsNet := s.setNetworks i r.2.1 }
  | .tick d => some { s with now := s.now + d }
  | .purge i j => some (s.modifyHandler i j fun h => h.purge s.now)
  | .fire i j k =>
    match (s.handlerAt i j).bind fun h => h.tasks[k]? with
    | some task =>
      if task.due ≤ s.now then some (s.modifyHandler i j fun h => h.fire s.now k task) else none
    | none => none
  | .purgeIps =>
    some { s with globals := { s.globals with
      globalIpCache := (s.globals.globalIpCache.deleteExpired s.now).1 } }
  | .purgeMacs =>
    some { s with globals := { s.globals with
      globalMacCache := (s.globals.globalMacCache.deleteExpired s.now).1 } }
  | .release mac => some { s with intsNet := (s.interfaceScopeFromMac mac).after }

/-- The server right after `readConfig`. -/
def init (cfg : List (Option IPv4 × List (IPNet × ScopeConfig))) (now : Int) : Server where
  now := now
  globals := Globals.init
  intsNet := cfg.map fun c =>
    ⟨c.1, c.2.map fun n => { network := n.1, dhcpHandler := readConfig n.2 }⟩

/-- The states of the server in a run whose steps all meet `ok`. -/
abbrev RunsTo (ok : Server → ServerEvent → Prop)
    (cfg : List (Option IPv4 × List (IPNet × ScopeConfig))) (now : Int) : Server → Prop :=
  Reaches step ok (init cfg now)

end Server

/-! ## What a step does to the lookup caches -/

/-- `GlobalIpCache` and `GlobalMacCache` are left alone. -/
structure Globals.SameLookups (g g' : Globals) : Prop where
  ips : g'.globalIpCache = g.globalIpCache
  macs : g'.globalMacCache = g.globalMacCache

/-- The entries of one ACK are written. -/
structure Globals.Recorded (now : Int) (a mac : String) (lifetime : Int) (g g' : Globals) :
    Prop where
  ips : g'.globalIpCache = g.globalIpCache.set now a mac lifetime
  macs : g'.globalMacCache = g.globalMacCache.set now mac a lifetime

/-- The lookup caches change with an ACK, and then for the client of the packet and the address
that it asked for. -/
inductive LookupEffect (now : Int) (p : Packet) (t : MessageType) (g g' : Globals)
    (answer : Answer) : Prop
  | same (hack : answer.acked = none) (hsame : g.SameLookups g') :
      LookupEffect now p t g g' answer
  | recorded (addr : IPv4) (lifetime : Int) (htype : t = .request ∨ t = .inform)
      (haddr : validAddress p.reqIP = some addr) (hack : answer.acked = some addr)
      (hrec : Globals.Recorded now (ipString addr) p.clientMac lifetime g g') :
      LookupEffect now p t g g' answer

section Effect
variable {env : Env} {now : Int} {p : Packet} {t : MessageType} {fuel : ℕ} {g g' : Globals}
  {h h' : DHCPHandler} {networkIP : String} {answer answer' : Answer}

theorem acked_of_silent (hnone : answer.d = none) : answer.acked = none :=
  (Answer.silent hnone).1

theorem confirm_acked {x : Int} (hnone : answer.d = none) :
    (confirm env now h networkIP p answer x).2.acked = none := by
  unfold confirm
  split
  · exact acked_of_silent hnone
  · exact replyOffer_acked _ _ _ hnone

theorem allocate_acked (hnone : answer.d = none)
    (hr : allocate env fuel now h networkIP p answer = some (h', answer')) :
    answer'.acked = none := by
  obtain ⟨r, -, hr⟩ := Option.map_eq_some_iff.mp hr
  split at hr
  · cases hr
    exact acked_of_silent hnone
  · cases hr
    exact replyOffer_acked _ _ _ hnone

theorem serveDiscover_acked (hnone : answer.d = none)
    (hr : serveDiscover env fuel now h networkIP p answer = some (h', answer')) :
    answer'.acked = none := by
  have hconfirm : ∀ {h : DHCPHandler} {x : Int},
      some (confirm env now h networkIP p answer x) = some (h', answer') →
        answer'.acked = none := by
    intro h x heq
    have hanswer : (confirm env now h networkIP p answer x).2 = answer' :=
      congrArg Prod.snd (Option.some.inj heq)
    rw [← hanswer]
    exact confirm_acked hnone
  unfold serveDiscover at hr
  split at hr
  · cases hr
    exact replyOffer_acked _ _ _ hnone
  · split at hr
    · exact allocate_acked hnone hr
    · split at hr
      · exact hconfirm hr
      · split at hr
        · dsimp only at hr
          split at hr
          · exact hconfirm hr
          · exact allocate_acked hnone hr
        · exact allocate_acked hnone hr

theorem judge_lookups {addr : IPv4} {v : Verdict} (hj : judge now g h p t addr = (v, g', h')) :
    g.SameLookups g' := by
  unfold judge at hj
  simp only at hj
  repeat' split at hj
  all_goals
    cases hj
    exact ⟨rfl, rfl⟩

theorem serveRequest_lookups (htype : t = .request ∨ t = .inform) (hnone : answer.d = none)
    (hr : serveRequest env now g h networkIP p t answer = (g', h', answer')) :
    LookupEffect now p t g g' answer' := by
  unfold serveRequest at hr
  split at hr
  · cases hr
    exact .same rfl ⟨rfl, rfl⟩
  simp only at hr
  split at hr
  · cases hr
    exact .same rfl ⟨rfl, rfl⟩
  next addr haddr =>
    split at hr
    · next hj =>
      cases hr
      exact .same rfl (judge_lookups hj)
    · next hj =>
      cases hr
      exact .same (acked_of_silent hnone) (judge_lookups hj)
    · next hj =>
      cases hr
      exact .same rfl (judge_lookups hj)
    · next index g₁ h₁ hj =>
      obtain ⟨hips, hmacs⟩ := judge_lookups hj
      unfold acknowledge at hr
      split at hr
      · cases hr
        exact .same (acked_of_silent hnone) ⟨hips, hmacs⟩
      · cases hr
        refine .recorded addr (h₁.leaseDuration + 15 * second) htype haddr rfl ⟨?_, ?_⟩
        · rw [← hips]
        · rw [← hmacs]

theorem serveMessage_lookups (hnone : answer.d = none)
    (hr : serveMessage env fuel now g h networkIP p t answer = some (g', h', answer')) :
    LookupEffect now p t g g' answer' := by
  cases t with
  | discover =>
    obtain ⟨r, hserve, heq⟩ := Option.map_eq_some_iff.mp hr
    cases heq
    exact .same (serveDiscover_acked hnone hserve) ⟨rfl, rfl⟩
  | request => exact serveRequest_lookups (.inl rfl) hnone (Option.some.inj hr)
  | inform => exact serveRequest_lookups (.inr rfl) hnone (Option.some.inj hr)
  | release | decline =>
    cases hr
    exact .same (acked_of_silent hnone) ⟨rfl, rfl⟩
  | offer | ack | nak =>
    cases hr
    exact .same rfl ⟨rfl, rfl⟩

theorem serveHandler_lookups (hnone : answer.d = none)
    (hr : serveHandler env fuel now g h networkIP p t answer = some (g', h', answer')) :
    LookupEffect now p t g g' answer' := by
  unfold serveHandler at hr
  split at hr
  · cases hr
    exact .same (acked_of_silent hnone) ⟨rfl, rfl⟩
  · obtain ⟨hack, hsame⟩ | ⟨addr, lifetime, htype, haddr, hack, hrec⟩ :=
      serveMessage_lookups hnone hr
    · exact .same hack ⟨hsame.ips, hsame.macs⟩
    · exact .recorded addr lifetime htype haddr hack ⟨hrec.ips, hrec.macs⟩

theorem serveNetworks_lookups (networks : List Network) {networks' : List Network}
    (hnone : answer.d = none)
    (hr : serveNetworks env fuel now g p t answer networks = some (g', networks', answer')) :
    LookupEffect now p t g g' answer' := by
  induction networks generalizing networks' with
  | nil =>
    cases hr
    exact .same (acked_of_silent hnone) ⟨rfl, rfl⟩
  | cons v rest ih =>
    rw [serveNetworks] at hr
    split at hr
    · obtain ⟨⟨g₁, h₁, answer₁⟩, hserve, heq⟩ := Option.map_eq_some_iff.mp hr
      cases heq
      exact serveHandler_lookups hnone hserve
    · obtain ⟨⟨g₁, networks₁, answer₁⟩, hserve, heq⟩ := Option.map_eq_some_iff.mp hr
      cases heq
      exact ih hserve

end Effect

theorem Server.serve_lookups {s : Server} {i : ℕ} {p : Packet} {t : MessageType} {env : Env}
    {fuel : ℕ} {g : Globals} {networks : List Network} {answer : Answer}
    (hserve : s.serve i p t env fuel = some (g, networks, answer)) :
    LookupEffect s.now p t s.globals g answer := by
  unfold Server.serve at hserve
  split at hserve
  · exact serveNetworks_lookups _ rfl hserve
  · cases hserve

namespace Server

/-- The packet of the event is answered with an ACK. -/
def Acknowledges (s : Server) : ServerEvent → Prop
  | .packet i p t env fuel => ∃ g networks answer addr,
      s.serve i p t env fuel = some (g, networks, answer) ∧ answer.acked = some addr
  | _ => False

/-- The lookup caches over one step. -/
inductive LookupStep (s s' : Server) (e : ServerEvent) : Prop
  | same (hlater : s.now ≤ s'.now) (hsame : s.globals.SameLookups s'.globals) :
      LookupStep s s' e
  | purgedIps (hnow : s'.now = s.now)
      (hips : s'.globals.globalIpCache = (s.globals.globalIpCache.deleteExpired s.now).1)
      (hmacs : s'.globals.globalMacCache = s.globals.globalMacCache) : LookupStep s s' e
  | purgedMacs (hnow : s'.now = s.now)
      (hips : s'.globals.globalIpCache = s.globals.globalIpCache)
      (hmacs : s'.globals.globalMacCache = (s.globals.globalMacCache.deleteExpired s.now).1) :
      LookupStep s s' e
  | recorded (hnow : s'.now = s.now) (hack : s.Acknowledges e) (addr : IPv4) (hw : Bytes)
      (lifetime : Int)
      (hrec : s.globals.Recorded s.now (ipString addr) (hexString hw) lifetime s'.globals) :
      LookupStep s s' e

theorem step_lookups {s s' : Server} {e : ServerEvent} (hstep : s.step e = some s') :
    LookupStep s s' e := by
  cases e with
  | packet i p t env fuel =>
    obtain ⟨⟨g, networks, answer⟩, hserve, rfl⟩ := Option.map_eq_some_iff.mp hstep
    obtain ⟨-, hsame⟩ | ⟨addr, lifetime, -, -, hacked, hrec⟩ := serve_lookups hserve
    · exact .same (Int.le_refl _) hsame
    · exact .recorded rfl ⟨g, networks, answer, addr, hserve, hacked⟩ addr p.chaddr lifetime hrec
  | tick d =>
    cases hstep
    have hle : s.now ≤ s.now + (d : Int) := by omega
    exact .same hle ⟨rfl, rfl⟩
  | purge i j =>
    cases hstep
    exact .same (Int.le_refl _) ⟨rfl, rfl⟩
  | fire i j k =>
    simp only [step] at hstep
    split at hstep
    · split at hstep
      · cases hstep
        exact .same (Int.le_refl _) ⟨rfl, rfl⟩
      · cases hstep
    · cases hstep
  | purgeIps =>
    cases hstep
    exact .purgedIps rfl rfl rfl
  | purgeMacs =>
    cases hstep
    exact .purgedMacs rfl rfl rfl
  | release mac =>
    cases hstep
    exact .same (Int.le_refl _) ⟨rfl, rfl⟩

end Server

/-! ## A small server, for concrete runs -/

namespace Sample

/-- One interface with the small scope. -/
def server : List (Option IPv4 × List (IPNet × ScopeConfig)) := [(none, [(network, scope [] [])])]

/-- The packet arrives at the interface while no address answers a ping. -/
def arrive (chaddr : Bytes) (xid : BitVec 32) (want : Option IPv4) (t : MessageType) :
    ServerEvent :=
  .packet 0 (packet chaddr xid want) t (env []) 3

theorem exists_server_run (ok : Server → ServerEvent → Prop) [∀ s e, Decidable (ok s e)]
    (es : List ServerEvent) (p : Server → Bool)
    (h : (replay Server.step ok (Server.init server 0) es).map p = some true) :
    ∃ s, Server.RunsTo ok server 0 s ∧ p s = true := by
  obtain ⟨s, hs, hp⟩ := Option.map_eq_some_iff.mp h
  exact ⟨s, reaches_of_replay hs, hp⟩

end Sample
end StandaloneDHCP
