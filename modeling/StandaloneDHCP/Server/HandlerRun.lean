import StandaloneDHCP.Lib.Runs
import StandaloneDHCP.Server.Config
import StandaloneDHCP.Server.Handling

/-! Runs of one handler. The events are a packet (any content, any choices of its
environment), the clock advancing, the janitor of the hardware cache, and a sleeping task
whose time has come. A packet whose handling does not return is not a step. `log` is a ghost:
the packets handled so far with their answers, newest first. -/
namespace StandaloneDHCP
open Lib
set_option autoImplicit false

structure Record where
  time : Int
  mac : String
  messageType : MessageType
  answer : Answer

/-- The packet was answered with an OFFER or an ACK of `a`. -/
def Record.Grants (r : Record) (a : IPv4) : Prop :=
  r.answer.offered = some a ∨ r.answer.acked = some a

instance (r : Record) (a : IPv4) : Decidable (r.Grants a) :=
  inferInstanceAs (Decidable (_ ∨ _))

/-- `ipv4` is the address of the interface, which every answer names as its source. -/
structure World where
  now : Int
  ipv4 : Option IPv4
  globals : Globals
  network : Network
  log : List Record

inductive Event
  | packet (p : Packet) (t : MessageType) (env : Env) (fuel : ℕ)
  | tick (d : ℕ)
  | purge
  | fire (k : ℕ)

namespace World

abbrev handler (w : World) : DHCPHandler := w.network.dhcpHandler

def setHandler (w : World) (h : DHCPHandler) : World :=
  { w with network := { w.network with dhcpHandler := h } }

/-- `ServeDHCP` for a packet that arrives at the interface of the handler. -/
def serve (w : World) (p : Packet) (t : MessageType) (env : Env) (fuel : ℕ) :
    Option (Globals × DHCPHandler × Answer) :=
  let answer : Answer := { mac := p.chaddr, srcIP := w.ipv4 }
  if w.network.selects p then
    serveHandler env fuel w.now w.globals w.handler w.network.network.text p t answer
  else some (w.globals, w.handler, answer)

def step (w : World) : Event → Option World
  | .packet p t env fuel =>
    (w.serve p t env fuel).map fun r =>
      { w.setHandler r.2.1 with
        globals := r.1, log := ⟨w.now, p.clientMac, t, r.2.2⟩ :: w.log }
  | .tick d => some { w with now := w.now + d }
  | .purge => some (w.setHandler (w.handler.purge w.now))
  | .fire k =>
    match w.handler.tasks[k]? with
    | some task =>
      if task.due ≤ w.now then some (w.setHandler (w.handler.fire w.now k task)) else none
    | none => none

/-- The server right after configuration, at the clock reading `now`. -/
def init (cfg : ScopeConfig) (network : IPNet) (ipv4 : Option IPv4) (now : Int) : World where
  now := now
  ipv4 := ipv4
  globals := Globals.init
  network := { network := network, dhcpHandler := readConfig cfg }
  log := []

theorem serve_eq_serveNetworks (w : World) (p : Packet) (t : MessageType) (env : Env)
    (fuel : ℕ) :
    serveNetworks env fuel w.now w.globals p t { mac := p.chaddr, srcIP := w.ipv4 } [w.network] =
      (w.serve p t env fuel).map fun r =>
        (r.1, [{ w.network with dhcpHandler := r.2.1 }], r.2.2) := by
  simp only [serveNetworks, serve]
  split
  · rfl
  · rfl

/-- The packet selects the handler and is not a repetition of the last second. -/
def Admits (w : World) (p : Packet) (t : MessageType) : Prop :=
  w.network.selects p = true ∧ w.globals.globalTransactionCache.get w.now (p.cacheKey t) = none

instance (w : World) (p : Packet) (t : MessageType) : Decidable (w.Admits p t) :=
  inferInstanceAs (Decidable (_ ∧ _))

def after (w : World) (p : Packet) (t : MessageType) (g : Globals) (h : DHCPHandler)
    (answer : Answer) : World :=
  { w.setHandler h with globals := g, log := ⟨w.now, p.clientMac, t, answer⟩ :: w.log }

/-- What one step can do. -/
inductive Stepped (w : World) : Event → World → Prop
  | dropped (p : Packet) (t : MessageType) (env : Env) (fuel : ℕ) (answer : Answer)
      (hnone : answer.d = none) :
      Stepped w (.packet p t env fuel) (w.after p t w.globals w.handler answer)
  | handled (p : Packet) (t : MessageType) (env : Env) (fuel : ℕ) (g : Globals)
      (h : DHCPHandler) (answer : Answer) (hadmits : w.Admits p t)
      (hglobals : w.globals.SameExcept (p.cacheKey t) g)
      (hhandled : Handled env w.now p t w.handler h answer) :
      Stepped w (.packet p t env fuel) (w.after p t g h answer)
  | tick (d : ℕ) : Stepped w (.tick d) { w with now := w.now + d }
  | purge : Stepped w .purge (w.setHandler (w.handler.purge w.now))
  | fire (k : ℕ) (task : Task) (htask : w.handler.tasks[k]? = some task)
      (hdue : task.due ≤ w.now) :
      Stepped w (.fire k) (w.setHandler (w.handler.fire w.now k task))

/-- A packet is dropped where the network does not select it or its key was just seen. -/
theorem serve_message {w : World} {p : Packet} {t : MessageType} {env : Env} {fuel : ℕ}
    {g : Globals} {h : DHCPHandler} {answer : Answer}
    (hserve : w.serve p t env fuel = some (g, h, answer)) :
    (g = w.globals ∧ h = w.handler ∧ answer = { mac := p.chaddr, srcIP := w.ipv4 }) ∨
    w.Admits p t ∧ serveMessage env fuel w.now
      { w.globals with globalTransactionCache :=
        w.globals.globalTransactionCache.set w.now (p.cacheKey t) 1 (1 * second) }
      w.handler w.network.network.text p t { mac := p.chaddr, srcIP := w.ipv4 } =
        some (g, h, answer) := by
  unfold serve at hserve
  by_cases hsel : w.network.selects p = true
  · simp only [if_pos hsel, serveHandler] at hserve
    cases hkey : w.globals.globalTransactionCache.get w.now (p.cacheKey t) with
    | some _ =>
      rw [hkey] at hserve
      cases hserve
      exact .inl ⟨rfl, rfl, rfl⟩
    | none =>
      rw [hkey] at hserve
      exact .inr ⟨⟨hsel, hkey⟩, hserve⟩
  · simp only [if_neg hsel] at hserve
    cases hserve
    exact .inl ⟨rfl, rfl, rfl⟩

theorem serve_cases {w : World} {p : Packet} {t : MessageType} {env : Env} {fuel : ℕ}
    {g : Globals} {h : DHCPHandler} {answer : Answer} (hs : w.handler.Sound)
    (hserve : w.serve p t env fuel = some (g, h, answer)) :
    (g = w.globals ∧ h = w.handler ∧ answer.d = none) ∨
    (w.Admits p t ∧ w.globals.SameExcept (p.cacheKey t) g ∧
      Handled env w.now p t w.handler h answer) := by
  obtain ⟨rfl, rfl, rfl⟩ | ⟨hadmits, hmessage⟩ := serve_message hserve
  · exact .inl ⟨rfl, rfl, rfl⟩
  · have hg := serveMessage_globals hmessage
    refine .inr ⟨hadmits, ⟨fun k hk => ?_, hg.requested⟩, serveMessage_handled hs rfl hmessage⟩
    rw [hg.seen k hk]
    exact Cache.peek_set_ne _ _ _ _ hk

theorem step_packet {w w' : World} {p : Packet} {t : MessageType} {env : Env} {fuel : ℕ}
    (hstep : w.step (.packet p t env fuel) = some w') :
    ∃ g h answer, w.serve p t env fuel = some (g, h, answer) ∧ w' = w.after p t g h answer := by
  obtain ⟨⟨g, h, answer⟩, hserve, rfl⟩ := Option.map_eq_some_iff.mp hstep
  exact ⟨g, h, answer, hserve, rfl⟩

theorem step_stepped {w w' : World} {e : Event} (hs : w.handler.Sound)
    (hstep : w.step e = some w') : Stepped w e w' := by
  cases e with
  | packet p t env fuel =>
    obtain ⟨g, h, answer, hserve, rfl⟩ := step_packet hstep
    obtain ⟨rfl, rfl, hnone⟩ | ⟨hadmits, hglobals, hhandled⟩ := serve_cases hs hserve
    · exact .dropped p t env fuel answer hnone
    · exact .handled p t env fuel g h answer hadmits hglobals hhandled
  | tick d =>
    cases hstep
    exact .tick d
  | purge =>
    cases hstep
    exact .purge
  | fire k =>
    simp only [step] at hstep
    cases htask : w.handler.tasks[k]? with
    | none => simp [htask] at hstep
    | some task =>
      rw [htask] at hstep
      simp only at hstep
      split at hstep
      · next hdue =>
        cases hstep
        exact .fire k task htask hdue
      · cases hstep

theorem Stepped.grants {w w' : World} {e : Event} (hst : Stepped w e w') {r : Record}
    (hr : r ∈ w'.log) {a : IPv4} (hgrant : r.Grants a) :
    r ∈ w.log ∨ ∃ p t env fuel h, e = .packet p t env fuel ∧ w.Admits p t ∧
      Handled env w.now p t w.handler h r.answer ∧ r.mac = p.clientMac := by
  cases hst with
  | dropped p t env fuel answer hnone =>
    rcases List.mem_cons.mp hr with rfl | hr
    · obtain ⟨hack, hoffer⟩ := Answer.silent hnone
      exact (Answer.not_granted hack hoffer hgrant).elim
    · exact .inl hr
  | handled p t env fuel g h answer hadmits _ hh =>
    rcases List.mem_cons.mp hr with rfl | hr
    · exact .inr ⟨p, t, env, fuel, h, rfl, hadmits, hh, rfl⟩
    · exact .inl hr
  | tick => exact .inl hr
  | purge => exact .inl hr
  | fire => exact .inl hr

/-- A run from the configuration `cfg`, every step of which meets `ok`. -/
abbrev RunsTo (ok : World → Event → Prop) (cfg : ScopeConfig) (network : IPNet)
    (ipv4 : Option IPv4) (now : Int) : World → Prop :=
  Reaches step ok (init cfg network ipv4 now)

/-- What holds of the handler whatever happens. -/
structure Regular (cfg : ScopeConfig) (w : World) : Prop where
  sound : w.handler.Sound
  offsets : w.handler.Indexes IsOffset
  settings : w.handler.settings = (readConfig cfg).settings

section Regular
variable {cfg : ScopeConfig} {w : World} (hreg : w.Regular cfg)
include hreg

theorem Regular.start : w.handler.start = cfg.dhcpStart :=
  DHCPHandler.start_of_settings hreg.settings

/-- An offset with the address `a` is the position of `a`. -/
theorem Regular.index_eq {index : Int} (hoff : IsOffset index) {a : IPv4}
    (haddr : a = ipAdd w.handler.start index) : index = (cfg.position a).toNat := by
  apply hoff.eq_of_ipAdd (isOffset_toNat _)
  rw [hreg.start] at haddr
  rw [← haddr, cfg.ipAdd_position]

theorem Regular.ipAssigned : w.handler.ipAssigned = (readConfig cfg).ipAssigned :=
  DHCPHandler.ipAssigned_of_settings hreg.settings

theorem Regular.capacity : w.handler.available.capacity = cfg.size := by
  have hrange : w.handler.leaseRange = cfg.size :=
    (DHCPHandler.leaseRange_of_settings hreg.settings).trans (ipRange_eq_size cfg)
  have hcap := hreg.sound.range
  omega

end Regular

theorem regular_init (cfg : ScopeConfig) (network : IPNet) (ipv4 : Option IPv4) (now : Int) :
    (init cfg network ipv4 now).Regular cfg :=
  ⟨readConfig_sound cfg, readConfig_indexes cfg IsOffset, rfl⟩

theorem Stepped.regular {cfg : ScopeConfig} {w w' : World} {e : Event} (hst : Stepped w e w')
    (hr : w.Regular cfg) : w'.Regular cfg := by
  cases hst with
  | dropped => exact ⟨hr.sound, hr.offsets, hr.settings⟩
  | handled p t env fuel g h answer hadmits _ hhandled =>
    have hm := hhandled.moves
    exact ⟨hm.sound hr.sound, hm.offsets hr.sound hr.offsets, hm.settings.trans hr.settings⟩
  | tick d => exact ⟨hr.sound, hr.offsets, hr.settings⟩
  | purge =>
    refine ⟨hr.sound.purge w.now, hr.offsets.purge w.now, Eq.trans ?_ hr.settings⟩
    show (w.handler.purge w.now).settings = _
    rw [DHCPHandler.purge_eq]
    rfl
  | fire k task => exact ⟨hr.sound.fire w.now k task, hr.offsets.fire w.now k task, hr.settings⟩

theorem RunsTo.invariant {ok : World → Event → Prop} {cfg : ScopeConfig} {network : IPNet}
    {ipv4 : Option IPv4} {now : Int} {w : World} (inv : World → Prop)
    (hrun : RunsTo ok cfg network ipv4 now w) (hstart : inv (init cfg network ipv4 now))
    (hstep : ∀ w e w', w.Regular cfg → inv w → ok w e → Stepped w e w' → inv w') :
    w.Regular cfg ∧ inv w := by
  refine Reaches.invariant (fun w => w.Regular cfg ∧ inv w) hrun
    ⟨regular_init cfg network ipv4 now, hstart⟩ ?_
  rintro w e w' ⟨hreg, hinv⟩ hok hstep'
  have hst := step_stepped hreg.sound hstep'
  exact ⟨hst.regular hreg, hstep w e w' hreg hinv hok hst⟩

theorem RunsTo.regular {ok : World → Event → Prop} {cfg : ScopeConfig} {network : IPNet}
    {ipv4 : Option IPv4} {now : Int} {w : World} (hrun : RunsTo ok cfg network ipv4 now w) :
    w.Regular cfg :=
  (RunsTo.invariant (fun _ => True) hrun trivial (fun _ _ _ _ _ _ _ => trivial)).1

end World

/-- No ping of the handling is answered. -/
def Env.Silent (env : Env) : Prop := ∀ k a, env.ping k a = false

theorem Env.Silent.not_answered {env : Env} (hsilent : env.Silent) : ¬ env.Answered := by
  rintro ⟨k, a, ha⟩
  rw [hsilent k a] at ha
  cases ha

def Event.Silent : Event → Prop
  | .packet _ _ env _ => env.Silent
  | _ => True

/-- A packet of the event has a hardware address of six bytes or more that is neither of the
two sentinels. -/
def Event.Ordinary : Event → Prop
  | .packet p _ _ _ => 6 ≤ p.chaddr.length ∧ p.clientMac ≠ FreeMac ∧ p.clientMac ≠ FakeMac
  | _ => True

instance (e : Event) : Decidable e.Ordinary :=
  match e with
  | .packet _ _ _ _ => inferInstanceAs (Decidable (_ ∧ _))
  | .tick _ => inferInstanceAs (Decidable True)
  | .purge => inferInstanceAs (Decidable True)
  | .fire _ => inferInstanceAs (Decidable True)

/-! ## A small scope, for concrete runs -/

namespace Sample

def choice : Choice where
  order := RangeOrder.ascending
  intn := fun _ => 0
  intn_lt := fun _ h => h

def env (busy : List IPv4) : Env where
  random := { intn := fun _ _ _ => 0, intn_lt := fun _ _ _ h => h }
  unixNano := 1
  codeOrder := RangeOrder.ascending
  applyOptionOverrides := fun options _ _ => options
  ping := fun _ a => busy.contains a
  choice := fun _ => choice

theorem silent_env : (env []).Silent := fun _ _ => rfl

/-- The first ping of a handling is answered. -/
def startled : Env := { env [] with ping := fun round _ => round == 0 }

def network : IPNet := ⟨some 0x0a000000#32, some 0xffffff00#32⟩

/-- The addresses 10.0.0.10, 10.0.0.11 and 10.0.0.12, leased for one hour. -/
def scope (ipReserved : List IPv4) (ipAssigned : List (String × IPv4)) : ScopeConfig where
  ip := 0x0a000001#32
  dhcpStart := 0x0a00000a#32
  dhcpEnd := 0x0a00000c#32
  seconds := 3600
  algorithm := 1
  options := fun code =>
    if code = 1 then some [255, 255, 255, 0]
    else if code = 3 ∨ code = 6 then some [10, 0, 0, 1]
    else if code = 15 then some [108, 97, 110]
    else none
  ipReserved := ipReserved
  ipAssigned := ipAssigned
  clock := fun _ => 0
  start_le_end := by decide

def packet (chaddr : Bytes) (xid : BitVec 32) (want : Option IPv4) : Packet where
  chaddr := chaddr
  xid := xid
  ciaddr := 0
  giaddr := 0
  options := fun code => if code = optionRequestedIPAddress then want.map beBytes else none

/-- The packet arrives while no address answers a ping. -/
def send (chaddr : Bytes) (xid : BitVec 32) (want : Option IPv4) (t : MessageType) : Event :=
  .packet (packet chaddr xid want) t (env []) 3

theorem exists_runsTo (cfg : ScopeConfig) (ok : World → Event → Prop)
    [∀ w e, Decidable (ok w e)] {allowed : Event → Prop} (es : List Event) (p : World → Bool)
    (hall : ∀ e ∈ es, allowed e)
    (h : (replay World.step ok (World.init cfg network none 0) es).map p = some true) :
    ∃ w, World.RunsTo (fun w e => allowed e ∧ ok w e) cfg network none 0 w ∧ p w = true :=
  exists_reaches_of_replay es hall h

theorem exists_run (cfg : ScopeConfig) {allowed : Event → Prop} (es : List Event)
    (p : World → Bool) (hall : ∀ e ∈ es, allowed e)
    (h : (replay World.step (fun _ _ => True) (World.init cfg network none 0) es).map p =
      some true) :
    ∃ w, World.RunsTo (fun _ e => allowed e) cfg network none 0 w ∧ p w = true := by
  obtain ⟨w, hrun, hp⟩ := exists_runsTo cfg (fun _ _ => True) es p hall h
  exact ⟨w, hrun.mono fun _ _ hok => hok.1, hp⟩

end Sample
end StandaloneDHCP
