import StandaloneDHCP.Server.ServerRun
import StandaloneDHCP.Server.StartUp

/-! What start-up makes of a configuration. The sections that an interface serves are a list that
can be read off the texts, and start-up builds a scope for each of them and for no other. The
program comes up exactly if the reserved and the static addresses of those sections can be read,
and the server that comes up is one of those whose runs are studied elsewhere. -/
namespace StandaloneDHCP
open Lib
set_option autoImplicit false

/-! ## The sections that are served -/

/-- A section with the address of the interface that it is served on and its range. -/
structure Scope where
  ip : IPv4
  settings : NetworkSettings
  dhcpStart : IPv4
  dhcpEnd : IPv4
  start_le_end : dhcpStart.toNat ≤ dhcpEnd.toNat
deriving DecidableEq

/-- The scope of a section for the address `ip` on the network `netIP`, if it is served there. -/
def NetworkSettings.scopeOn (ip : IPv4) (netIP : IPNet) (s : NetworkSettings) : Option Scope :=
  if s.dhcpd = "disabled" then none
  else if (netIP.containsIP ((parseIP s.dhcpStart).getD []) &&
      netIP.containsIP ((parseIP s.dhcpEnd).getD [])) ||
      netIP.containsIP ((parseIP s.nextHop).getD []) then
    match ipv4Of s.dhcpStart, ipv4Of s.dhcpEnd with
    | some dhcpStart, some dhcpEnd =>
      if hle : dhcpStart.toNat ≤ dhcpEnd.toNat then some ⟨ip, s, dhcpStart, dhcpEnd, hle⟩ else none
    | _, _ => none
  else none

/-- The address and the network that an address of an interface stands for. -/
def InterfaceAddr.net : InterfaceAddr → Option (IPv4 × IPNet)
  | .v6 _ _ => none
  | .v4 ip ones => if ones.val = 32 then none else some (ip, cidrNet ip ones)

/-- The addresses of an interface that are looked at, with their networks. -/
def NetInterface.nets (eth : NetInterface) : List (IPv4 × IPNet) :=
  eth.addrs.filterMap InterfaceAddr.net

def netScopes (networks : List NetworkSettings) (net : IPv4 × IPNet) : List Scope :=
  networks.filterMap fun s => s.scopeOn net.1 net.2

def NetInterface.scopes (networks : List NetworkSettings) (eth : NetInterface) : List Scope :=
  eth.nets.flatMap (netScopes networks)

/-- The interfaces of `listen` that the host has. -/
def listened (host : List NetInterface) (settings : Settings) : List NetInterface :=
  (splitComma settings.listen).filterMap (interfaceByName host)

theorem to4_parseIP (s : String) : (to4 ((parseIP s).getD [])).bind beUint32 = ipv4Of s := by
  rw [ipv4Of, parseTo4]
  cases parseIP s with
  | none => rfl
  | some ip => rfl

theorem settings_of_scopeOn {ip : IPv4} {netIP : IPNet} {s : NetworkSettings} {c : Scope}
    (h : s.scopeOn ip netIP = some c) : c.ip = ip ∧ c.settings = s := by
  unfold NetworkSettings.scopeOn at h
  split at h
  · cases h
  · split at h
    · split at h
      · split at h
        · cases h
          exact ⟨rfl, rfl⟩
        · cases h
      · cases h
    · cases h

/-- The handler that start-up makes for a scope. -/
def Scope.handler (c : Scope) (e : ScopeEnv) (fuel : ℕ) : Option DHCPHandler :=
  newHandler e fuel c.ip c.dhcpStart c.dhcpEnd c.settings

theorem readSection_eq (e : ScopeEnv) (fuel : ℕ) (ip : IPv4) (netIP : IPNet)
    (s : NetworkSettings) : readSection e fuel ip netIP s =
      match s.scopeOn ip netIP with
      | none => some none
      | some c => (c.handler e fuel).map fun scope => some ⟨s.ipNet, scope⟩ := by
  simp only [readSection, NetworkSettings.scopeOn, to4_parseIP]
  by_cases hdisabled : s.dhcpd = "disabled"
  · simp [hdisabled]
  · simp only [if_neg hdisabled]
    split
    · cases ipv4Of s.dhcpStart with
      | none => rfl
      | some dhcpStart =>
        cases ipv4Of s.dhcpEnd with
        | none => rfl
        | some dhcpEnd =>
          dsimp only
          by_cases hle : dhcpStart.toNat ≤ dhcpEnd.toNat
          · rw [dif_pos hle, if_neg (Nat.not_lt.mpr hle)]
            rfl
          · rw [dif_neg hle, if_pos (Nat.lt_of_not_le hle)]
    · rfl

/-! ## The handler of a scope -/

/-- The addresses that `ExcludeIP` takes out of the pool. -/
def excluded (ips : List Bytes) : List IPv4 := ips.filterMap fun ip => (to4 ip).bind beUint32

theorem isSome_to4_bind (ip : Bytes) : ((to4 ip).bind beUint32).isSome = (to4 ip).isSome := by
  cases h : to4 ip with
  | none => rfl
  | some v4 =>
    obtain ⟨a, b, c, d, rfl⟩ : ∃ a b c d, v4 = [a, b, c, d] := by
      have hlen := length_to4 h
      match v4, hlen with
      | [a, b, c, d], _ => exact ⟨a, b, c, d, rfl⟩
    rfl

theorem excludeLoop_eq (start : IPv4) (ips : List Bytes) (available : DHCPPool) :
    excludeLoop start ips available =
      if ∀ ip ∈ ips, ip = [] ∨ (to4 ip).isSome then
        some (excludeIP start available (excluded ips))
      else none := by
  induction ips generalizing available with
  | nil => simp [excludeLoop, excluded, excludeIP]
  | cons ip ips ih =>
    rw [excludeLoop]
    by_cases hnil : ip = []
    · subst hnil
      have hskip : excluded ([] :: ips) = excluded ips := rfl
      simp [ih, hskip]
    · rw [if_neg hnil]
      have hsome := isSome_to4_bind ip
      cases hv : (to4 ip).bind beUint32 with
      | none =>
        rw [hv] at hsome
        rw [if_neg]
        intro hall
        rcases hall ip List.mem_cons_self with hip | hip
        · exact hnil hip
        · rw [← hsome] at hip
          cases hip
      | some a =>
        rw [hv] at hsome
        have hcons : excluded (ip :: ips) = a :: excluded ips := by
          simp [excluded, hv]
        show excludeLoop start ips _ = _
        rw [ih, hcons]
        simp [hnil, ← hsome, excludeIP]

/-- `IPsFromRange` ends, and every address it finds is an IPv4 address. -/
def Excludable (text : String) : Prop :=
  ∃ fuel r, ipsFromRange fuel text = some r ∧ ∀ ip ∈ r.1, ip = [] ∨ (to4 ip).isSome

theorem itemIPs_mono {fuel fuel' : ℕ} (hle : fuel ≤ fuel') {item : List Char} {l : List Bytes}
    (h : itemIPs fuel item = some l) : itemIPs fuel' item = some l := by
  unfold itemIPs at h ⊢
  split at h
  · exact h
  · exact h
  · exact collectUntil_mono _ _ _ hle h

theorem ipsLoop_mono {fuel fuel' : ℕ} (hle : fuel ≤ fuel') (items : List (List Char))
    {iplist l : List Bytes} (h : ipsLoop fuel items iplist = some l) :
    ipsLoop fuel' items iplist = some l := by
  induction items generalizing iplist with
  | nil => exact h
  | cons item items ih =>
    rw [ipsLoop] at h ⊢
    cases hitem : itemIPs fuel item with
    | none => simp [hitem] at h
    | some ips =>
      rw [hitem] at h
      rw [itemIPs_mono hle hitem]
      exact ih h

theorem ipsFromRange_mono {fuel fuel' : ℕ} (hle : fuel ≤ fuel') {text : String}
    {r : List Bytes × ℕ} (h : ipsFromRange fuel text = some r) :
    ipsFromRange fuel' text = some r := by
  obtain ⟨l, hl, rfl⟩ := Option.map_eq_some_iff.mp h
  rw [ipsFromRange, ipsLoop_mono hle _ hl]
  rfl

/-- A section can be read. -/
def NetworkSettings.Readable (s : NetworkSettings) : Prop :=
  Excludable s.ipReserved ∧ ¬ TakesWrongAddress s.ipAssigned

theorem assignText_isSome_iff (start : IPv4) (dp : DHCPPool) (text : String) :
    (assignText start dp text).isSome ↔ ¬ TakesWrongAddress text := by
  constructor
  · intro hsome hwrong
    rw [assignText_eq_none start dp hwrong] at hsome
    cases hsome
  · intro hok
    rw [assignText_eq start dp hok]
    rfl

/-- The lease time is no longer than a `time.Duration` can be. -/
def NetworkSettings.LeaseFits (s : NetworkSettings) : Prop :=
  -(2 ^ 63) ≤ atoi s.dhcpDefaultLeaseTime * second ∧
    atoi s.dhcpDefaultLeaseTime * second < 2 ^ 63

theorem NetworkSettings.LeaseFits.leaseDuration_eq {s : NetworkSettings} (h : s.LeaseFits) :
    s.leaseDuration = atoi s.dhcpDefaultLeaseTime * second := by
  obtain ⟨hlo, hhi⟩ := h
  exact Int.bmod_eq_of_le (by omega) (by omega)

/-- The section as `readConfig` reads it, apart from its texts. -/
structure Scope.ReadAs (c : Scope) (cfg : ScopeConfig) : Prop where
  ip : cfg.ip = c.ip
  dhcpStart : cfg.dhcpStart = c.dhcpStart
  dhcpEnd : cfg.dhcpEnd = c.dhcpEnd
  seconds : cfg.seconds = atoi c.settings.dhcpDefaultLeaseTime
  algorithm : cfg.algorithm = atoi c.settings.algorithm
  options : ∃ e, cfg.options = scopeOptions e c.settings
  ipReserved : ∃ fuel r, ipsFromRange fuel c.settings.ipReserved = some r ∧
    cfg.ipReserved = excluded r.1
  ipAssigned : cfg.ipAssigned = entriesOf c.settings.ipAssigned

section Handler
variable {c : Scope} {e : ScopeEnv} {fuel : ℕ} {scope : DHCPHandler}

theorem Scope.handler_texts (h : c.handler e fuel = some scope) : ∃ r,
    ipsFromRange fuel c.settings.ipReserved = some r ∧ (∀ ip ∈ r.1, ip = [] ∨ (to4 ip).isSome) ∧
      ¬ TakesWrongAddress c.settings.ipAssigned := by
  obtain ⟨available, hexclude, hassign⟩ := Option.bind_eq_some_iff.mp h
  obtain ⟨assigned, hassigned, -⟩ := Option.map_eq_some_iff.mp hassign
  obtain ⟨r, hips, hloop⟩ := Option.bind_eq_some_iff.mp hexclude
  refine ⟨r, hips, ?_, ?_⟩
  · rw [excludeLoop_eq] at hloop
    split at hloop
    · assumption
    · cases hloop
  · rw [← assignText_isSome_iff c.dhcpStart available, hassigned]
    rfl

theorem Scope.readable_of_handler (h : c.handler e fuel = some scope) : c.settings.Readable := by
  obtain ⟨r, hips, hall, hok⟩ := c.handler_texts h
  exact ⟨⟨fuel, r, hips, hall⟩, hok⟩

/-- The handler is the one of `readConfig` on the lists that the texts denote. -/
theorem Scope.handler_eq_readConfig (hfits : c.settings.LeaseFits)
    (h : c.handler e fuel = some scope) : ∃ cfg, c.ReadAs cfg ∧ scope = readConfig cfg := by
  obtain ⟨r, hips, hall, hok⟩ := c.handler_texts h
  refine ⟨⟨c.ip, c.dhcpStart, c.dhcpEnd, atoi c.settings.dhcpDefaultLeaseTime,
    atoi c.settings.algorithm, scopeOptions e c.settings, excluded r.1,
    entriesOf c.settings.ipAssigned, e.clock, c.start_le_end⟩,
    ⟨rfl, rfl, rfl, rfl, rfl, ⟨e, rfl⟩, ⟨fuel, r, hips, rfl⟩, rfl⟩, ?_⟩
  simp only [Scope.handler, newHandler, excludeText, hips, Option.bind_some, excludeLoop_eq,
    if_pos hall, assignText_eq _ _ hok, Option.map_some, Option.some.injEq,
    hfits.leaseDuration_eq] at h
  subst h
  simp only [readConfig, assignIP, assignIP_aux]
  rfl

end Handler

/-- With enough rounds a section that can be read gives a handler, whatever the interface. -/
theorem NetworkSettings.Readable.newHandler_isSome {s : NetworkSettings} (hs : s.Readable) :
    ∃ rounds, ∀ fuel ≥ rounds, ∀ e ip dhcpStart dhcpEnd,
      (newHandler e fuel ip dhcpStart dhcpEnd s).isSome := by
  obtain ⟨⟨rounds, r, hips, hall⟩, hok⟩ := hs
  refine ⟨rounds, fun fuel hfuel e ip dhcpStart dhcpEnd => ?_⟩
  have hexclude : ∀ dp, excludeText fuel dhcpStart dp s.ipReserved =
      some (excludeIP dhcpStart dp (excluded r.1)) := by
    intro dp
    rw [excludeText, ipsFromRange_mono hfuel hips, Option.bind_some, excludeLoop_eq, if_pos hall]
  simp only [newHandler, hexclude, Option.bind_some, Option.isSome_map]
  exact (assignText_isSome_iff _ _ _).mpr hok

/-! ## The scopes that start-up builds -/

/-- The network that start-up makes of a scope. -/
def Scope.build (env : String → ScopeEnv) (fuel : ℕ) (c : Scope) : Option Network :=
  (c.handler (env c.settings.network) fuel).map fun scope => ⟨c.settings.ipNet, scope⟩

/-- The network is what start-up makes of the scope. -/
structure Scope.Built (c : Scope) (n : Network) : Prop where
  network : n.network = c.settings.ipNet
  handler : ∃ e fuel, c.handler e fuel = some n.dhcpHandler

/-- The interface is what start-up makes of an interface of the host. -/
structure EthIf.Serves (networks : List NetworkSettings) (eth : NetInterface) (i : EthIf) :
    Prop where
  name : i.name = eth.name
  interfaceType : i.interfaceType = .server
  listenPort : i.listenPort = bootpServer
  ipv4 : i.ipv4 = (eth.nets.map Prod.fst).getLast?
  layer2 : i.layer2 = eth.nets.map Prod.snd
  network : List.Forall₂ Scope.Built (eth.scopes networks) i.network

section Loops
variable {fuel : ℕ} {networks : List NetworkSettings}

theorem netScopes_cons (net : IPv4 × IPNet) (s : NetworkSettings) :
    netScopes (s :: networks) net =
      (s.scopeOn net.1 net.2).toList ++ netScopes networks net := by
  unfold netScopes
  cases h : s.scopeOn net.1 net.2 with
  | none => simp [h]
  | some c => simp [h]

/-- The loop over the sections builds the scopes one after the other. -/
theorem readSections_eq (env : String → ScopeEnv) (net : IPv4 × IPNet) :
    readSections env fuel net.1 net.2 networks =
      (netScopes networks net).mapM (Scope.build env fuel) := by
  induction networks with
  | nil => rfl
  | cons s networks ih =>
    rw [readSections, readSection_eq, netScopes_cons, ih]
    cases hscope : s.scopeOn net.1 net.2 with
    | none => simp
    | some c =>
      obtain ⟨-, rfl⟩ := settings_of_scopeOn hscope
      simp only [Option.toList_some, List.singleton_append, List.mapM_cons, Scope.build]
      cases c.handler (env c.settings.network) fuel with
      | none => rfl
      | some scope =>
        cases (netScopes networks net).mapM (Scope.build env fuel) with
        | none => rfl
        | some l => rfl

theorem mapM_build {env : String → ScopeEnv} {scopes : List Scope} {l : List Network}
    (h : scopes.mapM (Scope.build env fuel) = some l) : List.Forall₂ Scope.Built scopes l := by
  induction scopes generalizing l with
  | nil =>
    cases h
    exact .nil
  | cons c scopes ih =>
    rw [List.mapM_cons] at h
    obtain ⟨n, hbuild, hrest⟩ := Option.bind_eq_some_iff.mp h
    obtain ⟨l', hl', heq⟩ := Option.bind_eq_some_iff.mp hrest
    cases heq
    obtain ⟨scope, hhandler, rfl⟩ := Option.map_eq_some_iff.mp hbuild
    exact .cons ⟨rfl, _, _, hhandler⟩ (ih hl')

/-- What the loop over the addresses adds to an interface. -/
structure EthIf.Extends (networks : List NetworkSettings) (nets : List (IPv4 × IPNet))
    (i i' : EthIf) : Prop where
  name : i'.name = i.name
  interfaceType : i'.interfaceType = i.interfaceType
  listenPort : i'.listenPort = i.listenPort
  ipv4 : i'.ipv4 = (nets.map Prod.fst).getLast?.or i.ipv4
  layer2 : i'.layer2 = i.layer2 ++ nets.map Prod.snd
  network : ∃ l, i'.network = i.network ++ l ∧
    List.Forall₂ Scope.Built (nets.flatMap (netScopes networks)) l

theorem readAddrs_extends {env : ℕ → String → ScopeEnv} {addrs : List InterfaceAddr} {j : ℕ}
    {i i' : EthIf} (h : readAddrs env fuel networks j addrs i = some i') :
    EthIf.Extends networks (addrs.filterMap InterfaceAddr.net) i i' := by
  induction addrs generalizing j i with
  | nil =>
    cases h
    exact ⟨rfl, rfl, rfl, rfl, (List.append_nil _).symm, [], (List.append_nil _).symm, .nil⟩
  | cons addr addrs ih =>
    cases addr with
    | v6 ip ones =>
      rw [List.filterMap_cons_none rfl]
      rw [readAddrs] at h
      split at h
      · exact ih h
      · obtain ⟨hname, htype, hport, hipv4, hlayer2, hnetwork⟩ := ih h
        exact ⟨hname, htype, hport, hipv4, hlayer2, hnetwork⟩
    | v4 ip ones =>
      rw [readAddrs] at h
      split at h
      · next hhost =>
        rw [List.filterMap_cons_none (by rw [InterfaceAddr.net, if_pos hhost])]
        exact ih h
      · next hnet =>
        rw [List.filterMap_cons_some (by rw [InterfaceAddr.net, if_neg hnet])]
        obtain ⟨l, hl, hrest⟩ := Option.bind_eq_some_iff.mp h
        rw [readSections_eq (env j) (ip, cidrNet ip ones)] at hl
        obtain ⟨hname, htype, hport, hipv4, hlayer2, l', hnetwork, hbuilt⟩ := ih hrest
        refine ⟨hname, htype, hport, ?_, ?_, l ++ l', ?_, ?_⟩
        · rw [hipv4, List.map_cons, List.getLast?_cons]
          cases (List.map Prod.fst (addrs.filterMap InterfaceAddr.net)).getLast? with
          | none => rfl
          | some ip' => rfl
        · rw [hlayer2, List.map_cons, List.append_assoc]
          rfl
        · rw [hnetwork, List.append_assoc]
        · rw [List.flatMap_cons]
          exact List.rel_append (mapM_build hl) hbuilt

theorem readListen_serves {env : ℕ → ℕ → String → ScopeEnv} {host : List NetInterface}
    {names : List String} {k : ℕ} {intsNet : List EthIf}
    (h : readListen env fuel host networks k names = some intsNet) :
    List.Forall₂ (EthIf.Serves networks)
      ((names.filterMap (interfaceByName host)).filter fun eth => eth.scopes networks ≠ [])
      intsNet := by
  induction names generalizing k intsNet with
  | nil =>
    cases h
    exact .nil
  | cons v names ih =>
    rw [readListen] at h
    cases heth : interfaceByName host v with
    | none =>
      rw [heth] at h
      rw [List.filterMap_cons_none heth]
      exact ih h
    | some eth =>
      rw [heth] at h
      rw [List.filterMap_cons_some heth]
      obtain ⟨i, hi, hrest⟩ := Option.bind_eq_some_iff.mp h
      obtain ⟨intsNet', hnet', rfl⟩ := Option.map_eq_some_iff.mp hrest
      obtain ⟨hname, htype, hport, hipv4, hlayer2, l, hnetwork, hbuilt⟩ := readAddrs_extends hi
      rw [EthIf.new, List.nil_append] at hnetwork
      rw [EthIf.new, Option.or_none] at hipv4
      have hserves : EthIf.Serves networks eth i :=
        ⟨hname, htype, hport, hipv4, hlayer2, hnetwork ▸ hbuilt⟩
      -- a list of networks is empty exactly if the list of scopes is
      have hempty : i.network ≠ [] ↔ eth.scopes networks ≠ [] := by
        have hlen := hserves.network.length_eq
        rw [← List.length_pos_iff, ← List.length_pos_iff, hlen]
      by_cases hscopes : eth.scopes networks ≠ []
      · rw [if_pos (hempty.mpr hscopes), List.filter_cons_of_pos (by simpa using hscopes)]
        exact .cons hserves (ih hnet')
      · rw [if_neg (fun hn => hscopes (hempty.mp hn)),
          List.filter_cons_of_neg (by simpa using hscopes)]
        exact ih hnet'

end Loops

theorem readRelay_type {host : List NetInterface} {entry : String} {i : EthIf}
    (h : readRelay host entry = some i) :
    i.interfaceType = .relay ∧ i.listenPort = bootpClient ∧ i.network = [] := by
  have hfold : ∀ (server : String) (addrs : List InterfaceAddr) (i : EthIf),
      (addrs.foldl (relayAddr server) i).interfaceType = i.interfaceType ∧
        (addrs.foldl (relayAddr server) i).listenPort = i.listenPort ∧
        (addrs.foldl (relayAddr server) i).network = i.network := by
    intro server addrs
    induction addrs with
    | nil => exact fun i => ⟨rfl, rfl, rfl⟩
    | cons addr addrs ih =>
      intro i
      rw [List.foldl_cons]
      cases addr with
      | v4 ip ones => exact ih _
      | v6 ip ones => exact ih _
  unfold readRelay at h
  split at h
  · obtain ⟨iface, -, rfl⟩ := Option.map_eq_some_iff.mp h
    exact hfold _ _ _
  · cases h

/-- Start-up serves, in the order of `listen`, the interfaces with at least one scope, and on each
of them one network for every scope, in the order of the addresses and sections; behind them come
the relays, which have no networks. -/
theorem start_up_serves_exactly {env : ℕ → ℕ → String → ScopeEnv} {fuel : ℕ}
    {host : List NetInterface} {settings : Settings} {intsNet : List EthIf}
    (h : readInterfaces env fuel host settings = some intsNet) :
    ∃ servers relays, intsNet = servers ++ relays ∧
      List.Forall₂ (EthIf.Serves settings.networks)
        ((listened host settings).filter fun eth => eth.scopes settings.networks ≠ []) servers ∧
      relays = (splitComma settings.relay).filterMap (readRelay host) ∧
      ∀ i ∈ relays, i.interfaceType = .relay ∧ i.listenPort = bootpClient ∧ i.network = [] := by
  obtain ⟨servers, hservers, rfl⟩ := Option.map_eq_some_iff.mp h
  refine ⟨servers, _, rfl, readListen_serves hservers, rfl, ?_⟩
  intro i hi
  obtain ⟨entry, -, hentry⟩ := List.mem_filterMap.mp hi
  exact readRelay_type hentry

namespace Sample

/-- One interface with a host address, an IPv6 address and 10.0.0.1/24. -/
def eth0 : NetInterface :=
  ⟨"eth0", [.v4 0x0a0000fe#32 32, .v6 (List.replicate 15 0 ++ [1]) 64, .v4 0x0a000001#32 24]⟩

/-- The range 10.0.0.10 to 10.0.0.12 without its second address, leased for one hour. -/
def served : NetworkSettings where
  network := "10.0.0.0"
  dhcpd := "enabled"
  dhcpStart := "10.0.0.10"
  dhcpEnd := "10.0.0.12"
  nextHop := ""
  netmask := "255.255.255.0"
  dhcpDefaultLeaseTime := "3600"
  algorithm := "1"
  ipReserved := "10.0.0.11"
  ipAssigned := "02:00:00:00:00:01:10.0.0.10"
  dns := "10.0.0.1,10.0.0.2"
  gateway := "10.0.0.1"
  domainName := "lan"

/-- A section of another network with a range of reserved addresses that never ends. -/
def elsewhere : NetworkSettings :=
  { served with
    network := "10.0.1.0"
    dhcpStart := "10.0.1.10"
    dhcpEnd := "10.0.1.12"
    ipReserved := "10.0.1.1-" }

def file (networks : List NetworkSettings) : Settings := ⟨"eth0,eth9", "eth0:10.100.0.1", networks⟩

def scopeEnv : ScopeEnv := ⟨(env []).random, 1, fun _ => 0⟩

theorem comes_up : (readInterfaces (fun _ _ _ => scopeEnv) 1 [eth0]
    (file [elsewhere, served])).isSome = true := by decide +kernel

theorem listened_eth0 : (listened [eth0] (file [elsewhere, served])).filter
    (fun eth => eth.scopes [elsewhere, served] ≠ []) = [eth0] := by decide +kernel

end Sample

theorem start_up_serves_exactly_sample : ∃ intsNet servers relays,
    readInterfaces (fun _ _ _ => Sample.scopeEnv) 1 [Sample.eth0]
      (Sample.file [Sample.elsewhere, Sample.served]) = some intsNet ∧
    intsNet = servers ++ relays ∧
    List.Forall₂ (EthIf.Serves [Sample.elsewhere, Sample.served]) [Sample.eth0] servers ∧
    relays.length = 1 := by
  obtain ⟨intsNet, h⟩ := Option.isSome_iff_exists.mp Sample.comes_up
  obtain ⟨servers, relays, heq, hserves, hrelays, -⟩ := start_up_serves_exactly h
  have hscoped := Sample.listened_eth0
  refine ⟨intsNet, servers, relays, h, heq, ?_, ?_⟩
  · rw [← hscoped]
    exact hserves
  · rw [hrelays]
    decide +kernel

/-! ## When the program comes up -/

theorem Scope.Built.readable {c : Scope} {n : Network} (h : c.Built n) : c.settings.Readable := by
  obtain ⟨e, fuel, hhandler⟩ := h.handler
  exact c.readable_of_handler hhandler

/-- Every scope that is built can be read. -/
theorem readable_of_forall₂ {scopes : List Scope} {l : List Network}
    (h : List.Forall₂ Scope.Built scopes l) {c : Scope} (hc : c ∈ scopes) :
    c.settings.Readable := by
  induction h with
  | nil => cases hc
  | cons hbuilt _ ih =>
    rcases List.mem_cons.mp hc with rfl | hc
    · exact hbuilt.readable
    · exact ih hc

/-- The rounds are enough for the sections. -/
def Enough (fuel : ℕ) (networks : List NetworkSettings) : Prop :=
  ∀ s ∈ networks, s.Readable → ∀ e ip dhcpStart dhcpEnd,
    (newHandler e fuel ip dhcpStart dhcpEnd s).isSome

theorem exists_enough (networks : List NetworkSettings) :
    ∃ rounds, ∀ fuel ≥ rounds, Enough fuel networks := by
  induction networks with
  | nil => exact ⟨0, fun _ _ s hs => nomatch hs⟩
  | cons s networks ih =>
    obtain ⟨rounds, hrest⟩ := ih
    by_cases hs : s.Readable
    · obtain ⟨rounds', hfirst⟩ := hs.newHandler_isSome
      refine ⟨max rounds rounds', fun fuel hfuel s' hs' hreadable => ?_⟩
      rcases List.mem_cons.mp hs' with rfl | hs'
      · exact hfirst fuel (by omega)
      · exact hrest fuel (by omega) s' hs' hreadable
    · refine ⟨rounds, fun fuel hfuel s' hs' hreadable => ?_⟩
      rcases List.mem_cons.mp hs' with rfl | hs'
      · exact absurd hreadable hs
      · exact hrest fuel hfuel s' hs' hreadable

section ComesUp
variable {fuel : ℕ} {networks : List NetworkSettings}

theorem mem_of_mem_netScopes {net : IPv4 × IPNet} {c : Scope} (hc : c ∈ netScopes networks net) :
    c.settings ∈ networks := by
  obtain ⟨s, hs, hscope⟩ := List.mem_filterMap.mp hc
  rwa [(settings_of_scopeOn hscope).2]

theorem mapM_build_isSome {env : String → ScopeEnv} {scopes : List Scope}
    (hall : ∀ c ∈ scopes, (c.handler (env c.settings.network) fuel).isSome) :
    (scopes.mapM (Scope.build env fuel)).isSome := by
  induction scopes with
  | nil => rfl
  | cons c scopes ih =>
    obtain ⟨hfirst, hothers⟩ := List.forall_mem_cons.mp hall
    obtain ⟨scope, hscope⟩ := Option.isSome_iff_exists.mp hfirst
    obtain ⟨l, hl⟩ := Option.isSome_iff_exists.mp (ih hothers)
    simp [List.mapM_cons, Scope.build, hscope, hl]

theorem readAddrs_isSome (henough : Enough fuel networks) (env : ℕ → String → ScopeEnv)
    {addrs : List InterfaceAddr} (j : ℕ) (i : EthIf)
    (hall : ∀ net ∈ addrs.filterMap InterfaceAddr.net, ∀ c ∈ netScopes networks net,
      c.settings.Readable) :
    (readAddrs env fuel networks j addrs i).isSome := by
  induction addrs generalizing j i with
  | nil => rfl
  | cons addr addrs ih =>
    cases addr with
    | v6 ip ones =>
      rw [List.filterMap_cons_none rfl] at hall
      rw [readAddrs]
      split
      · exact ih _ _ hall
      · exact ih _ _ hall
    | v4 ip ones =>
      rw [readAddrs]
      split
      · next hhost =>
        rw [List.filterMap_cons_none (by rw [InterfaceAddr.net, if_pos hhost])] at hall
        exact ih _ _ hall
      · next hnet =>
        rw [List.filterMap_cons_some (by rw [InterfaceAddr.net, if_neg hnet]),
          List.forall_mem_cons] at hall
        have hbuild : ((netScopes networks (ip, cidrNet ip ones)).mapM
            (Scope.build (env j) fuel)).isSome :=
          mapM_build_isSome fun c hc =>
            henough _ (mem_of_mem_netScopes hc) (hall.1 c hc) _ _ _ _
        rw [← readSections_eq] at hbuild
        obtain ⟨l, hl⟩ := Option.isSome_iff_exists.mp hbuild
        rw [hl, Option.bind_some]
        exact ih _ _ hall.2

theorem readListen_isSome (henough : Enough fuel networks) (env : ℕ → ℕ → String → ScopeEnv)
    {host : List NetInterface} {names : List String} (k : ℕ)
    (hall : ∀ eth ∈ names.filterMap (interfaceByName host), ∀ c ∈ eth.scopes networks,
      c.settings.Readable) :
    (readListen env fuel host networks k names).isSome := by
  induction names generalizing k with
  | nil => rfl
  | cons v names ih =>
    rw [readListen]
    cases heth : interfaceByName host v with
    | none =>
      rw [List.filterMap_cons_none heth] at hall
      exact ih _ hall
    | some eth =>
      rw [List.filterMap_cons_some heth, List.forall_mem_cons] at hall
      obtain ⟨i, hi⟩ := Option.isSome_iff_exists.mp
        (readAddrs_isSome henough (env k) 0 (.new eth.name .server bootpServer)
          fun net hnet c hc => hall.1 c (List.mem_flatMap.mpr ⟨net, hnet, hc⟩))
      obtain ⟨intsNet, hnet⟩ := Option.isSome_iff_exists.mp (ih (k + 1) hall.2)
      simp [hi, hnet]

end ComesUp

/-- The program comes up exactly if every section that is served on some interface has reserved
addresses that can be enumerated, all of them IPv4, and no static entry with a wrong address. What
a section holds that is served nowhere does not matter; one that is served and cannot be read takes
all others down. -/
theorem comes_up_iff (env : ℕ → ℕ → String → ScopeEnv) (host : List NetInterface)
    (settings : Settings) :
    (∃ fuel, (readInterfaces env fuel host settings).isSome) ↔
      ∀ eth ∈ listened host settings, ∀ c ∈ eth.scopes settings.networks,
        c.settings.Readable := by
  constructor
  · rintro ⟨fuel, hsome⟩ eth heth c hc
    rw [readInterfaces, Option.isSome_map] at hsome
    obtain ⟨servers, hservers⟩ := Option.isSome_iff_exists.mp hsome
    have hmem : eth ∈ (listened host settings).filter
        fun eth => eth.scopes settings.networks ≠ [] := by
      refine List.mem_filter.mpr ⟨heth, ?_⟩
      simpa using List.ne_nil_of_mem hc
    obtain ⟨k, hk, rfl⟩ := List.mem_iff_getElem.mp hmem
    have hforall := readListen_serves hservers
    have hlt : k < servers.length := by
      rw [← hforall.length_eq]
      exact hk
    have hserves := hforall.get hk hlt
    exact readable_of_forall₂ hserves.network hc
  · intro hall
    obtain ⟨rounds, hrounds⟩ := exists_enough settings.networks
    refine ⟨rounds, ?_⟩
    rw [readInterfaces, Option.isSome_map]
    exact readListen_isSome (hrounds rounds (Nat.le_refl _)) env 0 hall

/-! ## What start-up depends on -/

section Congr
variable {fuel : ℕ} {networks networks' : List NetworkSettings}

theorem readAddrs_congr (env : ℕ → String → ScopeEnv) {addrs : List InterfaceAddr} (j : ℕ)
    (i : EthIf) (hsame : ∀ net ∈ addrs.filterMap InterfaceAddr.net,
      netScopes networks net = netScopes networks' net) :
    readAddrs env fuel networks j addrs i = readAddrs env fuel networks' j addrs i := by
  induction addrs generalizing j i with
  | nil => rfl
  | cons addr addrs ih =>
    cases addr with
    | v6 ip ones =>
      rw [List.filterMap_cons_none rfl] at hsame
      simp only [readAddrs]
      split
      · exact ih _ _ hsame
      · exact ih _ _ hsame
    | v4 ip ones =>
      simp only [readAddrs]
      split
      · next hhost =>
        rw [List.filterMap_cons_none (by rw [InterfaceAddr.net, if_pos hhost])] at hsame
        exact ih _ _ hsame
      · next hnet =>
        rw [List.filterMap_cons_some (by rw [InterfaceAddr.net, if_neg hnet]),
          List.forall_mem_cons] at hsame
        rw [readSections_eq (env j) (ip, cidrNet ip ones), hsame.1,
          ← readSections_eq (env j) (ip, cidrNet ip ones)]
        exact congrArg _ (funext fun l => ih _ _ hsame.2)

theorem readListen_congr (env : ℕ → ℕ → String → ScopeEnv) {host : List NetInterface}
    {names : List String} (k : ℕ) (hsame : ∀ eth ∈ names.filterMap (interfaceByName host),
      ∀ net ∈ eth.nets, netScopes networks net = netScopes networks' net) :
    readListen env fuel host networks k names = readListen env fuel host networks' k names := by
  induction names generalizing k with
  | nil => rfl
  | cons v names ih =>
    simp only [readListen]
    cases heth : interfaceByName host v with
    | none =>
      rw [List.filterMap_cons_none heth] at hsame
      exact ih _ hsame
    | some eth =>
      rw [List.filterMap_cons_some heth, List.forall_mem_cons] at hsame
      dsimp only
      rw [readAddrs_congr (env k) 0 _ hsame.1, ih _ hsame.2]

end Congr

/-- Start-up depends on the sections only through the scopes that they give on the networks of the
host: a section that is disabled, belongs to none of these networks or has no valid range may be
added, changed or removed, and the program starts as before or fails as before. -/
theorem start_up_reads_scopes_only (env : ℕ → ℕ → String → ScopeEnv) (fuel : ℕ)
    (host : List NetInterface) {settings settings' : Settings}
    (hlisten : settings.listen = settings'.listen) (hrelay : settings.relay = settings'.relay)
    (hscopes : ∀ eth ∈ listened host settings, ∀ net ∈ eth.nets,
      netScopes settings.networks net = netScopes settings'.networks net) :
    readInterfaces env fuel host settings = readInterfaces env fuel host settings' := by
  rw [readInterfaces, readInterfaces, ← hlisten, ← hrelay]
  exact congrArg _ (readListen_congr env 0 hscopes)

/-- The section of the other network is left out. -/
theorem start_up_reads_scopes_only_sample :
    readInterfaces (fun _ _ _ => Sample.scopeEnv) 1 [Sample.eth0]
        (Sample.file [Sample.elsewhere, Sample.served]) =
      readInterfaces (fun _ _ _ => Sample.scopeEnv) 1 [Sample.eth0] (Sample.file [Sample.served]) :=
  start_up_reads_scopes_only _ _ _ rfl rfl (by decide +kernel)

/-! ## From the file to the runs -/

/-- A network of the initial server and the scope that it comes from. -/
def Scope.Configures (c : Scope) (n : IPNet × ScopeConfig) : Prop :=
  n.1 = c.settings.ipNet ∧ c.ReadAs n.2

theorem exists_configures {scopes : List Scope} {l : List Network}
    (hfits : ∀ c ∈ scopes, c.settings.LeaseFits) (h : List.Forall₂ Scope.Built scopes l) :
    ∃ cfgs, List.Forall₂ Scope.Configures scopes cfgs ∧
      l = cfgs.map fun n => { network := n.1, dhcpHandler := readConfig n.2 } := by
  induction h with
  | nil => exact ⟨[], .nil, rfl⟩
  | @cons c n scopes l hbuilt _ ih =>
    obtain ⟨hfirst, hothers⟩ := List.forall_mem_cons.mp hfits
    obtain ⟨cfgs, hcfgs, rfl⟩ := ih hothers
    obtain ⟨e, fuel, hhandler⟩ := hbuilt.handler
    obtain ⟨cfg, hread, hconfig⟩ := c.handler_eq_readConfig hfirst hhandler
    refine ⟨(n.network, cfg) :: cfgs, .cons ⟨hbuilt.network, hread⟩ hcfgs, ?_⟩
    rw [List.map_cons, ← hconfig]

/-- An interface of the initial server and the interface of the host that it comes from. -/
def NetInterface.Configures (networks : List NetworkSettings) (eth : NetInterface)
    (c : Option IPv4 × List (IPNet × ScopeConfig)) : Prop :=
  c.1 = (eth.nets.map Prod.fst).getLast? ∧
    List.Forall₂ Scope.Configures (eth.scopes networks) c.2

def EthIf.server (i : EthIf) : ServerInterface := ⟨i.ipv4, i.network⟩

theorem exists_server_config {networks : List NetworkSettings} {eths : List NetInterface}
    {servers : List EthIf} (hfits : ∀ eth ∈ eths, ∀ c ∈ eth.scopes networks, c.settings.LeaseFits)
    (h : List.Forall₂ (EthIf.Serves networks) eths servers) (now : Int) :
    ∃ cfg, List.Forall₂ (NetInterface.Configures networks) eths cfg ∧
      servers.map EthIf.server = (Server.init cfg now).intsNet := by
  induction h with
  | nil => exact ⟨[], .nil, rfl⟩
  | @cons eth i eths servers hserves _ ih =>
    obtain ⟨hfirst, hothers⟩ := List.forall_mem_cons.mp hfits
    obtain ⟨cfg, hcfg, hinit⟩ := ih hothers
    obtain ⟨cfgs, hcfgs, hnetwork⟩ := exists_configures hfirst hserves.network
    refine ⟨(i.ipv4, cfgs) :: cfg, .cons ⟨hserves.ipv4, hcfgs⟩ hcfg, ?_⟩
    rw [List.map_cons, hinit, EthIf.server, hnetwork]
    rfl

/-- What comes up is the initial state of the server whose runs are studied: an interface for every
interface of the host with a scope, a network for every scope, and for each of them the handler of
`readConfig` on the addresses, times and lists that the texts of its section denote. -/
theorem started_server_is_initial {env : ℕ → ℕ → String → ScopeEnv} {fuel : ℕ}
    {host : List NetInterface} {settings : Settings} {intsNet : List EthIf}
    (h : readInterfaces env fuel host settings = some intsNet)
    (hfits : ∀ eth ∈ listened host settings, ∀ c ∈ eth.scopes settings.networks,
      c.settings.LeaseFits) (now : Int) :
    ∃ cfg, List.Forall₂ (NetInterface.Configures settings.networks)
        ((listened host settings).filter fun eth => eth.scopes settings.networks ≠ []) cfg ∧
      (intsNet.filter fun i => i.interfaceType = .server).map EthIf.server =
        (Server.init cfg now).intsNet := by
  obtain ⟨servers, hservers, rfl⟩ := Option.map_eq_some_iff.mp h
  have hserves := readListen_serves hservers
  obtain ⟨cfg, hcfg, hinit⟩ := exists_server_config
    (fun eth heth => hfits eth (List.mem_filter.mp heth).1) hserves now
  refine ⟨cfg, hcfg, ?_⟩
  have hkeep : servers.filter (fun i => i.interfaceType = .server) = servers := by
    rw [List.filter_eq_self]
    intro i hi
    obtain ⟨k, hk, rfl⟩ := List.mem_iff_getElem.mp hi
    have hlt := hserves.length_eq ▸ hk
    simpa using (hserves.get hlt hk).interfaceType
  have hrelays : ((splitComma settings.relay).filterMap (readRelay host)).filter
      (fun i => i.interfaceType = .server) = [] := by
    rw [List.filter_eq_nil_iff]
    intro i hi
    obtain ⟨entry, -, hentry⟩ := List.mem_filterMap.mp hi
    simp [(readRelay_type hentry).1]
  rw [List.filter_append, hkeep, hrelays, List.append_nil, hinit]

/-- One interface comes up, with the scope of its network. -/
theorem started_server_is_initial_sample : ∃ intsNet cfg,
    readInterfaces (fun _ _ _ => Sample.scopeEnv) 1 [Sample.eth0]
      (Sample.file [Sample.elsewhere, Sample.served]) = some intsNet ∧
    List.Forall₂ (NetInterface.Configures [Sample.elsewhere, Sample.served]) [Sample.eth0] cfg ∧
    (intsNet.filter fun i => i.interfaceType = .server).map EthIf.server =
      (Server.init cfg 0).intsNet := by
  obtain ⟨intsNet, h⟩ := Option.isSome_iff_exists.mp Sample.comes_up
  have hfits : ∀ eth ∈ listened [Sample.eth0] (Sample.file [Sample.elsewhere, Sample.served]),
      ∀ c ∈ eth.scopes [Sample.elsewhere, Sample.served],
        -(2 ^ 63) ≤ atoi c.settings.dhcpDefaultLeaseTime * second ∧
          atoi c.settings.dhcpDefaultLeaseTime * second < 2 ^ 63 := by
    decide +kernel
  obtain ⟨cfg, hcfg, hinit⟩ := started_server_is_initial h hfits 0
  have hscoped := Sample.listened_eth0
  refine ⟨intsNet, cfg, h, ?_, hinit⟩
  rw [← hscoped]
  exact hcfg

end StandaloneDHCP
