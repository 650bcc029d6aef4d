import StandaloneDHCP.Api.ConfigApi
import StandaloneDHCP.Overrides.Convert
import StandaloneDHCP.Relay.DoWork
import StandaloneDHCP.Server.AssignedText

/-! `readConfig` (`config.go`) as a whole: every interface of the host that the file names, every
address of it, and every network section that belongs to the network of that address. `Settings`
are the texts that the file holds. The result is `none` where the program does not come up: a range
of `ip_reserved` that is never left, or one of the two panics of `ExcludeIP` and `AssignIP`.

A section is read once for every address, each time with a new pool. What the random source and
the clock give to it is a function of the interface, the address and the section. -/
namespace StandaloneDHCP
open Lib
set_option autoImplicit false

def optionSubnetMask : UInt8 := 1
def optionDomainName : UInt8 := 15

/-! ## The host -/

/-- An address of an interface with the length of its mask, as `net.ParseCIDR` reads its text. The
text of an address of the second kind has more than one colon, as `IsIPv6` asks. -/
inductive InterfaceAddr
  | v4 (ip : IPv4) (ones : Fin 33)
  | v6 (ip : Bytes) (ones : Fin 129)
deriving DecidableEq

/-- An interface with its addresses, none if `Addrs` fails. -/
structure NetInterface where
  name : String
  addrs : List InterfaceAddr
deriving DecidableEq

/-- `net.InterfaceByName`, which refuses the empty name. -/
def interfaceByName (host : List NetInterface) (name : String) : Option NetInterface :=
  if name = "" then none else host.find? fun eth => eth.name = name

/-- The network of an address. -/
def cidrNet (ip : IPv4) (ones : Fin 33) : IPNet :=
  let mask := BitVec.ofNat 32 (2 ^ 32 - 2 ^ (32 - ones.val))
  ⟨some (ip &&& mask), some mask⟩

inductive InterfaceType
  | server
  | relay
deriving DecidableEq

/-- The fields of `Interface`. -/
structure EthIf where
  name : String
  interfaceType : InterfaceType
  listenPort : ℕ
  ipv4 : Option IPv4
  ipv6 : Option Bytes
  layer2 : List IPNet
  network : List Network
  relayIP : Option IPv4

/-- An interface before its addresses are looked at. -/
def EthIf.new (name : String) (interfaceType : InterfaceType) (listenPort : ℕ) : EthIf :=
  ⟨name, interfaceType, listenPort, none, none, [], [], none⟩

/-- What start-up draws and reads off the clock for one section. -/
structure ScopeEnv where
  random : RandSource
  unixNano : Int
  clock : ℕ → Int

/-! ## Texts -/

/-- `strconv.Atoi`, whose error is ignored: zero for a text that is no number, the nearest bound for
a number out of range. -/
def atoi (s : String) : Int :=
  let digits (ds : List Char) (signed : ℕ → Int) : Int :=
    if ds ≠ [] ∧ ds.all Char.isDigit = true then
      signed (ds.foldl (fun n c => n * 10 + decimalDigit c) 0)
    else 0
  match s.toList with
  | '-' :: ds => digits ds fun n => -(min n (2 ^ 63) : ℕ)
  | '+' :: ds => digits ds fun n => (min n (2 ^ 63 - 1) : ℕ)
  | ds => digits ds fun n => (min n (2 ^ 63 - 1) : ℕ)

example : atoi "3600" = 3600 := by decide
example : atoi "-9223372036854775809" = -9223372036854775808 := by decide
example : atoi "1h" = 0 := by decide

/-- Arithmetic of `int64`. -/
def int64 (x : Int) : Int := x.bmod (2 ^ 64)

/-- `net.ParseIP(s).To4()` as a number. -/
def ipv4Of (s : String) : Option IPv4 := (parseTo4 s).bind beUint32

/-! ## One section -/

/-- The addresses of the list in the order of the draws; what is no IPv4 address has no bytes. -/
def shuffle (e : ScopeEnv) (addresses : String) : Bytes :=
  let array := (splitComma addresses).map fun adresse => (parseTo4 adresse).getD []
  (shuffleLoop (e.random.intn e.unixNano) (array.length - 1) 0 array).flatten

def shuffleDNS (e : ScopeEnv) (s : NetworkSettings) : Bytes := shuffle e s.dns

/-- It takes one address and shuffles nothing. -/
def shuffleGateway (s : NetworkSettings) : Bytes := (parseTo4 s.gateway).getD []

def scopeOptions (e : ScopeEnv) (s : NetworkSettings) : Options := fun code =>
  if code = optionSubnetMask then some ((parseTo4 s.netmask).getD [])
  else if code = optionDomainNameServer then some (shuffleDNS e s)
  else if code = optionRouter then some (shuffleGateway s)
  else if code = optionDomainName then some (utf8Bytes s.domainName)
  else none

/-- The number and the mask of the section; of a mask the last four bytes count. -/
def NetworkSettings.ipNet (s : NetworkSettings) : IPNet where
  ip := ipv4Of s.network
  mask := (parseIP s.netmask).bind fun m => beUint32 (m.drop 12)

def NetworkSettings.leaseDuration (s : NetworkSettings) : Int :=
  int64 (atoi s.dhcpDefaultLeaseTime * second)

/-- From `DHCPScope = &DHCPHandler{}` on. -/
def newHandler (e : ScopeEnv) (fuel : ℕ) (ip dhcpStart dhcpEnd : IPv4) (s : NetworkSettings) :
    Option DHCPHandler :=
  let available := DHCPPool.newDHCPPool (safeIntToUint64 (ipRange dhcpStart dhcpEnd))
    (atoi s.algorithm) e.clock
  (excludeText fuel dhcpStart available s.ipReserved).bind fun available =>
    (assignText dhcpStart available s.ipAssigned).map fun assigned =>
      { ip := ip
        options := scopeOptions e s
        start := dhcpStart
        leaseRange := ipRange dhcpStart dhcpEnd
        leaseDuration := s.leaseDuration
        hwcache := Cache.empty s.leaseDuration
        xid := Cache.empty (4 * second)
        available := assigned.available
        layer2 := true
        ipAssigned := assigned.couple
        tasks := [] }

/-- The body of the loop over the sections; the inner `none` is a `continue`. -/
def readSection (e : ScopeEnv) (fuel : ℕ) (ip : IPv4) (netIP : IPNet) (s : NetworkSettings) :
    Option (Option Network) :=
  if s.dhcpd = "disabled" then some none
  else
    let dhcpStart := (parseIP s.dhcpStart).getD []
    let dhcpEnd := (parseIP s.dhcpEnd).getD []
    if (netIP.containsIP dhcpStart && netIP.containsIP dhcpEnd) ||
        netIP.containsIP ((parseIP s.nextHop).getD []) then
      match (to4 dhcpStart).bind beUint32, (to4 dhcpEnd).bind beUint32 with
      | some dhcpStart, some dhcpEnd =>
        if dhcpStart.toNat > dhcpEnd.toNat then some none
        else (newHandler e fuel ip dhcpStart dhcpEnd s).map fun scope => some ⟨s.ipNet, scope⟩
      | _, _ => some none
    else some none

/-! ## The loops -/

/-- `for _, key := range networks`. -/
def readSections (env : String → ScopeEnv) (fuel : ℕ) (ip : IPv4) (netIP : IPNet) :
    List NetworkSettings → Option (List Network)
  | [] => some []
  | s :: rest =>
    (readSection (env s.network) fuel ip netIP s).bind fun network =>
      (readSections env fuel ip netIP rest).map fun networks => network.toList ++ networks

/-- `for _, adresse := range adresses`, from the address with number `j` on. -/
def readAddrs (env : ℕ → String → ScopeEnv) (fuel : ℕ) (networks : List NetworkSettings) :
    ℕ → List InterfaceAddr → EthIf → Option EthIf
  | _, [], ethIf => some ethIf
  | j, .v6 ip ones :: rest, ethIf =>
    if ones.val = 128 then readAddrs env fuel networks (j + 1) rest ethIf
    else readAddrs env fuel networks (j + 1) rest { ethIf with ipv6 := some ip }
  | j, .v4 ip ones :: rest, ethIf =>
    if ones.val = 32 then readAddrs env fuel networks (j + 1) rest ethIf
    else
      (readSections (env j) fuel ip (cidrNet ip ones) networks).bind fun network =>
        readAddrs env fuel networks (j + 1) rest
          { ethIf with
            ipv4 := some ip
            layer2 := ethIf.layer2 ++ [cidrNet ip ones]
            network := ethIf.network ++ network }

/-- `for _, v := range NetInterfaces`, from the name with number `i` on. -/
def readListen (env : ℕ → ℕ → String → ScopeEnv) (fuel : ℕ) (host : List NetInterface)
    (networks : List NetworkSettings) : ℕ → List String → Option (List EthIf)
  | _, [] => some []
  | i, v :: rest =>
    match interfaceByName host v with
    | none => readListen env fuel host networks (i + 1) rest
    | some eth =>
      (readAddrs (env i) fuel networks 0 eth.addrs (.new eth.name .server bootpServer)).bind
        fun ethIf => (readListen env fuel host networks (i + 1) rest).map fun intsNet =>
          if ethIf.network ≠ [] then ethIf :: intsNet else intsNet

/-- The loop over the addresses of a relay interface. -/
def relayAddr (server : String) (ethIf : EthIf) : InterfaceAddr → EthIf
  | .v6 ip _ => { ethIf with ipv6 := some ip }
  | .v4 ip ones =>
    { ethIf with
      ipv4 := some ip
      layer2 := ethIf.layer2 ++ [cidrNet ip ones]
      relayIP := ipv4Of server }

/-- One entry of `relay`, an interface and a server with a colon between them. -/
def readRelay (host : List NetInterface) (entry : String) : Option EthIf :=
  match (entry.toList.splitOn ':').map String.ofList with
  | name :: server :: _ =>
    (interfaceByName host name).map fun iface =>
      iface.addrs.foldl (relayAddr server) (.new iface.name .relay bootpClient)
  | _ => none

/-- `readConfig`, once the file is loaded. -/
def readInterfaces (env : ℕ → ℕ → String → ScopeEnv) (fuel : ℕ) (host : List NetInterface)
    (settings : Settings) : Option (List EthIf) :=
  (readListen env fuel host settings.networks 0 (splitComma settings.listen)).map fun intsNet =>
    intsNet ++ (splitComma settings.relay).filterMap (readRelay host)

end StandaloneDHCP
