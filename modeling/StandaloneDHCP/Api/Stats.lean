import StandaloneDHCP.Api.LeaseApi
import StandaloneDHCP.Server.ReservedRanges
import StandaloneDHCP.Wire.Dhcp4

/-! The statistics of an interface (`handleApiReq` of `api.go`). The status compares two counts of
the addresses in use: what the pool has left of its range, and the leases of `hwcache` plus the
addresses that `IPsFromRange` reads again from the text of `ip_reserved`. Of an empty text it
reads one address, the `nil` of its one part, so a count of one is taken for an empty text. -/
namespace StandaloneDHCP
open Lib
set_option autoImplicit false

/-! ## The handler -/

/-- A network with the two fields of its handler that only the statistics read. -/
structure StatsNetwork extends Network where
  role : String
  ipReserved : String

structure Stats where
  ethernetName : String
  net : String
  free : Int
  percentFree : Int := 0
  used : Int := 0
  percentUsed : Int := 0
  category : String
  options : String → Option String := fun _ => none
  members : List Node := []
  status : String
  size : Int := 0

structure ApiReq where
  req : String
  netInterface : String
  netWork : String
  role : String

/-- What the statistics take from elsewhere: the order of a range loop, the names and decoders of
the options, the text of a duration, and a percentage in floating point. -/
structure StatsEnv where
  order : RangeOrder ℕ
  optionName : UInt8 → String
  decode : UInt8 → Bytes → String
  durationText : Int → String
  percent : Int → Int → Int

/-- The first character in lower case if it is a capital. -/
def lowerFirst (s : String) : String :=
  match s.toList with
  | c :: rest => if c.isUpper then String.ofList (c.toLower :: rest) else s
  | [] => s

namespace DHCPHandler

def optionTexts (h : DHCPHandler) (env : StatsEnv) : String → Option String :=
  overlay (Function.update (fun _ => none) "optionIPAddressLeaseTime"
      (some (env.durationText h.leaseDuration)))
    ((rangeEntries env.order h.options).map fun e =>
      (lowerFirst (env.optionName e.1), env.decode e.1 e.2))

/-- One node for each entry of `hwcache.Items()`. -/
def members (h : DHCPHandler) (now : Int) : List Node :=
  (h.hwcache.unexpired now).entries.map fun e =>
    ⟨e.1, ipString (h.start + BitVec.ofInt 32 e.2.object), e.2.expiration⟩

def availableCount (h : DHCPHandler) : Int := safeUint64ToInt h.available.freeIPsRemaining

end DHCPHandler

namespace StatsNetwork

/-- The addresses in use by the count of the leases and of the configuration text. -/
def count (v : StatsNetwork) (fuel : ℕ) (now : Int) : Option Int :=
  (ipsFromRange fuel v.ipReserved).map fun r =>
    let count : Int := (v.dhcpHandler.members now).length
    if r.2 ≠ 1 then count + r.2 else count

/-- The pass of the loop over one network; `none` if `IPsFromRange` does not return. -/
def stats (v : StatsNetwork) (env : StatsEnv) (fuel : ℕ) (now : Int) (netInterface : String) :
    Option Stats :=
  (v.count fuel now).map fun count =>
    let h := v.dhcpHandler
    let usedCount := h.leaseRange - h.availableCount
    { ethernetName := netInterface
      net := v.network.cidr
      free := h.availableCount
      percentFree := env.percent h.availableCount h.leaseRange
      used := usedCount
      percentUsed := env.percent usedCount h.leaseRange
      category := v.role
      options := h.optionTexts env
      members := h.members now
      status :=
        if count = h.leaseRange - h.availableCount then "Normal"
        else "Calculated available IP " ++ toString (h.leaseRange - count) ++
          " is different than what we have available in the pool " ++ toString h.availableCount
      size := h.leaseRange }

/-- A request that names no address is for every network. -/
def requested (v : StatsNetwork) (netWork : String) : Bool :=
  match parseIP netWork with
  | some ipv4Addr => v.network.containsIP ipv4Addr
  | none => true

def debug (v : StatsNetwork) (netInterface : String) : Stats where
  ethernetName := netInterface
  net := v.network.cidr
  free := v.dhcpHandler.availableCount
  category := v.role
  status := "Debug finished"

end StatsNetwork

def handleApiReq (env : StatsEnv) (fuel : ℕ) (now : Int) (network : List StatsNetwork)
    (request : ApiReq) : Option (List Stats) :=
  match request.req with
  | "stats" =>
    (network.filter fun v => v.requested request.netWork).mapM fun v =>
      v.stats env fuel now request.netInterface
  | "debug" =>
    some ((network.filter fun v => request.role = v.role).map fun v =>
      v.debug request.netInterface)
  | _ => some []

/-! ## The status -/

theorem StatsNetwork.stats_normal_iff (env : StatsEnv) (netInterface : String)
    {v : StatsNetwork} {fuel : ℕ} {now count : Int} (hcount : v.count fuel now = some count) :
    ∃ stats, v.stats env fuel now netInterface = some stats ∧ (stats.status = "Normal" ↔
      count = v.dhcpHandler.leaseRange - v.dhcpHandler.availableCount) := by
  refine ⟨_, by rw [stats, hcount]; rfl, ?_⟩
  by_cases heq : count = v.dhcpHandler.leaseRange - v.dhcpHandler.availableCount
  · simp [heq]
  · simp only [heq, if_false, iff_false]
    intro htext
    have hlist := congrArg String.toList htext
    simp only [String.toList_append, List.append_assoc] at hlist
    -- the two texts differ in their first letter
    cases hlist

section Fresh
variable {cfg : ScopeConfig} (hassigned : cfg.ipAssigned = [])
include hassigned

theorem mem_free_readConfig (i : ℕ) :
    i ∈ (readConfig cfg).available.free ↔
      i < cfg.size ∧ ipAdd cfg.dhcpStart i ∉ cfg.ipReserved := by
  have hend := cfg.dhcpEnd.isLt
  have hsize : cfg.size ≤ 2 ^ 32 := by
    unfold ScopeConfig.size
    omega
  have havailable : (readConfig cfg).available = excludeIP cfg.dhcpStart
      (DHCPPool.newDHCPPool cfg.size cfg.algorithm cfg.clock) cfg.ipReserved := by
    rw [readConfig_available, ScopeConfig.reservations, hassigned, excludeIP_eq]
    simp [ScopeConfig.position]
  rw [havailable]
  exact mem_free_excludeIP_fresh cfg.dhcpStart hsize cfg.algorithm cfg.clock cfg.ipReserved i

/-- Each reserved address takes one index of the pool. -/
theorem card_free_readConfig (hnodup : cfg.ipReserved.Nodup)
    (hinside : ∀ a ∈ cfg.ipReserved,
      cfg.dhcpStart.toNat ≤ a.toNat ∧ a.toNat ≤ cfg.dhcpEnd.toNat) :
    (readConfig cfg).available.freeIPsRemaining + cfg.ipReserved.length = cfg.size := by
  have hposition : ∀ {i : ℕ}, i < cfg.size →
      (cfg.position (ipAdd cfg.dhcpStart i)).toNat = i := by
    intro i hi
    have hs := cfg.dhcpStart.isLt
    have hend := cfg.dhcpEnd.isLt
    unfold ScopeConfig.size at hi
    rw [ScopeConfig.position, BitVec.toNat_sub, ipAdd_toNat]
    omega
  have hfree : (readConfig cfg).available.free = Finset.range cfg.size \
      cfg.ipReserved.toFinset.image fun a => (cfg.position a).toNat := by
    ext i
    rw [mem_free_readConfig hassigned, Finset.mem_sdiff, Finset.mem_range]
    refine and_congr_right fun hi => not_congr ?_
    rw [Finset.mem_image]
    constructor
    · exact fun hmem => ⟨_, List.mem_toFinset.mpr hmem, hposition hi⟩
    · rintro ⟨a, ha, rfl⟩
      rw [cfg.ipAdd_position]
      exact List.mem_toFinset.mp ha
  have hsub : (cfg.ipReserved.toFinset.image fun a => (cfg.position a).toNat) ⊆
      Finset.range cfg.size := by
    intro i hi
    obtain ⟨a, ha, rfl⟩ := Finset.mem_image.mp hi
    obtain ⟨hlo, hhi⟩ := hinside a (List.mem_toFinset.mp ha)
    exact Finset.mem_range.mpr (cfg.position_lt_size hlo hhi)
  have hcard : (cfg.ipReserved.toFinset.image fun a => (cfg.position a).toNat).card =
      cfg.ipReserved.length := by
    rw [Finset.card_image_of_injOn fun a _ b _ h => cfg.position_inj h,
      List.toFinset_card_of_nodup hnodup]
  have hle := Finset.card_le_card hsub
  rw [DHCPPool.freeIPsRemaining, hfree, Finset.card_sdiff_of_subset hsub, hcard]
  rw [hcard] at hle
  rw [Finset.card_range] at hle ⊢
  omega

end Fresh

/-- The number of addresses that the statistics add for `ip_reserved`. -/
theorem reserved_count (items : List ReservedItem) :
    ∃ r, ipsFromRange (2 ^ 32) (reservedText items) = some r ∧
      (if r.2 ≠ 1 then (r.2 : Int) else 0) =
        if (items.flatMap ReservedItem.addresses).length ≠ 1 then
          ((items.flatMap ReservedItem.addresses).length : Int) else 0 := by
  cases items with
  | nil =>
    -- the empty text has one part, which is no address
    exact ⟨([[]], 1), rfl, rfl⟩
  | cons item items =>
    exact ⟨_, ipsFromRange_items (List.cons_ne_nil item items), rfl⟩

/-- A fresh scope is reported as normal exactly when the number of its reserved addresses is
not one. -/
theorem fresh_scope_normal_iff (env : StatsEnv) (now : Int) (netInterface : String)
    (v : StatsNetwork) (cfg : ScopeConfig) (items : List ReservedItem)
    (hhandler : v.dhcpHandler = readConfig cfg) (htext : v.ipReserved = reservedText items)
    (hreserved : cfg.ipReserved = items.flatMap ReservedItem.addresses)
    (hassigned : cfg.ipAssigned = []) (hnodup : cfg.ipReserved.Nodup)
    (hinside : ∀ a ∈ cfg.ipReserved,
      cfg.dhcpStart.toNat ≤ a.toNat ∧ a.toNat ≤ cfg.dhcpEnd.toNat) :
    ∃ count stats, v.count (2 ^ 32) now = some count ∧
      v.stats env (2 ^ 32) now netInterface = some stats ∧
      (count = v.dhcpHandler.leaseRange - v.dhcpHandler.availableCount ↔
        cfg.ipReserved.length ≠ 1) ∧
      (stats.status = "Normal" ↔ cfg.ipReserved.length ≠ 1) := by
  obtain ⟨r, hrange, hcount⟩ := reserved_count items
  rw [← hreserved] at hcount
  have hmembers : (v.dhcpHandler.members now).length = 0 := by
    rw [hhandler]
    rfl
  have hused : v.dhcpHandler.leaseRange - v.dhcpHandler.availableCount =
      (cfg.ipReserved.length : Int) := by
    have hfree := card_free_readConfig hassigned hnodup hinside
    have hend := cfg.dhcpEnd.isLt
    have hmax : (readConfig cfg).available.freeIPsRemaining ≤ maxInt := by
      unfold ScopeConfig.size at hfree
      unfold maxInt
      omega
    have hlease : (readConfig cfg).leaseRange = (cfg.size : Int) := ipRange_eq_size cfg
    rw [hhandler, DHCPHandler.availableCount, safeUint64ToInt_of_le hmax, hlease]
    omega
  have hv : v.count (2 ^ 32) now =
      some (if cfg.ipReserved.length ≠ 1 then (cfg.ipReserved.length : Int) else 0) := by
    rw [StatsNetwork.count, htext, hrange, Option.map_some, hmembers, ← hcount]
    simp
  have hiff : (if cfg.ipReserved.length ≠ 1 then (cfg.ipReserved.length : Int) else 0) =
      v.dhcpHandler.leaseRange - v.dhcpHandler.availableCount ↔ cfg.ipReserved.length ≠ 1 := by
    rw [hused]
    split <;> omega
  obtain ⟨stats, hstats, hnormal⟩ := StatsNetwork.stats_normal_iff env netInterface hv
  exact ⟨_, stats, hv, hstats, hiff, hnormal.trans hiff⟩

namespace Sample

/-- The small scope with the given items in `ip_reserved`. -/
def fresh (items : List ReservedItem) : StatsNetwork where
  network := network
  dhcpHandler := readConfig (scope (items.flatMap ReservedItem.addresses) [])
  role := ""
  ipReserved := reservedText items

def oneAddress : ReservedItem := .address "10.0.0.12".toList 0x0a00000c#32 rfl

def otherAddress : ReservedItem := .address "10.0.0.10".toList 0x0a00000a#32 rfl

theorem inside_scope (l : List IPv4)
    (h : (l.all fun a => 0x0a00000a#32 ≤ a && a ≤ 0x0a00000c#32) = true) :
    ∀ a ∈ (scope l []).ipReserved, (scope l []).dhcpStart.toNat ≤ a.toNat ∧
      a.toNat ≤ (scope l []).dhcpEnd.toNat := by
  intro a ha
  have hboth := List.all_eq_true.mp h a ha
  rw [Bool.and_eq_true, decide_eq_true_iff, decide_eq_true_iff] at hboth
  exact hboth

end Sample

theorem fresh_scope_normal_iff_two : ∃ stats : Stats,
    (Sample.fresh [Sample.oneAddress, Sample.otherAddress]).stats
      ⟨RangeOrder.ascending, fun _ => "", fun _ _ => "", fun _ => "", fun _ _ => 0⟩ (2 ^ 32) 0
      "eth0" = some stats ∧ stats.status = "Normal" := by
  obtain ⟨-, stats, -, hstats, -, hnormal⟩ := fresh_scope_normal_iff
    ⟨RangeOrder.ascending, fun _ => "", fun _ _ => "", fun _ => "", fun _ _ => 0⟩ 0 "eth0"
    (Sample.fresh [Sample.oneAddress, Sample.otherAddress])
    (Sample.scope
      ([Sample.oneAddress, Sample.otherAddress].flatMap ReservedItem.addresses) [])
    [Sample.oneAddress, Sample.otherAddress] rfl rfl rfl rfl (by decide +kernel)
    (Sample.inside_scope _ (by decide +kernel))
  exact ⟨stats, hstats, hnormal.mpr (by decide +kernel)⟩

/-- One reserved address is not counted. -/
theorem one_reserved_address_not_counted :
    ¬ ∀ (now : Int) (v : StatsNetwork) (cfg : ScopeConfig) (items : List ReservedItem),
      v.dhcpHandler = readConfig cfg → v.ipReserved = reservedText items →
      cfg.ipReserved = items.flatMap ReservedItem.addresses → cfg.ipAssigned = [] →
      cfg.ipReserved.Nodup → (∀ a ∈ cfg.ipReserved,
        cfg.dhcpStart.toNat ≤ a.toNat ∧ a.toNat ≤ cfg.dhcpEnd.toNat) →
      v.count (2 ^ 32) now =
        some (v.dhcpHandler.leaseRange - v.dhcpHandler.availableCount) := by
  intro hclaim
  have hcount := hclaim 0 (Sample.fresh [Sample.oneAddress])
    (Sample.scope ([Sample.oneAddress].flatMap ReservedItem.addresses) []) [Sample.oneAddress]
    rfl rfl rfl rfl (by decide +kernel) (Sample.inside_scope _ (by decide +kernel))
  have hzero : (Sample.fresh [Sample.oneAddress]).count (2 ^ 32) 0 = some 0 := by decide +kernel
  have hone : (Sample.fresh [Sample.oneAddress]).dhcpHandler.leaseRange -
      (Sample.fresh [Sample.oneAddress]).dhcpHandler.availableCount = 1 := by decide +kernel
  rw [hzero, hone] at hcount
  cases hcount

end StandaloneDHCP
