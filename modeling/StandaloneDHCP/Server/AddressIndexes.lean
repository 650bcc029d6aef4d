import StandaloneDHCP.Server.Config

/-! Addresses and pool indexes. The index of an address is computed in signed integers where a
REQUEST, RELEASE or DECLINE is tested against the range, and with the wrapping difference of 32-bit
values in DISCOVER, `AssignIP` and `ExcludeIP`; the way back is the modular sum of `dhcp.IPAdd` in
replies and of the members list of the stats page. On the addresses of the range they all agree. -/
namespace StandaloneDHCP
set_option autoImplicit false

/-- The address of a member of the stats page (`handleApiReq`): the cached index is cut to 32 bits
and added to the start. -/
def memberIP (start : IPv4) (item : Int) : IPv4 := start + BitVec.ofInt 32 item

theorem memberIP_natCast (start : IPv4) (i : ℕ) : memberIP start i = ipAdd start i := rfl

namespace ScopeConfig
variable (cfg : ScopeConfig) {a : IPv4}

def Contains (a : IPv4) : Prop := cfg.dhcpStart.toNat ≤ a.toNat ∧ a.toNat ≤ cfg.dhcpEnd.toNat

instance (a : IPv4) : Decidable (cfg.Contains a) := inferInstanceAs (Decidable (_ ∧ _))

theorem contains_iff_leaseNum : cfg.Contains a ↔
    0 ≤ ipRange cfg.dhcpStart a - 1 ∧
      ipRange cfg.dhcpStart a - 1 < ipRange cfg.dhcpStart cfg.dhcpEnd := by
  unfold Contains ipRange
  omega

theorem contains_iff_position : cfg.Contains a ↔ (cfg.position a).toNat < cfg.size :=
  ⟨fun h => cfg.position_lt_size h.1 h.2, cfg.inside_of_position_lt⟩

theorem leaseNum_eq_position (ha : cfg.Contains a) :
    ipRange cfg.dhcpStart a - 1 = (cfg.position a).toNat := by
  have hlt := a.isLt
  obtain ⟨hlo, -⟩ := ha
  rw [ipRange, position, BitVec.toNat_sub]
  omega

theorem ipAdd_toNat_of_lt {i : ℕ} (hi : i < cfg.size) :
    (ipAdd cfg.dhcpStart i).toNat = cfg.dhcpStart.toNat + i := by
  have hle := cfg.start_le_end
  have hend := cfg.dhcpEnd.isLt
  unfold size at hi
  rw [ipAdd_toNat, Nat.mod_eq_of_lt]
  omega

theorem contains_ipAdd {i : ℕ} (hi : i < cfg.size) : cfg.Contains (ipAdd cfg.dhcpStart i) := by
  have hadd := cfg.ipAdd_toNat_of_lt hi
  have hle := cfg.start_le_end
  unfold size at hi
  unfold Contains
  omega

theorem ipAdd_inj_of_lt {i j : ℕ} (hi : i < cfg.size) (hj : j < cfg.size)
    (heq : ipAdd cfg.dhcpStart i = ipAdd cfg.dhcpStart j) : i = j := by
  have hadd := cfg.ipAdd_toNat_of_lt hi
  rw [heq, cfg.ipAdd_toNat_of_lt hj] at hadd
  omega

end ScopeConfig

/-- No `int` of the range arithmetic overflows. -/
theorem ipRange_fits (start stop : IPv4) :
    -2 ^ 63 ≤ ipRange start stop ∧ ipRange start stop < 2 ^ 63 := by
  have hs := start.isLt
  have he := stop.isLt
  unfold ipRange
  omega

theorem index_conversions_agree (cfg : ScopeConfig) (a : IPv4) :
    let h := readConfig cfg
    let leaseNum := ipRange h.start a - 1
    let element := (a - h.start).toNat
    (cfg.Contains a ↔ 0 ≤ leaseNum ∧ leaseNum < h.leaseRange) ∧
    (cfg.Contains a ↔ element < h.available.capacity) ∧
    (cfg.Contains a → leaseNum = element ∧ ipAdd h.start leaseNum = a ∧
      memberIP h.start leaseNum = a) ∧
    (∀ i : ℕ, i < h.available.capacity → cfg.Contains (ipAdd h.start i) ∧
      ipRange h.start (ipAdd h.start i) - 1 = i) ∧
    (∀ i j : ℕ, i < h.available.capacity → j < h.available.capacity →
      ipAdd h.start i = ipAdd h.start j → i = j) ∧
    (-2 ^ 63 ≤ ipRange h.start a ∧ ipRange h.start a < 2 ^ 63) := by
  intro h leaseNum element
  have hcap : h.available.capacity = cfg.size := readConfig_capacity cfg
  rw [hcap]
  refine ⟨cfg.contains_iff_leaseNum, cfg.contains_iff_position, fun ha => ?_, fun i hi => ?_,
    fun i j hi hj heq => cfg.ipAdd_inj_of_lt hi hj heq, ipRange_fits h.start a⟩
  · have hnum : leaseNum = element := cfg.leaseNum_eq_position ha
    have hadd : ipAdd h.start element = a := cfg.ipAdd_position a
    rw [hnum, memberIP_natCast]
    exact ⟨rfl, hadd, hadd⟩
  · refine ⟨cfg.contains_ipAdd hi, ?_⟩
    have hadd := cfg.ipAdd_toNat_of_lt hi
    show ((ipAdd cfg.dhcpStart i).toNat : Int) - cfg.dhcpStart.toNat + 1 - 1 = i
    omega

end StandaloneDHCP
