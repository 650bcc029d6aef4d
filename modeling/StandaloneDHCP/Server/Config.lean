import StandaloneDHCP.Lib.Overlay
import StandaloneDHCP.Server.Handler

/-! The handler that `readConfig` builds for one network section: a fresh pool over
`dhcp_start..dhcp_end`, from which `ExcludeIP` (`utils.go`) takes the reserved addresses and
`AssignIP` (`config.go`) the static ones. The lists are what the two functions loop over once
the configuration text is parsed. -/
namespace StandaloneDHCP
open Lib
set_option autoImplicit false

/-- A network section that passed the range check of `readConfig`. -/
structure ScopeConfig where
  ip : IPv4
  dhcpStart : IPv4
  dhcpEnd : IPv4
  seconds : Int
  algorithm : Int
  options : Options
  ipReserved : List IPv4
  ipAssigned : List (String × IPv4)
  clock : ℕ → Int
  start_le_end : dhcpStart.toNat ≤ dhcpEnd.toNat

namespace ScopeConfig

/-- The number of addresses of the range, `dhcp.IPRange(dhcpStart, dhcpEnd)`. -/
def size (cfg : ScopeConfig) : ℕ := cfg.dhcpEnd.toNat - cfg.dhcpStart.toNat + 1

/-- The position of an address in the pool; addresses below the start wrap. -/
def position (cfg : ScopeConfig) (a : IPv4) : BitVec 32 := a - cfg.dhcpStart

theorem ipAdd_position (cfg : ScopeConfig) (a : IPv4) :
    ipAdd cfg.dhcpStart (cfg.position a).toNat = a := by
  have hs := cfg.dhcpStart.isLt
  have ha := a.isLt
  apply BitVec.eq_of_toNat_eq
  rw [ipAdd_toNat, position, BitVec.toNat_sub]
  omega

theorem position_inj (cfg : ScopeConfig) {a b : IPv4}
    (h : (cfg.position a).toNat = (cfg.position b).toNat) : a = b := by
  rw [← cfg.ipAdd_position a, ← cfg.ipAdd_position b, h]

theorem position_lt_size (cfg : ScopeConfig) {a : IPv4} (hlo : cfg.dhcpStart.toNat ≤ a.toNat)
    (hhi : a.toNat ≤ cfg.dhcpEnd.toNat) : (cfg.position a).toNat < cfg.size := by
  have ha := a.isLt
  rw [position, BitVec.toNat_sub, size]
  omega

theorem inside_of_position_lt (cfg : ScopeConfig) {a : IPv4}
    (h : (cfg.position a).toNat < cfg.size) :
    cfg.dhcpStart.toNat ≤ a.toNat ∧ a.toNat ≤ cfg.dhcpEnd.toNat := by
  have ha := a.isLt
  have hle := cfg.start_le_end
  have hend := cfg.dhcpEnd.isLt
  rw [position, BitVec.toNat_sub, size] at h
  omega

end ScopeConfig

def excludeIP (start : IPv4) (available : DHCPPool) (excludeIPs : List IPv4) : DHCPPool :=
  excludeIPs.foldl (fun available excludeIP =>
    (available.reserveIPIndex (excludeIP - start).toNat FakeMac).1) available

def assignIP (start : IPv4) (available : DHCPPool) (entries : List (String × IPv4)) :
    DHCPPool × AList (fun _ : String => BitVec 32) :=
  entries.foldl (fun r e =>
    ((r.1.reserveIPIndex (e.2 - start).toNat e.1).1, r.2.insert e.1 (e.2 - start)))
    (available, ∅)

/-- `readConfig`, from `DHCPScope = &DHCPHandler{}` on. -/
def readConfig (cfg : ScopeConfig) : DHCPHandler :=
  let available := DHCPPool.newDHCPPool
    (safeIntToUint64 (ipRange cfg.dhcpStart cfg.dhcpEnd)) cfg.algorithm cfg.clock
  let available := excludeIP cfg.dhcpStart available cfg.ipReserved
  let assigned := assignIP cfg.dhcpStart available cfg.ipAssigned
  { ip := cfg.ip
    options := cfg.options
    start := cfg.dhcpStart
    leaseRange := ipRange cfg.dhcpStart cfg.dhcpEnd
    leaseDuration := cfg.seconds * second
    hwcache := Cache.empty (cfg.seconds * second)
    xid := Cache.empty (4 * second)
    available := assigned.1
    layer2 := true
    ipAssigned := assigned.2
    tasks := [] }

/-! ## Reserving a list of indexes -/

/-- The loop that `ExcludeIP` and `AssignIP` share. -/
def reserveAll (dp : DHCPPool) (l : List (ℕ × String)) : DHCPPool :=
  l.foldl (fun dp e => (dp.reserveIPIndex e.1 e.2).1) dp

theorem excludeIP_eq (start : IPv4) (dp : DHCPPool) (l : List IPv4) :
    excludeIP start dp l = reserveAll dp (l.map fun a => ((a - start).toNat, FakeMac)) := by
  rw [excludeIP, reserveAll, List.foldl_map]

theorem assignIP_aux (start : IPv4) (l : List (String × IPv4))
    (r : DHCPPool × AList (fun _ : String => BitVec 32)) :
    l.foldl (fun r e =>
      ((r.1.reserveIPIndex (e.2 - start).toNat e.1).1, r.2.insert e.1 (e.2 - start))) r =
    (reserveAll r.1 (l.map fun e => ((e.2 - start).toNat, e.1)),
      l.foldl (fun c e => c.insert e.1 (e.2 - start)) r.2) := by
  induction l generalizing r with
  | nil => rfl
  | cons e l ih =>
    rw [List.foldl_cons, ih]
    rfl

theorem mem_free_reserveIPIndex (dp : DHCPPool) (j : ℕ) (m : String) (i : ℕ) :
    i ∈ (dp.reserveIPIndex j m).1.free ↔ i ∈ dp.free ∧ ¬ (i = j ∧ i < dp.capacity) := by
  obtain ⟨-, hlt, heq⟩ | ⟨hno, heq, -⟩ := dp.reserveIPIndex_cases j m
  · rw [heq, DHCPPool.grant, Finset.mem_erase]
    constructor
    · rintro ⟨hne, hi⟩
      exact ⟨hi, fun hc => hne hc.1⟩
    · rintro ⟨hi, hc⟩
      exact ⟨fun hij => hc ⟨hij, hij ▸ hlt⟩, hi⟩
  · rw [heq]
    refine ⟨fun hi => ⟨hi, ?_⟩, And.left⟩
    rintro ⟨rfl, hlt⟩
    rcases hno with hno | hcap
    · exact hno hi
    · omega

theorem lookup_reserveIPIndex (dp : DHCPPool) (j : ℕ) (m : String) (i : ℕ) :
    (dp.reserveIPIndex j m).1.mac.lookup i =
      if i = j ∧ i < dp.capacity ∧ i ∈ dp.free then some m else dp.mac.lookup i := by
  obtain ⟨hfree, hlt, heq⟩ | ⟨hno, heq, -⟩ := dp.reserveIPIndex_cases j m
  · rw [heq, DHCPPool.grant]
    by_cases hij : i = j
    · subst hij
      rw [if_pos ⟨rfl, hlt, hfree⟩]
      exact Finmap.lookup_insert _
    · rw [if_neg fun hc => hij hc.1]
      exact Finmap.lookup_insert_of_ne _ hij
  · rw [heq, if_neg]
    rintro ⟨rfl, hlt, hfree⟩
    rcases hno with hno | hcap
    · exact hno hfree
    · omega

theorem reserveIPIndex_rest (dp : DHCPPool) (j : ℕ) (m : String) :
    (dp.reserveIPIndex j m).1.capacity = dp.capacity ∧
      (dp.reserveIPIndex j m).1.released = dp.released ∧
      (dp.reserveIPIndex j m).1.algorithm = dp.algorithm := by
  obtain ⟨-, -, heq⟩ | ⟨-, heq, -⟩ := dp.reserveIPIndex_cases j m
  · rw [heq]
    exact ⟨rfl, rfl, rfl⟩
  · rw [heq]
    exact ⟨rfl, rfl, rfl⟩

theorem reserveAll_rest (l : List (ℕ × String)) (dp : DHCPPool) :
    (reserveAll dp l).capacity = dp.capacity ∧ (reserveAll dp l).released = dp.released ∧
      (reserveAll dp l).algorithm = dp.algorithm := by
  induction l generalizing dp with
  | nil => exact ⟨rfl, rfl, rfl⟩
  | cons e l ih =>
    obtain ⟨hcap, hrel, halg⟩ := reserveIPIndex_rest dp e.1 e.2
    obtain ⟨h₁, h₂, h₃⟩ := ih (dp.reserveIPIndex e.1 e.2).1
    exact ⟨h₁.trans hcap, h₂.trans hrel, h₃.trans halg⟩

theorem lookup_cons_pair (e : ℕ × String) (l : List (ℕ × String)) (i : ℕ) :
    (e :: l).lookup i = if i = e.1 then some e.2 else l.lookup i := by
  rw [List.lookup_cons]
  by_cases hie : i = e.1
  · rw [if_pos hie, beq_iff_eq.mpr hie]
  · rw [if_neg hie, beq_eq_false_iff_ne.mpr hie]

/-- An index stays free when no entry of the list names it. -/
theorem mem_free_reserveAll (l : List (ℕ × String)) (dp : DHCPPool) (i : ℕ) :
    i ∈ (reserveAll dp l).free ↔ i ∈ dp.free ∧ (i < dp.capacity → l.lookup i = none) := by
  induction l generalizing dp with
  | nil => simp [reserveAll]
  | cons e l ih =>
    show i ∈ (reserveAll (dp.reserveIPIndex e.1 e.2).1 l).free ↔ _
    rw [ih, mem_free_reserveIPIndex, (reserveIPIndex_rest dp e.1 e.2).1, lookup_cons_pair]
    by_cases hie : i = e.1
    · rw [if_pos hie]
      constructor
      · rintro ⟨⟨hi, hcap⟩, -⟩
        exact ⟨hi, fun hlt => absurd ⟨hie, hlt⟩ hcap⟩
      · rintro ⟨hi, hcap⟩
        have hno : ¬ i < dp.capacity := fun hlt => by cases hcap hlt
        exact ⟨⟨hi, fun hc => hno hc.2⟩, fun hlt => absurd hlt hno⟩
    · rw [if_neg hie]
      refine and_congr_left fun _ => and_iff_left ?_
      exact fun hc => hie hc.1

/-- A free index goes to the first entry that names it, every other index is left alone. -/
theorem lookup_reserveAll (l : List (ℕ × String)) (dp : DHCPPool) (i : ℕ) :
    (reserveAll dp l).mac.lookup i =
      if i < dp.capacity ∧ i ∈ dp.free then (l.lookup i).or (dp.mac.lookup i)
      else dp.mac.lookup i := by
  induction l generalizing dp with
  | nil => simp [reserveAll]
  | cons e l ih =>
    show (reserveAll (dp.reserveIPIndex e.1 e.2).1 l).mac.lookup i = _
    simp only [ih, mem_free_reserveIPIndex, lookup_reserveIPIndex, lookup_cons_pair,
      (reserveIPIndex_rest dp e.1 e.2).1]
    by_cases hin : i < dp.capacity ∧ i ∈ dp.free
    · by_cases hie : i = e.1
      · rw [if_neg fun hc => hc.2.2 ⟨hie, hin.1⟩, if_pos ⟨hie, hin⟩, if_pos hin, if_pos hie]
        rfl
      · rw [if_pos ⟨hin.1, hin.2, fun hc => hie hc.1⟩, if_neg fun hc => hie hc.1, if_pos hin,
          if_neg hie]
    · rw [if_neg fun hc => hin ⟨hc.1, hc.2.1⟩, if_neg fun hc => hin hc.2, if_neg hin]

section Reserve
variable {dp : DHCPPool} (hwf : dp.WellFormed)
include hwf

theorem reserve_wellFormed (i : ℕ) (m : String) :
    (dp.reserveIPIndex i m).1.WellFormed ∧ (dp.reserveIPIndex i m).1.capacity = dp.capacity := by
  obtain ⟨hfree, -, heq⟩ | ⟨-, heq, -⟩ := dp.reserveIPIndex_cases i m
  · rw [heq]
    exact ⟨hwf.grant hfree m, rfl⟩
  · rw [heq]
    exact ⟨hwf, rfl⟩

theorem reserve_lookup {i j : ℕ} {m o : String} (hj : dp.mac.lookup j = some o) :
    (dp.reserveIPIndex i m).1.mac.lookup j = some o := by
  rw [lookup_reserveIPIndex, if_neg fun hc => hwf.notMem_free hj hc.2.2]
  exact hj

theorem reserveAll_wellFormed (l : List (ℕ × String)) :
    (reserveAll dp l).WellFormed ∧ (reserveAll dp l).capacity = dp.capacity := by
  induction l generalizing dp with
  | nil => exact ⟨hwf, rfl⟩
  | cons e l ih =>
    obtain ⟨hwf', hcap⟩ := reserve_wellFormed hwf e.1 e.2
    obtain ⟨h₁, h₂⟩ := ih hwf'
    exact ⟨h₁, h₂.trans hcap⟩

/-- An index that was free stays free or belongs to an entry of the list that names it; it
belongs to one if there is any. -/
theorem reserveAll_free (l : List (ℕ × String)) {i : ℕ} (hi : i ∈ dp.free) :
    (i ∈ (reserveAll dp l).free ∧ ∀ e ∈ l, e.1 ≠ i) ∨
      ∃ e ∈ l, e.1 = i ∧ (reserveAll dp l).mac.lookup i = some e.2 := by
  have hlt := hwf.free_lt hi
  cases hfirst : l.lookup i with
  | none =>
    refine .inl ⟨(mem_free_reserveAll l dp i).mpr ⟨hi, fun _ => hfirst⟩, fun e he hei => ?_⟩
    have hne := List.lookup_eq_none_iff.mp hfirst e he
    simp [hei] at hne
  | some m =>
    obtain ⟨l₁, l₂, rfl, -⟩ := List.lookup_eq_some_iff.mp hfirst
    refine .inr ⟨(i, m), by simp, rfl, ?_⟩
    rw [lookup_reserveAll, if_pos ⟨hlt, hi⟩, hfirst]
    rfl

end Reserve

/-! ## The handler at start -/

/-- The indexes that are reserved at start, in the order of the calls. -/
def ScopeConfig.reservations (cfg : ScopeConfig) : List (ℕ × String) :=
  (cfg.ipReserved.map fun a => ((cfg.position a).toNat, FakeMac)) ++
    cfg.ipAssigned.map fun e => ((cfg.position e.2).toNat, e.1)

variable (cfg : ScopeConfig)

theorem ipRange_eq_size : ipRange cfg.dhcpStart cfg.dhcpEnd = cfg.size := by
  have hle := cfg.start_le_end
  unfold ipRange ScopeConfig.size
  omega

theorem readConfig_available : (readConfig cfg).available =
    reserveAll (DHCPPool.newDHCPPool cfg.size cfg.algorithm cfg.clock) cfg.reservations := by
  simp only [readConfig, assignIP, assignIP_aux, excludeIP_eq, ipRange_eq_size,
    safeIntToUint64_natCast, reserveAll, ScopeConfig.reservations, ScopeConfig.position,
    List.foldl_append]

theorem readConfig_ipAssigned : (readConfig cfg).ipAssigned =
    cfg.ipAssigned.foldl (fun c e => c.insert e.1 (cfg.position e.2)) ∅ := by
  simp only [readConfig, assignIP, assignIP_aux]
  rfl

/-- A MAC is given what its last entry says. -/
theorem lookup_foldl_insert (f : IPv4 → BitVec 32) (l : List (String × IPv4))
    (c : AList (fun _ : String => BitVec 32)) (m : String) :
    (l.foldl (fun c e => c.insert e.1 (f e.2)) c).lookup m =
      ((lookupLast l m).map f).or (c.lookup m) := by
  induction l generalizing c with
  | nil => rfl
  | cons e l ih =>
    rw [List.foldl_cons, ih, lookupLast]
    cases lookupLast l m with
    | some a => rfl
    | none =>
      by_cases hm : e.1 = m
      · subst hm
        simp
      · simp [hm, AList.lookup_insert_ne (Ne.symm hm)]

theorem readConfig_lookup (m : String) :
    (readConfig cfg).ipAssigned.lookup m = (lookupLast cfg.ipAssigned m).map cfg.position := by
  rw [readConfig_ipAssigned, lookup_foldl_insert, AList.lookup_empty, Option.or_none]

theorem readConfig_assigned {m : String} {position : BitVec 32}
    (h : (readConfig cfg).ipAssigned.lookup m = some position) :
    ∃ a, (m, a) ∈ cfg.ipAssigned ∧ position = cfg.position a := by
  rw [readConfig_lookup] at h
  obtain ⟨a, hlast, rfl⟩ := Option.map_eq_some_iff.mp h
  exact ⟨a, mem_of_lookupLast hlast, rfl⟩

theorem readConfig_capacity : (readConfig cfg).available.capacity = cfg.size := by
  have hwf := DHCPPool.wellFormed_new cfg.size cfg.algorithm cfg.clock
  rw [readConfig_available, (reserveAll_wellFormed hwf cfg.reservations).2]
  exact DHCPPool.newDHCPPool_capacity _ _ _

theorem readConfig_sound : (readConfig cfg).Sound := by
  have hwf := DHCPPool.wellFormed_new cfg.size cfg.algorithm cfg.clock
  refine ⟨?_, ?_, ?_⟩
  · rw [readConfig_available]
    exact (reserveAll_wellFormed hwf cfg.reservations).1
  · rw [readConfig_capacity]
    exact ipRange_eq_size cfg
  · rw [readConfig_capacity]
    have hle := cfg.start_le_end
    have hend := cfg.dhcpEnd.isLt
    show cfg.dhcpStart.toNat + cfg.size ≤ 2 ^ 32
    unfold ScopeConfig.size
    omega

theorem readConfig_indexes (P : Int → Prop) : (readConfig cfg).Indexes P := by
  refine ⟨fun m e he => ?_, fun _ htask => nomatch htask⟩
  cases (Cache.peek_empty _ _).symm.trans he

theorem readConfig_free {i : ℕ} (hi : i < cfg.size) :
    (i ∈ (readConfig cfg).available.free ∧ ∀ e ∈ cfg.reservations, e.1 ≠ i) ∨
      ∃ e ∈ cfg.reservations, e.1 = i ∧
        (readConfig cfg).available.mac.lookup i = some e.2 := by
  have hwf := DHCPPool.wellFormed_new cfg.size cfg.algorithm cfg.clock
  rw [readConfig_available]
  refine reserveAll_free hwf cfg.reservations ?_
  rw [DHCPPool.newDHCPPool_free]
  exact Finset.mem_range.mpr hi

end StandaloneDHCP
