import StandaloneDHCP.Lib.ExpiringCache
import StandaloneDHCP.Pool.PoolInvariant
import StandaloneDHCP.Server.ReplyOptions

/-! The DHCP handler of one network (`config.go`) and what the message switch does to it.
The handler holds the address pool, the hardware cache (which client was given which index)
and the transaction markers. `tasks` are the goroutines that sleep before a `FreeIPIndex`:
30 seconds after an entry left the hardware cache (`OnEvicted`), 10 minutes after an address
was declared unusable. Nothing ever removes a task except its own firing. -/
namespace StandaloneDHCP
open Lib
set_option autoImplicit false

def second : Int := 1000000000
def minute : Int := 60 * second

inductive TaskKind
  | evicted
  | quarantine
deriving DecidableEq, Repr

/-- A goroutine that will call `FreeIPIndex(safeIntToUint64(index))` from `due` on. -/
structure Task where
  due : Int
  index : Int
  kind : TaskKind
deriving DecidableEq, Repr

structure DHCPHandler where
  ip : IPv4
  options : Options
  start : IPv4
  leaseRange : Int
  leaseDuration : Int
  hwcache : Cache String Int
  xid : Cache String Int
  available : DHCPPool
  layer2 : Bool
  ipAssigned : AList (fun _ : String => BitVec 32)
  tasks : List Task

/-- An IPv4 network; `none` where the configured text is not an IPv4 address. -/
structure IPNet where
  ip : Option IPv4
  mask : Option IPv4

def IPNet.contains (n : IPNet) (a : IPv4) : Bool :=
  match n.ip, n.mask with
  | some ip, some mask => ip &&& mask == a &&& mask
  | _, _ => false

def IPNet.text (n : IPNet) : String := (n.ip.map ipString).getD "<nil>"

structure Network where
  network : IPNet
  dhcpHandler : DHCPHandler

/-- The caches all handlers share (`main.go`). -/
structure Globals where
  globalIpCache : Cache String String
  globalMacCache : Cache String String
  globalTransactionCache : Cache String Int
  requestGlobalTransactionCache : Cache String Int

def Globals.init : Globals where
  globalIpCache := Cache.empty (5 * minute)
  globalMacCache := Cache.empty (5 * minute)
  globalTransactionCache := Cache.empty (5 * minute)
  requestGlobalTransactionCache := Cache.empty (1 * second)

def safeIntToUint64 (val : Int) : ℕ := if val < 0 then 0 else val.toNat

def maxInt : ℕ := 2 ^ 63 - 1

def safeUint64ToInt (val : ℕ) : Int := if maxInt < val then maxInt else val

theorem safeIntToUint64_natCast (n : ℕ) : safeIntToUint64 (n : Int) = n := by
  have hn : ¬ ((n : Int) < 0) := by omega
  simp [safeIntToUint64, hn]

/-- The indexes that `IPAdd` does not wrap. -/
def IsOffset (x : Int) : Prop := 0 ≤ x ∧ x < 2 ^ 32

theorem IsOffset.safeIntToUint64_eq {x : Int} (hx : IsOffset x) :
    (safeIntToUint64 x : Int) = x := by
  have hn : ¬ x < 0 := by
    have := hx.1
    omega
  rw [safeIntToUint64, if_neg hn]
  omega

theorem isOffset_natCast {n : ℕ} (hn : n < 2 ^ 32) : IsOffset n := by
  unfold IsOffset
  omega

theorem isOffset_toNat (a : BitVec 32) : IsOffset a.toNat := isOffset_natCast a.isLt

theorem IsOffset.eq_of_ipAdd {start : IPv4} {x y : Int} (hx : IsOffset x) (hy : IsOffset y)
    (heq : ipAdd start x = ipAdd start y) : x = y := by
  obtain ⟨i, rfl⟩ := Int.eq_ofNat_of_zero_le hx.1
  obtain ⟨j, rfl⟩ := Int.eq_ofNat_of_zero_le hy.1
  have hi := hx.2
  have hj := hy.2
  rw [ipAdd_inj start (by omega) (by omega) heq]

theorem safeUint64ToInt_of_le {n : ℕ} (h : n ≤ maxInt) : safeUint64ToInt n = n := by
  have hn : ¬ maxInt < n := by omega
  simp [safeUint64ToInt, hn]

namespace DHCPHandler

/-- The MAC that `GetMACIndex` returns for a cached or computed index. -/
def ownerOf (h : DHCPHandler) (index : Int) : String :=
  (h.available.getMACIndex (safeIntToUint64 index)).2.1

/-- `handler.hwcache.Set`. -/
def lock (h : DHCPHandler) (now : Int) (mac : String) (index d : Int) : DHCPHandler :=
  { h with hwcache := h.hwcache.set now mac index d }

/-- The callback of `hwcache`: free the index again in 30 seconds. -/
def onEvicted (h : DHCPHandler) (now index : Int) : DHCPHandler :=
  { h with tasks := h.tasks ++ [⟨now + 30 * second, index, .evicted⟩] }

/-- `handler.hwcache.Delete`, callback included. -/
def evict (h : DHCPHandler) (now : Int) (mac : String) : DHCPHandler :=
  let h' := { h with hwcache := (h.hwcache.delete mac).1 }
  match (h.hwcache.delete mac).2 with
  | some index => h'.onEvicted now index
  | none => h'

/-- The janitor of `hwcache`: every expired entry leaves, callback included. -/
def purge (h : DHCPHandler) (now : Int) : DHCPHandler :=
  (h.hwcache.deleteExpired now).2.foldl (fun h e => h.onEvicted now e.2)
    { h with hwcache := (h.hwcache.deleteExpired now).1 }

/-- `handler.available.ReserveIPIndex(safeIntToUint64(index), mac)`, result ignored. -/
def reserve (h : DHCPHandler) (index : Int) (mac : String) : DHCPHandler :=
  { h with available := (h.available.reserveIPIndex (safeIntToUint64 index) mac).1 }

/-- Declare an index unusable: reserve it with the fake MAC and free it in 10 minutes. -/
def quarantine (h : DHCPHandler) (now index : Int) : DHCPHandler :=
  let h' := h.reserve index FakeMac
  { h' with tasks := h'.tasks ++ [⟨now + 10 * minute, index, .quarantine⟩] }

/-- A task wakes up and frees its index. -/
def fire (h : DHCPHandler) (now : Int) (k : ℕ) (task : Task) : DHCPHandler :=
  { h with available := (h.available.freeIPIndex now (safeIntToUint64 task.index)).1,
           tasks := h.tasks.eraseIdx k }

/-! ## What the operations leave alone -/

/-- The fields that are fixed at configuration. -/
def settings (h : DHCPHandler) :=
  (h.ip, h.options, h.start, h.leaseRange, h.leaseDuration, h.layer2, h.ipAssigned)

section Settings
variable {h h' : DHCPHandler} (hset : h'.settings = h.settings)
include hset

theorem ip_of_settings : h'.ip = h.ip := congrArg (·.1) hset

theorem options_of_settings : h'.options = h.options := congrArg (·.2.1) hset

theorem start_of_settings : h'.start = h.start := congrArg (·.2.2.1) hset

theorem leaseRange_of_settings : h'.leaseRange = h.leaseRange := congrArg (·.2.2.2.1) hset

theorem leaseDuration_of_settings : h'.leaseDuration = h.leaseDuration :=
  congrArg (·.2.2.2.2.1) hset

theorem layer2_of_settings : h'.layer2 = h.layer2 := congrArg (·.2.2.2.2.2.1) hset

theorem ipAssigned_of_settings : h'.ipAssigned = h.ipAssigned := congrArg (·.2.2.2.2.2.2) hset

end Settings

theorem evict_eq (h : DHCPHandler) (now : Int) (mac : String) :
    h.evict now mac = { h with
      hwcache := (h.hwcache.delete mac).1
      tasks := h.tasks ++ (h.hwcache.peek mac).toList.map fun e =>
        (⟨now + 30 * second, e.object, .evicted⟩ : Task) } := by
  unfold evict
  rw [Cache.delete_snd]
  cases h.hwcache.peek mac with
  | none => simp
  | some e => simp [onEvicted]

@[simp] theorem evict_available (h : DHCPHandler) (now : Int) (mac : String) :
    (h.evict now mac).available = h.available := by
  rw [evict_eq]

@[simp] theorem evict_hwcache (h : DHCPHandler) (now : Int) (mac : String) :
    (h.evict now mac).hwcache = (h.hwcache.delete mac).1 := by
  rw [evict_eq]

@[simp] theorem evict_tasks (h : DHCPHandler) (now : Int) (mac : String) :
    (h.evict now mac).tasks = h.tasks ++ (h.hwcache.peek mac).toList.map fun e =>
      (⟨now + 30 * second, e.object, .evicted⟩ : Task) := by
  rw [evict_eq]

@[simp] theorem evict_settings (h : DHCPHandler) (now : Int) (mac : String) :
    (h.evict now mac).settings = h.settings := by
  rw [evict_eq]
  rfl

@[simp] theorem peek_evict (h : DHCPHandler) (now : Int) (mac : String) :
    (h.evict now mac).hwcache.peek mac = none := by
  rw [evict_hwcache]
  exact Cache.peek_delete _ _

theorem peek_evict_ne (h : DHCPHandler) (now : Int) {mac m : String} (hm : m ≠ mac) :
    (h.evict now mac).hwcache.peek m = h.hwcache.peek m := by
  rw [evict_hwcache]
  exact Cache.peek_delete_ne _ hm

@[simp] theorem peek_lock (h : DHCPHandler) (now : Int) (mac : String) (index d : Int) :
    (h.lock now mac index d).hwcache.peek mac = some ⟨index, h.hwcache.deadline now d⟩ :=
  Cache.peek_set _ _ _ _ _

theorem peek_lock_ne (h : DHCPHandler) (now : Int) {mac m : String} (index d : Int)
    (hm : m ≠ mac) : (h.lock now mac index d).hwcache.peek m = h.hwcache.peek m :=
  Cache.peek_set_ne _ _ _ _ hm

@[simp] theorem quarantine_settings (h : DHCPHandler) (now index : Int) :
    (h.quarantine now index).settings = h.settings := rfl

@[simp] theorem quarantine_tasks (h : DHCPHandler) (now index : Int) :
    (h.quarantine now index).tasks =
      h.tasks ++ [(⟨now + 10 * minute, index, .quarantine⟩ : Task)] := rfl

theorem purge_aux (now : Int) (l : List (String × Int)) (h : DHCPHandler) :
    l.foldl (fun h e => h.onEvicted now e.2) h =
      { h with tasks := h.tasks ++ l.map fun e =>
        (⟨now + 30 * second, e.2, .evicted⟩ : Task) } := by
  induction l generalizing h with
  | nil => simp
  | cons e l ih =>
    rw [List.foldl_cons, ih]
    simp [onEvicted]

theorem purge_eq (h : DHCPHandler) (now : Int) :
    h.purge now = { h with
      hwcache := (h.hwcache.deleteExpired now).1
      tasks := h.tasks ++ (h.hwcache.deleteExpired now).2.map fun e =>
        (⟨now + 30 * second, e.2, .evicted⟩ : Task) } := by
  rw [purge, purge_aux]

theorem reserve_cases (h : DHCPHandler) (index : Int) (mac : String) :
    (safeIntToUint64 index ∈ h.available.free ∧
      h.reserve index mac =
        { h with available := h.available.grant (safeIntToUint64 index) mac }) ∨
    ((safeIntToUint64 index ∉ h.available.free ∨
        h.available.capacity ≤ safeIntToUint64 index) ∧ h.reserve index mac = h) := by
  unfold reserve
  obtain ⟨hfree, -, heq⟩ | ⟨hno, heq, -⟩ :=
    h.available.reserveIPIndex_cases (safeIntToUint64 index) mac
  · rw [heq]
    exact .inl ⟨hfree, rfl⟩
  · rw [heq]
    exact .inr ⟨hno, rfl⟩

theorem lookup_reserve {h : DHCPHandler} {index : Int} {mac o : String} {i : ℕ}
    (hi : (h.reserve index mac).available.mac.lookup i = some o) :
    (i = safeIntToUint64 index ∧ o = mac) ∨ h.available.mac.lookup i = some o := by
  obtain ⟨-, heq⟩ | ⟨-, heq⟩ := h.reserve_cases index mac
  · rw [heq] at hi
    exact DHCPPool.lookup_grant hi
  · rw [heq] at hi
    exact .inr hi

/-- A handler whose pool is in order and covers exactly the address range. -/
structure Sound (h : DHCPHandler) : Prop where
  pool : h.available.WellFormed
  range : h.leaseRange = h.available.capacity
  fits : h.start.toNat + h.available.capacity ≤ 2 ^ 32

theorem Sound.capacity_eq {h h' : DHCPHandler} (hs : h.Sound) (hs' : h'.Sound)
    (hrange : h'.leaseRange = h.leaseRange) : h'.available.capacity = h.available.capacity := by
  have h₁ := hs.range
  have h₂ := hs'.range
  omega

theorem Sound.ownerOf_of_lookup {h : DHCPHandler} (hs : h.Sound) {index : Int} {m : String}
    (hi : h.available.mac.lookup (safeIntToUint64 index) = some m) : h.ownerOf index = m := by
  unfold ownerOf
  rw [DHCPPool.getMACIndex_of_lookup hs.pool hi]

theorem Sound.ownerOf_free {h : DHCPHandler} (hs : h.Sound) {index : Int}
    (hfree : safeIntToUint64 index ∈ h.available.free) : h.ownerOf index = FreeMac := by
  have hlt := hs.pool.free_lt hfree
  simp [ownerOf, DHCPPool.getMACIndex, DHCPPool.indexInPool, hlt, hfree]

theorem Sound.lookup_of_ownerOf {h : DHCPHandler} (hs : h.Sound) {index : Int} {m : String}
    (hm : m ≠ FreeMac) (hi : h.ownerOf index = m) :
    h.available.mac.lookup (safeIntToUint64 index) = some m :=
  DHCPPool.lookup_of_getMACIndex hs.pool hm hi

/-- Every cached index and every index of a sleeping task satisfies `P`. -/
structure Indexes (P : Int → Prop) (h : DHCPHandler) : Prop where
  cached : ∀ m e, h.hwcache.peek m = some e → P e.object
  pending : ∀ task ∈ h.tasks, P task.index

section Indexes
variable {P : Int → Prop} {h : DHCPHandler} (hall : h.Indexes P)
include hall

theorem Indexes.of_get {now : Int} {m : String} {x : Int} (hget : h.hwcache.get now m = some x) :
    P x := by
  obtain ⟨e, he, -, rfl⟩ := Cache.get_eq_some.mp hget
  exact hall.cached m e he

theorem Indexes.lock (now : Int) (mac : String) {index : Int} (hi : P index) (d : Int) :
    (h.lock now mac index d).Indexes P := by
  refine ⟨fun m e he => ?_, hall.pending⟩
  by_cases hm : m = mac
  · subst hm
    rw [peek_lock] at he
    cases he
    exact hi
  · rw [peek_lock_ne h now index d hm] at he
    exact hall.cached m e he

theorem Indexes.evict (now : Int) (mac : String) : (h.evict now mac).Indexes P := by
  refine ⟨fun m e he => ?_, fun task htask => ?_⟩
  · by_cases hm : m = mac
    · subst hm
      rw [peek_evict] at he
      cases he
    · rw [peek_evict_ne h now hm] at he
      exact hall.cached m e he
  · rw [evict_tasks, List.mem_append, List.mem_map] at htask
    obtain hold | ⟨e, he, rfl⟩ := htask
    · exact hall.pending task hold
    · exact hall.cached mac e (Option.mem_toList.mp he)

theorem Indexes.quarantine (now : Int) {index : Int} (hi : P index) :
    (h.quarantine now index).Indexes P := by
  refine ⟨hall.cached, fun task htask => ?_⟩
  rw [quarantine_tasks, List.mem_append, List.mem_singleton] at htask
  obtain hold | rfl := htask
  · exact hall.pending task hold
  · exact hi

theorem Indexes.purge (now : Int) : (h.purge now).Indexes P := by
  rw [purge_eq]
  refine ⟨fun m e he => ?_, fun task htask => ?_⟩
  · exact hall.cached m e (Cache.peek_deleteExpired.mp he).1
  · rw [List.mem_append, List.mem_map] at htask
    obtain hold | ⟨⟨m, x⟩, hx, rfl⟩ := htask
    · exact hall.pending task hold
    · obtain ⟨e, he, -, rfl⟩ := Cache.mem_deleteExpired.mp hx
      exact hall.cached m e he

theorem Indexes.fire (now : Int) (k : ℕ) (task : Task) : (h.fire now k task).Indexes P :=
  ⟨hall.cached, fun task' htask' => hall.pending task' (List.mem_of_mem_eraseIdx htask')⟩

end Indexes

theorem fire_cases (h : DHCPHandler) (now : Int) (k : ℕ) (task : Task) :
    (safeIntToUint64 task.index < h.available.capacity ∧
      safeIntToUint64 task.index ∉ h.available.free ∧
      (h.fire now k task).available =
        h.available.giveBack now (safeIntToUint64 task.index)) ∨
    (h.fire now k task).available = h.available :=
  (h.available.freeIPIndex_cases now (safeIntToUint64 task.index)).imp id And.right

theorem Sound.fire {h : DHCPHandler} (hs : h.Sound) (now : Int) (k : ℕ) (task : Task) :
    (h.fire now k task).Sound := by
  obtain ⟨hlt, -, heq⟩ | heq := h.fire_cases now k task
  · exact ⟨by rw [heq]; exact hs.pool.giveBack hlt now, by rw [heq]; exact hs.range,
      by rw [heq]; exact hs.fits⟩
  · exact ⟨by rw [heq]; exact hs.pool, by rw [heq]; exact hs.range, by rw [heq]; exact hs.fits⟩

theorem Sound.purge {h : DHCPHandler} (hs : h.Sound) (now : Int) : (h.purge now).Sound := by
  rw [purge_eq]
  exact ⟨hs.pool, hs.range, hs.fits⟩

theorem fire_lookup_ne {h : DHCPHandler} {now : Int} {k : ℕ} {task : Task} {i : ℕ}
    (hi : i ≠ safeIntToUint64 task.index) :
    (h.fire now k task).available.mac.lookup i = h.available.mac.lookup i := by
  obtain ⟨-, -, heq⟩ | heq := h.fire_cases now k task
  · rw [heq]
    exact ((DHCPPool.sameExcept_giveBack h.available now _).2.2 i hi).2.1
  · rw [heq]

theorem Sound.lookup_fire {h : DHCPHandler} (hs : h.Sound) (now : Int) (k : ℕ) (task : Task) :
    (h.fire now k task).available.mac.lookup (safeIntToUint64 task.index) = none :=
  DHCPPool.lookup_freeIPIndex hs.pool now _

theorem mem_tasks_fire {h : DHCPHandler} {now : Int} {k : ℕ} {task task' : Task}
    (htask : h.tasks[k]? = some task) (hne : task' ≠ task) (hmem : task' ∈ h.tasks) :
    task' ∈ (h.fire now k task).tasks := by
  obtain ⟨j, hj⟩ := List.getElem?_of_mem hmem
  refine List.mem_eraseIdx_iff_getElem?.mpr ⟨j, ?_, hj⟩
  rintro rfl
  exact hne (Option.some.inj (hj.symm.trans htask))

end DHCPHandler
end StandaloneDHCP
