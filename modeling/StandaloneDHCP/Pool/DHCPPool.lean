import Mathlib.Data.List.Sort
import StandaloneDHCP.Lib.MapRange

/-! The address pool (`pool/pool.go`). Three maps over the indexes below `capacity`:
`free` (the indexes that can be granted), `mac` (the owner of every other index) and
`released` (when each index was last given back). Every call runs under the pool's lock,
so a call is one step on the state. What a call does not choose itself (the clock, the
random draw, the order in which a map is ranged over) is an argument. -/
namespace StandaloneDHCP
open Lib
set_option autoImplicit false

def FreeMac : String := "00:00:00:00:00:00"
def FakeMac : String := "ff:ff:ff:ff:ff:ff"

inductive PoolError
  | reserveOutside
  | alreadyReserved
  | freeOutside
  | alreadyFree
  | notInPool
  | indexFree
  | poolFull
deriving DecidableEq, Repr

def PoolError.message : PoolError → String
  | reserveOutside => "Trying to reserve an IP that is outside the capacity of this pool"
  | alreadyReserved => "IP is already reserved"
  | freeOutside => "Trying to free an IP that is outside the capacity of this pool"
  | alreadyFree => "IP is already free"
  | notInPool => "The index is not part of the pool"
  | indexFree => "Index is free"
  | poolFull => "DHCP pool is full"

structure DHCPPool where
  free : Finset ℕ
  mac : Finmap (fun _ : ℕ => String)
  capacity : ℕ
  released : Finmap (fun _ : ℕ => Int)
  algorithm : Int

/-- What one `GetFreeIPIndex` call draws from outside: the order of its map range loop
and the value of `rand.Intn`. -/
structure Choice where
  order : RangeOrder ℕ
  intn : ℕ → ℕ
  intn_lt : ∀ n, 0 < n → intn n < n

namespace DHCPPool

/-- `clock i` is the reading of the clock in round `i` of the constructor's loop. -/
def newDHCPPool (capacity : ℕ) (algorithm : Int) (clock : ℕ → Int) : DHCPPool :=
  (List.range capacity).foldl
    (fun d i => { d with free := insert i d.free, released := d.released.insert i (clock i) })
    { free := ∅, mac := ∅, capacity := capacity, released := ∅, algorithm := algorithm }

def indexInPool (dp : DHCPPool) (index : ℕ) : Bool := decide (index < dp.capacity)

/-- `delete(dp.free, index); dp.mac[index] = mac`. -/
def grant (dp : DHCPPool) (index : ℕ) (mac : String) : DHCPPool :=
  { dp with free := dp.free.erase index, mac := dp.mac.insert index mac }

def reserveIPIndex (dp : DHCPPool) (index : ℕ) (mac : String) :
    DHCPPool × Option PoolError × String :=
  if dp.capacity ≤ index then (dp, some .reserveOutside, FreeMac)
  else if index ∈ dp.free then (dp.grant index mac, none, mac)
  else (dp, some .alreadyReserved, FreeMac)

/-- `dp.free[index] = true; dp.released[index] = now; delete(dp.mac, index)`. -/
def giveBack (dp : DHCPPool) (now : Int) (index : ℕ) : DHCPPool :=
  { dp with free := insert index dp.free, released := dp.released.insert index now,
            mac := dp.mac.erase index }

def freeIPIndex (dp : DHCPPool) (now : Int) (index : ℕ) : DHCPPool × Option PoolError :=
  if !dp.indexInPool index then (dp, some .freeOutside)
  else if index ∈ dp.free then (dp, some .alreadyFree)
  else (dp.giveBack now index, none)

def isFreeIPAtIndex (dp : DHCPPool) (index : ℕ) : Bool :=
  dp.indexInPool index && decide (index ∈ dp.free)

def getMACIndex (dp : DHCPPool) (index : ℕ) : ℕ × String × Option PoolError :=
  if !dp.indexInPool index then (index, FreeMac, some .notInPool)
  else if index ∈ dp.free then (index, FreeMac, some .indexFree)
  else (index, (dp.mac.lookup index).getD "", none)

/-- Algorithm 2: the free index that was given back first. The filtered entries of
`released` are sorted by time; equal times stay in range order. -/
def oldestFree (dp : DHCPPool) (order : RangeOrder ℕ) : ℕ :=
  let ss := (order.keys dp.released.keys).filterMap fun k =>
    if k ∈ dp.free then (dp.released.lookup k).map fun v => (k, v) else none
  match ss.insertionSort (fun a b => a.2 ≤ b.2) with
  | [] => 0
  | kv :: _ => kv.1

/-- Every other algorithm: the free index that the countdown stops at. -/
def randomFree (dp : DHCPPool) (choice : Choice) : ℕ :=
  countdown (choice.intn dp.free.card) (choice.order.keys dp.free) 0

def getFreeIPIndex (dp : DHCPPool) (choice : Choice) (mac : String) :
    DHCPPool × ℕ × String × Option PoolError :=
  if dp.free.card = 0 then (dp, 0, FreeMac, some .poolFull)
  else
    let available :=
      if dp.algorithm = 2 then dp.oldestFree choice.order else dp.randomFree choice
    (dp.grant available mac, available, mac, none)

def freeIPsRemaining (dp : DHCPPool) : ℕ := dp.free.card

/-! ## The constructor -/

theorem newDHCPPool_aux (capacity : ℕ) (algorithm : Int) (clock : ℕ → Int) (n : ℕ) :
    let d := (List.range n).foldl
      (fun d i => { d with free := insert i d.free, released := d.released.insert i (clock i) })
      ({ free := ∅, mac := ∅, capacity := capacity, released := ∅, algorithm := algorithm } :
        DHCPPool)
    d.free = Finset.range n ∧ d.mac = ∅ ∧ d.capacity = capacity ∧
      d.released.keys = Finset.range n ∧ d.algorithm = algorithm := by
  induction n with
  | zero => simp
  | succ n ih =>
    obtain ⟨hf, hm, hc, hr, ha⟩ := ih
    simp only [List.range_succ, List.foldl_append, List.foldl_cons, List.foldl_nil]
    refine ⟨?_, hm, hc, ?_, ha⟩
    · rw [hf, Finset.range_add_one]
    · rw [keys_insert, hr, Finset.range_add_one]

@[simp] theorem newDHCPPool_free (capacity : ℕ) (algorithm : Int) (clock : ℕ → Int) :
    (newDHCPPool capacity algorithm clock).free = Finset.range capacity :=
  (newDHCPPool_aux capacity algorithm clock capacity).1

@[simp] theorem newDHCPPool_mac (capacity : ℕ) (algorithm : Int) (clock : ℕ → Int) :
    (newDHCPPool capacity algorithm clock).mac = ∅ :=
  (newDHCPPool_aux capacity algorithm clock capacity).2.1

@[simp] theorem newDHCPPool_capacity (capacity : ℕ) (algorithm : Int) (clock : ℕ → Int) :
    (newDHCPPool capacity algorithm clock).capacity = capacity :=
  (newDHCPPool_aux capacity algorithm clock capacity).2.2.1

@[simp] theorem newDHCPPool_released_keys (capacity : ℕ) (algorithm : Int) (clock : ℕ → Int) :
    (newDHCPPool capacity algorithm clock).released.keys = Finset.range capacity :=
  (newDHCPPool_aux capacity algorithm clock capacity).2.2.2.1

end DHCPPool
end StandaloneDHCP
