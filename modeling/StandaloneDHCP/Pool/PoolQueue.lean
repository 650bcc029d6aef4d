import StandaloneDHCP.Lib.Runs
import StandaloneDHCP.Pool.PoolInvariant

/-! Algorithm 2 as a queue. The pool keeps no order: `GetFreeIPIndex` filters the times of all
indexes by the free ones and sorts what is left. Here the abstract model is a queue under the
same calls, and it answers every call as the pool does as long as the clock advances between
two readings. The invariant puts the times of the waiting indexes and the readings still to
come in one increasing list; the time of a reserved index is not in it, stale or not. -/
namespace StandaloneDHCP
open Lib
set_option autoImplicit false

namespace DHCPPool

/-! ## The queue -/

/-- Indexes below the capacity, each at most once, the next one to grant first. -/
structure FifoQueue (capacity : ℕ) where
  waiting : List ℕ
  nodup : waiting.Nodup
  lt : ∀ i ∈ waiting, i < capacity

namespace FifoQueue
variable {capacity : ℕ}

def full (capacity : ℕ) : FifoQueue capacity where
  waiting := List.range capacity
  nodup := List.nodup_range
  lt _ hi := List.mem_range.mp hi

def push (q : FifoQueue capacity) (i : ℕ) (hlt : i < capacity) (hi : i ∉ q.waiting) :
    FifoQueue capacity where
  waiting := q.waiting ++ [i]
  nodup := List.nodup_append.mpr ⟨q.nodup, List.nodup_singleton i, by
    intro a ha b hb heq
    exact hi (List.mem_singleton.mp hb ▸ heq ▸ ha)⟩
  lt j hj := by
    rcases List.mem_append.mp hj with hj | hj
    · exact q.lt j hj
    · exact List.mem_singleton.mp hj ▸ hlt

def remove (q : FifoQueue capacity) (i : ℕ) : FifoQueue capacity where
  waiting := q.waiting.erase i
  nodup := q.nodup.erase i
  lt j hj := q.lt j (List.mem_of_mem_erase hj)

/-- The calls of the pool, on the queue. -/
def perform (q : FifoQueue capacity) : Call → FifoQueue capacity × Except PoolError Event
  | .reserve index mac =>
    if capacity ≤ index then (q, .error .reserveOutside)
    else if index ∈ q.waiting then (q.remove index, .ok (.granted index mac))
    else (q, .error .alreadyReserved)
  | .free index _ =>
    if hlt : index < capacity then
      if hi : index ∈ q.waiting then (q, .error .alreadyFree)
      else (q.push index hlt hi, .ok (.freed index))
    else (q, .error .freeOutside)
  | .getFree mac _ =>
    match q.waiting with
    | [] => (q, .error .poolFull)
    | head :: _ => (q.remove head, .ok (.granted head mac))

end FifoQueue

/-! ## Times -/

/-- When an index was last given back. -/
def stamp (dp : DHCPPool) (i : ℕ) : Int := (dp.released.lookup i).getD 0

/-- The clock readings of the listed calls: `FreeIPIndex` reads it where it succeeds. -/
def readings : DHCPPool → List Call → List Int
  | _, [] => []
  | dp, call :: calls =>
    match call, (dp.perform call).2 with
    | .free _ now, .ok _ => now :: readings (dp.perform call).1 calls
    | _, _ => readings (dp.perform call).1 calls

theorem lookup_released {dp : DHCPPool} (hwf : dp.WellFormed) {i : ℕ} (hlt : i < dp.capacity) :
    dp.released.lookup i = some (dp.stamp i) := by
  have hkey : i ∈ dp.released.keys := by
    rw [hwf.released]
    exact Finset.mem_range.mpr hlt
  obtain ⟨v, hv⟩ := Finmap.mem_iff.mp (Finmap.mem_keys.mp hkey)
  rw [stamp, hv]
  rfl

theorem stamp_giveBack (dp : DHCPPool) (now : Int) (i j : ℕ) :
    (dp.giveBack now i).stamp j = if j = i then now else dp.stamp j := by
  simp only [stamp, giveBack, lookup_insert_eq]
  split <;> rfl

theorem stamp_newDHCPPool {capacity : ℕ} {algorithm : Int} {clock : ℕ → Int} {i : ℕ}
    (hlt : i < capacity) : (newDHCPPool capacity algorithm clock).stamp i = clock i := by
  suffices h : ∀ n, i < n → ((List.range n).foldl
      (fun d i => { d with free := insert i d.free, released := d.released.insert i (clock i) })
      ({ free := ∅, mac := ∅, capacity := capacity, released := ∅, algorithm := algorithm } :
        DHCPPool)).stamp i = clock i from h capacity hlt
  intro n hn
  induction n with
  | zero => omega
  | succ n ih =>
    rw [List.range_succ, List.foldl_append, List.foldl_cons, List.foldl_nil, stamp,
      lookup_insert_eq]
    by_cases heq : i = n
    · rw [if_pos heq, heq]
      rfl
    · rw [if_neg heq]
      exact ih (by omega)

/-- The free index that was given back before every other one is what the sort puts first,
whatever the order of the range loop. -/
theorem oldestFree_eq {dp : DHCPPool} (hwf : dp.WellFormed) (order : RangeOrder ℕ) {i : ℕ}
    (hi : i ∈ dp.free) (hfirst : ∀ j ∈ dp.free, j ≠ i → dp.stamp i < dp.stamp j) :
    dp.oldestFree order = i := by
  unfold oldestFree
  dsimp only
  generalize hss : (order.keys dp.released.keys).filterMap (fun k =>
    if k ∈ dp.free then (dp.released.lookup k).map fun v => (k, v) else none) = ss
  have hmem : ∀ kv, kv ∈ ss ↔ kv.1 ∈ dp.free ∧ kv.2 = dp.stamp kv.1 := by
    rintro ⟨k, v⟩
    rw [← hss, List.mem_filterMap]
    constructor
    · rintro ⟨k', -, hk⟩
      split at hk
      · next hfree =>
        rw [lookup_released hwf (hwf.free_lt hfree)] at hk
        cases hk
        exact ⟨hfree, rfl⟩
      · cases hk
    · rintro ⟨hfree, hv⟩
      have hlookup := lookup_released hwf (hwf.free_lt hfree)
      refine ⟨k, ?_, ?_⟩
      · rw [RangeOrder.mem_keys, Finmap.mem_keys]
        exact Finmap.mem_of_lookup_eq_some hlookup
      · rw [if_pos hfree, hlookup, Option.map_some]
        exact congrArg (fun v => some (k, v)) hv.symm
  have hin : (i, dp.stamp i) ∈ ss.insertionSort (fun a b => a.2 ≤ b.2) :=
    (List.mem_insertionSort _).mpr ((hmem _).mpr ⟨hi, rfl⟩)
  have hsorted := List.pairwise_insertionSort (fun a b : ℕ × Int => a.2 ≤ b.2) ss
  cases hsort : ss.insertionSort (fun a b => a.2 ≤ b.2) with
  | nil =>
    rw [hsort] at hin
    cases hin
  | cons kv rest =>
    rw [hsort] at hin hsorted
    have hkv : kv ∈ ss := by
      have hhead : kv ∈ ss.insertionSort (fun a b => a.2 ≤ b.2) := by
        rw [hsort]
        exact List.mem_cons_self
      exact (List.mem_insertionSort _).mp hhead
    obtain ⟨hfree, hstamp⟩ := (hmem kv).mp hkv
    by_contra hne
    have hlater := hfirst kv.1 hfree hne
    rcases List.mem_cons.mp hin with heq | hrest
    · exact hne (congrArg Prod.fst heq).symm
    · have hle := (List.pairwise_cons.mp hsorted).1 _ hrest
      simp only at hle
      omega

/-! ## The simulation -/

/-- What ties the pool to its queue while the listed calls are still to come. -/
structure Queues {capacity : ℕ} (dp : DHCPPool) (q : FifoQueue capacity)
    (calls : List Call) : Prop where
  wellFormed : dp.WellFormed
  capacity : dp.capacity = capacity
  algorithm : dp.algorithm = 2
  free : ∀ i, i ∈ dp.free ↔ i ∈ q.waiting
  increasing : (q.waiting.map dp.stamp ++ readings dp calls).Pairwise (· < ·)

namespace Queues
variable {capacity : ℕ} {dp : DHCPPool} {q : FifoQueue capacity} {calls : List Call}

theorem new {clock : ℕ → Int}
    (hclock : ((List.range capacity).map clock ++
      readings (newDHCPPool capacity 2 clock) calls).Pairwise (· < ·)) :
    Queues (newDHCPPool capacity 2 clock) (FifoQueue.full capacity) calls where
  wellFormed := wellFormed_new capacity 2 clock
  capacity := newDHCPPool_capacity capacity 2 clock
  algorithm := (newDHCPPool_aux capacity 2 clock capacity).2.2.2.2
  free i := by
    rw [newDHCPPool_free, Finset.mem_range]
    exact List.mem_range.symm
  increasing := by
    have hstamps : (List.range capacity).map (newDHCPPool capacity 2 clock).stamp =
        (List.range capacity).map clock :=
      List.map_congr_left fun i hi => stamp_newDHCPPool (List.mem_range.mp hi)
    rw [FifoQueue.full, hstamps]
    exact hclock

/-- The index at the head of the queue has the least time of all free ones. -/
theorem oldestFree_head (h : Queues dp q calls) (order : RangeOrder ℕ) {head : ℕ} {rest : List ℕ}
    (hq : q.waiting = head :: rest) : dp.oldestFree order = head := by
  have hincreasing := (List.pairwise_append.mp h.increasing).1
  rw [hq, List.map_cons, List.pairwise_cons] at hincreasing
  refine oldestFree_eq h.wellFormed order ?_ ?_
  · rw [h.free, hq]
    exact List.mem_cons_self
  · intro j hj hne
    rw [h.free, hq] at hj
    have hrest : j ∈ rest := List.mem_of_ne_of_mem hne hj
    exact hincreasing.1 _ (List.mem_map_of_mem hrest)

theorem card_eq_zero (h : Queues dp q calls) : dp.free.card = 0 ↔ q.waiting = [] := by
  rw [Finset.card_eq_zero, Finset.eq_empty_iff_forall_notMem, List.eq_nil_iff_forall_not_mem]
  exact forall_congr' fun i => not_congr (h.free i)

/-- A failed call leaves the pool and the queue alone. -/
protected theorem error {call : Call} {err : PoolError} (h : Queues dp q (call :: calls))
    (hpool : dp.perform call = (dp, .error err)) : Queues dp q calls := by
  have hreads : readings dp (call :: calls) = readings dp calls := by
    simp only [readings, hpool]
  have hincreasing := h.increasing
  rw [hreads] at hincreasing
  exact ⟨h.wellFormed, h.capacity, h.algorithm, h.free, hincreasing⟩

/-- Granting a free index removes it from the queue, and no time is written. -/
protected theorem grant {i : ℕ} {mac : String} {call : Call} (h : Queues dp q (call :: calls))
    (hi : i ∈ dp.free) (hpool : dp.perform call = (dp.grant i mac, .ok (.granted i mac)))
    (hcall : ∀ index now, call ≠ .free index now) :
    Queues (dp.grant i mac) (q.remove i) calls := by
  have hreads : readings dp (call :: calls) = readings (dp.grant i mac) calls := by
    cases call with
    | free index now => exact absurd rfl (hcall index now)
    | reserve | getFree => simp only [readings, hpool]
  have hsub : List.Sublist ((q.waiting.erase i).map dp.stamp) (q.waiting.map dp.stamp) :=
    List.erase_sublist.map dp.stamp
  refine ⟨h.wellFormed.grant hi mac, h.capacity, h.algorithm, ?_, ?_⟩
  · intro j
    rw [FifoQueue.remove, q.nodup.mem_erase_iff, ← h.free j, DHCPPool.grant, Finset.mem_erase]
  · have hincreasing := h.increasing
    rw [hreads] at hincreasing
    exact hincreasing.sublist (hsub.append_right _)

/-- The reading of a successful `FreeIPIndex` becomes the time of the new last index. -/
protected theorem giveBack {i : ℕ} {now : Int} (h : Queues dp q (.free i now :: calls))
    (hlt : i < capacity) (hi : i ∉ q.waiting)
    (hpool : dp.perform (.free i now) = (dp.giveBack now i, .ok (.freed i))) :
    Queues (dp.giveBack now i) (q.push i hlt hi) calls := by
  have hreads : readings dp (.free i now :: calls) = now :: readings (dp.giveBack now i) calls := by
    simp only [readings, hpool]
  have hstamps : q.waiting.map (dp.giveBack now i).stamp = q.waiting.map dp.stamp := by
    refine List.map_congr_left fun j hj => ?_
    have hne : j ≠ i := fun heq => hi (heq ▸ hj)
    rw [stamp_giveBack, if_neg hne]
  refine ⟨h.wellFormed.giveBack (h.capacity.symm ▸ hlt) now, h.capacity, h.algorithm, ?_, ?_⟩
  · intro j
    rw [DHCPPool.giveBack, Finset.mem_insert, h.free j, FifoQueue.push, List.mem_append,
      List.mem_singleton, or_comm]
  · have hincreasing := h.increasing
    rw [hreads] at hincreasing
    rw [FifoQueue.push, List.map_append, hstamps, List.map_singleton, stamp_giveBack, if_pos rfl,
      List.append_assoc, List.singleton_append]
    exact hincreasing

theorem step {call : Call} (h : Queues dp q (call :: calls)) :
    (dp.perform call).2 = (q.perform call).2 ∧
      Queues (dp.perform call).1 (q.perform call).1 calls := by
  cases call with
  | reserve index mac =>
    by_cases hcap : capacity ≤ index
    · have hpool : dp.perform (.reserve index mac) = (dp, .error .reserveOutside) := by
        simp [perform, reserveIPIndex, h.capacity, hcap]
      rw [hpool, FifoQueue.perform, if_pos hcap]
      exact ⟨rfl, h.error hpool⟩
    · by_cases hfree : index ∈ dp.free
      · have hpool : dp.perform (.reserve index mac) =
            (dp.grant index mac, .ok (.granted index mac)) := by
          rw [perform, reserveIPIndex_of_free h.wellFormed hfree]
        rw [hpool, FifoQueue.perform, if_neg hcap, if_pos ((h.free index).mp hfree)]
        refine ⟨rfl, h.grant hfree hpool ?_⟩
        intro _ _ heq
        cases heq
      · have hpool : dp.perform (.reserve index mac) = (dp, .error .alreadyReserved) := by
          simp [perform, reserveIPIndex, h.capacity, hcap, hfree]
        rw [hpool, FifoQueue.perform, if_neg hcap, if_neg (mt (h.free index).mpr hfree)]
        exact ⟨rfl, h.error hpool⟩
  | free index now =>
    by_cases hlt : index < capacity
    · by_cases hfree : index ∈ dp.free
      · have hpool : dp.perform (.free index now) = (dp, .error .alreadyFree) := by
          simp [perform, freeIPIndex, indexInPool, h.capacity, hlt, hfree]
        rw [hpool, FifoQueue.perform, dif_pos hlt, dif_pos ((h.free index).mp hfree)]
        exact ⟨rfl, h.error hpool⟩
      · have hpool : dp.perform (.free index now) =
            (dp.giveBack now index, .ok (.freed index)) := by
          simp [perform, freeIPIndex, indexInPool, h.capacity, hlt, hfree]
        have hi := mt (h.free index).mpr hfree
        rw [hpool, FifoQueue.perform, dif_pos hlt, dif_neg hi]
        exact ⟨rfl, h.giveBack hlt hi hpool⟩
    · have hpool : dp.perform (.free index now) = (dp, .error .freeOutside) := by
        simp [perform, freeIPIndex, indexInPool, h.capacity, hlt]
      rw [hpool, FifoQueue.perform, dif_neg hlt]
      exact ⟨rfl, h.error hpool⟩
  | getFree mac choice =>
    cases hq : q.waiting with
    | nil =>
      have hpool : dp.perform (.getFree mac choice) = (dp, .error .poolFull) := by
        rw [perform, getFreeIPIndex_full choice mac (h.card_eq_zero.mpr hq)]
      have hqueue : q.perform (.getFree mac choice) = (q, .error .poolFull) := by
        simp only [FifoQueue.perform, hq]
      rw [hpool, hqueue]
      exact ⟨rfl, h.error hpool⟩
    | cons head rest =>
      have hne : dp.free.card ≠ 0 := by
        rw [Ne, h.card_eq_zero, hq]
        exact List.cons_ne_nil _ _
      have hhead : head ∈ dp.free := by
        rw [h.free, hq]
        exact List.mem_cons_self
      have hpool : dp.perform (.getFree mac choice) =
          (dp.grant head mac, .ok (.granted head mac)) := by
        rw [perform, getFreeIPIndex, if_neg hne, if_pos h.algorithm,
          h.oldestFree_head choice.order hq]
      have hqueue : q.perform (.getFree mac choice) = (q.remove head, .ok (.granted head mac)) := by
        simp only [FifoQueue.perform, hq]
      rw [hpool, hqueue]
      refine ⟨rfl, h.grant hhead hpool ?_⟩
      intro _ _ heq
      cases heq

end Queues

/-- Under strictly increasing clock readings algorithm 2 is the queue that starts as
`0, 1, ..., capacity - 1`: every call is answered alike, and the waiting indexes are the free
ones. -/
theorem algorithm_two_refines_queue (capacity : ℕ) (clock : ℕ → Int) (calls : List Call)
    (hclock : ((List.range capacity).map clock ++
      readings (newDHCPPool capacity 2 clock) calls).Pairwise (· < ·)) :
    (responses perform (newDHCPPool capacity 2 clock) calls).2 =
        (responses FifoQueue.perform (FifoQueue.full capacity) calls).2 ∧
      ∀ i, i ∈ (responses perform (newDHCPPool capacity 2 clock) calls).1.free ↔
        i ∈ (responses FifoQueue.perform (FifoQueue.full capacity) calls).1.waiting := by
  have hstep : ∀ dp (q : FifoQueue capacity) call calls, Queues dp q (call :: calls) →
      (dp.perform call).2 = (q.perform call).2 ∧
        Queues (dp.perform call).1 (q.perform call).1 calls :=
    fun _ _ _ _ h => h.step
  obtain ⟨hanswers, hfinal⟩ :=
    responses_simulation (fun dp q calls => Queues dp q calls) hstep calls _ _ (Queues.new hclock)
  exact ⟨hanswers, hfinal.free⟩

theorem algorithm_two_refines_queue_reordered :
    let calls : List Call := [.reserve 0 "02:00:00:00:00:01", .free 0 2,
      .getFree "02:00:00:00:00:02" ⟨RangeOrder.ascending, fun _ => 0, fun _ h => h⟩]
    (responses FifoQueue.perform (FifoQueue.full 2) calls).1.waiting = [0] ∧
      (responses perform (newDHCPPool 2 2 fun i => i) calls).2 =
        (responses FifoQueue.perform (FifoQueue.full 2) calls).2 := by
  intro calls
  exact ⟨by decide +kernel,
    (algorithm_two_refines_queue 2 (fun i => i) calls (by decide +kernel)).1⟩

end DHCPPool
end StandaloneDHCP
