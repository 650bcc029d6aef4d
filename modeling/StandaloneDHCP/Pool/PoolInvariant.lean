import StandaloneDHCP.Pool.DHCPPool

/-! The three maps of the pool stay in step. One call either fails and changes nothing,
grants one free index, or gives one reserved index back (`perform_cases`); everything
below follows from that inversion. The zero that `GetFreeIPIndex` starts its search from
is never returned by accident: while `free` is not empty, both searches end on a free
index, because `released` has an entry for every free one. The random search ends on each of
them for one value of its draw. -/
namespace StandaloneDHCP
open Lib
set_option autoImplicit false

namespace DHCPPool

structure WellFormed (dp : DHCPPool) : Prop where
  disjoint : Disjoint dp.free dp.mac.keys
  cover : dp.free ∪ dp.mac.keys = Finset.range dp.capacity
  released : dp.released.keys = Finset.range dp.capacity

theorem wellFormed_new (capacity : ℕ) (algorithm : Int) (clock : ℕ → Int) :
    (newDHCPPool capacity algorithm clock).WellFormed := by
  refine ⟨?_, ?_, ?_⟩
  · rw [newDHCPPool_mac, Finmap.keys_empty]
    exact Finset.disjoint_empty_right _
  · rw [newDHCPPool_mac, newDHCPPool_free, newDHCPPool_capacity, Finmap.keys_empty,
      Finset.union_empty]
  · rw [newDHCPPool_released_keys, newDHCPPool_capacity]

namespace WellFormed
variable {dp : DHCPPool}

theorem free_lt (hwf : dp.WellFormed) {i : ℕ} (hi : i ∈ dp.free) : i < dp.capacity := by
  have h : i ∈ dp.free ∪ dp.mac.keys := Finset.mem_union_left _ hi
  rw [hwf.cover] at h
  exact Finset.mem_range.mp h

theorem owned_lt (hwf : dp.WellFormed) {i : ℕ} {m : String} (hi : dp.mac.lookup i = some m) :
    i < dp.capacity := by
  have hk : i ∈ dp.mac.keys := Finmap.mem_keys.mpr (Finmap.mem_of_lookup_eq_some hi)
  have h : i ∈ dp.free ∪ dp.mac.keys := Finset.mem_union_right _ hk
  rw [hwf.cover] at h
  exact Finset.mem_range.mp h

theorem notMem_free (hwf : dp.WellFormed) {i : ℕ} {m : String}
    (hi : dp.mac.lookup i = some m) : i ∉ dp.free := by
  intro hf
  have hk : i ∈ dp.mac.keys := Finmap.mem_keys.mpr (Finmap.mem_of_lookup_eq_some hi)
  exact Finset.disjoint_left.mp hwf.disjoint hf hk

theorem exists_owner (hwf : dp.WellFormed) {i : ℕ} (hlt : i < dp.capacity) (hi : i ∉ dp.free) :
    ∃ m, dp.mac.lookup i = some m := by
  have h : i ∈ dp.free ∪ dp.mac.keys := by
    rw [hwf.cover]
    exact Finset.mem_range.mpr hlt
  rcases Finset.mem_union.mp h with hf | hk
  · exact absurd hf hi
  · exact Finmap.mem_iff.mp (Finmap.mem_keys.mp hk)

theorem card_add_card (hwf : dp.WellFormed) :
    dp.freeIPsRemaining + dp.mac.keys.card = dp.capacity := by
  have h := Finset.card_union_of_disjoint hwf.disjoint
  rw [hwf.cover, Finset.card_range] at h
  exact h.symm

protected theorem grant (hwf : dp.WellFormed) {i : ℕ} (hi : i ∈ dp.free) (m : String) :
    (dp.grant i m).WellFormed := by
  have hlt := hwf.free_lt hi
  refine ⟨?_, ?_, hwf.released⟩
  · simp only [DHCPPool.grant, keys_insert]
    rw [Finset.disjoint_left]
    intro j hj hk
    have hne : j ≠ i := Finset.ne_of_mem_erase hj
    have hkm : j ∈ dp.mac.keys := Finset.mem_of_mem_insert_of_ne hk hne
    exact Finset.disjoint_left.mp hwf.disjoint (Finset.mem_of_mem_erase hj) hkm
  · simp only [DHCPPool.grant, keys_insert]
    rw [Finset.union_insert, ← Finset.insert_union, Finset.insert_erase hi]
    exact hwf.cover

protected theorem giveBack (hwf : dp.WellFormed) {i : ℕ} (hlt : i < dp.capacity) (now : Int) :
    (dp.giveBack now i).WellFormed := by
  have hr : i ∈ Finset.range dp.capacity := Finset.mem_range.mpr hlt
  refine ⟨?_, ?_, ?_⟩
  · simp only [DHCPPool.giveBack, Finmap.keys_erase]
    rw [Finset.disjoint_left]
    intro j hj hk
    have hne : j ≠ i := Finset.ne_of_mem_erase hk
    have hf : j ∈ dp.free := Finset.mem_of_mem_insert_of_ne hj hne
    exact Finset.disjoint_left.mp hwf.disjoint hf (Finset.mem_of_mem_erase hk)
  · simp only [DHCPPool.giveBack, Finmap.keys_erase]
    ext j
    have hj := Finset.ext_iff.mp hwf.cover j
    simp only [Finset.mem_union, Finset.mem_insert, Finset.mem_erase, Finset.mem_range] at hj ⊢
    by_cases hji : j = i
    · simp [hji, hlt]
    · simp [hji, hj]
  · simp only [DHCPPool.giveBack, keys_insert]
    rw [hwf.released, Finset.insert_eq_of_mem hr]

end WellFormed

/-! ## Both searches of `GetFreeIPIndex` end on a free index -/

theorem randomFree_mem (dp : DHCPPool) (choice : Choice) (h : dp.free.card ≠ 0) :
    dp.randomFree choice ∈ dp.free := by
  have hlen : choice.intn dp.free.card < (choice.order.keys dp.free).length := by
    rw [RangeOrder.length_keys]
    exact choice.intn_lt _ (Nat.pos_of_ne_zero h)
  have hmem := countdown_mem _ _ 0 hlen
  exact (RangeOrder.mem_keys choice.order).mp hmem

theorem oldestFree_mem {dp : DHCPPool} (hwf : dp.WellFormed) (order : RangeOrder ℕ)
    (h : dp.free.card ≠ 0) : dp.oldestFree order ∈ dp.free := by
  unfold oldestFree
  dsimp only
  generalize hss : (order.keys dp.released.keys).filterMap (fun k =>
    if k ∈ dp.free then (dp.released.lookup k).map fun v => (k, v) else none) = ss
  have hmem : ∀ kv ∈ ss, kv.1 ∈ dp.free := by
    intro kv hkv
    rw [← hss] at hkv
    obtain ⟨k, _, hk⟩ := List.mem_filterMap.mp hkv
    split at hk
    · next hfree =>
      obtain ⟨v, _, rfl⟩ := Option.map_eq_some_iff.mp hk
      exact hfree
    · cases hk
  -- a free index has an entry in `released`, so the filtered list is not empty
  have hne : ss ≠ [] := by
    obtain ⟨i, hi⟩ := Finset.card_pos.mp (Nat.pos_of_ne_zero h)
    have hkey : i ∈ dp.released.keys := by
      rw [hwf.released]
      exact Finset.mem_range.mpr (hwf.free_lt hi)
    obtain ⟨v, hv⟩ := Finmap.mem_iff.mp (Finmap.mem_keys.mp hkey)
    have hin : (i, v) ∈ ss := by
      rw [← hss]
      refine List.mem_filterMap.mpr ⟨i, (RangeOrder.mem_keys order).mpr hkey, ?_⟩
      rw [if_pos hi, hv]
      rfl
    exact List.ne_nil_of_mem hin
  cases hsort : ss.insertionSort (fun a b => a.2 ≤ b.2) with
  | nil =>
    have hperm := List.perm_insertionSort (fun a b : ℕ × Int => a.2 ≤ b.2) ss
    rw [hsort] at hperm
    exact absurd hperm.symm.eq_nil hne
  | cons kv rest =>
    have hkv : kv ∈ ss.insertionSort (fun a b => a.2 ≤ b.2) := by
      rw [hsort]
      exact List.mem_cons_self
    exact hmem kv ((List.mem_insertionSort _).mp hkv)

theorem getFreeIPIndex_full {dp : DHCPPool} (choice : Choice) (mac : String)
    (h : dp.free.card = 0) :
    dp.getFreeIPIndex choice mac = (dp, 0, FreeMac, some .poolFull) := by
  simp [getFreeIPIndex, h]

theorem getFreeIPIndex_ok {dp : DHCPPool} (hwf : dp.WellFormed) (choice : Choice) (mac : String)
    (h : dp.free.card ≠ 0) :
    ∃ i ∈ dp.free, dp.getFreeIPIndex choice mac = (dp.grant i mac, i, mac, none) := by
  refine ⟨if dp.algorithm = 2 then dp.oldestFree choice.order else dp.randomFree choice, ?_, ?_⟩
  · split
    · exact oldestFree_mem hwf choice.order h
    · exact randomFree_mem dp choice h
  · rw [getFreeIPIndex, if_neg h]

/-! ## The random search reaches every free index from one draw -/

/-- A call that ranges in the given order and draws `draw`, where that is below the bound. -/
def drawing (order : RangeOrder ℕ) (draw : ℕ) : Choice where
  order := order
  intn n := draw % n
  intn_lt _ hn := Nat.mod_lt draw hn

theorem randomFree_drawing (dp : DHCPPool) (order : RangeOrder ℕ) {draw : ℕ}
    (hdraw : draw < dp.free.card) :
    dp.randomFree (drawing order draw) = countdown draw (order.keys dp.free) 0 := by
  show countdown (draw % dp.free.card) (order.keys dp.free) 0 = _
  rw [Nat.mod_eq_of_lt hdraw]

theorem randomFree_bijOn (dp : DHCPPool) (order : RangeOrder ℕ) :
    Set.BijOn (fun draw => dp.randomFree (drawing order draw)) (Set.Iio dp.free.card) dp.free := by
  have hkeys : {k | k ∈ order.keys dp.free} = (dp.free : Set ℕ) := by
    ext k
    exact RangeOrder.mem_keys order
  have hbij := countdown_bijOn (order.nodup_keys dp.free) 0
  rw [RangeOrder.length_keys, hkeys] at hbij
  exact hbij.congr fun draw hdraw => (randomFree_drawing dp order hdraw).symm

theorem getFreeIPIndex_random {dp : DHCPPool} (choice : Choice) (mac : String)
    (h : dp.free.card ≠ 0) (halgorithm : dp.algorithm ≠ 2) :
    dp.getFreeIPIndex choice mac =
      (dp.grant (dp.randomFree choice) mac, dp.randomFree choice, mac, none) := by
  simp [getFreeIPIndex, h, halgorithm]

/-- The draws below the number of free indexes and the free indexes correspond one to one, and
what a call returns depends on nothing else than its order and its draw. -/
theorem random_allocation_bijective (dp : DHCPPool) (hfree : dp.free.Nonempty)
    (halgorithm : dp.algorithm ≠ 2) (order : RangeOrder ℕ) (mac : String) :
    Set.BijOn (fun draw => (dp.getFreeIPIndex (drawing order draw) mac).2.1)
        (Set.Iio dp.free.card) dp.free ∧
      ∀ choice : Choice, choice.order = order → dp.getFreeIPIndex choice mac =
        dp.getFreeIPIndex (drawing order (choice.intn dp.free.card)) mac := by
  have hpos : 0 < dp.free.card := Finset.card_pos.mpr hfree
  have hcard : dp.free.card ≠ 0 := Nat.ne_of_gt hpos
  constructor
  · refine (randomFree_bijOn dp order).congr fun draw _ => ?_
    show dp.randomFree (drawing order draw) = _
    rw [getFreeIPIndex_random _ mac hcard halgorithm]
  · rintro choice rfl
    have hsame : dp.randomFree choice =
        dp.randomFree (drawing choice.order (choice.intn dp.free.card)) :=
      (randomFree_drawing dp choice.order (choice.intn_lt _ hpos)).symm
    rw [getFreeIPIndex_random _ mac hcard halgorithm,
      getFreeIPIndex_random _ mac hcard halgorithm, hsame]

theorem random_allocation_bijective_three :
    Set.BijOn (fun draw => ((newDHCPPool 3 1 fun _ => 0).getFreeIPIndex
      (drawing RangeOrder.ascending draw) "02:00:00:00:00:01").2.1) (Set.Iio 3)
      (Finset.range 3) := by
  have hfree : (newDHCPPool 3 1 fun _ => 0).free = Finset.range 3 := newDHCPPool_free _ _ _
  have hne : (newDHCPPool 3 1 fun _ => 0).free.Nonempty := by
    rw [hfree]
    exact ⟨0, by decide⟩
  have hbij := (random_allocation_bijective (newDHCPPool 3 1 fun _ => 0) hne (by decide)
    RangeOrder.ascending "02:00:00:00:00:01").1
  rwa [hfree, Finset.card_range] at hbij

/-! ## The other calls, by what they find -/

/-- Nothing but the entries of index `i` differs. -/
def SameExcept (i : ℕ) (dp dp' : DHCPPool) : Prop :=
  dp'.capacity = dp.capacity ∧ dp'.algorithm = dp.algorithm ∧
    ∀ j, j ≠ i → (j ∈ dp'.free ↔ j ∈ dp.free) ∧ dp'.mac.lookup j = dp.mac.lookup j ∧
      dp'.released.lookup j = dp.released.lookup j

theorem sameExcept_grant (dp : DHCPPool) (i : ℕ) (m : String) :
    SameExcept i dp (dp.grant i m) := by
  refine ⟨rfl, rfl, fun j hj => ⟨?_, ?_, rfl⟩⟩
  · simp [grant, hj]
  · simp only [grant]
    exact Finmap.lookup_insert_of_ne dp.mac hj

theorem sameExcept_giveBack (dp : DHCPPool) (now : Int) (i : ℕ) :
    SameExcept i dp (dp.giveBack now i) := by
  refine ⟨rfl, rfl, fun j hj => ⟨?_, ?_, ?_⟩⟩
  · simp [giveBack, hj]
  · simp only [giveBack]
    exact Finmap.lookup_erase_ne hj
  · simp only [giveBack]
    exact Finmap.lookup_insert_of_ne dp.released hj

theorem reserveIPIndex_cases (dp : DHCPPool) (i : ℕ) (m : String) :
    (i ∈ dp.free ∧ i < dp.capacity ∧ dp.reserveIPIndex i m = (dp.grant i m, none, m)) ∨
    ((i ∉ dp.free ∨ dp.capacity ≤ i) ∧ (dp.reserveIPIndex i m).1 = dp ∧
      (dp.reserveIPIndex i m).2.1 ≠ none) := by
  by_cases hcap : dp.capacity ≤ i
  · exact .inr ⟨.inr hcap, by simp [reserveIPIndex, hcap], by simp [reserveIPIndex, hcap]⟩
  · by_cases hfree : i ∈ dp.free
    · exact .inl ⟨hfree, by omega, by simp [reserveIPIndex, hcap, hfree]⟩
    · exact .inr ⟨.inl hfree, by simp [reserveIPIndex, hcap, hfree],
        by simp [reserveIPIndex, hcap, hfree]⟩

theorem reserveIPIndex_of_free {dp : DHCPPool} (hwf : dp.WellFormed) {i : ℕ} (hi : i ∈ dp.free)
    (m : String) : dp.reserveIPIndex i m = (dp.grant i m, none, m) := by
  have hlt := hwf.free_lt hi
  rw [reserveIPIndex, if_neg (by omega), if_pos hi]

theorem freeIPIndex_cases (dp : DHCPPool) (now : Int) (i : ℕ) :
    (i < dp.capacity ∧ i ∉ dp.free ∧ (dp.freeIPIndex now i).1 = dp.giveBack now i) ∨
    ((dp.capacity ≤ i ∨ i ∈ dp.free) ∧ (dp.freeIPIndex now i).1 = dp) := by
  by_cases hlt : i < dp.capacity
  · by_cases hfree : i ∈ dp.free
    · exact .inr ⟨.inr hfree, by simp [freeIPIndex, indexInPool, hlt, hfree]⟩
    · exact .inl ⟨hlt, hfree, by simp [freeIPIndex, indexInPool, hlt, hfree]⟩
  · exact .inr ⟨.inl (by omega), by simp [freeIPIndex, indexInPool, hlt]⟩

theorem lookup_mac_of_free {dp : DHCPPool} (hwf : dp.WellFormed) {i : ℕ} (hi : i ∈ dp.free) :
    dp.mac.lookup i = none := by
  rw [Finmap.lookup_eq_none]
  intro hm
  exact Finset.disjoint_left.mp hwf.disjoint hi (Finmap.mem_keys.mpr hm)

theorem lookup_freeIPIndex {dp : DHCPPool} (hwf : dp.WellFormed) (now : Int) (i : ℕ) :
    (dp.freeIPIndex now i).1.mac.lookup i = none := by
  obtain ⟨-, -, heq⟩ | ⟨hcap | hfree, heq⟩ := dp.freeIPIndex_cases now i
  · rw [heq, giveBack]
    exact Finmap.lookup_erase i dp.mac
  · rw [heq]
    cases hown : dp.mac.lookup i with
    | none => rfl
    | some m =>
      have hlt := hwf.owned_lt hown
      omega
  · rw [heq]
    exact lookup_mac_of_free hwf hfree

theorem getMACIndex_of_lookup {dp : DHCPPool} (hwf : dp.WellFormed) {i : ℕ} {m : String}
    (h : dp.mac.lookup i = some m) : dp.getMACIndex i = (i, m, none) := by
  have hlt := hwf.owned_lt h
  have hnf := hwf.notMem_free h
  simp [getMACIndex, indexInPool, hlt, hnf, h]

theorem lookup_of_getMACIndex_ok {dp : DHCPPool} (hwf : dp.WellFormed) {i : ℕ} {m : String}
    (hok : (dp.getMACIndex i).2.2 = none) (h : (dp.getMACIndex i).2.1 = m) :
    dp.mac.lookup i = some m := by
  unfold getMACIndex at h hok
  split at h
  · next hin => simp [hin] at hok
  · next hin =>
    split at h
    · next hfree => simp [hin, hfree] at hok
    · next hfree =>
      have hlt : i < dp.capacity := by simpa [indexInPool] using hin
      obtain ⟨o, ho⟩ := hwf.exists_owner hlt hfree
      rw [ho] at h ⊢
      exact congrArg some h

theorem lookup_of_getMACIndex {dp : DHCPPool} (hwf : dp.WellFormed) {i : ℕ} {m : String}
    (hm : m ≠ FreeMac) (h : (dp.getMACIndex i).2.1 = m) : dp.mac.lookup i = some m := by
  unfold getMACIndex at h
  split at h
  · exact absurd h.symm hm
  · next hin =>
    have hlt : i < dp.capacity := by simpa [indexInPool] using hin
    split at h
    · exact absurd h.symm hm
    · next hfree =>
      obtain ⟨m', hm'⟩ := hwf.exists_owner hlt hfree
      rw [hm'] at h
      rw [hm']
      exact congrArg some h

theorem lookup_grant {dp : DHCPPool} {i j : ℕ} {m o : String}
    (hj : (dp.grant i m).mac.lookup j = some o) : (j = i ∧ o = m) ∨ dp.mac.lookup j = some o := by
  by_cases hji : j = i
  · subst hji
    rw [grant, Finmap.lookup_insert] at hj
    cases hj
    exact .inl ⟨rfl, rfl⟩
  · rw [grant, Finmap.lookup_insert_of_ne _ hji] at hj
    exact .inr hj

theorem lookup_grant_of_owned {dp : DHCPPool} (hwf : dp.WellFormed) {i j : ℕ} {m o : String}
    (hi : i ∈ dp.free) (hj : dp.mac.lookup j = some o) :
    (dp.grant i m).mac.lookup j = some o := by
  have hne : j ≠ i := by
    intro he
    rw [he, lookup_mac_of_free hwf hi] at hj
    cases hj
  rw [((sameExcept_grant dp i m).2.2 j hne).2.1]
  exact hj

/-! ## One call, and runs of calls -/

inductive Call
  | reserve (index : ℕ) (mac : String)
  | free (index : ℕ) (now : Int)
  | getFree (mac : String) (choice : Choice)

/-- What a successful call did. -/
inductive Event
  | granted (index : ℕ) (mac : String)
  | freed (index : ℕ)
deriving DecidableEq, Repr

def Event.index : Event → ℕ
  | granted index _ => index
  | freed index => index

def perform (dp : DHCPPool) : Call → DHCPPool × Except PoolError Event
  | .reserve index mac =>
    match dp.reserveIPIndex index mac with
    | (dp', none, _) => (dp', .ok (.granted index mac))
    | (dp', some err, _) => (dp', .error err)
  | .free index now =>
    match dp.freeIPIndex now index with
    | (dp', none) => (dp', .ok (.freed index))
    | (dp', some err) => (dp', .error err)
  | .getFree mac choice =>
    match dp.getFreeIPIndex choice mac with
    | (dp', index, mac', none) => (dp', .ok (.granted index mac'))
    | (dp', _, _, some err) => (dp', .error err)

/-- The pool after a sequence of calls, and what the successful ones did, in order. -/
def performAll : DHCPPool → List Call → DHCPPool × List Event
  | dp, [] => (dp, [])
  | dp, call :: calls =>
    let rest := performAll (dp.perform call).1 calls
    match (dp.perform call).2 with
    | .ok event => (rest.1, event :: rest.2)
    | .error _ => rest

theorem perform_cases {dp : DHCPPool} (hwf : dp.WellFormed) (call : Call) :
    (∃ err, dp.perform call = (dp, .error err)) ∨
    (∃ i m, i ∈ dp.free ∧ dp.perform call = (dp.grant i m, .ok (.granted i m))) ∨
    (∃ i now, i < dp.capacity ∧ i ∉ dp.free ∧
      dp.perform call = (dp.giveBack now i, .ok (.freed i))) := by
  cases call with
  | reserve index mac =>
    by_cases hcap : dp.capacity ≤ index
    · exact .inl ⟨.reserveOutside, by simp [perform, reserveIPIndex, hcap]⟩
    · by_cases hfree : index ∈ dp.free
      · exact .inr (.inl ⟨index, mac, hfree, by simp [perform, reserveIPIndex, hcap, hfree]⟩)
      · exact .inl ⟨.alreadyReserved, by simp [perform, reserveIPIndex, hcap, hfree]⟩
  | free index now =>
    by_cases hlt : index < dp.capacity
    · by_cases hfree : index ∈ dp.free
      · exact .inl ⟨.alreadyFree, by simp [perform, freeIPIndex, indexInPool, hlt, hfree]⟩
      · exact .inr (.inr ⟨index, now, hlt, hfree, by
          simp [perform, freeIPIndex, indexInPool, hlt, hfree]⟩)
    · exact .inl ⟨.freeOutside, by simp [perform, freeIPIndex, indexInPool, hlt]⟩
  | getFree mac choice =>
    by_cases hcard : dp.free.card = 0
    · exact .inl ⟨.poolFull, by rw [perform, getFreeIPIndex_full choice mac hcard]⟩
    · obtain ⟨i, hi, heq⟩ := getFreeIPIndex_ok hwf choice mac hcard
      exact .inr (.inl ⟨i, mac, hi, by rw [perform, heq]⟩)

theorem perform_wellFormed {dp : DHCPPool} (hwf : dp.WellFormed) (call : Call) :
    (dp.perform call).1.WellFormed ∧ (dp.perform call).1.capacity = dp.capacity := by
  obtain ⟨err, h⟩ | ⟨i, m, hi, h⟩ | ⟨i, now, hlt, -, h⟩ := perform_cases hwf call
  · rw [h]; exact ⟨hwf, rfl⟩
  · rw [h]; exact ⟨hwf.grant hi m, rfl⟩
  · rw [h]; exact ⟨hwf.giveBack hlt now, rfl⟩

theorem performAll_fst (dp : DHCPPool) (call : Call) (calls : List Call) :
    (performAll dp (call :: calls)).1 = (performAll (dp.perform call).1 calls).1 := by
  rw [performAll]
  split <;> rfl

theorem performAll_wellFormed {dp : DHCPPool} (hwf : dp.WellFormed) (calls : List Call) :
    (performAll dp calls).1.WellFormed ∧ (performAll dp calls).1.capacity = dp.capacity := by
  induction calls generalizing dp with
  | nil => exact ⟨hwf, rfl⟩
  | cons call calls ih =>
    obtain ⟨hwf', hcap⟩ := perform_wellFormed hwf call
    rw [performAll_fst, ← hcap]
    exact ih hwf'

theorem perform_frame {dp : DHCPPool} (hwf : dp.WellFormed) (call : Call) :
    (∀ err, (dp.perform call).2 = .error err → (dp.perform call).1 = dp) ∧
    (∀ event, (dp.perform call).2 = .ok event →
      SameExcept event.index dp (dp.perform call).1) := by
  obtain ⟨err, h⟩ | ⟨i, m, -, h⟩ | ⟨i, now, -, -, h⟩ := perform_cases hwf call
  · rw [h]
    refine ⟨fun _ _ => rfl, ?_⟩
    intro event he
    cases he
  · rw [h]
    constructor
    · intro err he
      cases he
    · intro event he
      cases he
      exact sameExcept_grant dp i m
  · rw [h]
    constructor
    · intro err he
      cases he
    · intro event he
      cases he
      exact sameExcept_giveBack dp now i

theorem pool_representation (capacity : ℕ) (algorithm : Int) (clock : ℕ → Int)
    (calls : List Call) :
    let dp := (performAll (newDHCPPool capacity algorithm clock) calls).1
    Disjoint dp.free dp.mac.keys ∧ dp.free ∪ dp.mac.keys = Finset.range capacity ∧
      dp.released.keys = Finset.range capacity ∧
      dp.freeIPsRemaining + dp.mac.keys.card = capacity ∧
      ∀ call : Call,
        (∀ err, (dp.perform call).2 = .error err → (dp.perform call).1 = dp) ∧
        (∀ event, (dp.perform call).2 = .ok event →
          SameExcept event.index dp (dp.perform call).1) := by
  intro dp
  have hrun := performAll_wellFormed (wellFormed_new capacity algorithm clock) calls
  have hwf : dp.WellFormed := hrun.1
  have hcap : dp.capacity = capacity := by
    rw [hrun.2, newDHCPPool_capacity]
  refine ⟨hwf.disjoint, ?_, ?_, ?_, perform_frame hwf⟩
  · rw [hwf.cover, hcap]
  · rw [hwf.released, hcap]
  · rw [hwf.card_add_card, hcap]

end DHCPPool
end StandaloneDHCP
