import StandaloneDHCP.Lib.ArrayHeap
import StandaloneDHCP.Lib.FisherYates
import StandaloneDHCP.Server.ReplyAgreement
import StandaloneDHCP.Wire.AddressText

/-! `ShuffleIP` on memory. The option values of a handler are shared by all its replies, so the
shuffle is followed array by array: `net.IPv4` allocates, `To4` is a window of what it allocated,
the loop exchanges headers, and `append` fills an array of its own. The bytes it returns are those
of `shuffleIP` on values, and no array that was there before is written to. The values themselves
are the complete 4-byte groups in the order that the draws give. -/
namespace StandaloneDHCP
open Lib
set_option autoImplicit false

/-! ## The order of the groups -/

theorem addressGroups_of_le {a : Bytes} (hlen : 4 ≤ a.length) :
    addressGroups a =
      [a.getD 0 0, a.getD 1 0, a.getD 2 0, a.getD 3 0] :: addressGroups (a.drop 4) := by
  obtain ⟨w, x, y, z, rest, rfl⟩ := exists_four hlen
  rfl

theorem addressGroups_of_lt {a : Bytes} (hlen : a.length < 4) : addressGroups a = [] := by
  have hnone := length_flatten_addressGroups a
  rw [Nat.div_eq_of_lt hlen] at hnone
  cases hgroups : addressGroups a with
  | nil => rfl
  | cons g groups =>
    have hg := length_of_mem_addressGroups (hgroups ▸ List.mem_cons_self : g ∈ addressGroups a)
    rw [hgroups, List.flatten_cons, List.length_append] at hnone
    omega

theorem addressGroups_eq_ofFn {n : ℕ} : ∀ {a : Bytes}, a.length / 4 = n →
    addressGroups a = List.ofFn fun i : Fin n => slice (4 * i.val) 4 a := by
  induction n with
  | zero =>
    intro a hn
    rw [addressGroups_of_lt (by omega), List.ofFn_zero]
  | succ n ih =>
    intro a hn
    have hlen : 4 ≤ a.length := by omega
    have hrest := ih (show (a.drop 4).length / 4 = n by rw [List.length_drop]; omega)
    have htail : (fun i : Fin n => slice (4 * i.val) 4 (a.drop 4)) =
        fun i : Fin n => slice (4 * i.succ.val) 4 a := by
      funext i
      rw [slice, slice, List.drop_drop, Fin.val_succ]
      congr 2
      omega
    rw [addressGroups_of_le hlen, List.ofFn_succ, hrest, htail]
    obtain ⟨w, x, y, z, rest, rfl⟩ := exists_four hlen
    rfl

theorem shuffleLoop_eq_shuffle (draw : ℕ → ℕ → ℕ) (i k : ℕ) (array : List Bytes) :
    shuffleLoop draw i k array = shuffle swapAt draw i k array := by
  induction i generalizing k array with
  | zero => rfl
  | succ i ih => rw [shuffleLoop, shuffle, ih]

theorem swapAt_ofFn {n : ℕ} (f : Fin n → Bytes) (i j : Fin n) :
    swapAt (List.ofFn f) i j = List.ofFn (f ∘ Equiv.swap i j) := by
  have hget : ∀ x : Fin n, (List.ofFn f).getD x.val [] = f x := by
    intro x
    simp
  rw [swapAt, hget, hget, set_set_ofFn]

/-- The draws of a call over `n` addresses: at position `i` one of `0..i`. -/
def ReplyEnv.draws (env : ReplyEnv) (randSrc : Int) (n : ℕ) : Draws n :=
  drawn (env.random.intn_lt (if randSrc = 0 then env.unixNano else randSrc)) n

theorem shuffleIP_eq_groups (env : ReplyEnv) (a : Bytes) (randSrc : Int) {n : ℕ}
    (hn : a.length / 4 = n) :
    let group : Fin n → Bytes := fun i => slice (4 * i.val) 4 a
    shuffleIP env a randSrc = (List.ofFn (group ∘ (env.draws randSrc n).perm)).flatten := by
  rw [shuffleIP, shuffleNetIP, addressGroups_eq_ofFn hn, List.length_ofFn, shuffleLoop_eq_shuffle,
    shuffle_perm (env.random.intn_lt _) swapAt_ofFn, ReplyEnv.draws]

/-- Any draws are those of some random source. -/
theorem exists_draws (env : ReplyEnv) (randSrc : Int) {n : ℕ} (d : Draws n) :
    ∃ random : RandSource, { env with random := random }.draws randSrc n = d := by
  obtain ⟨draw, hdraw, hd⟩ := exists_drawn d
  exact ⟨⟨fun _ => draw, fun _ => hdraw⟩, hd⟩

/-! ## The shuffle on memory -/

namespace Memory

abbrev Heap := ArrayHeap UInt8

/-- `net.IPv4`: a new array of 16 bytes. -/
def netIPv4 (heap : Heap) (w x y z : UInt8) : SliceHeader × Heap :=
  heap.new (v4InV6Prefix ++ [w, x, y, z])

/-- `net.IP.To4`: no new array. -/
def to4 (heap : Heap) (ip : SliceHeader) : SliceHeader :=
  if ip.len = 4 then ip
  else if hmapped : ip.len = 16 ∧ (heap.read ip).take 12 = v4InV6Prefix then
    ip.sub 12 16 (hmapped.1 ▸ ip.len_le)
  else default

/-- `for len(a) >= 4`. -/
def groupLoop (heap : Heap) (a : SliceHeader) (array : List SliceHeader) :
    List SliceHeader × Heap :=
  if 4 ≤ a.len then
    let bytes := heap.read a
    let ip := netIPv4 heap (bytes.getD 0 0) (bytes.getD 1 0) (bytes.getD 2 0) (bytes.getD 3 0)
    groupLoop ip.2 (a.sub 4 a.len a.len_le) (array ++ [to4 ip.2 ip.1])
  else (array, heap)
termination_by a.len
decreasing_by
  show a.len - 4 < a.len
  omega

/-- `array[i], array[j] = array[j], array[i]`, on the headers. -/
def swapHeaders (array : List SliceHeader) (i j : ℕ) : List SliceHeader :=
  (array.set i (array.getD j default)).set j (array.getD i default)

def shuffleNetIP (env : ReplyEnv) (growth : Growth) (heap : Heap) (array : List SliceHeader)
    (randSrc : Int) : SliceHeader × Heap :=
  let slice := heap.makeEmpty array.length
  let randSrc := if randSrc = 0 then env.unixNano else randSrc
  let array := shuffle swapHeaders (env.random.intn randSrc) (array.length - 1) 0 array
  ArrayHeap.appendEach growth array slice.1 slice.2

def shuffleIP (env : ReplyEnv) (growth : Growth) (heap : Heap) (a : SliceHeader) (randSrc : Int) :
    SliceHeader × Heap :=
  let array := groupLoop heap a []
  shuffleNetIP env growth array.2 array.1 randSrc

/-! ## Reading what it leaves -/

open ArrayHeap

section Refinement
variable {heap : Heap}

/-- The header that `To4` returns reads the four bytes. -/
theorem to4_spec {ip : SliceHeader} (hip : heap.Holds ip) {v4 : Bytes}
    (hv : StandaloneDHCP.to4 (heap.read ip) = some v4) :
    heap.Holds (to4 heap ip) ∧ heap.read (to4 heap ip) = v4 := by
  have hlen := length_read hip
  rcases to4_eq_some.mp hv with ⟨hfour, rfl⟩ | ⟨hsixteen, hmapped, rfl⟩
  · rw [to4, if_pos (by omega)]
    exact ⟨hip, rfl⟩
  · have hip16 : ip.len = 16 := by omega
    rw [to4, if_neg (by omega), dif_pos ⟨hip16, hmapped⟩]
    refine ⟨hip.sub (by omega) _, ?_⟩
    rw [read_sub heap ip (by omega) (by omega), slice, List.take_of_length_le]
    rw [List.length_drop]
    omega

/-- One round of the loop over the groups: the new header reads the four bytes. -/
theorem netIPv4_spec (heap : Heap) (w x y z : UInt8) :
    let ip := netIPv4 heap w x y z
    ExtendsTo heap ip.2 ∧ ip.2.Holds (to4 ip.2 ip.1) ∧
      ip.2.read (to4 ip.2 ip.1) = [w, x, y, z] := by
  refine ⟨extendsTo_new heap _, to4_spec (holds_new heap _) ?_⟩
  rw [read_new]
  exact to4_mapped rfl

theorem groupLoop_spec (heap : Heap) (a : SliceHeader) (array : List SliceHeader)
    (ha : heap.Holds a) (harray : ∀ e ∈ array, heap.Holds e) :
    ExtendsTo heap (groupLoop heap a array).2 ∧
      (∀ e ∈ (groupLoop heap a array).1, (groupLoop heap a array).2.Holds e) ∧
      (groupLoop heap a array).1.map (groupLoop heap a array).2.read =
        array.map heap.read ++ addressGroups (heap.read a) := by
  fun_induction groupLoop heap a array with
  | case1 heap a array hlen bytes ip ih =>
    obtain ⟨hext, hnew, hread⟩ := netIPv4_spec heap (bytes.getD 0 0) (bytes.getD 1 0)
      (bytes.getD 2 0) (bytes.getD 3 0)
    have hrest : heap.read (a.sub 4 a.len a.len_le) = (heap.read a).drop 4 := by
      rw [read_sub heap a hlen (Nat.le_refl _), slice, List.take_of_length_le]
      rw [List.length_drop, length_read ha]
    have hsub : heap.Holds (a.sub 4 a.len a.len_le) := ha.sub hlen a.len_le
    have hall : ∀ e ∈ array ++ [to4 ip.2 ip.1], ip.2.Holds e := by
      intro e he
      rcases List.mem_append.mp he with hold | hlast
      · exact (harray e hold).extendsTo hext
      · rw [List.mem_singleton.mp hlast]
        exact hnew
    have hmap : array.map ip.2.read = array.map heap.read :=
      List.map_congr_left fun e he => (harray e he).read_extendsTo hext
    have hgroups := addressGroups_of_le (show 4 ≤ (heap.read a).length by rwa [length_read ha])
    obtain ⟨hext', hholds', hread'⟩ := ih (hsub.extendsTo hext) hall
    refine ⟨hext.trans hext', hholds', ?_⟩
    rw [hread', hsub.read_extendsTo hext, hrest, List.map_append, List.map_singleton, hread, hmap,
      List.append_assoc, hgroups]
    rfl
  | case2 heap a array hshort =>
    refine ⟨ExtendsTo.refl heap, harray, ?_⟩
    rw [addressGroups_of_lt (by rw [length_read ha]; omega), List.append_nil]

theorem map_swapHeaders (heap : Heap) (array : List SliceHeader) (i j : ℕ) :
    (swapHeaders array i j).map heap.read = swapAt (array.map heap.read) i j := by
  have hget : ∀ k, (array.map heap.read).getD k [] = heap.read (array.getD k default) := by
    intro k
    rw [← read_default heap, List.getD_map]
  rw [swapHeaders, swapAt, List.map_set, List.map_set, hget, hget]

theorem holds_swapHeaders {array : List SliceHeader} (harray : ∀ e ∈ array, heap.Holds e)
    (i j : ℕ) : ∀ e ∈ swapHeaders array i j, heap.Holds e := by
  have hget : ∀ k, heap.Holds (array.getD k default) := by
    intro k
    by_cases hk : k < array.length
    · rw [List.getD_eq_getElem _ _ hk]
      exact harray _ (List.getElem_mem hk)
    · rw [List.getD_eq_default _ _ (Nat.le_of_not_lt hk)]
      exact Nat.zero_le _
  intro e he
  rcases List.mem_or_eq_of_mem_set he with hfirst | rfl
  · rcases List.mem_or_eq_of_mem_set hfirst with hold | rfl
    · exact harray e hold
    · exact hget j
  · exact hget i

theorem shuffleNetIP_spec (env : ReplyEnv) (growth : Growth) {array : List SliceHeader}
    (harray : ∀ e ∈ array, heap.Holds e) (randSrc : Int) :
    let result := shuffleNetIP env growth heap array randSrc
    ExtendsTo heap result.2 ∧ result.2.Holds result.1 ∧
      result.2.read result.1 =
        StandaloneDHCP.shuffleNetIP env (array.map heap.read) randSrc := by
  have hswap : ∀ s i j, (∀ e ∈ s, heap.Holds e) → ∀ e ∈ swapHeaders s i j, heap.Holds e :=
    fun s i j hs => holds_swapHeaders hs i j
  have hshuffled := shuffle_invariant hswap
    (env.random.intn (if randSrc = 0 then env.unixNano else randSrc)) (array.length - 1) 0 harray
  obtain ⟨hext, hholds, hread⟩ := appendEach_spec growth hshuffled
    (extendsTo_makeEmpty heap array.length) (Nat.le_refl _) (holds_makeEmpty heap array.length)
  refine ⟨hext, hholds, hread.trans ?_⟩
  rw [read_makeEmpty, List.nil_append, shuffle_simulation (map_swapHeaders heap),
    StandaloneDHCP.shuffleNetIP, shuffleLoop_eq_shuffle, List.length_map]

/-- What `ShuffleIP` returns reads as the shuffled value, from arrays that are all new. -/
theorem shuffleIP_spec (env : ReplyEnv) (growth : Growth) {a : SliceHeader} (ha : heap.Holds a)
    (randSrc : Int) :
    let result := shuffleIP env growth heap a randSrc
    ExtendsTo heap result.2 ∧ result.2.Holds result.1 ∧
      result.2.read result.1 = StandaloneDHCP.shuffleIP env (heap.read a) randSrc := by
  obtain ⟨hext, hgroups, hread⟩ := groupLoop_spec heap a [] ha (by simp)
  obtain ⟨hext', hholds, hresult⟩ := shuffleNetIP_spec env growth hgroups randSrc
  refine ⟨hext.trans hext', hholds, hresult.trans ?_⟩
  rw [hread, List.map_nil, List.nil_append, StandaloneDHCP.shuffleIP]

/-- The replies of a run, each shuffling the same option value: the headers they get and the
memory after the last one. -/
def shuffleEach (a : SliceHeader) : List (ReplyEnv × Growth × Int) → Heap → List SliceHeader × Heap
  | [], heap => ([], heap)
  | (env, growth, randSrc) :: calls, heap =>
    let first := shuffleIP env growth heap a randSrc
    let rest := shuffleEach a calls first.2
    (first.1 :: rest.1, rest.2)

/-- After any number of replies the shared value and all earlier results are what they were. -/
theorem shuffleEach_spec {a : SliceHeader} (ha : heap.Holds a)
    (calls : List (ReplyEnv × Growth × Int)) :
    let result := shuffleEach a calls heap
    ExtendsTo heap result.2 ∧ result.1.map result.2.read =
      calls.map fun call => StandaloneDHCP.shuffleIP call.1 (heap.read a) call.2.2 := by
  induction calls generalizing heap with
  | nil => exact ⟨ExtendsTo.refl heap, rfl⟩
  | cons call calls ih =>
    obtain ⟨env, growth, randSrc⟩ := call
    obtain ⟨hext, hholds, hread⟩ := shuffleIP_spec env growth ha randSrc
    obtain ⟨hext', hrest⟩ := ih (ha.extendsTo hext)
    refine ⟨hext.trans hext', ?_⟩
    rw [shuffleEach, List.map_cons, List.map_cons, hrest, hholds.read_extendsTo hext', hread,
      ha.read_extendsTo hext]

end Refinement

/-- The result is the concatenation of the complete 4-byte groups, permuted as the draws say;
every permutation of their positions belongs to one sequence of draws, every sequence can be
drawn, and the memory that was there, with the bytes of `a` in it, is unchanged. -/
theorem shuffleIP_permutes_addresses (env : ReplyEnv) (growth : Growth) (heap : Heap)
    (a : SliceHeader) (ha : heap.Holds a) (randSrc : Int) :
    let result := shuffleIP env growth heap a randSrc
    let n := (heap.read a).length / 4
    let group : Fin n → Bytes := fun i => slice (4 * i.val) 4 (heap.read a)
    result.2.read result.1 = (List.ofFn (group ∘ (env.draws randSrc n).perm)).flatten ∧
      (result.2.read result.1).length = 4 * n ∧
      (∀ order : Equiv.Perm (Fin n), ∃! d : Draws n, d.perm = order) ∧
      (∀ d : Draws n, ∃ random, { env with random := random }.draws randSrc n = d) ∧
      ExtendsTo heap result.2 ∧ result.2.read a = heap.read a := by
  obtain ⟨hext, -, hread⟩ := shuffleIP_spec env growth ha randSrc
  refine ⟨?_, ?_, fun order => Draws.perm_bijective.existsUnique order,
    fun d => exists_draws env randSrc d, hext, ha.read_extendsTo hext⟩
  · rw [hread, shuffleIP_eq_groups env _ randSrc rfl]
  · rw [hread, length_shuffleIP]

/-- Every draw is `0`, so the second address comes first; the ninth byte is dropped. -/
theorem shuffleIP_permutes_addresses_two :
    let env : ReplyEnv :=
      ⟨⟨fun _ _ _ => 0, fun _ _ _ hn => hn⟩, 1, RangeOrder.ascending, fun options _ _ => options⟩
    let heap : Heap := ⟨[[10, 0, 0, 1, 10, 0, 0, 2, 9]]⟩
    let a : SliceHeader := ⟨0, 0, 9, 9, Nat.le_refl 9⟩
    let growth : Growth := ⟨fun _ needed => needed, fun _ needed => Nat.le_refl needed⟩
    let result := shuffleIP env growth heap a 5
    result.2.read result.1 = [10, 0, 0, 2, 10, 0, 0, 1] ∧
      result.2.read a = [10, 0, 0, 1, 10, 0, 0, 2, 9] := by
  intro env heap a growth result
  obtain ⟨hread, -, -, -, -, hsame⟩ :=
    shuffleIP_permutes_addresses env growth heap a (by decide) 5
  exact ⟨hread.trans (by decide), hsame⟩

end Memory
end StandaloneDHCP
