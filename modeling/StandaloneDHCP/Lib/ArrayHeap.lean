import Mathlib.Data.List.GetD
import StandaloneDHCP.Lib.Slices

/-! Slices over a heap of arrays. A header names an array and a window of it, and several
headers may name one array. `append` writes into the array behind the window where the capacity
allows it, and copies to a new array where it does not. What an operation leaves alone is stated
against an older heap: its arrays are all still there. -/
namespace StandaloneDHCP.Lib
set_option autoImplicit false

/-- The arrays in the order of their allocation; a reference is a place in it. -/
structure ArrayHeap (α : Type) where
  arrays : List (List α)

structure SliceHeader where
  ref : ℕ
  off : ℕ
  len : ℕ
  cap : ℕ
  len_le : len ≤ cap
deriving DecidableEq

/-- The `nil` slice. -/
instance : Inhabited SliceHeader := ⟨⟨0, 0, 0, 0, Nat.le_refl _⟩⟩

/-- `s[lo:hi]`. -/
def SliceHeader.sub (s : SliceHeader) (lo hi : ℕ) (hhi : hi ≤ s.cap) : SliceHeader :=
  ⟨s.ref, s.off + lo, hi - lo, s.cap - lo, by omega⟩

/-- The capacity that `append` gives a new array, from the old capacity and the length needed. -/
structure Growth where
  newCap : ℕ → ℕ → ℕ
  le_newCap : ∀ cap needed, needed ≤ newCap cap needed

namespace ArrayHeap
variable {α : Type}

def array (heap : ArrayHeap α) (ref : ℕ) : List α := heap.arrays.getD ref []

def read (heap : ArrayHeap α) (s : SliceHeader) : List α := slice s.off s.len (heap.array s.ref)

/-- The window of the header, up to its capacity, is inside its array. -/
def Holds (heap : ArrayHeap α) (s : SliceHeader) : Prop :=
  s.off + s.cap ≤ (heap.array s.ref).length

instance (heap : ArrayHeap α) (s : SliceHeader) : Decidable (heap.Holds s) :=
  inferInstanceAs (Decidable (_ ≤ _))

/-- Every array of the older heap is still there with the same content. -/
def ExtendsTo (old heap : ArrayHeap α) : Prop := old.arrays <+: heap.arrays

/-- A header of a new array with the given elements. -/
def new (heap : ArrayHeap α) (elements : List α) : SliceHeader × ArrayHeap α :=
  (⟨heap.arrays.length, 0, elements.length, elements.length, Nat.le_refl _⟩,
    ⟨heap.arrays ++ [elements]⟩)

/-- `make([]T, 0, cap)`. -/
def makeEmpty [Inhabited α] (heap : ArrayHeap α) (cap : ℕ) : SliceHeader × ArrayHeap α :=
  (⟨heap.arrays.length, 0, 0, cap, Nat.zero_le cap⟩, ⟨heap.arrays ++ [List.replicate cap default]⟩)

def write (heap : ArrayHeap α) (ref : ℕ) (content : List α) : ArrayHeap α :=
  ⟨heap.arrays.set ref content⟩

/-- `append(s, elements...)`. -/
def append [Inhabited α] (growth : Growth) (heap : ArrayHeap α) (s : SliceHeader)
    (elements : List α) : SliceHeader × ArrayHeap α :=
  if hcap : s.len + elements.length ≤ s.cap then
    (⟨s.ref, s.off, s.len + elements.length, s.cap, hcap⟩,
      heap.write s.ref
        (copyInto (s.off + s.len) elements.length elements (heap.array s.ref)))
  else
    let needed := s.len + elements.length
    let cap := growth.newCap s.cap needed
    (⟨heap.arrays.length, 0, needed, cap, growth.le_newCap _ _⟩,
      ⟨heap.arrays ++ [heap.read s ++ elements ++ List.replicate (cap - needed) default]⟩)

/-- `for _, element := range elements { s = append(s, element...) }`. -/
def appendEach [Inhabited α] (growth : Growth) :
    List SliceHeader → SliceHeader → ArrayHeap α → SliceHeader × ArrayHeap α
  | [], s, heap => (s, heap)
  | element :: elements, s, heap =>
    let next := heap.append growth s (heap.read element)
    appendEach growth elements next.1 next.2

/-! ## What is read from a heap that extends another -/

theorem array_of_le {heap : ArrayHeap α} {ref : ℕ} (href : heap.arrays.length ≤ ref) :
    heap.array ref = [] := by
  rw [array, List.getD_eq_getElem?_getD, List.getElem?_eq_none href, Option.getD_none]

theorem array_concat (heap : ArrayHeap α) (content : List α) :
    array ⟨heap.arrays ++ [content]⟩ heap.arrays.length = content := by
  simp [array]

theorem length_read {heap : ArrayHeap α} {s : SliceHeader} (hs : heap.Holds s) :
    (heap.read s).length = s.len := by
  have hlen := s.len_le
  apply length_slice
  unfold Holds at hs
  omega

@[simp] theorem read_default (heap : ArrayHeap α) : heap.read default = [] := by
  show slice 0 0 (heap.array 0) = []
  simp [slice]

section ExtendsTo
variable {old heap heap' : ArrayHeap α} {s : SliceHeader}

theorem ExtendsTo.refl (heap : ArrayHeap α) : ExtendsTo heap heap := List.prefix_refl heap.arrays

theorem ExtendsTo.trans (h : ExtendsTo old heap) (h' : ExtendsTo heap heap') :
    ExtendsTo old heap' :=
  List.IsPrefix.trans h h'

theorem ExtendsTo.length_le (h : ExtendsTo old heap) : old.arrays.length ≤ heap.arrays.length :=
  List.IsPrefix.length_le h

theorem extendsTo_concat (heap : ArrayHeap α) (content : List α) :
    ExtendsTo heap ⟨heap.arrays ++ [content]⟩ :=
  List.prefix_append heap.arrays [content]

theorem ExtendsTo.write (h : ExtendsTo old heap) {ref : ℕ} (href : old.arrays.length ≤ ref)
    (content : List α) : ExtendsTo old (heap.write ref content) := by
  obtain ⟨later, hlater⟩ := h
  refine ⟨later.set (ref - old.arrays.length) content, ?_⟩
  rw [ArrayHeap.write, ← hlater, List.set_append_right _ _ href]

theorem ExtendsTo.array (h : ExtendsTo old heap) {ref : ℕ} (href : ref < old.arrays.length) :
    heap.array ref = old.array ref := by
  obtain ⟨later, hlater⟩ := h
  rw [ArrayHeap.array, ArrayHeap.array, ← hlater, List.getD_append _ _ _ _ href]

/-- Only an empty header may name an array that is not there. -/
theorem Holds.ref_lt (hs : heap.Holds s) (hne : s.off + s.cap ≠ 0) :
    s.ref < heap.arrays.length := by
  by_contra href
  rw [Holds, array_of_le (Nat.le_of_not_lt href), List.length_nil] at hs
  omega

theorem Holds.extendsTo (hs : old.Holds s) (h : ExtendsTo old heap) : heap.Holds s := by
  by_cases hempty : s.off + s.cap = 0
  · rw [Holds, hempty]
    exact Nat.zero_le _
  · rwa [Holds, h.array (hs.ref_lt hempty)]

theorem Holds.read_extendsTo (hs : old.Holds s) (h : ExtendsTo old heap) :
    heap.read s = old.read s := by
  by_cases hempty : s.off + s.cap = 0
  · have hlen := s.len_le
    have hzero : s.len = 0 := by omega
    rw [read, read, hzero]
    simp [slice]
  · rw [read, read, h.array (hs.ref_lt hempty)]

end ExtendsTo

/-! ## The operations -/

section Operations
variable {old heap : ArrayHeap α} {s : SliceHeader}

theorem holds_new (heap : ArrayHeap α) (elements : List α) :
    (heap.new elements).2.Holds (heap.new elements).1 := by
  simp only [new, Holds, array_concat, Nat.zero_add]
  exact Nat.le_refl _

theorem extendsTo_new (heap : ArrayHeap α) (elements : List α) :
    ExtendsTo heap (heap.new elements).2 :=
  extendsTo_concat heap elements

theorem read_new (heap : ArrayHeap α) (elements : List α) :
    (heap.new elements).2.read (heap.new elements).1 = elements := by
  simp only [new, read, array_concat]
  simp [slice]

theorem Holds.sub (hs : heap.Holds s) {lo hi : ℕ} (hle : lo ≤ hi) (hhi : hi ≤ s.cap) :
    heap.Holds (s.sub lo hi hhi) := by
  show s.off + lo + (s.cap - lo) ≤ _
  unfold Holds at hs
  show _ ≤ (heap.array s.ref).length
  omega

theorem read_sub (heap : ArrayHeap α) (s : SliceHeader) {lo hi : ℕ} (hle : lo ≤ hi)
    (hhi : hi ≤ s.len) :
    heap.read (s.sub lo hi (Nat.le_trans hhi s.len_le)) = slice lo (hi - lo) (heap.read s) := by
  show slice (s.off + lo) (hi - lo) (heap.array s.ref) = _
  rw [read, slice_slice (by omega)]

theorem array_write {ref : ℕ} {content : List α}
    (hlen : content.length = (heap.array ref).length) :
    (heap.write ref content).array ref = content := by
  by_cases href : ref < heap.arrays.length
  · simp [write, array, href]
  · have hempty : content = [] := by
      rw [array_of_le (Nat.le_of_not_lt href)] at hlen
      exact List.eq_nil_of_length_eq_zero hlen
    rw [hempty, array_of_le]
    simpa [write] using href

theorem array_write_ne {ref ref' : ℕ} (hne : ref' ≠ ref) (content : List α) :
    (heap.write ref content).array ref' = heap.array ref' := by
  simp [write, array, List.getElem?_set_ne (Ne.symm hne)]

variable [Inhabited α]

theorem holds_makeEmpty (heap : ArrayHeap α) (cap : ℕ) :
    (heap.makeEmpty cap).2.Holds (heap.makeEmpty cap).1 := by
  simp [makeEmpty, Holds, array_concat]

theorem extendsTo_makeEmpty (heap : ArrayHeap α) (cap : ℕ) :
    ExtendsTo heap (heap.makeEmpty cap).2 :=
  extendsTo_concat heap _

theorem read_makeEmpty (heap : ArrayHeap α) (cap : ℕ) :
    (heap.makeEmpty cap).2.read (heap.makeEmpty cap).1 = [] := by
  simp [makeEmpty, read, slice]

variable (growth : Growth)

/-- `append` leaves a valid header of the elements before with the new ones behind them. -/
theorem append_spec (hs : heap.Holds s) (elements : List α) :
    (heap.append growth s elements).2.Holds (heap.append growth s elements).1 ∧
      (heap.append growth s elements).2.read (heap.append growth s elements).1 =
        heap.read s ++ elements := by
  have hread := length_read hs
  by_cases hcap : s.len + elements.length ≤ s.cap
  · have hroom : s.off + s.len + elements.length ≤ (heap.array s.ref).length := by
      unfold Holds at hs
      omega
    have hcopy : (copyInto (s.off + s.len) elements.length elements (heap.array s.ref)).length =
        (heap.array s.ref).length := length_copyInto hroom
    simp only [append, dif_pos hcap, Holds, read, array_write hcopy]
    exact ⟨hcopy ▸ hs, slice_copyInto_behind hroom⟩
  · have hgrow := growth.le_newCap s.cap (s.len + elements.length)
    simp only [append, dif_neg hcap]
    -- the new array starts with what is read now, up to its length
    generalize heap.read s = front at hread ⊢
    simp only [Holds, read, array_concat]
    constructor
    · simp only [List.length_append, List.length_replicate, hread]
      omega
    · rw [slice, List.drop_zero]
      exact List.take_left' (by rw [List.length_append, hread])

/-- `append` to the `nil` slice makes a new array. -/
theorem append_default (heap : ArrayHeap α) {elements : List α} (hne : elements ≠ []) :
    (heap.append growth default elements).1.ref = heap.arrays.length ∧
      ExtendsTo heap (heap.append growth default elements).2 := by
  have hcap : ¬ (default : SliceHeader).len + elements.length ≤ (default : SliceHeader).cap := by
    have hpos := List.length_pos_iff.mpr hne
    show ¬ 0 + elements.length ≤ 0
    omega
  simp only [append, dif_neg hcap, true_and]
  exact extendsTo_concat heap _

/-- What is appended to a header of a later array leaves the older arrays alone. -/
theorem append_extendsTo (h : ExtendsTo old heap) (hlater : old.arrays.length ≤ s.ref)
    (elements : List α) :
    ExtendsTo old (heap.append growth s elements).2 ∧
      old.arrays.length ≤ (heap.append growth s elements).1.ref := by
  unfold append
  split
  · exact ⟨h.write hlater _, hlater⟩
  · exact ⟨h.trans (extendsTo_concat heap _), h.length_le⟩

/-- The elements are read from arrays that are older than the one appended to. -/
theorem appendEach_spec {elements : List SliceHeader} (helements : ∀ e ∈ elements, old.Holds e)
    (h : ExtendsTo old heap) (hlater : old.arrays.length ≤ s.ref) (hs : heap.Holds s) :
    ExtendsTo old (appendEach growth elements s heap).2 ∧
      (appendEach growth elements s heap).2.Holds (appendEach growth elements s heap).1 ∧
      (appendEach growth elements s heap).2.read (appendEach growth elements s heap).1 =
        heap.read s ++ (elements.map old.read).flatten := by
  induction elements generalizing s heap with
  | nil =>
    refine ⟨h, hs, ?_⟩
    show heap.read s = heap.read s ++ []
    rw [List.append_nil]
  | cons element elements ih =>
    have helement : heap.read element = old.read element :=
      (helements element List.mem_cons_self).read_extendsTo h
    obtain ⟨hext, hlater'⟩ := append_extendsTo growth h hlater (heap.read element)
    obtain ⟨hholds, hread⟩ := append_spec growth hs (heap.read element)
    have hrest := ih (fun e he => helements e (List.mem_cons_of_mem _ he)) hext hlater' hholds
    rw [hread, helement, List.append_assoc] at hrest
    rw [appendEach, List.map_cons, List.flatten_cons, helement]
    exact hrest

end Operations
end ArrayHeap
end StandaloneDHCP.Lib
