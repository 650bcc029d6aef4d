import Mathlib.Data.List.Basic

/-! Fields at fixed places of a buffer. `slice` reads one, `copyInto` is a copy into one that
stops at the end of the field or of the source. Reading a field back gives what was copied,
and the other fields do not notice. -/
namespace StandaloneDHCP.Lib
set_option autoImplicit false

variable {α : Type}

/-- `l[off : off+n]`. -/
def slice (off n : ℕ) (l : List α) : List α := (l.drop off).take n

/-- `copy(l[off : off+n], src)`. -/
def copyInto (off n : ℕ) (src l : List α) : List α :=
  l.take off ++ src.take n ++ l.drop (off + (src.take n).length)

theorem getElem?_slice (off n : ℕ) (l : List α) (i : ℕ) :
    (slice off n l)[i]? = if i < n then l[off + i]? else none := by
  rw [slice, List.getElem?_take, List.getElem?_drop]

theorem length_slice {off n : ℕ} {l : List α} (hin : off + n ≤ l.length) :
    (slice off n l).length = n := by
  simp [slice]
  omega

theorem slice_slice {off n off' n' : ℕ} (hin : off' + n' ≤ n) (l : List α) :
    slice off' n' (slice off n l) = slice (off + off') n' l := by
  apply List.ext_getElem?
  intro i
  rw [getElem?_slice, getElem?_slice, getElem?_slice, Nat.add_assoc]
  by_cases hi : i < n'
  · rw [if_pos hi, if_pos hi, if_pos (by omega)]
  · rw [if_neg hi, if_neg hi]

section Copy
variable {off n : ℕ} {src l : List α}

theorem length_copyInto (hin : off + n ≤ l.length) : (copyInto off n src l).length = l.length := by
  simp [copyInto]
  omega

/-- The copied part reads the source, the rest what was there. -/
theorem getElem?_copyInto (hin : off + n ≤ l.length) (i : ℕ) :
    (copyInto off n src l)[i]? =
      if off ≤ i ∧ i < off + (src.take n).length then src[i - off]? else l[i]? := by
  have htake : (l.take off).length = off := by
    rw [List.length_take]
    omega
  rw [copyInto, List.append_assoc]
  by_cases hlow : i < off
  · rw [List.getElem?_append_left (by omega), List.getElem?_take, if_pos hlow, if_neg (by omega)]
  rw [List.getElem?_append_right (by omega), htake]
  by_cases hmid : i < off + (src.take n).length
  · have hlt : i - off < (src.take n).length := by omega
    have hn : i - off < n := by
      rw [List.length_take] at hlt
      omega
    rw [if_pos ⟨by omega, hmid⟩, List.getElem?_append_left hlt, List.getElem?_take, if_pos hn]
  · rw [if_neg (by omega), List.getElem?_append_right (by omega), List.getElem?_drop]
    congr 1
    omega

/-- A shorter source fills the front of the field. -/
theorem slice_copyInto_front {m : ℕ} (hin : off + n ≤ l.length) (hm : m ≤ n)
    (hsrc : src.length = m) : slice off m (copyInto off n src l) = src := by
  apply List.ext_getElem?
  intro i
  rw [getElem?_slice, getElem?_copyInto hin, List.take_of_length_le (by omega), hsrc]
  by_cases hi : i < m
  · rw [if_pos hi, if_pos (by omega), Nat.add_sub_cancel_left]
  · rw [if_neg hi, List.getElem?_eq_none (by omega)]

/-- A copy right behind a field lengthens what is read from there. -/
theorem slice_copyInto_behind (hin : off + n + src.length ≤ l.length) :
    slice off (n + src.length) (copyInto (off + n) src.length src l) = slice off n l ++ src := by
  have hlen : (slice off n l).length = n := length_slice (by omega)
  apply List.ext_getElem?
  intro i
  rw [getElem?_slice, getElem?_copyInto (by omega), List.take_length]
  by_cases hi : i < n
  · rw [if_pos (by omega), if_neg (by omega), List.getElem?_append_left (by omega),
      getElem?_slice, if_pos hi]
  rw [List.getElem?_append_right (by omega), hlen]
  by_cases hi' : i < n + src.length
  · rw [if_pos hi', if_pos (by omega)]
    congr 1
    omega
  · rw [if_neg hi', List.getElem?_eq_none (by omega)]

theorem slice_copyInto_of_disjoint {off' n' : ℕ} (hin : off + n ≤ l.length)
    (hdisjoint : off' + n' ≤ off ∨ off + n ≤ off') :
    slice off' n' (copyInto off n src l) = slice off' n' l := by
  apply List.ext_getElem?
  intro i
  rw [getElem?_slice, getElem?_slice, getElem?_copyInto hin, List.length_take]
  by_cases hi : i < n'
  · rw [if_pos hi, if_pos hi, if_neg (by omega)]
  · rw [if_neg hi, if_neg hi]

/-- Copies into disjoint fields commute. -/
theorem copyInto_comm {off' n' : ℕ} {src' : List α} (hin : off + n ≤ l.length)
    (hin' : off' + n' ≤ l.length) (hdisjoint : off' + n' ≤ off ∨ off + n ≤ off') :
    copyInto off n src (copyInto off' n' src' l) =
      copyInto off' n' src' (copyInto off n src l) := by
  apply List.ext_getElem?
  intro i
  rw [getElem?_copyInto (by rwa [length_copyInto hin']), getElem?_copyInto hin',
    getElem?_copyInto (by rwa [length_copyInto hin]), getElem?_copyInto hin, List.length_take,
    List.length_take]
  by_cases hi : off ≤ i ∧ i < off + min n src.length
  · rw [if_pos hi, if_pos hi, if_neg (by omega)]
  · rw [if_neg hi, if_neg hi]

end Copy
end StandaloneDHCP.Lib
