import StandaloneDHCP.Wire.AddressText

/-! The text of a hardware address: pairs of hex digits in either case, with colons between them.
`hexChars` of the bytes is the spelling without capitals, and the only one. -/
namespace StandaloneDHCP
set_option autoImplicit false

def hexByte (a b : Char) : Option UInt8 :=
  (hexValue a).bind fun hi => (hexValue b).map fun lo => UInt8.ofNat (hi * 16 + lo)

/-- `colons + 1` pairs of hex digits. -/
def hexPairs : ℕ → List Char → Option Bytes
  | 0, [a, b] => (hexByte a b).map fun x => [x]
  | colons + 1, a :: b :: c :: rest =>
    if c = ':' then (hexByte a b).bind fun x => (hexPairs colons rest).map (x :: ·) else none
  | _, _ => none

/-- The six bytes that a text denotes. -/
def parseMAC (s : List Char) : Option Bytes := hexPairs 5 s

theorem hexPairs_zero_eq_some {s : List Char} {bs : Bytes} (h : hexPairs 0 s = some bs) :
    ∃ a b x, s = [a, b] ∧ bs = [x] ∧ hexByte a b = some x := by
  unfold hexPairs at h
  split at h
  · obtain ⟨x, hx, rfl⟩ := Option.map_eq_some_iff.mp h
    exact ⟨_, _, x, rfl, rfl, hx⟩
  · next heq => cases heq
  · cases h

theorem hexPairs_succ_eq_some {colons : ℕ} {s : List Char} {bs : Bytes}
    (h : hexPairs (colons + 1) s = some bs) :
    ∃ a b rest x xs, s = a :: b :: ':' :: rest ∧ bs = x :: xs ∧ hexByte a b = some x ∧
      hexPairs colons rest = some xs := by
  unfold hexPairs at h
  split at h
  · next heq => cases heq
  · next heq =>
    cases heq
    split at h
    · next hc =>
      obtain ⟨x, hx, hrest⟩ := Option.bind_eq_some_iff.mp h
      obtain ⟨xs, hxs, rfl⟩ := Option.map_eq_some_iff.mp hrest
      exact ⟨_, _, _, x, xs, by rw [hc], rfl, hx, hxs⟩
    · cases h
  · cases h

theorem length_of_hexPairs {colons : ℕ} {s : List Char} {bs : Bytes}
    (h : hexPairs colons s = some bs) : s.length = 3 * colons + 2 ∧ bs.length = colons + 1 := by
  induction colons generalizing s bs with
  | zero =>
    obtain ⟨a, b, x, rfl, rfl, -⟩ := hexPairs_zero_eq_some h
    exact ⟨rfl, rfl⟩
  | succ colons ih =>
    obtain ⟨a, b, rest, x, xs, rfl, rfl, -, hrest⟩ := hexPairs_succ_eq_some h
    obtain ⟨hs, hbs⟩ := ih hrest
    simp only [List.length_cons]
    omega

/-! ## Digits -/

theorem toNat_lt_of_hexValue {c : Char} {v : ℕ} (h : hexValue c = some v) : c.toNat < 128 := by
  have hle : ∀ {d : Char}, c ≤ d → c.toNat ≤ d.toNat := fun hcd => UInt32.le_iff_toNat_le.mp hcd
  unfold hexValue at h
  split at h
  · next hc => exact (hle hc.2).trans_lt (by decide)
  · split at h
    · next hc => exact (hle hc.2).trans_lt (by decide)
    · split at h
      · next hc => exact (hle hc.2).trans_lt (by decide)
      · cases h

theorem mem_hexDigits {c : Char} {v : ℕ} (h : hexValue c = some v) :
    c ∈ "0123456789abcdefABCDEF".toList := by
  have hall : ∀ n < 128, (hexValue (Char.ofNat n)).isSome = true →
      Char.ofNat n ∈ "0123456789abcdefABCDEF".toList := by decide +kernel
  have hc := hall c.toNat (toNat_lt_of_hexValue h)
  rw [Char.ofNat_toNat, h] at hc
  exact hc rfl

theorem hexByte_eq_some {a b : Char} {x : UInt8} (h : hexByte a b = some x) :
    ∃ hi lo, hexValue a = some hi ∧ hexValue b = some lo ∧ x.toNat / 16 = hi ∧
      x.toNat % 16 = lo := by
  have hall : ("0123456789abcdefABCDEF".toList.all fun c => (hexValue c).getD 0 < 16) = true := by
    decide
  have hlt : ∀ c ∈ "0123456789abcdefABCDEF".toList, (hexValue c).getD 0 < 16 := fun c hc =>
    of_decide_eq_true (List.all_eq_true.mp hall c hc)
  obtain ⟨hi, hhi, hb⟩ := Option.bind_eq_some_iff.mp h
  obtain ⟨lo, hlo, rfl⟩ := Option.map_eq_some_iff.mp hb
  have h₁ := hlt a (mem_hexDigits hhi)
  have h₂ := hlt b (mem_hexDigits hlo)
  rw [hhi] at h₁
  rw [hlo] at h₂
  simp only [Option.getD_some] at h₁ h₂
  refine ⟨hi, lo, hhi, hlo, ?_, ?_⟩ <;> rw [UInt8.toNat_ofNat'] <;> omega

theorem hexDigit_hexValue {c : Char} {v : ℕ} (h : hexValue c = some v) :
    hexDigit v = c ↔ c.isUpper = false := by
  have hall : ("0123456789abcdefABCDEF".toList.all fun c =>
      (hexDigit ((hexValue c).getD 0) = c ↔ c.isUpper = false)) = true := by decide
  have hc := of_decide_eq_true (List.all_eq_true.mp hall c (mem_hexDigits h))
  rwa [h, Option.getD_some] at hc

theorem hexDigit_toLower {c : Char} {v : ℕ} (h : hexValue c = some v) : c.toLower = hexDigit v := by
  have hall : ("0123456789abcdefABCDEF".toList.all fun c =>
      c.toLower = hexDigit ((hexValue c).getD 0)) = true := by decide
  have hc := of_decide_eq_true (List.all_eq_true.mp hall c (mem_hexDigits h))
  rwa [h, Option.getD_some] at hc

theorem hexByte_chars {a b : Char} {x : UInt8} (h : hexByte a b = some x) :
    (hexDigit (x.toNat / 16) = a ∧ hexDigit (x.toNat % 16) = b) ↔
      a.isUpper = false ∧ b.isUpper = false := by
  obtain ⟨hi, lo, hhi, hlo, rfl, rfl⟩ := hexByte_eq_some h
  rw [hexDigit_hexValue hhi, hexDigit_hexValue hlo]

theorem hexByte_isHex {a b : Char} {x : UInt8} (h : hexByte a b = some x) :
    isHex a = true ∧ isHex b = true := by
  obtain ⟨hi, lo, hhi, hlo, -, -⟩ := hexByte_eq_some h
  rw [isHex, isHex, hhi, hlo]
  exact ⟨rfl, rfl⟩

/-! ## Spelling -/

theorem chars_of_hexPairs {colons : ℕ} {s : List Char} {bs : Bytes}
    (h : hexPairs colons s = some bs) : ∀ c ∈ s, isHex c = true ∨ c = ':' := by
  induction colons generalizing s bs with
  | zero =>
    obtain ⟨a, b, x, rfl, rfl, hx⟩ := hexPairs_zero_eq_some h
    obtain ⟨ha, hb⟩ := hexByte_isHex hx
    simp [ha, hb]
  | succ colons ih =>
    obtain ⟨a, b, rest, x, xs, rfl, rfl, hx, hrest⟩ := hexPairs_succ_eq_some h
    obtain ⟨ha, hb⟩ := hexByte_isHex hx
    simpa [ha, hb] using ih hrest

theorem hexChars_cons {x : UInt8} {xs : Bytes} (hxs : xs ≠ []) : hexChars (x :: xs) =
    hexDigit (x.toNat / 16) :: hexDigit (x.toNat % 16) :: ':' :: hexChars xs := by
  cases xs with
  | nil => exact absurd rfl hxs
  | cons y ys => rfl

theorem isUpper_hexDigit {n : ℕ} (hn : n < 16) : (hexDigit n).isUpper = false := by
  have hfin : ∀ a : Fin 16, (hexDigit a).isUpper = false := by decide
  exact hfin ⟨n, hn⟩

theorem isUpper_of_mem_hexChars (bs : Bytes) : ∀ c ∈ hexChars bs, c.isUpper = false := by
  induction bs with
  | nil => simp [hexChars]
  | cons x xs ih =>
    have hx := x.toNat_lt
    have hhi := isUpper_hexDigit (by omega : x.toNat / 16 < 16)
    have hlo := isUpper_hexDigit (by omega : x.toNat % 16 < 16)
    by_cases hxs : xs = []
    · subst hxs
      simp [hexChars, hhi, hlo]
    · have hcolon : ':'.isUpper = false := by decide
      rw [hexChars_cons hxs]
      simp only [List.forall_mem_cons]
      exact ⟨hhi, hlo, hcolon, ih⟩

/-- A text is the printed form of its bytes if and only if it has no capitals. -/
theorem hexChars_eq_iff {colons : ℕ} {s : List Char} {bs : Bytes}
    (h : hexPairs colons s = some bs) : hexChars bs = s ↔ ∀ c ∈ s, c.isUpper = false := by
  induction colons generalizing s bs with
  | zero =>
    obtain ⟨a, b, x, rfl, rfl, hx⟩ := hexPairs_zero_eq_some h
    have hchars := hexByte_chars hx
    simpa [hexChars] using hchars
  | succ colons ih =>
    obtain ⟨a, b, rest, x, xs, rfl, rfl, hx, hrest⟩ := hexPairs_succ_eq_some h
    have hchars := hexByte_chars hx
    have hne : xs ≠ [] := by
      rintro rfl
      cases (length_of_hexPairs hrest).2
    rw [hexChars_cons hne]
    simp only [List.cons.injEq, true_and, List.forall_mem_cons, ih hrest]
    rw [← and_assoc, hchars, and_assoc]
    have hcolon : ':'.isUpper = false := by decide
    simp only [hcolon, true_and]

/-- Every spelling has the printed form in lower case. -/
theorem map_toLower_of_hexPairs {colons : ℕ} {s : List Char} {bs : Bytes}
    (h : hexPairs colons s = some bs) : s.map Char.toLower = hexChars bs := by
  induction colons generalizing s bs with
  | zero =>
    obtain ⟨a, b, x, rfl, rfl, hx⟩ := hexPairs_zero_eq_some h
    obtain ⟨hi, lo, hhi, hlo, rfl, rfl⟩ := hexByte_eq_some hx
    simp [hexChars, hexDigit_toLower hhi, hexDigit_toLower hlo]
  | succ colons ih =>
    obtain ⟨a, b, rest, x, xs, rfl, rfl, hx, hrest⟩ := hexPairs_succ_eq_some h
    obtain ⟨hi, lo, hhi, hlo, rfl, rfl⟩ := hexByte_eq_some hx
    have hne : xs ≠ [] := by
      rintro rfl
      cases (length_of_hexPairs hrest).2
    have hcolon : ':'.toLower = ':' := by decide
    rw [hexChars_cons hne, ← ih hrest]
    simp [hexDigit_toLower hhi, hexDigit_toLower hlo, hcolon]

/-- The printed form denotes its bytes and no others. -/
theorem eq_of_hexPairs_hexChars {colons : ℕ} {as bs : Bytes}
    (h : hexPairs colons (hexChars as) = some bs) : as = bs :=
  hexChars_inj ((hexChars_eq_iff h).mpr (isUpper_of_mem_hexChars as)).symm

end StandaloneDHCP
