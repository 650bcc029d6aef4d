import StandaloneDHCP.Wire.AddressText

/-! `net.IP` as text. `ipText` is `net.IP.String`: dotted for IPv4 addresses and their 16-byte
form, colon-separated with the longest run of zero groups left out for the others. On the dotted
side the parser is met from both ends: what it accepts is four runs of one to three digits, and
it reads back every address that is printed. -/
namespace StandaloneDHCP
set_option autoImplicit false

/-! ## Printing -/

def dottedText (v4 : Bytes) : String := ".".intercalate (v4.map fun b => toString b.toNat)

/-- The 16-bit groups of an address. -/
def ipv6Groups : Bytes → List ℕ
  | hi :: lo :: rest => (hi.toNat * 256 + lo.toNat) :: ipv6Groups rest
  | _ => []

/-- The start and the end of the longest run of at least two zero groups, the first of them if
there are several. -/
def zeroRun (groups : List ℕ) : Option (ℕ × ℕ) :=
  (List.range groups.length).foldl (fun run i =>
    let j := i + ((groups.drop i).takeWhile (· = 0)).length
    let longest := match run with
      | some (zeroStart, zeroEnd) => zeroEnd - zeroStart
      | none => 0
    if 2 ≤ j - i ∧ longest < j - i then some (i, j) else run) none

def groupsText (groups : List ℕ) : String :=
  ":".intercalate (groups.map fun g => String.ofList (Nat.toDigits 16 g))

def ipv6Text (ip : Bytes) : String :=
  let groups := ipv6Groups ip
  match zeroRun groups with
  | some (zeroStart, zeroEnd) =>
    groupsText (groups.take zeroStart) ++ "::" ++ groupsText (groups.drop zeroEnd)
  | none => groupsText groups

/-- `net.IP.String`; `nil` is the empty byte string. -/
def ipText (ip : Bytes) : String :=
  if ip.length = 0 then "<nil>"
  else if ip.length ≠ 4 ∧ ip.length ≠ 16 then
    "?" ++ String.ofList (ip.flatMap fun b => [hexDigit (b.toNat / 16), hexDigit (b.toNat % 16)])
  else
    match to4 ip with
    | some p4 => dottedText p4
    | none => ipv6Text ip

theorem ipText_mapped (a : IPv4) : ipText (v4InV6Prefix ++ beBytes a) = ipString a := by
  have hlen : (v4InV6Prefix ++ beBytes a).length = 16 := rfl
  rw [ipText, hlen, to4_mapped (length_beBytes a)]
  rfl

example : ipText [] = "<nil>" := by decide
example : ipText (0xfe :: 0x80 :: List.replicate 13 0 ++ [1]) = "fe80::1" := by decide
example : ipText (List.replicate 16 0) = "::" := by decide

/-! ## What the parser accepts -/

/-- One octet of a dotted address: one to three digits. -/
structure OctetRun (digits : List Char) : Prop where
  nonempty : digits ≠ []
  length_le : digits.length ≤ 3
  digit : ∀ c ∈ digits, c.isDigit = true

/-- Runs of digits with `dots` dots between them. -/
inductive Dotted : ℕ → List Char → Prop
  | last {digits : List Char} : OctetRun digits → Dotted 0 digits
  | dot {digits s : List Char} {dots : ℕ} : OctetRun digits → Dotted dots s →
      Dotted (dots + 1) (digits ++ '.' :: s)

/-- `digits` are the characters of the current octet that the loop has passed. Two of them mean a
value of 10 or more since the first is not a zero, three a value of 100 or more, and a fourth one
exceeds 255. -/
theorem dotted_of_parseIPv4Loop (s : List Char) : ∀ (val : ℕ) (digits : List Char)
    (fields v4 : Bytes), (∀ c ∈ digits, c.isDigit = true) → digits.length ≤ 3 →
    (2 ≤ digits.length → 10 ≤ val) → (3 ≤ digits.length → 100 ≤ val) →
    (s ≠ [] ∨ digits ≠ []) → fields.length ≤ 3 →
    parseIPv4Loop s val digits.length fields = some v4 →
    Dotted (3 - fields.length) (digits ++ s) := by
  induction s with
  | nil =>
    intro val digits fields v4 hdigit hlen _ _ hne hfields hv
    rw [parseIPv4Loop] at hv
    split at hv
    · cases hv
    · have hdots : 3 - fields.length = 0 := by omega
      rw [List.append_nil, hdots]
      exact .last ⟨hne.resolve_left fun h => h rfl, hlen, hdigit⟩
  | cons c rest ih =>
    intro val digits fields v4 hdigit hlen hten hhundred _ hfields hv
    rw [parseIPv4Loop] at hv
    split at hv
    · next hc =>
      split at hv
      · cases hv
      · next hzero =>
        split at hv
        · cases hv
        · next hval =>
          have hlen' : (digits ++ [c]).length = digits.length + 1 := by simp
          have hstep := ih (val * 10 + decimalDigit c) (digits ++ [c]) fields v4 ?_ ?_ ?_ ?_
            (.inr (by simp)) hfields (by rw [hlen']; exact hv)
          · rwa [List.append_assoc, List.singleton_append] at hstep
          · intro d hd
            rcases List.mem_append.mp hd with hd | hd
            · exact hdigit d hd
            · rw [List.mem_singleton.mp hd]
              exact hc
          all_goals omega
    · split at hv
      · next hc =>
        subst hc
        split at hv
        · cases hv
        · next hrest =>
          split at hv
          · cases hv
          · next hthree =>
            have hstep := ih 0 [] (fields ++ [UInt8.ofNat val]) v4 (by simp) (by simp)
              (by simp) (by simp) (.inl fun h => hrest (.inr h)) (by simp; omega) hv
            have hdots : 3 - fields.length = 3 - (fields ++ [UInt8.ofNat val]).length + 1 := by
              simp only [List.length_append, List.length_cons, List.length_nil]
              omega
            rw [hdots]
            refine .dot ⟨fun h => hrest (.inl ?_), hlen, hdigit⟩ hstep
            rw [h, List.length_nil]
      · cases hv

theorem dotted_of_parseIPv4 {s : List Char} {v4 : Bytes} (hv : parseIPv4 s = some v4) :
    Dotted 3 s := by
  have hne : s ≠ [] := by
    rintro rfl
    cases hv
  exact dotted_of_parseIPv4Loop s 0 [] [] v4 (by simp) (by simp) (by simp) (by simp)
    (.inl hne) (by simp) hv

theorem Dotted.chars {dots : ℕ} {s : List Char} (h : Dotted dots s) :
    ∀ c ∈ s, c.isDigit = true ∨ c = '.' := by
  induction h with
  | last hrun => exact fun c hc => .inl (hrun.digit c hc)
  | dot hrun _ ih =>
    intro c hc
    rcases List.mem_append.mp hc with hc | hc
    · exact .inl (hrun.digit c hc)
    · rcases List.mem_cons.mp hc with rfl | hc
      · exact .inr rfl
      · exact ih c hc

theorem Dotted.notMem {dots : ℕ} {s : List Char} (h : Dotted dots s) {c : Char}
    (hdigit : c.isDigit = false) (hdot : c ≠ '.') : c ∉ s := fun hc => by
  rcases h.chars c hc with hd | hd
  · rw [hdigit] at hd
    cases hd
  · exact hdot hd

/-- The parser sees the dot before any colon. -/
theorem Dotted.find_separator {dots : ℕ} {s : List Char} (h : Dotted (dots + 1) s) :
    s.find? (fun c => c == '.' || c == ':' || c == '%') = some '.' := by
  obtain - | ⟨hrun, _⟩ := h
  rw [List.find?_append, List.find?_eq_none.mpr, Option.none_or]
  · rfl
  · intro c hc
    have hdigit := hrun.digit c hc
    have hne : ∀ d : Char, d.isDigit = false → (c == d) = false := fun d hd => by
      rw [beq_eq_false_iff_ne]
      rintro rfl
      rw [hdigit] at hd
      cases hd
    rw [hne '.' (by decide), hne ':' (by decide), hne '%' (by decide)]
    decide

theorem parseIP_of_parseIPv4 {s : List Char} {v4 : Bytes} (hv : parseIPv4 s = some v4) :
    parseIP (String.ofList s) = some (v4InV6Prefix ++ v4) := by
  rw [parseIP, String.toList_ofList, (dotted_of_parseIPv4 hv).find_separator]
  simp only [hv, Option.map_some]

theorem parseTo4_of_parseIPv4 {s : List Char} {v4 : Bytes} (hv : parseIPv4 s = some v4) :
    parseTo4 (String.ofList s) = some v4 := by
  rw [parseTo4, parseIP_of_parseIPv4 hv]
  exact to4_mapped (length_parseIPv4 hv)

/-! ## Reading back what is printed -/

theorem isDigit_digitChar {d : ℕ} (hd : d < 10) : (Nat.digitChar d).isDigit = true := by
  have hfin : ∀ d : Fin 10, (Nat.digitChar d).isDigit = true := by decide
  exact hfin ⟨d, hd⟩

theorem decimalDigit_digitChar {d : ℕ} (hd : d < 10) : decimalDigit (Nat.digitChar d) = d := by
  have hfin : ∀ d : Fin 10, decimalDigit (Nat.digitChar d) = d := by decide
  exact hfin ⟨d, hd⟩

/-- The loop over the digits of one octet. -/
theorem parseIPv4Loop_toDigits (n : ℕ) (hn : n ≤ 255) (rest : List Char) (fields : Bytes) :
    parseIPv4Loop (Nat.toDigits 10 n ++ rest) 0 0 fields =
      parseIPv4Loop rest n (Nat.toDigits 10 n).length fields := by
  induction n using Nat.strong_induction_on generalizing rest with
  | _ n ih =>
    by_cases hlt : n < 10
    · rw [Nat.toDigits_of_lt_base hlt, List.singleton_append, parseIPv4Loop,
        if_pos (isDigit_digitChar hlt), decimalDigit_digitChar hlt, if_neg (by omega),
        if_neg (by omega)]
      simp
    · -- the digits of `n / 10`, then the last one
      have hlast : n % 10 < 10 := Nat.mod_lt n (by decide)
      rw [Nat.toDigits_of_base_le (by decide) (by omega), List.append_assoc, List.singleton_append,
        ih (n / 10) (by omega) (by omega), parseIPv4Loop, if_pos (isDigit_digitChar hlast),
        decimalDigit_digitChar hlast, if_neg (by omega), if_neg (by omega), List.length_append,
        List.length_singleton]
      congr 1
      omega

theorem parseIPv4Loop_dot {n len : ℕ} {rest : List Char} {fields : Bytes} (hlen : len ≠ 0)
    (hrest : rest ≠ []) (hfields : fields.length ≠ 3) :
    parseIPv4Loop ('.' :: rest) n len fields =
      parseIPv4Loop rest 0 0 (fields ++ [UInt8.ofNat n]) := by
  rw [parseIPv4Loop, if_neg (by decide), if_pos rfl, if_neg (by tauto), if_neg hfields]

theorem parseIPv4_dottedText (w x y z : UInt8) :
    parseIPv4 (dottedText [w, x, y, z]).toList = some [w, x, y, z] := by
  have htext : (dottedText [w, x, y, z]).toList =
      Nat.toDigits 10 w.toNat ++ '.' :: (Nat.toDigits 10 x.toNat ++ '.' ::
        (Nat.toDigits 10 y.toNat ++ '.' :: (Nat.toDigits 10 z.toNat ++ []))) := by
    simp [dottedText, String.intercalate_cons_cons, String.intercalate_singleton]
  have hle : ∀ b : UInt8, b.toNat ≤ 255 := fun b => Nat.le_of_lt_succ b.toNat_lt
  rw [parseIPv4, htext]
  rw [parseIPv4Loop_toDigits _ (hle w), parseIPv4Loop_dot (by simp) (by simp) (by simp),
    parseIPv4Loop_toDigits _ (hle x), parseIPv4Loop_dot (by simp) (by simp) (by simp),
    parseIPv4Loop_toDigits _ (hle y), parseIPv4Loop_dot (by simp) (by simp) (by simp),
    parseIPv4Loop_toDigits _ (hle z), parseIPv4Loop]
  simp

theorem parseIP_ipText_mapped (a : IPv4) :
    parseIP (ipText (v4InV6Prefix ++ beBytes a)) = some (v4InV6Prefix ++ beBytes a) := by
  have hread : parseIPv4 (ipString a).toList = some (beBytes a) := parseIPv4_dottedText _ _ _ _
  have h := parseIP_of_parseIPv4 hread
  rwa [String.ofList_toList, ← ipText_mapped] at h

end StandaloneDHCP
