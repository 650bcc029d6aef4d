import StandaloneDHCP.Wire.Packet

/-! `net.ParseIP`: dotted IPv4 and colon-separated IPv6 text. The result is the 16-byte form, in
which an IPv4 address stands behind the mapping `::ffff:0:0/96`. Addresses with a zone are
refused. Each loop of the parser is a recursion on the text that is left. -/
namespace StandaloneDHCP
set_option autoImplicit false

/-- The twelve bytes before the IPv4 address in its 16-byte form. -/
def v4InV6Prefix : Bytes := List.replicate 10 0 ++ [0xff, 0xff]

/-- `net.IP.Equal`: an IPv4 address is equal to its 16-byte form. -/
def ipEqual (ip x : Bytes) : Bool :=
  if ip.length = x.length then ip = x
  else if ip.length = 4 ∧ x.length = 16 then x.take 12 = v4InV6Prefix ∧ ip = x.drop 12
  else if ip.length = 16 ∧ x.length = 4 then ip.take 12 = v4InV6Prefix ∧ ip.drop 12 = x
  else false

theorem ipEqual_of_length {ip x : Bytes} (hlen : ip.length = x.length) :
    ipEqual ip x = decide (ip = x) := by
  rw [ipEqual, if_pos hlen]

def decimalDigit (c : Char) : ℕ := c.toNat - '0'.toNat

/-- The loop over the characters of a dotted address: the value and the number of digits of the
current octet, and the octets before it. -/
def parseIPv4Loop : List Char → ℕ → ℕ → Bytes → Option Bytes
  | [], val, _, fields =>
    if fields.length < 3 then none else some (fields ++ [UInt8.ofNat val])
  | c :: rest, val, digLen, fields =>
    if c.isDigit then
      if digLen = 1 ∧ val = 0 then none
      else if 255 < val * 10 + decimalDigit c then none
      else parseIPv4Loop rest (val * 10 + decimalDigit c) (digLen + 1) fields
    else if c = '.' then
      if digLen = 0 ∨ rest = [] then none
      else if fields.length = 3 then none
      else parseIPv4Loop rest 0 0 (fields ++ [UInt8.ofNat val])
    else none

def parseIPv4 (s : List Char) : Option Bytes := parseIPv4Loop s 0 0 []

def hexValue (c : Char) : Option ℕ :=
  if '0' ≤ c ∧ c ≤ '9' then some (c.toNat - '0'.toNat)
  else if 'a' ≤ c ∧ c ≤ 'f' then some (c.toNat - 'a'.toNat + 10)
  else if 'A' ≤ c ∧ c ≤ 'F' then some (c.toNat - 'A'.toNat + 10)
  else none

def isHex (c : Char) : Bool := (hexValue c).isSome

def hexNumber (digits : List Char) : ℕ :=
  digits.foldl (fun acc c => acc * 16 + (hexValue c).getD 0) 0

/-- What follows a 16-bit group: the text that is left and the position of the `::`. `none` if
this is not the end and not a colon with something behind it. -/
def afterGroup (s : List Char) (size : ℕ) (ellipsis : Option ℕ) :
    Option (List Char × Option ℕ) :=
  match s with
  | [] => some ([], ellipsis)
  | ':' :: ':' :: rest => if ellipsis.isSome then none else some (rest, some size)
  | ':' :: c :: rest => some (c :: rest, ellipsis)
  | _ => none

/-- The loop over the groups of an IPv6 address. The first argument is the number of groups that
still have room; the result is the bytes, the position of the `::` and the text left over. -/
def parseIPv6Loop : ℕ → List Char → Bytes → Option ℕ → Option (Bytes × Option ℕ × List Char)
  | 0, s, ip, ellipsis => some (ip, ellipsis, s)
  | room + 1, s, ip, ellipsis =>
    let digits := s.takeWhile isHex
    let rest := s.dropWhile isHex
    if digits = [] ∨ 4 < digits.length then none
    else if rest.head? = some '.' then
      if (ellipsis = none ∧ ip.length ≠ 12) ∨ 16 < ip.length + 4 then none
      else (parseIPv4 s).map fun v4 => (ip ++ v4, ellipsis, [])
    else
      let acc := hexNumber digits
      let ip := ip ++ [UInt8.ofNat (acc / 256), UInt8.ofNat acc]
      match afterGroup rest ip.length ellipsis with
      | none => none
      | some ([], ellipsis) => some (ip, ellipsis, [])
      | some (s, ellipsis) => parseIPv6Loop room s ip ellipsis

/-- The zeros that `::` stands for; it stands for at least one group. -/
def expandEllipsis (ip : Bytes) : Option ℕ → Option Bytes
  | none => if ip.length < 16 then none else some ip
  | some ellipsis =>
    if ip.length < 16 then
      some (ip.take ellipsis ++ List.replicate (16 - ip.length) 0 ++ ip.drop ellipsis)
    else none

def parseIPv6 (s : List Char) : Option Bytes :=
  if '%' ∈ s then none
  else
    match s with
    | [':', ':'] => some (List.replicate 16 0)
    | _ =>
      let start := match s with
        | ':' :: ':' :: rest => (rest, some 0)
        | s => (s, none)
      match parseIPv6Loop 8 start.1 [] start.2 with
      | some (ip, ellipsis, []) => expandEllipsis ip ellipsis
      | _ => none

def parseIP (s : String) : Option Bytes :=
  match s.toList.find? fun c => c == '.' || c == ':' || c == '%' with
  | some '.' => (parseIPv4 s.toList).map (v4InV6Prefix ++ ·)
  | some ':' => parseIPv6 s.toList
  | _ => none

/-- The four bytes of an IPv4 address that `net.ParseIP` accepts. -/
def parseTo4 (s : String) : Option Bytes := (parseIP s).bind to4

/-! ## The length of the result -/

theorem length_parseIPv4Loop (s : List Char) : ∀ (val digLen : ℕ) (fields ip : Bytes),
    fields.length ≤ 3 → parseIPv4Loop s val digLen fields = some ip → ip.length = 4 := by
  induction s with
  | nil =>
    intro val digLen fields ip hle hip
    rw [parseIPv4Loop] at hip
    split at hip
    · cases hip
    · cases hip
      simp only [List.length_append, List.length_cons, List.length_nil]
      omega
  | cons c rest ih =>
    intro val digLen fields ip hle hip
    rw [parseIPv4Loop] at hip
    split at hip
    · split at hip
      · cases hip
      · split at hip
        · cases hip
        · exact ih _ _ _ _ hle hip
    · split at hip
      · split at hip
        · cases hip
        · split at hip
          · cases hip
          · refine ih _ _ _ _ ?_ hip
            simp only [List.length_append, List.length_cons, List.length_nil]
            omega
      · cases hip

theorem length_parseIPv4 {s : List Char} {ip : Bytes} (hip : parseIPv4 s = some ip) :
    ip.length = 4 :=
  length_parseIPv4Loop s 0 0 [] ip (by simp) hip

theorem length_parseIPv6Loop (room : ℕ) : ∀ (s : List Char) (ip : Bytes) (ellipsis : Option ℕ)
    (r : Bytes × Option ℕ × List Char), ip.length + 2 * room ≤ 16 →
    parseIPv6Loop room s ip ellipsis = some r → r.1.length ≤ 16 := by
  induction room with
  | zero =>
    intro s ip ellipsis r hle hr
    cases hr
    exact hle
  | succ room ih =>
    intro s ip ellipsis r hle hr
    have hgroup : ∀ acc : ℕ,
        (ip ++ [UInt8.ofNat (acc / 256), UInt8.ofNat acc]).length + 2 * room ≤ 16 := fun acc => by
      simp only [List.length_append, List.length_cons, List.length_nil]
      omega
    simp only [parseIPv6Loop] at hr
    split at hr
    · cases hr
    · split at hr
      · split at hr
        · cases hr
        · next hroom =>
          -- the dotted tail: its four bytes fit
          obtain ⟨v4, hv4, rfl⟩ := Option.map_eq_some_iff.mp hr
          rw [List.length_append, length_parseIPv4 hv4]
          omega
      · split at hr
        · cases hr
        · cases hr
          exact Nat.le_of_add_right_le (hgroup _)
        · exact ih _ _ _ _ (hgroup _) hr

theorem length_expandEllipsis {ip ip' : Bytes} {ellipsis : Option ℕ} (hle : ip.length ≤ 16)
    (hip : expandEllipsis ip ellipsis = some ip') : ip'.length = 16 := by
  cases ellipsis with
  | none =>
    rw [expandEllipsis] at hip
    split at hip
    · cases hip
    · cases hip
      omega
  | some position =>
    rw [expandEllipsis] at hip
    split at hip
    · cases hip
      simp only [List.length_append, List.length_take, List.length_replicate, List.length_drop]
      omega
    · cases hip

theorem length_parseIPv6 {s : List Char} {ip : Bytes} (hip : parseIPv6 s = some ip) :
    ip.length = 16 := by
  unfold parseIPv6 at hip
  split at hip
  · cases hip
  · split at hip
    · cases hip
      rfl
    · simp only at hip
      split at hip
      · next hloop =>
        exact length_expandEllipsis (length_parseIPv6Loop 8 _ [] _ _ (by simp) hloop) hip
      · cases hip

theorem length_parseIP {s : String} {ip : Bytes} (hip : parseIP s = some ip) : ip.length = 16 := by
  unfold parseIP at hip
  split at hip
  · obtain ⟨v4, hv4, rfl⟩ := Option.map_eq_some_iff.mp hip
    rw [List.length_append, length_parseIPv4 hv4]
    rfl
  · exact length_parseIPv6 hip
  · cases hip

theorem to4_eq_some {ip v4 : Bytes} :
    to4 ip = some v4 ↔ ip.length = 4 ∧ ip = v4 ∨
      ip.length = 16 ∧ ip.take 12 = v4InV6Prefix ∧ ip.drop 12 = v4 := by
  unfold to4
  split
  · next hlen => simp [hlen]
  · next hlen =>
    split
    · next hmapped => simp [hmapped.1, hmapped.2, v4InV6Prefix]
    · next hother =>
      have hnot : ¬ (ip.length = 16 ∧ ip.take 12 = v4InV6Prefix) := hother
      simp only [reduceCtorEq, hlen, false_and, false_or, false_iff]
      exact fun h => hnot ⟨h.1, h.2.1⟩

theorem length_to4 {ip v4 : Bytes} (hv : to4 ip = some v4) : v4.length = 4 := by
  rcases to4_eq_some.mp hv with ⟨hlen, rfl⟩ | ⟨hlen, -, rfl⟩
  · exact hlen
  · rw [List.length_drop, hlen]

theorem length_parseTo4 {s : String} {v4 : Bytes} (hv : parseTo4 s = some v4) :
    v4.length = 4 := by
  obtain ⟨ip, -, hip⟩ := Option.bind_eq_some_iff.mp hv
  exact length_to4 hip

theorem to4_mapped {v4 : Bytes} (hlen : v4.length = 4) : to4 (v4InV6Prefix ++ v4) = some v4 := by
  have hlen' : (v4InV6Prefix ++ v4).length = 16 := by
    rw [List.length_append, hlen]
    rfl
  have htake : (v4InV6Prefix ++ v4).take 12 = v4InV6Prefix := List.take_left' rfl
  have hdrop : (v4InV6Prefix ++ v4).drop 12 = v4 := List.drop_left' rfl
  rw [to4, if_neg (by omega), if_pos ⟨hlen', htake⟩, hdrop]

/-- A parsed address that has four bytes is their 16-byte form. -/
theorem parseIP_of_parseTo4 {s : String} {v4 : Bytes} (hv : parseTo4 s = some v4) :
    parseIP s = some (v4InV6Prefix ++ v4) := by
  obtain ⟨ip, hip, hto4⟩ := Option.bind_eq_some_iff.mp hv
  have hlen := length_parseIP hip
  rw [to4, if_neg (by omega)] at hto4
  split at hto4
  · next hmapped =>
    cases hto4
    have hprefix : ip.take 12 = v4InV6Prefix := hmapped.2
    rw [hip, ← hprefix, List.take_append_drop]
  · cases hto4

example : parseTo4 "192.168.1.10" = some [192, 168, 1, 10] := by decide
example : parseTo4 "::ffff:10.0.0.1" = some [10, 0, 0, 1] := by decide
example : parseTo4 "::ffff:a00:1" = some [10, 0, 0, 1] := by decide
example : parseIP "fe80::1" = some (0xfe :: 0x80 :: List.replicate 13 0 ++ [1]) := by decide
example : parseTo4 "fe80::1" = none := by decide
example : parseIP "10.0.01.1" = none := by decide

end StandaloneDHCP
