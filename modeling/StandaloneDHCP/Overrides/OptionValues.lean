import StandaloneDHCP.Overrides.Convert
import StandaloneDHCP.Wire.DottedText
import StandaloneDHCP.Wire.MacText

/-! Which texts `ConvertOptionToDHCP` accepts, and what they mean. Hex values are read through a
replacer that deletes `0x` wherever it finds it; a rendering of bytes never shows one across a
data digit. Address lists are read back by `tlvIpAddrt.String` (`dictionary.go`), which fills one
buffer of four bytes again and again. -/
namespace StandaloneDHCP
set_option autoImplicit false

/-! ## Hex values -/

/-- A byte as two hex digits in any case, with an optional `0x` or `0X` before them. -/
inductive HexPair : UInt8 → List Char → Prop
  | plain {b : UInt8} {hi lo : Char} (hbyte : hexByte hi lo = some b) : HexPair b [hi, lo]
  | lower {b : UInt8} {hi lo : Char} (hbyte : hexByte hi lo = some b) :
      HexPair b ['0', 'x', hi, lo]
  | upper {b : UInt8} {hi lo : Char} (hbyte : hexByte hi lo = some b) :
      HexPair b ['0', 'X', hi, lo]

def isSeparator (c : Char) : Bool := c = ':' ∨ c = '-' ∨ c = ' '

/-- A byte string as pairs with any run of separators between two of them. -/
inductive HexRendering : Bytes → List Char → Prop
  | empty : HexRendering [] []
  | last {b : UInt8} {pair : List Char} (hpair : HexPair b pair) : HexRendering [b] pair
  | next {b b' : UInt8} {bs : Bytes} {pair run rest : List Char} (hpair : HexPair b pair)
      (hrun : ∀ c ∈ run, isSeparator c = true) (hrest : HexRendering (b' :: bs) rest) :
      HexRendering (b :: b' :: bs) (pair ++ run ++ rest)

/-- Where the replacer cannot complete a `0x` with the character before. -/
def NoX (s : List Char) : Prop := s.head? ≠ some 'x' ∧ s.head? ≠ some 'X'

theorem isHex_ne_x {c : Char} (hc : isHex c = true) : c ≠ 'x' ∧ c ≠ 'X' := by
  constructor <;> rintro rfl <;> revert hc <;> decide

theorem isHex_not_separator {c : Char} (hc : isHex c = true) : ¬ (c = ':' ∨ c = '-' ∨ c = ' ') := by
  rintro (rfl | rfl | rfl) <;> revert hc <;> decide

/-- The replacer takes one character where no `0x` starts. -/
theorem hexCleaned_cons {c : Char} {rest : List Char} (h : c = '0' → NoX rest) :
    hexCleaned (c :: rest) =
      if c = ':' ∨ c = '-' ∨ c = ' ' then hexCleaned rest else c :: hexCleaned rest := by
  refine hexCleaned.eq_3 c rest ?_ ?_
  · rintro rest' hzero rfl
    exact (h hzero).1 rfl
  · rintro rest' hzero rfl
    exact (h hzero).2 rfl

theorem hexCleaned_digit {c : Char} {rest : List Char} (hc : isHex c = true) (hrest : NoX rest) :
    hexCleaned (c :: rest) = c :: hexCleaned rest := by
  rw [hexCleaned_cons fun _ => hrest, if_neg (isHex_not_separator hc)]

theorem hexCleaned_run {run rest : List Char} (hrun : ∀ c ∈ run, isSeparator c = true) :
    hexCleaned (run ++ rest) = hexCleaned rest := by
  induction run with
  | nil => rfl
  | cons c run ih =>
    have hc : c = ':' ∨ c = '-' ∨ c = ' ' := of_decide_eq_true (hrun c List.mem_cons_self)
    have hzero : c ≠ '0' := by
      rintro rfl
      revert hc
      decide
    rw [List.cons_append, hexCleaned_cons fun h => absurd h hzero, if_pos hc]
    exact ih fun d hd => hrun d (List.mem_cons_of_mem c hd)

theorem noX_run {run rest : List Char} (hrun : ∀ c ∈ run, isSeparator c = true)
    (hrest : NoX rest) : NoX (run ++ rest) := by
  cases run with
  | nil => exact hrest
  | cons c run =>
    have hc : isSeparator c = true := hrun c List.mem_cons_self
    constructor <;>
    · intro h
      obtain rfl := Option.some.inj h
      revert hc
      decide

theorem HexPair.noX {b : UInt8} {pair : List Char} (h : HexPair b pair) (rest : List Char) :
    NoX (pair ++ rest) := by
  cases h with
  | plain hbyte =>
    have hne := isHex_ne_x (hexByte_isHex hbyte).1
    exact ⟨fun h => hne.1 (Option.some.inj h), fun h => hne.2 (Option.some.inj h)⟩
  | lower | upper => exact ⟨by simp, by simp⟩

theorem HexRendering.noX {bs : Bytes} {s : List Char} (h : HexRendering bs s) : NoX s := by
  cases h with
  | empty => exact ⟨by decide, by decide⟩
  | last hpair =>
    have h := hpair.noX []
    rwa [List.append_nil] at h
  | next hpair hrun hrest =>
    rw [List.append_assoc]
    exact hpair.noX _

/-- What is left of a pair is its two digits. -/
theorem HexPair.hexCleaned {b : UInt8} {pair rest : List Char} (h : HexPair b pair)
    (hrest : NoX rest) :
    ∃ hi lo, hexByte hi lo = some b ∧
      StandaloneDHCP.hexCleaned (pair ++ rest) = hi :: lo :: StandaloneDHCP.hexCleaned rest := by
  have hdigits : ∀ {hi lo : Char}, hexByte hi lo = some b →
      StandaloneDHCP.hexCleaned (hi :: lo :: rest) =
        hi :: lo :: StandaloneDHCP.hexCleaned rest := by
    intro hi lo hbyte
    obtain ⟨hhi, hlo⟩ := hexByte_isHex hbyte
    have hne := isHex_ne_x hlo
    have hnoX : NoX (lo :: rest) :=
      ⟨fun h => hne.1 (Option.some.inj h), fun h => hne.2 (Option.some.inj h)⟩
    rw [hexCleaned_digit hhi hnoX, hexCleaned_digit hlo hrest]
  cases h with
  | plain hbyte => exact ⟨_, _, hbyte, hdigits hbyte⟩
  | lower hbyte => exact ⟨_, _, hbyte, hdigits hbyte⟩
  | upper hbyte => exact ⟨_, _, hbyte, hdigits hbyte⟩

theorem hexDecode_cons {hi lo : Char} {b : UInt8} {rest : List Char} {bs : Bytes}
    (hbyte : hexByte hi lo = some b) (hrest : hexDecode rest = some bs) :
    hexDecode (hi :: lo :: rest) = some (b :: bs) := by
  obtain ⟨x, hx, hmap⟩ := Option.bind_eq_some_iff.mp hbyte
  obtain ⟨y, hy, rfl⟩ := Option.map_eq_some_iff.mp hmap
  rw [hexDecode, hx, hy, hrest]

theorem hexDecode_rendering {bs : Bytes} {s : List Char} (h : HexRendering bs s) :
    hexDecode (hexCleaned s) = some bs := by
  induction h with
  | empty => rfl
  | last hpair =>
    obtain ⟨hi, lo, hbyte, hclean⟩ := hpair.hexCleaned HexRendering.empty.noX
    rw [List.append_nil] at hclean
    rw [hclean]
    exact hexDecode_cons hbyte rfl
  | next hpair hrun hrest ih =>
    obtain ⟨hi, lo, hbyte, hclean⟩ := hpair.hexCleaned (noX_run hrun hrest.noX)
    rw [List.append_assoc, hclean, hexCleaned_run hrun]
    exact hexDecode_cons hbyte ih

/-- Every rendering of a byte string is converted to exactly these bytes. -/
theorem convert_hex_rendering (bs : Bytes) (s : List Char) (h : HexRendering bs s) (code : Int) :
    convertOptionToDHCP ⟨code, String.ofList s, "hex"⟩ = .ok (UInt8.ofInt code, bs) := by
  have hvalue : convertValue "hex" (String.ofList s) = .ok bs := by
    rw [convertValue, convertHex, String.toList_ofList, hexDecode_rendering h]
  rw [convertOptionToDHCP, hvalue]

/-- A data digit `0` right before a prefix, and a pair that is `00` after one. -/
theorem convert_hex_rendering_zeros :
    convertOptionToDHCP ⟨43, "100x0f :-0X00", "hex"⟩ = .ok (43, [0x10, 0x0f, 0x00]) := by
  have hlast : HexRendering [0x00] ['0', 'X', '0', '0'] := .last (.upper (by decide))
  have hmiddle : HexRendering [0x0f, 0x00] (['0', 'x', '0', 'f'] ++ [' ', ':', '-'] ++ _) :=
    .next (.lower (by decide)) (by simp [isSeparator]) hlast
  have hall : HexRendering [0x10, 0x0f, 0x00] (['1', '0'] ++ [] ++ _) :=
    .next (.plain (by decide)) (by simp) hmiddle
  exact convert_hex_rendering _ _ hall 43

/-! ## Address lists -/

/-- The loop of `tlvIpAddrt.String`: `temp` is the one buffer, `i` the place in it that is
written next, and `j` stays zero until the first address is complete. -/
def ipAddrLoop : Bytes → Bytes → ℕ → ℕ → String → String
  | [], _, _, _, ips => ips
  | x :: a, temp, i, j, ips =>
    let temp := temp.set i x
    if i + 1 = 4 then
      if j = 0 then ipAddrLoop a temp 0 (j + 1) (ipText temp)
      else ipAddrLoop a temp 0 j (ips ++ "," ++ ipText temp)
    else ipAddrLoop a temp (i + 1) j ips

/-- `tlvIpAddrt.String`. -/
def tlvIpAddrString (a : Bytes) : String := ipAddrLoop a [0, 0, 0, 0] 0 0 ""

/-- The complete groups of four bytes. -/
def groupsOf4 : Bytes → List Bytes
  | w :: x :: y :: z :: rest => [w, x, y, z] :: groupsOf4 rest
  | _ => []

/-- Four rounds replace the whole buffer. -/
theorem ipAddrLoop_group {temp : Bytes} (hlen : temp.length = 4) (w x y z : UInt8) (rest : Bytes)
    (j : ℕ) (ips : String) :
    ipAddrLoop (w :: x :: y :: z :: rest) temp 0 j ips =
      if j = 0 then ipAddrLoop rest [w, x, y, z] 0 1 (dottedText [w, x, y, z])
      else ipAddrLoop rest [w, x, y, z] 0 j (ips ++ "," ++ dottedText [w, x, y, z]) := by
  obtain ⟨t₀, t₁, t₂, t₃, rfl⟩ := List.length_eq_four.mp hlen
  have htext : ipText [w, x, y, z] = dottedText [w, x, y, z] := rfl
  simp only [ipAddrLoop, List.set_cons_zero, List.set_cons_succ, Nat.reduceAdd, Nat.reduceEqDiff,
    if_false, if_true, htext]
  split
  · next hj => rw [hj]
  · rfl

/-- Fewer than four bytes write nothing. -/
theorem ipAddrLoop_short {a : Bytes} (hshort : ∀ w x y z rest, a ≠ w :: x :: y :: z :: rest)
    (temp : Bytes) (j : ℕ) (ips : String) : ipAddrLoop a temp 0 j ips = ips := by
  match a with
  | [] | [_] | [_, _] | [_, _, _] => rfl
  | w :: x :: y :: z :: rest => exact absurd rfl (hshort w x y z rest)

theorem ipAddrLoop_groups (a temp : Bytes) (hlen : temp.length = 4) (ips : String) :
    ipAddrLoop a temp 0 1 ips = ",".intercalate (ips :: (groupsOf4 a).map dottedText) := by
  fun_induction groupsOf4 a generalizing temp ips with
  | case1 w x y z rest ih =>
    -- the accumulator takes the next address, with a comma before it
    rw [ipAddrLoop_group hlen, if_neg (by decide), ih [w, x, y, z] rfl]
    rfl
  | case2 a hshort =>
    rw [ipAddrLoop_short hshort]
    rfl

theorem tlvIpAddrString_eq (a : Bytes) :
    tlvIpAddrString a = ",".intercalate ((groupsOf4 a).map dottedText) := by
  match a with
  | w :: x :: y :: z :: rest =>
    rw [tlvIpAddrString, ipAddrLoop_group rfl, if_pos rfl, ipAddrLoop_groups rest _ rfl]
    rfl
  | [] | [_] | [_, _] | [_, _, _] => rfl

theorem groupsOf4_flatMap (addresses : List IPv4) :
    (groupsOf4 (addresses.flatMap beBytes)).map dottedText = addresses.map ipString := by
  induction addresses with
  | nil => rfl
  | cons a addresses ih =>
    rw [List.flatMap_cons, List.map_cons, ← ih]
    rfl

/-! ### Lists as text -/

theorem trimSpace_padded {pre text post : List Char} (hpre : ∀ c ∈ pre, isSpace c = true)
    (hpost : ∀ c ∈ post, isSpace c = true) (htext : ∀ c ∈ text, isSpace c = false)
    (hne : text ≠ []) : trimSpace (pre ++ text ++ post) = text := by
  have hkeep : ∀ {l rest : List Char}, (∀ c ∈ l, isSpace c = false) → l ≠ [] →
      (l ++ rest).dropWhile isSpace = l ++ rest := by
    intro l rest hl hl'
    obtain ⟨c, l, rfl⟩ := List.exists_cons_of_ne_nil hl'
    rw [List.cons_append, List.dropWhile_cons_of_neg]
    rw [hl c List.mem_cons_self]
    exact Bool.false_ne_true
  have hpost' : ∀ c ∈ post.reverse, isSpace c = true := fun c hc => hpost c (List.mem_reverse.mp hc)
  have htext' : ∀ c ∈ text.reverse, isSpace c = false := fun c hc =>
    htext c (List.mem_reverse.mp hc)
  have hback : text.reverse.dropWhile isSpace = text.reverse := by
    have h : (text.reverse ++ []).dropWhile isSpace = text.reverse ++ [] :=
      hkeep htext' (by simpa using hne)
    rwa [List.append_nil] at h
  rw [trimSpace, List.append_assoc, List.dropWhile_append_of_pos hpre, hkeep htext hne,
    List.reverse_append, List.dropWhile_append_of_pos hpost', hback, List.reverse_reverse]

theorem parseIPv4_ipString (a : IPv4) : parseIPv4 (ipString a).toList = some (beBytes a) :=
  parseIPv4_dottedText _ _ _ _

theorem isSpace_of_isDigit {c : Char} (hc : c.isDigit = true) : isSpace c = false := by
  have hall : ∀ n < 58, (Char.ofNat n).isDigit = true → isSpace (Char.ofNat n) = false := by
    decide
  have hlt : c.toNat < 58 := by
    simp only [Char.isDigit, ge_iff_le, Bool.and_eq_true, decide_eq_true_eq] at hc
    exact Nat.lt_succ_of_le (UInt32.le_iff_toNat_le.mp hc.2)
  have h := hall c.toNat hlt
  rw [Char.ofNat_toNat] at h
  exact h hc

theorem Dotted.isSpace_eq_false {text : List Char} {dots : ℕ} (h : Dotted dots text) :
    ∀ c ∈ text, isSpace c = false := by
  intro c hc
  rcases h.chars c hc with hdigit | rfl
  · exact isSpace_of_isDigit hdigit
  · decide

/-- An address in canonical form with spaces around it. -/
structure PaddedAddress where
  pre : List Char
  address : IPv4
  post : List Char
  pre_space : ∀ c ∈ pre, isSpace c = true
  post_space : ∀ c ∈ post, isSpace c = true

def PaddedAddress.text (item : PaddedAddress) : List Char :=
  item.pre ++ (ipString item.address).toList ++ item.post

theorem PaddedAddress.trimSpace_text (item : PaddedAddress) :
    trimSpace item.text = (ipString item.address).toList := by
  have hread := parseIPv4_ipString item.address
  refine trimSpace_padded item.pre_space item.post_space
    (dotted_of_parseIPv4 hread).isSpace_eq_false ?_
  intro hnil
  rw [hnil] at hread
  cases hread

theorem PaddedAddress.comma_notMem (item : PaddedAddress) : ',' ∉ item.text := by
  have hdotted := dotted_of_parseIPv4 (parseIPv4_ipString item.address)
  have hcomma : isSpace ',' ≠ true := by decide
  simp only [PaddedAddress.text, List.mem_append, not_or]
  exact ⟨⟨fun h => hcomma (item.pre_space _ h), hdotted.notMem (by decide) (by decide)⟩,
    fun h => hcomma (item.post_space _ h)⟩

theorem convertIP_ipString (shown : String) (a : IPv4) :
    convertIP shown (ipString a) = .ok (beBytes a) := by
  have hparse := parseIP_of_parseIPv4 (parseIPv4_ipString a)
  rw [String.ofList_toList] at hparse
  simp only [convertIP, hparse, to4_mapped (length_beBytes a)]

theorem convertIPs_texts (items : List PaddedAddress) (result : Bytes) :
    convertIPs (items.map PaddedAddress.text) result =
      .ok (result ++ (items.map PaddedAddress.address).flatMap beBytes) := by
  induction items generalizing result with
  | nil => simp [convertIPs]
  | cons item items ih =>
    rw [List.map_cons, convertIPs, item.trimSpace_text, String.ofList_toList, convertIP_ipString]
    simp only [ih, List.map_cons, List.flatMap_cons, List.append_assoc]

/-- What is written as a list of addresses is sent as these addresses, and displayed as the
list; of any other value the complete addresses are displayed. -/
theorem address_list_round_trip (items : List PaddedAddress) (hne : items ≠ []) (code : Int) :
    convertOptionToDHCP
        ⟨code, String.ofList ([','].intercalate (items.map PaddedAddress.text)), "ips"⟩ =
      .ok (UInt8.ofInt code, (items.map PaddedAddress.address).flatMap beBytes) ∧
    tlvIpAddrString ((items.map PaddedAddress.address).flatMap beBytes) =
      ",".intercalate ((items.map PaddedAddress.address).map ipString) ∧
    ∀ a : Bytes, tlvIpAddrString a = ",".intercalate ((groupsOf4 a).map dottedText) := by
  refine ⟨?_, ?_, tlvIpAddrString_eq⟩
  · have hsplit : List.splitOn ',' ([','].intercalate (items.map PaddedAddress.text)) =
        items.map PaddedAddress.text := by
      refine List.splitOn_intercalate ',' ?_ (by simpa using hne)
      intro text htext
      obtain ⟨item, -, rfl⟩ := List.mem_map.mp htext
      exact item.comma_notMem
    have hvalue : convertValue "ips"
        (String.ofList ([','].intercalate (items.map PaddedAddress.text))) =
          .ok ((items.map PaddedAddress.address).flatMap beBytes) := by
      rw [convertValue, String.toList_ofList, hsplit, convertIPs_texts, List.nil_append]
    rw [convertOptionToDHCP, hvalue]
  · rw [tlvIpAddrString_eq, groupsOf4_flatMap]

theorem address_list_round_trip_padded :
    let items : List PaddedAddress :=
      [⟨[' '], 0x0a000001#32, [], List.forall_mem_singleton.mpr rfl, List.forall_mem_nil _⟩,
        ⟨[], 0x0a000002#32, [' ', '\t'], List.forall_mem_nil _,
          List.forall_mem_cons.mpr ⟨rfl, List.forall_mem_singleton.mpr rfl⟩⟩]
    tlvIpAddrString [10, 0, 0, 1, 10, 0, 0, 2] = "10.0.0.1,10.0.0.2" ∧
      convertOptionToDHCP
          ⟨6, String.ofList ([','].intercalate (items.map PaddedAddress.text)), "ips"⟩ =
        .ok (6, [10, 0, 0, 1, 10, 0, 0, 2]) := by
  intro items
  exact ⟨by decide, (address_list_round_trip items (by simp [items]) 6).1⟩

/-! ## The texts that convert -/

/-- Decimal digits of a number below `2 ^ bitSize`. -/
def IsDecimal (bitSize : ℕ) (s : List Char) : Prop :=
  s ≠ [] ∧ s.all Char.isDigit = true ∧
    s.foldl (fun n c => n * 10 + decimalDigit c) 0 < 2 ^ bitSize

/-- The text of an IPv4 address, in dotted form or mapped into IPv6. -/
def IsIPv4 (s : List Char) : Prop := ∃ v4, parseTo4 (String.ofList s) = some v4

/-- The values that suit an option of the given type. -/
def SuitsType (optionType : String) (value : List Char) : Prop :=
  match optionType with
  | "ip" => IsIPv4 value
  | "ips" => ∀ part ∈ value.splitOn ',', IsIPv4 (trimSpace part)
  | "string" => True
  | "uint32" => IsDecimal 32 value
  | "uint16" => IsDecimal 16 value
  | "uint8" => IsDecimal 8 value
  | "hex" => (hexCleaned value).length % 2 = 0 ∧ (hexCleaned value).all isHex = true
  | _ => False

def Converts (r : Except ConvertError Bytes) : Prop := ∃ value, r = .ok value

theorem converts_convertIP {shown text : String} :
    Converts (convertIP shown text) ↔ IsIPv4 text.toList := by
  rw [IsIPv4, parseTo4, String.ofList_toList]
  unfold convertIP
  cases parseIP text with
  | none => simp [Converts]
  | some ip => cases hto4 : to4 ip <;> simp [Converts, hto4]

theorem converts_convertIPs (parts : List (List Char)) (result : Bytes) :
    Converts (convertIPs parts result) ↔ ∀ part ∈ parts, IsIPv4 (trimSpace part) := by
  induction parts generalizing result with
  | nil => simp [convertIPs, Converts]
  | cons part parts ih =>
    have hfirst : Converts (convertIP (String.ofList part) (String.ofList (trimSpace part))) ↔
        IsIPv4 (String.ofList (trimSpace part)).toList := converts_convertIP
    rw [String.toList_ofList] at hfirst
    rw [List.forall_mem_cons, ← hfirst, convertIPs]
    cases convertIP (String.ofList part) (String.ofList (trimSpace part)) with
    | error e => simp [Converts]
    | ok ip4 =>
      rw [ih]
      simp [Converts]

theorem converts_convertUint {bitSize : ℕ} {value : String} {encode : ℕ → Bytes} :
    Converts (convertUint bitSize value encode) ↔ IsDecimal bitSize value.toList := by
  unfold convertUint parseUint IsDecimal
  split
  · next hnone =>
    simp only [Converts, reduceCtorEq, exists_false, false_iff]
    rintro ⟨hne, hdigits, hlt⟩
    simp [hne, hdigits, hlt] at hnone
  · next hsome =>
    simp only [Converts, Except.ok.injEq, exists_eq', true_iff]
    split at hsome
    · next hdigits =>
      dsimp only at hsome
      split at hsome
      · next hlt => exact ⟨hdigits.1, hdigits.2, hlt⟩
      · cases hsome
    · cases hsome

theorem hexDecode_cons_isSome (a b : Char) (rest : List Char) :
    (hexDecode (a :: b :: rest)).isSome = (isHex a && isHex b && (hexDecode rest).isSome) := by
  rw [hexDecode, isHex, isHex]
  cases hexValue a <;> cases hexValue b <;> cases hexDecode rest <;> rfl

theorem hexDecode_isSome (s : List Char) :
    (hexDecode s).isSome = true ↔ s.length % 2 = 0 ∧ s.all isHex = true := by
  match s with
  | [] => simp [hexDecode]
  | [c] => simp [hexDecode]
  | a :: b :: rest =>
    have ih := hexDecode_isSome rest
    simp only [hexDecode_cons_isSome, Bool.and_eq_true, ih, List.length_cons, List.all_cons]
    rw [show (rest.length + 1 + 1) % 2 = rest.length % 2 by omega]
    tauto

theorem converts_convertHex {value : String} :
    Converts (convertHex value) ↔
      (hexCleaned value.toList).length % 2 = 0 ∧ (hexCleaned value.toList).all isHex = true := by
  rw [← hexDecode_isSome]
  unfold convertHex
  cases hexDecode (hexCleaned value.toList) <;> simp [Converts]

/-- A value converts exactly when it suits the type. -/
theorem converts_convertValue (optionType value : String) :
    Converts (convertValue optionType value) ↔ SuitsType optionType value.toList := by
  unfold convertValue SuitsType
  split
  · exact converts_convertIP
  · exact converts_convertIPs _ _
  · simp [Converts]
  · exact converts_convertUint
  · exact converts_convertUint
  · exact converts_convertUint
  · exact converts_convertHex
  · simp [Converts]

end StandaloneDHCP
