import StandaloneDHCP.Overrides.Database
import StandaloneDHCP.Wire.AddressText

/-! `ConvertOptionToDHCP` (`database.go`): the bytes that an override entry puts on the wire. The
text functions of the standard library that it calls are spelled out on lists of characters. -/
namespace StandaloneDHCP
set_option autoImplicit false

/-! ## Text -/

/-- `unicode.IsSpace`. -/
def isSpace (c : Char) : Bool :=
  [0x09, 0x0a, 0x0b, 0x0c, 0x0d, 0x20, 0x85, 0xa0, 0x1680, 0x2028, 0x2029, 0x202f, 0x205f,
    0x3000].contains c.toNat || (0x2000 ≤ c.toNat && c.toNat ≤ 0x200a)

/-- `strings.TrimSpace`. -/
def trimSpace (s : List Char) : List Char :=
  ((s.dropWhile isSpace).reverse.dropWhile isSpace).reverse

/-- `strconv.ParseUint` in base 10. -/
def parseUint (bitSize : ℕ) (s : List Char) : Option ℕ :=
  if s ≠ [] ∧ s.all Char.isDigit = true then
    let n := s.foldl (fun n c => n * 10 + decimalDigit c) 0
    if n < 2 ^ bitSize then some n else none
  else none

/-- The replacer of the `hex` case: left to right, `0x` and `0X` before the single characters. -/
def hexCleaned : List Char → List Char
  | '0' :: 'x' :: rest => hexCleaned rest
  | '0' :: 'X' :: rest => hexCleaned rest
  | c :: rest =>
    if c = ':' ∨ c = '-' ∨ c = ' ' then hexCleaned rest else c :: hexCleaned rest
  | [] => []

/-- `hex.DecodeString`. -/
def hexDecode : List Char → Option Bytes
  | [] => some []
  | [_] => none
  | a :: b :: rest =>
    match hexValue a, hexValue b, hexDecode rest with
    | some hi, some lo, some bytes => some (UInt8.ofNat (hi * 16 + lo) :: bytes)
    | _, _, _ => none

/-- `[]byte(s)`. -/
def utf8Bytes (s : String) : Bytes := s.toUTF8.data.toList

/-! ## The conversion -/

/-- The errors, with the text each one names. -/
inductive ConvertError
  | invalidIP (value : String)
  | notIPv4 (value : String)
  | invalidUint (bitSize : ℕ) (value : String)
  | invalidHex (value : String)
  | unsupportedType (optionType : String)
deriving DecidableEq, Repr

/-- One address, as the cases `ip` and `ips` read it; `shown` is the text of their errors. -/
def convertIP (shown text : String) : Except ConvertError Bytes :=
  match parseIP text with
  | none => .error (.invalidIP shown)
  | some ip =>
    match to4 ip with
    | none => .error (.notIPv4 shown)
    | some ip4 => .ok ip4

/-- The loop of the case `ips`. -/
def convertIPs : List (List Char) → Bytes → Except ConvertError Bytes
  | [], result => .ok result
  | ipStr :: rest, result =>
    match convertIP (String.ofList ipStr) (String.ofList (trimSpace ipStr)) with
    | .error e => .error e
    | .ok ip4 => convertIPs rest (result ++ ip4)

def convertUint (bitSize : ℕ) (value : String) (encode : ℕ → Bytes) :
    Except ConvertError Bytes :=
  match parseUint bitSize value.toList with
  | none => .error (.invalidUint bitSize value)
  | some val => .ok (encode val)

def convertHex (value : String) : Except ConvertError Bytes :=
  match hexDecode (hexCleaned value.toList) with
  | none => .error (.invalidHex value)
  | some decoded => .ok decoded

/-- The value of an entry. -/
def convertValue (optionType value : String) : Except ConvertError Bytes :=
  match optionType with
  | "ip" => convertIP value value
  | "ips" => convertIPs (value.toList.splitOn ',') []
  | "string" => .ok (utf8Bytes value)
  | "uint32" => convertUint 32 value fun val => beBytes (BitVec.ofNat 32 val)
  | "uint16" => convertUint 16 value fun val => [UInt8.ofNat (val / 256), UInt8.ofNat val]
  | "uint8" => convertUint 8 value fun val => [UInt8.ofNat val]
  | "hex" => convertHex value
  | _ => .error (.unsupportedType optionType)

/-- The code is cut to a byte. -/
def convertOptionToDHCP (option : DHCPOption) : Except ConvertError (UInt8 × Bytes) :=
  match convertValue option.optionType option.optionValue with
  | .ok value => .ok (UInt8.ofInt option.optionCode, value)
  | .error e => .error e

example : convertOptionToDHCP ⟨3, "10.0.0.1", "ip"⟩ = .ok (3, [10, 0, 0, 1]) := by decide
example : convertOptionToDHCP ⟨6, "10.0.0.1, 10.0.0.2", "ips"⟩ =
    .ok (6, [10, 0, 0, 1, 10, 0, 0, 2]) := by decide
example : convertOptionToDHCP ⟨51, "86400", "uint32"⟩ = .ok (51, [0, 1, 81, 128]) := by decide
example : convertOptionToDHCP ⟨43, "0xDE:ad-be ef", "hex"⟩ =
    .ok (43, [0xde, 0xad, 0xbe, 0xef]) := by decide
example : convertOptionToDHCP ⟨26, "65536", "uint16"⟩ = .error (.invalidUint 16 "65536") := by
  decide

end StandaloneDHCP
