import Mathlib.Data.BitVec
import Mathlib.Data.List.Basic

/-! A DHCP request as the handler reads it. `Packet` holds what the accessors of the packet
return (`CHAddr`, `XId`, `CIAddr`, `GIAddr`, `ParseOptions`); the addresses are the values
`binary.BigEndian` reads from their four bytes. Hardware addresses and transaction ids enter
the program's maps as text, so `hexString` is spelled out here; on hardware addresses it is
injective, and its characters are hex digits and colons only. -/
namespace StandaloneDHCP
set_option autoImplicit false

abbrev Bytes := List UInt8
abbrev IPv4 := BitVec 32

/-! ## Addresses -/

def beBytes (a : BitVec 32) : Bytes :=
  [UInt8.ofNat (a.toNat / 2 ^ 24), UInt8.ofNat (a.toNat / 2 ^ 16),
    UInt8.ofNat (a.toNat / 2 ^ 8), UInt8.ofNat a.toNat]

/-- The bytes of a `net.IP`; `nil` has none. -/
def ipBytes (ip : Option IPv4) : Bytes := (ip.map beBytes).getD []

/-- `binary.BigEndian.Uint32`: reads the first four bytes, `none` for the index panic on
fewer. -/
def beUint32 : Bytes → Option (BitVec 32)
  | a :: b :: c :: d :: _ =>
    some (BitVec.ofNat 32 (a.toNat * 2 ^ 24 + b.toNat * 2 ^ 16 + c.toNat * 2 ^ 8 + d.toNat))
  | _ => none

/-- `net.IP.To4`. -/
def to4 (ip : Bytes) : Option Bytes :=
  if ip.length = 4 then some ip
  else if ip.length = 16 ∧ ip.take 12 = List.replicate 10 0 ++ [0xff, 0xff] then
    some (ip.drop 12)
  else none

/-- `dhcp.IPAdd`: the sum wraps at 32 bits. -/
def ipAdd (start : IPv4) (add : Int) : IPv4 := start + BitVec.ofInt 32 add

/-- `dhcp.IPRange` on addresses, in signed integers. -/
def ipRange (start stop : IPv4) : Int := (stop.toNat : Int) - start.toNat + 1

/-- `net.IP.String` of an IPv4 address. -/
def ipString (a : IPv4) : String :=
  ".".intercalate ((beBytes a).map fun b => toString b.toNat)

theorem beUint32_beBytes (a : BitVec 32) : beUint32 (beBytes a) = some a := by
  have hlt := a.isLt
  simp only [beUint32, beBytes, Option.some.injEq]
  apply BitVec.eq_of_toNat_eq
  simp only [BitVec.toNat_ofNat, UInt8.toNat_ofNat']
  omega

theorem beBytes_inj {a b : BitVec 32} : beBytes a = beBytes b ↔ a = b := by
  refine ⟨fun heq => ?_, congrArg beBytes⟩
  have h := congrArg beUint32 heq
  rw [beUint32_beBytes, beUint32_beBytes] at h
  exact Option.some.inj h

theorem eq_beBytes {v : Bytes} {a : BitVec 32} (hlen : v.length = 4) (ha : beUint32 v = some a) :
    v = beBytes a := by
  obtain ⟨w, x, y, z, rfl⟩ := List.length_eq_four.mp hlen
  simp only [beUint32, Option.some.injEq] at ha
  subst ha
  have hw := w.toNat_lt
  have hx := x.toNat_lt
  have hy := y.toNat_lt
  have hz := z.toNat_lt
  simp only [beBytes, BitVec.toNat_ofNat, List.cons.injEq, and_true]
  refine ⟨?_, ?_, ?_, ?_⟩ <;> apply UInt8.toNat_inj.mp <;> rw [UInt8.toNat_ofNat'] <;> omega

theorem length_beBytes (a : BitVec 32) : (beBytes a).length = 4 := rfl

theorem ipAdd_toNat (start : IPv4) (i : ℕ) :
    (ipAdd start i).toNat = (start.toNat + i) % 2 ^ 32 := by
  simp [ipAdd, BitVec.toNat_add]

theorem ipAdd_inj (start : IPv4) {i j : ℕ} (hi : i < 2 ^ 32) (hj : j < 2 ^ 32)
    (h : ipAdd start i = ipAdd start j) : i = j := by
  have hn := congrArg BitVec.toNat h
  rw [ipAdd_toNat, ipAdd_toNat] at hn
  have hs := start.isLt
  omega

theorem ipAdd_of_ipRange {start a : IPv4} {n : ℕ} (h : ipRange start a - 1 = n) :
    ipAdd start n = a := by
  have hs := start.isLt
  have ha := a.isLt
  unfold ipRange at h
  apply BitVec.eq_of_toNat_eq
  rw [ipAdd_toNat]
  omega

/-! ## Hex text -/

def hexDigit (n : ℕ) : Char := "0123456789abcdef".toList.getD n '0'

/-- Two hex digits for each byte, with colons between them. -/
def hexChars : Bytes → List Char
  | [] => []
  | [b] => [hexDigit (b.toNat / 16), hexDigit (b.toNat % 16)]
  | b :: bs => hexDigit (b.toNat / 16) :: hexDigit (b.toNat % 16) :: ':' :: hexChars bs

/-- `net.HardwareAddr.String`, and `sharedutils.ByteToString`. -/
def hexString (bs : Bytes) : String := String.ofList (hexChars bs)

theorem hexDigit_inj {m n : ℕ} (hm : m < 16) (hn : n < 16) (h : hexDigit m = hexDigit n) :
    m = n := by
  have hfin : ∀ a b : Fin 16, hexDigit a = hexDigit b → a = b := by decide
  exact congrArg Fin.val (hfin ⟨m, hm⟩ ⟨n, hn⟩ h)

theorem hexDigit_ne_space {n : ℕ} (hn : n < 16) : hexDigit n ≠ ' ' := by
  have hfin : ∀ a : Fin 16, hexDigit a ≠ ' ' := by decide
  exact hfin ⟨n, hn⟩

theorem byte_eq_of_hex {a b : UInt8} (hhi : hexDigit (a.toNat / 16) = hexDigit (b.toNat / 16))
    (hlo : hexDigit (a.toNat % 16) = hexDigit (b.toNat % 16)) : a = b := by
  have ha := a.toNat_lt
  have hb := b.toNat_lt
  have h₁ := hexDigit_inj (by omega) (by omega) hhi
  have h₂ := hexDigit_inj (by omega) (by omega) hlo
  apply UInt8.toNat_inj.mp
  omega

theorem hexChars_inj : ∀ {as bs : Bytes}, hexChars as = hexChars bs → as = bs
  | [], [], _ => rfl
  | [], [_], h => by simp [hexChars] at h
  | [], _ :: _ :: _, h => by simp [hexChars] at h
  | [_], [], h => by simp [hexChars] at h
  | _ :: _ :: _, [], h => by simp [hexChars] at h
  | [a], [b], h => by
    simp only [hexChars, List.cons.injEq, and_true] at h
    rw [byte_eq_of_hex h.1 h.2]
  | [a], b :: b' :: bs, h => by simp [hexChars] at h
  | a :: a' :: as, [b], h => by simp [hexChars] at h
  | a :: a' :: as, b :: b' :: bs, h => by
    simp only [hexChars, List.cons.injEq, true_and] at h
    obtain ⟨hhi, hlo, hrest⟩ := h
    rw [byte_eq_of_hex hhi hlo, hexChars_inj hrest]

theorem space_notMem_hexChars : ∀ bs : Bytes, ' ' ∉ hexChars bs
  | [] => by simp [hexChars]
  | [b] => by
    have hb := b.toNat_lt
    have h₁ := hexDigit_ne_space (n := b.toNat / 16) (by omega)
    have h₂ := hexDigit_ne_space (n := b.toNat % 16) (by omega)
    simp [hexChars, h₁.symm, h₂.symm]
  | b :: b' :: bs => by
    have hb := b.toNat_lt
    have h₁ := hexDigit_ne_space (n := b.toNat / 16) (by omega)
    have h₂ := hexDigit_ne_space (n := b.toNat % 16) (by omega)
    have hrest := space_notMem_hexChars (b' :: bs)
    simp [hexChars, h₁.symm, h₂.symm, hrest]

/-! ## Messages -/

inductive MessageType
  | discover
  | offer
  | request
  | decline
  | ack
  | nak
  | release
  | inform
deriving DecidableEq, Repr

/-- `dhcp.MessageType.String`. -/
def MessageType.text : MessageType → String
  | discover => "Discover"
  | offer => "Offer"
  | request => "Request"
  | decline => "Decline"
  | ack => "ACK"
  | nak => "NAK"
  | release => "Release"
  | inform => "Inform"

/-- The byte of option 53. -/
def MessageType.code : MessageType → UInt8
  | discover => 1
  | offer => 2
  | request => 3
  | decline => 4
  | ack => 5
  | nak => 6
  | release => 7
  | inform => 8

/-- `dhcp.Options`, a map from option codes to values. -/
abbrev Options := UInt8 → Option Bytes

def optionRouter : UInt8 := 3
def optionDomainNameServer : UInt8 := 6
def optionRequestedIPAddress : UInt8 := 50
def optionDHCPMessageType : UInt8 := 53
def optionServerIdentifier : UInt8 := 54
def optionParameterRequestList : UInt8 := 55

structure Packet where
  chaddr : Bytes
  xid : BitVec 32
  ciaddr : IPv4
  giaddr : IPv4
  options : Options

namespace Packet

/-- `p.CHAddr().String()`. -/
def clientMac (p : Packet) : String := hexString p.chaddr

/-- Option 50, else `ciaddr`. -/
def reqIP (p : Packet) : Bytes :=
  match p.options optionRequestedIPAddress with
  | some v => v
  | none => beBytes p.ciaddr

/-- The key under which the transaction caches remember a packet. -/
def cacheKey (p : Packet) (t : MessageType) : String :=
  p.clientMac ++ " " ++ t.text ++ " xID " ++ hexString (beBytes p.xid)

theorem clientMac_of_cacheKey {p q : Packet} {t u : MessageType}
    (h : p.cacheKey t = q.cacheKey u) : p.clientMac = q.clientMac := by
  have hl := congrArg String.toList h
  simp only [cacheKey, clientMac, hexString, String.toList_append, String.toList_ofList] at hl
  -- neither hardware address contains the space that ends it
  have hp := space_notMem_hexChars p.chaddr
  have hq := space_notMem_hexChars q.chaddr
  have htake : ∀ (l r : List Char), ' ' ∉ l → (l ++ ' ' :: r).takeWhile (· ≠ ' ') = l := by
    intro l r hn
    rw [List.takeWhile_append_of_pos]
    · simp
    · intro c hc
      have hne : c ≠ ' ' := fun he => hn (he ▸ hc)
      simpa using hne
  have hcut := congrArg (List.takeWhile (· ≠ ' ')) hl
  have hsp : " ".toList = [' '] := by decide
  simp only [hsp, List.append_assoc, List.cons_append, List.nil_append] at hcut
  rw [htake _ _ hp, htake _ _ hq] at hcut
  rw [clientMac, clientMac, hexString, hexString, hcut]

end Packet
end StandaloneDHCP
