import StandaloneDHCP.Lib.MapRange
import StandaloneDHCP.Lib.Overlay
import StandaloneDHCP.Lib.Slices
import StandaloneDHCP.Lib.TagLengthValue
import StandaloneDHCP.Wire.Packet

/-! Packets on the wire, as the `dhcp4` library reads and writes them: 240 bytes of header with
fields at fixed places, then the options as tag-length-value fields. A `Datagram` has its header
complete. Reading a field after a setter is settled by the general facts about slices, reading
the options after `AddOption` by those about tag-length-value streams. -/
namespace StandaloneDHCP
open Lib
set_option autoImplicit false

/-! ## Option maps -/

/-- The codes of an option map in the order of a range loop. -/
def rangeCodes (order : RangeOrder ℕ) (options : Options) : List UInt8 :=
  (order.keys ((Finset.range 256).filter fun c => (options (UInt8.ofNat c)).isSome)).map
    UInt8.ofNat

theorem mem_rangeCodes {order : RangeOrder ℕ} {options : Options} {c : UInt8} :
    c ∈ rangeCodes order options ↔ (options c).isSome = true := by
  simp only [rangeCodes, List.mem_map, RangeOrder.mem_keys, Finset.mem_filter, Finset.mem_range]
  constructor
  · rintro ⟨n, ⟨-, hn⟩, rfl⟩
    exact hn
  · intro hc
    exact ⟨c.toNat, ⟨c.toNat_lt, by rwa [UInt8.ofNat_toNat]⟩, UInt8.ofNat_toNat⟩

/-- The entries of an option map in the order of a range loop. -/
def rangeEntries (order : RangeOrder ℕ) (options : Options) : List (UInt8 × Bytes) :=
  (rangeCodes order options).filterMap fun code => (options code).map fun value => (code, value)

theorem lookupLast_rangeEntries (order : RangeOrder ℕ) (options : Options) (c : UInt8) :
    lookupLast (rangeEntries order options) c = options c := by
  rw [rangeEntries, lookupLast_listing]
  split
  · rfl
  · next hmem =>
    rw [mem_rangeCodes] at hmem
    exact (Option.not_isSome_iff_eq_none.mp hmem).symm

theorem of_mem_rangeEntries {order : RangeOrder ℕ} {options : Options} {e : UInt8 × Bytes}
    (he : e ∈ rangeEntries order options) : options e.1 = some e.2 := by
  obtain ⟨code, -, hcode⟩ := List.mem_filterMap.mp he
  obtain ⟨value, hvalue, rfl⟩ := Option.map_eq_some_iff.mp hcode
  exact hvalue

/-! ## The header -/

structure Datagram where
  header : Bytes
  options : Bytes
  size : header.length = 240

namespace Datagram

/-- The packet that was read from the socket. -/
def ofBytes (b : Bytes) (hlong : 240 ≤ b.length) : Datagram :=
  ⟨b.take 240, b.drop 240, by rw [List.length_take]; omega⟩

def field (off n : ℕ) (p : Datagram) : Bytes := slice off n p.header

/-- `copy(p[off : off+n], src)`. -/
def put (off n : ℕ) (hin : off + n ≤ 240) (src : Bytes) (p : Datagram) : Datagram :=
  ⟨copyInto off n src p.header, p.options, by
    rw [length_copyInto (by rw [p.size]; exact hin), p.size]⟩

theorem length_field {off n : ℕ} (hin : off + n ≤ 240) (p : Datagram) :
    (p.field off n).length = n :=
  length_slice (by rw [p.size]; exact hin)

theorem field_put_front {off n m : ℕ} {hin : off + n ≤ 240} {src : Bytes} {p : Datagram}
    (hm : m ≤ n) (hsrc : src.length = m) : (p.put off n hin src).field off m = src :=
  slice_copyInto_front (by rw [p.size]; exact hin) hm hsrc

theorem field_put {off n : ℕ} {hin : off + n ≤ 240} {src : Bytes} {p : Datagram}
    (hsrc : src.length = n) : (p.put off n hin src).field off n = src :=
  field_put_front (Nat.le_refl n) hsrc

theorem field_put_of_disjoint {off n off' n' : ℕ} {hin : off + n ≤ 240} {src : Bytes}
    {p : Datagram} (hdisjoint : off' + n' ≤ off ∨ off + n ≤ off') :
    (p.put off n hin src).field off' n' = p.field off' n' :=
  slice_copyInto_of_disjoint (by rw [p.size]; exact hin) hdisjoint

theorem put_comm {off n off' n' : ℕ} (hin : off + n ≤ 240) (hin' : off' + n' ≤ 240)
    {src src' : Bytes} {p : Datagram} (hdisjoint : off' + n' ≤ off ∨ off + n ≤ off') :
    (p.put off' n' hin' src').put off n hin src = (p.put off n hin src).put off' n' hin' src' := by
  have hheader : copyInto off n src (copyInto off' n' src' p.header) =
      copyInto off' n' src' (copyInto off n src p.header) :=
    copyInto_comm (by rw [p.size]; exact hin) (by rw [p.size]; exact hin') hdisjoint
  simp only [put, hheader]

/-! The accessors and the setters of the library. -/

def hLen (p : Datagram) : ℕ := ((p.field 2 1).headD 0).toNat
def xId (p : Datagram) : Bytes := p.field 4 4
def secs (p : Datagram) : Bytes := p.field 8 2
def flags (p : Datagram) : Bytes := p.field 10 2
def ciAddr (p : Datagram) : Bytes := p.field 12 4
def yiAddr (p : Datagram) : Bytes := p.field 16 4
def siAddr (p : Datagram) : Bytes := p.field 20 4
def giAddr (p : Datagram) : Bytes := p.field 24 4
def chAddr (p : Datagram) : Bytes := p.field 28 (min p.hLen 16)

/-- The bytes before the first null byte. -/
def file (p : Datagram) : Bytes := (p.field 108 128).takeWhile (· ≠ 0)

def broadcast (p : Datagram) : Bool := 127 < p.flags.headD 0

def setXId (xId : Bytes) (p : Datagram) : Datagram := p.put 4 4 (by decide) xId
def setSecs (secs : Bytes) (p : Datagram) : Datagram := p.put 8 2 (by decide) secs
def setFlags (flags : Bytes) (p : Datagram) : Datagram := p.put 10 2 (by decide) flags

/-- `ip.To4()` is `nil` for what is not an IPv4 address, and nothing is copied then. -/
def setAddr (off : ℕ) (hin : off + 4 ≤ 240) (ip : Bytes) (p : Datagram) : Datagram :=
  p.put off 4 hin ((to4 ip).getD [])

def setCIAddr (ip : Bytes) (p : Datagram) : Datagram := p.setAddr 12 (by decide) ip
def setYIAddr (ip : Bytes) (p : Datagram) : Datagram := p.setAddr 16 (by decide) ip
def setSIAddr (ip : Bytes) (p : Datagram) : Datagram := p.setAddr 20 (by decide) ip
def setGIAddr (ip : Bytes) (p : Datagram) : Datagram := p.setAddr 24 (by decide) ip

def setCHAddr (a : Bytes) (p : Datagram) : Datagram :=
  (p.put 28 16 (by decide) a).put 2 1 (by decide) [UInt8.ofNat a.length]

/-- A shorter name is ended by a null byte. -/
def setFile (file : Bytes) (p : Datagram) : Datagram :=
  let p := p.put 108 128 (by decide) file
  if h : file.length < 128 then p.put (108 + file.length) 1 (by omega) [0] else p

def setBroadcast (broadcast : Bool) (p : Datagram) : Datagram :=
  if p.broadcast ≠ broadcast then p.put 10 1 (by decide) [p.flags.headD 0 ^^^ 128] else p

inductive OpCode
  | bootRequest
  | bootReply

def OpCode.code : OpCode → UInt8
  | bootRequest => 1
  | bootReply => 2

/-- An Ethernet packet without options, that is with the End byte only. -/
def newPacket (opCode : OpCode) : Datagram :=
  let blank : Datagram := ⟨List.replicate 240 0, [255], List.length_replicate⟩
  ((blank.put 0 1 (by decide) [opCode.code]).put 1 1 (by decide) [1]).put 236 4 (by decide)
    [99, 130, 83, 99]

/-! What the setters leave alone. -/

section Setters
variable {p : Datagram} {off n : ℕ}

@[simp] theorem setXId_options (xId : Bytes) : (p.setXId xId).options = p.options := rfl

@[simp] theorem setSecs_options (secs : Bytes) : (p.setSecs secs).options = p.options := rfl

@[simp] theorem setFlags_options (flags : Bytes) : (p.setFlags flags).options = p.options := rfl

@[simp] theorem setCIAddr_options (ip : Bytes) : (p.setCIAddr ip).options = p.options := rfl

@[simp] theorem setYIAddr_options (ip : Bytes) : (p.setYIAddr ip).options = p.options := rfl

@[simp] theorem setSIAddr_options (ip : Bytes) : (p.setSIAddr ip).options = p.options := rfl

@[simp] theorem setGIAddr_options (ip : Bytes) : (p.setGIAddr ip).options = p.options := rfl

@[simp] theorem setCHAddr_options (a : Bytes) : (p.setCHAddr a).options = p.options := rfl

theorem field_setAddr {hin : off + 4 ≤ 240} {ip : Bytes} (hip : ip.length = 4) :
    (p.setAddr off hin ip).field off 4 = ip := by
  rw [setAddr, to4, if_pos hip, Option.getD_some, field_put hip]

theorem field_setAddr_of_disjoint {off' : ℕ} {hin : off' + 4 ≤ 240} {ip : Bytes}
    (hdisjoint : off + n ≤ off' ∨ off' + 4 ≤ off) :
    (p.setAddr off' hin ip).field off n = p.field off n :=
  field_put_of_disjoint hdisjoint

theorem field_setFile (file : Bytes) (hin : off + n ≤ 108) :
    (p.setFile file).field off n = p.field off n := by
  unfold setFile
  simp only
  split
  · rw [field_put_of_disjoint (by omega), field_put_of_disjoint (by omega)]
  · rw [field_put_of_disjoint (by omega)]

@[simp] theorem setFile_options (file : Bytes) : (p.setFile file).options = p.options := by
  unfold setFile
  simp only
  split <;> rfl

theorem field_setBroadcast (broadcast : Bool) (hdisjoint : off + n ≤ 10 ∨ 11 ≤ off) :
    (p.setBroadcast broadcast).field off n = p.field off n := by
  unfold setBroadcast
  split
  · exact field_put_of_disjoint hdisjoint
  · rfl

@[simp] theorem setBroadcast_options (broadcast : Bool) :
    (p.setBroadcast broadcast).options = p.options := by
  unfold setBroadcast
  split <;> rfl

theorem field_setCHAddr (a : Bytes) (hbefore : 3 ≤ off) (hafter : off + n ≤ 28) :
    (p.setCHAddr a).field off n = p.field off n := by
  rw [setCHAddr, field_put_of_disjoint (by omega), field_put_of_disjoint (by omega)]

end Setters

@[simp] theorem newPacket_options (opCode : OpCode) : (newPacket opCode).options = [255] := rfl

theorem length_chAddr (p : Datagram) : p.chAddr.length = min p.hLen 16 :=
  length_field (by omega) p

/-- The hardware address is read back with its length. -/
theorem chAddr_of_fields {p q : Datagram} {r : Datagram} (hlen : p.hLen ≤ 16)
    (hsize : q.field 2 1 = (r.setCHAddr p.chAddr).field 2 1)
    (haddr : ∀ n ≤ 16, q.field 28 n = (r.setCHAddr p.chAddr).field 28 n) :
    q.hLen = p.hLen ∧ q.chAddr = p.chAddr := by
  have hchaddr := length_chAddr p
  have hq : q.hLen = p.hLen := by
    rw [hLen, hsize, setCHAddr, field_put (List.length_singleton), List.headD_cons,
      UInt8.toNat_ofNat', hchaddr]
    omega
  refine ⟨hq, ?_⟩
  rw [chAddr, hq, haddr _ (by omega), setCHAddr, field_put_of_disjoint (by omega)]
  exact field_put_front (by omega) (by rw [hchaddr])

/-! ## The options -/

/-- `Pad` and `End`. -/
def optionFormat : TagFormat := ⟨0, 255⟩

theorem encodable_iff {c : UInt8} {v : Bytes} :
    optionFormat.Encodable (c, v) ↔ c ≠ 0 ∧ c ≠ 255 ∧ v.length ≤ 255 :=
  ⟨fun h => ⟨h.not_pad, h.not_stop, h.short⟩, fun h => ⟨h.1, h.2.1, h.2.2⟩⟩

def parseOptions (p : Datagram) : Options := lookupLast (optionFormat.decode p.options)

/-- Called on packets that end with the End byte. -/
def addOption (code : UInt8) (value : Bytes) (p : Datagram) : Datagram :=
  { p with
    options := p.options.dropLast ++ (TagFormat.encodeField (code, value) ++ [255]) }

/-- `AddOption` in a loop. -/
def addOptions : List (UInt8 × Bytes) → Datagram → Datagram
  | [], p => p
  | e :: entries, p => (p.addOption e.1 e.2).addOptions entries

theorem field_addOptions (off n : ℕ) (entries : List (UInt8 × Bytes)) : ∀ p : Datagram,
    (p.addOptions entries).field off n = p.field off n := by
  induction entries with
  | nil =>
    intro p
    rfl
  | cons e entries ih =>
    intro p
    exact ih _

/-- The options stand between what was there and the End byte. -/
theorem addOptions_options (entries : List (UInt8 × Bytes)) : ∀ {p : Datagram} (before : Bytes),
    p.options = before ++ [255] →
    (p.addOptions entries).options = before ++ TagFormat.encode entries ++ [255] := by
  induction entries with
  | nil =>
    intro p before hp
    simp [addOptions, TagFormat.encode, hp]
  | cons e entries ih =>
    intro p before hp
    have hstep : (p.addOption e.1 e.2).options = before ++ TagFormat.encodeField e ++ [255] := by
      simp [addOption, hp]
    rw [addOptions, ih _ hstep, TagFormat.encode, TagFormat.encode, List.flatMap_cons,
      List.append_assoc, List.append_assoc, List.append_assoc, List.append_assoc]

theorem encodable_of_parseOptions {p : Datagram} {c : UInt8} {v : Bytes}
    (h : p.parseOptions c = some v) : optionFormat.Encodable (c, v) :=
  TagFormat.encodable_of_mem_decode (mem_of_lookupLast h)

/-- What `ParseOptions` reads in options that were added and can be represented. -/
theorem decode_options {p : Datagram} {entries : List (UInt8 × Bytes)} {rest : Bytes}
    (hp : p.options = TagFormat.encode entries ++ 255 :: rest)
    (hentries : ∀ e ∈ entries, optionFormat.Encodable e) : p.parseOptions = lookupLast entries := by
  have hstop : optionFormat.decode (255 :: rest) = [] := optionFormat.decode_stop rest
  rw [parseOptions, hp, TagFormat.decode_encode hentries, hstop, List.append_nil]

end Datagram
end StandaloneDHCP
