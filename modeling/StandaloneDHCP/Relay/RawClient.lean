import StandaloneDHCP.Lib.OnesComplement
import StandaloneDHCP.Relay.DoWork
import StandaloneDHCP.Wire.AddressText

/-! The datagrams of `rawClient.go`. `sendDHCP` and `sendUnicastDHCP` put an IP and a UDP header
before the message by hand, with both checksums. `receive` is what a host at the other end
reads, and `Verifies` what it checks: the one's complement sum of the IP header and the one of
the pseudo header, UDP header and payload are all ones. -/
namespace StandaloneDHCP
open Lib
set_option autoImplicit false

/-! ## `checksum` -/

/-- The loop over the pairs of bytes, then the odd byte. -/
def accumulate : UInt32 → Bytes → UInt32
  | sum, b :: c :: buf => accumulate (sum + (b.toUInt32 <<< 8 ||| c.toUInt32)) buf
  | sum, [b] => sum + b.toUInt32 <<< 8
  | sum, [] => sum

theorem toNat_shift_and_mask (sum : UInt32) :
    (sum >>> 16 + (sum &&& 0xffff)).toNat = sum.toNat / 2 ^ 16 + sum.toNat % 2 ^ 16 := by
  have hlt := sum.toNat_lt
  have hshift : (sum >>> 16).toNat = sum.toNat / 2 ^ 16 := by
    rw [UInt32.toNat_shiftRight, Nat.shiftRight_eq_div_pow]
    rfl
  have hmask : (sum &&& 0xffff).toNat = sum.toNat % 2 ^ 16 := by
    rw [UInt32.toNat_and]
    exact Nat.and_two_pow_sub_one_eq_mod _ 16
  rw [UInt32.toNat_add, hshift, hmask]
  omega

theorem exceeds_iff {sum : UInt32} : 0xffff < sum ↔ ¬ sum.toNat < 2 ^ 16 := by
  rw [UInt32.lt_iff_toNat_lt, Nat.not_lt]
  exact Nat.lt_iff_add_one_le

/-- `for sum > 0xffff`. -/
def foldSum (sum : UInt32) : UInt32 :=
  if 0xffff < sum then foldSum (sum >>> 16 + (sum &&& 0xffff)) else sum
termination_by sum.toNat
decreasing_by
  rw [toNat_shift_and_mask]
  exact fold_lt (exceeds_iff.mp ‹_›)

def checksum (buf : Bytes) : UInt16 :=
  let csum := ~~~ (foldSum (accumulate 0 buf)).toUInt16
  if csum = 0 then 0xffff else csum

/-! ## Headers -/

def be16 (x : UInt16) : Bytes := [UInt8.ofNat (x.toNat / 2 ^ 8), UInt8.ofNat x.toNat]

structure UdpHdr where
  src : UInt16
  dst : UInt16
  ulen : UInt16
  csum : UInt16

structure PseudoHdr where
  ipsrc : IPv4
  ipdst : IPv4
  zero : UInt8
  ipproto : UInt8
  plen : UInt16

structure IpHdr where
  vhl : UInt8
  tos : UInt8
  iplen : UInt16
  id : UInt16
  off : UInt16
  ttl : UInt8
  proto : UInt8
  csum : UInt16
  src : IPv4
  dst : IPv4

def UdpHdr.bytes (u : UdpHdr) : Bytes := be16 u.src ++ be16 u.dst ++ be16 u.ulen ++ be16 u.csum

def PseudoHdr.bytes (p : PseudoHdr) : Bytes :=
  beBytes p.ipsrc ++ beBytes p.ipdst ++ [p.zero, p.ipproto] ++ be16 p.plen

def IpHdr.bytes (h : IpHdr) : Bytes :=
  [h.vhl, h.tos] ++ be16 h.iplen ++ be16 h.id ++ be16 h.off ++ [h.ttl, h.proto] ++ be16 h.csum ++
    beBytes h.src ++ beBytes h.dst

/-- What `udphdr.checksum` sums over. -/
def UdpHdr.checksumBuf (u : UdpHdr) (ip : IpHdr) (payload : Bytes) : Bytes :=
  let phdr : PseudoHdr :=
    { ipsrc := ip.src, ipdst := ip.dst, zero := 0, ipproto := ip.proto, plen := u.ulen }
  phdr.bytes ++ { u with csum := 0 }.bytes ++ payload

/-- `udphdr.checksum`. -/
def UdpHdr.withChecksum (u : UdpHdr) (ip : IpHdr) (payload : Bytes) : UdpHdr :=
  { u with csum := checksum (u.checksumBuf ip payload) }

/-- What `iphdr.checksum` sums over. -/
def IpHdr.checksumBuf (h : IpHdr) : Bytes := { h with csum := 0 }.bytes

/-- `iphdr.checksum`. -/
def IpHdr.withChecksum (h : IpHdr) : IpHdr := { h with csum := checksum h.checksumBuf }

/-! ## The packets -/

/-- `copy(ip.src[:], srcIP.To4())`: an address that is not IPv4 leaves zeros. -/
def copyTo4 (ip : Bytes) : IPv4 := ((to4 ip).bind beUint32).getD 0

/-- The IP header before its length and its checksum are set. -/
def ipOf (dstIP srcIP : Bytes) : IpHdr where
  vhl := 0x45
  tos := 0
  iplen := 0
  id := 0
  off := 0
  ttl := 128
  proto := 17
  csum := 0
  src := copyTo4 srcIP
  dst := copyTo4 dstIP

/-- The UDP header before its checksum is set. -/
def udpOf (udpsrc udpdst udplen : ℕ) : UdpHdr where
  src := UInt16.ofNat udpsrc
  dst := UInt16.ofNat udpdst
  ulen := UInt16.ofNat udplen
  csum := 0

/-- The part that `sendDHCP` and `sendUnicastDHCP` share. -/
def assemble (dhcp dstIP srcIP : Bytes) (udpsrc udpdst : ℕ) : Bytes :=
  let udplen := 8 + dhcp.length
  let ip := ipOf dstIP srcIP
  let udp := (udpOf udpsrc udpdst udplen).withChecksum ip dhcp
  let totalLen := 20 + udplen
  let ip := { ip with iplen := UInt16.ofNat totalLen }.withChecksum
  ip.bytes ++ (udp.bytes ++ dhcp)

/-- The payload of the frame that `sendDHCP` writes. -/
def framePacket (dhcp dstIP srcIP : Bytes) : Bytes :=
  assemble dhcp dstIP srcIP bootpServer bootpClient

/-- `net.IPv4zero`. -/
def netIPv4zero : Bytes := v4InV6Prefix ++ ipv4Zero

/-- The destination `sendUnicastDHCP` settles on. -/
def unicastDst (dstIP giAddr : Bytes) : Bytes :=
  if !ipEqual dstIP giAddr then
    if !ipEqual giAddr netIPv4zero then giAddr else dstIP
  else dstIP

/-- What `sendUnicastDHCP` hands to `Sendto`. -/
def unicastPacket (dhcp dstIP srcIP giAddr : Bytes) (udpsrc udpdst : ℕ) : Bytes :=
  assemble dhcp (unicastDst dstIP giAddr) srcIP udpsrc udpdst

/-! ## The checksum is the complement of the sum -/

theorem toNat_word (b c : UInt8) :
    (b.toUInt32 <<< 8 ||| c.toUInt32).toNat = b.toNat * 256 + c.toNat := by
  have hb := b.toNat_lt
  have hc := c.toNat_lt
  have hshift : (b.toUInt32 <<< 8).toNat = b.toNat <<< 8 := by
    rw [UInt32.toNat_shiftLeft, UInt8.toNat_toUInt32]
    refine Nat.mod_eq_of_lt ?_
    rw [show (8 : UInt32).toNat % 32 = 8 from rfl, Nat.shiftLeft_eq]
    omega
  rw [UInt32.toNat_or, hshift, UInt8.toNat_toUInt32, ← Nat.shiftLeft_add_eq_or_of_lt hc,
    Nat.shiftLeft_eq]

theorem accumulate_toNat (sum : UInt32) (buf : Bytes)
    (hfits : sum.toNat + (words16 buf).sum < 2 ^ 32) :
    (accumulate sum buf).toNat = sum.toNat + (words16 buf).sum := by
  fun_induction accumulate sum buf with
  | case1 sum b c buf ih =>
    rw [words16, List.sum_cons, ← Nat.add_assoc] at hfits ⊢
    have hadd : (sum + (b.toUInt32 <<< 8 ||| c.toUInt32)).toNat =
        sum.toNat + (b.toNat * 256 + c.toNat) := by
      rw [UInt32.toNat_add, toNat_word]
      exact Nat.mod_eq_of_lt (Nat.lt_of_le_of_lt (Nat.le_add_right _ _) hfits)
    rw [ih (hadd ▸ hfits), hadd]
  | case2 sum b =>
    rw [words16, List.sum_singleton] at hfits ⊢
    have hodd : (b.toUInt32 <<< 8).toNat = b.toNat * 256 := by
      have h := toNat_word b 0
      simpa using h
    rw [UInt32.toNat_add, hodd, Nat.mod_eq_of_lt hfits]
  | case3 sum => simp [words16]

theorem foldSum_toNat (sum : UInt32) : (foldSum sum).toNat = residue 16 sum.toNat := by
  rw [← foldCarries_eq]
  fun_induction foldSum sum with
  | case1 sum hgt ih =>
    rw [ih, toNat_shift_and_mask]
    conv_rhs => rw [foldCarries, if_neg (exceeds_iff.mp hgt)]
  | case2 sum hle =>
    rw [foldCarries, if_pos (not_not.mp (mt exceeds_iff.mpr hle))]

/-- The sum is taken in 32 bits without a carry out of them. -/
structure AccumulatesExactly (buf : Bytes) : Prop where
  partials : ∀ n, ((words16 buf).take n).sum < 2 ^ 32
  total : (accumulate 0 buf).toNat = (words16 buf).sum

theorem accumulatesExactly {buf : Bytes} (hlen : buf.length ≤ 2 ^ 16) : AccumulatesExactly buf := by
  have hsum : (words16 buf).sum < 2 ^ 32 := by
    have hle := sum_words16_le buf
    omega
  refine ⟨?_, ?_⟩
  · intro n
    have hsplit := congrArg List.sum (List.take_append_drop n (words16 buf))
    rw [List.sum_append] at hsplit
    omega
  · rw [accumulate_toNat 0 buf (by simpa using hsum)]
    exact Nat.zero_add _

theorem checksum_ne_zero (buf : Bytes) : checksum buf ≠ 0 := by
  unfold checksum
  dsimp only
  split
  · decide
  · assumption

theorem onesSum_add_checksum {buf : Bytes} (hbuf : AccumulatesExactly buf) :
    residue 16 ((words16 buf).sum + (checksum buf).toNat) = 0xffff := by
  have hfold : (foldSum (accumulate 0 buf)).toNat = residue 16 (words16 buf).sum := by
    rw [foldSum_toNat, hbuf.total]
  have hlt : residue 16 (words16 buf).sum < 2 ^ 16 := residue_lt _
  have hnot : (~~~ (foldSum (accumulate 0 buf)).toUInt16).toNat =
      2 ^ 16 - 1 - residue 16 (words16 buf).sum := by
    rw [UInt16.toNat_not, UInt32.toNat_toUInt16, hfold, Nat.mod_eq_of_lt hlt]
    rfl
  unfold checksum
  dsimp only
  split
  · next hzero =>
    -- the sum is all ones, and so is what is sent in the place of zero
    rw [hzero] at hnot
    have hones : residue 16 (words16 buf).sum = 2 ^ 16 - 1 := by
      have h : (0 : UInt16).toNat = 0 := rfl
      omega
    have hpos : 0 < (words16 buf).sum := by
      rcases Nat.eq_zero_or_pos (words16 buf).sum with h | h
      · rw [h] at hones
        cases hones
      · exact h
    have h := residue_add_ones (w := 16) hpos
    rw [hones] at h
    exact h
  · rw [hnot]
    exact residue_add_complement _

/-! ## The receiver -/

/-- A datagram as the host at the other end reads it. -/
structure Received where
  src : IPv4
  dst : IPv4
  udpsrc : ℕ
  udpdst : ℕ
  iplen : ℕ
  udplen : ℕ
  payload : Bytes
deriving DecidableEq

def field16 (packet : Bytes) (i : ℕ) : ℕ :=
  (packet.getD i 0).toNat * 256 + (packet.getD (i + 1) 0).toNat

def addressField (packet : Bytes) (i : ℕ) : IPv4 := (beUint32 (packet.drop i)).getD 0

/-- IPv4 without options, protocol UDP, and both lengths those of what arrived. -/
def receive (packet : Bytes) : Option Received :=
  if 28 ≤ packet.length ∧ packet.getD 0 0 = 0x45 ∧ packet.getD 9 0 = 17 ∧
      field16 packet 2 = packet.length ∧ field16 packet 24 = packet.length - 20 then
    some {
      src := addressField packet 12
      dst := addressField packet 16
      udpsrc := field16 packet 20
      udpdst := field16 packet 22
      iplen := field16 packet 2
      udplen := field16 packet 24
      payload := packet.drop 28 }
  else none

/-- The pseudo header that the receiver puts before the UDP header. -/
def Received.pseudoHeader (r : Received) : Bytes :=
  beBytes r.src ++ beBytes r.dst ++ [0, 17] ++ be16 (UInt16.ofNat r.udplen)

structure Verifies (packet : Bytes) (r : Received) : Prop where
  received : receive packet = some r
  ipSum : onesSum 16 (words16 (packet.take 20)) = 0xffff
  udpSum : onesSum 16 (words16 (r.pseudoHeader ++ packet.drop 20)) = 0xffff
  hasChecksum : field16 packet 26 ≠ 0

theorem be16_toNat (x : UInt16) :
    (UInt8.ofNat (x.toNat / 2 ^ 8)).toNat * 256 + (UInt8.ofNat x.toNat).toNat = x.toNat := by
  have hlt := x.toNat_lt
  simp only [UInt8.toNat_ofNat']
  omega

theorem words16_be16 (x : UInt16) (rest : Bytes) :
    words16 (be16 x ++ rest) = x.toNat :: words16 rest := by
  simp only [be16, List.cons_append, List.nil_append, words16, be16_toNat]

theorem IpHdr.length_checksumBuf (h : IpHdr) : h.checksumBuf.length = 20 := rfl

theorem UdpHdr.length_checksumBuf (u : UdpHdr) (ip : IpHdr) (payload : Bytes) :
    (u.checksumBuf ip payload).length = 20 + payload.length := by
  rw [UdpHdr.checksumBuf, List.length_append]
  rfl

theorem IpHdr.sum_words16 (h : IpHdr) :
    (words16 h.bytes).sum = (words16 h.checksumBuf).sum + h.csum.toNat := by
  simp only [IpHdr.bytes, IpHdr.checksumBuf, List.append_assoc, List.cons_append, List.nil_append,
    words16, words16_be16, List.sum_cons, UInt16.toNat_zero]
  omega

theorem UdpHdr.sum_words16 (u : UdpHdr) (ip : IpHdr) (payload : Bytes) :
    (words16 (beBytes ip.src ++ beBytes ip.dst ++ [0, ip.proto] ++ be16 u.ulen ++
        (u.bytes ++ payload))).sum =
      (words16 (u.checksumBuf ip payload)).sum + u.csum.toNat := by
  simp only [UdpHdr.bytes, UdpHdr.checksumBuf, PseudoHdr.bytes, beBytes, List.append_assoc,
    List.cons_append, List.nil_append, words16, words16_be16, List.sum_cons, UInt16.toNat_zero]
  omega

theorem IpHdr.onesSum_withChecksum (h : IpHdr) :
    onesSum 16 (words16 h.withChecksum.bytes) = 0xffff := by
  have hbuf : AccumulatesExactly h.checksumBuf := accumulatesExactly (by
    rw [h.length_checksumBuf]
    omega)
  rw [onesSum_eq (words16_lt _), IpHdr.sum_words16]
  exact onesSum_add_checksum hbuf

theorem UdpHdr.onesSum_withChecksum {u : UdpHdr} {ip : IpHdr} {payload : Bytes}
    (hbuf : AccumulatesExactly (u.checksumBuf ip payload)) :
    onesSum 16 (words16 (beBytes ip.src ++ beBytes ip.dst ++ [0, ip.proto] ++ be16 u.ulen ++
      ((u.withChecksum ip payload).bytes ++ payload))) = 0xffff := by
  have hsum := UdpHdr.sum_words16 (u.withChecksum ip payload) ip payload
  rw [onesSum_eq (words16_lt _)]
  exact (congrArg (residue 16) hsum).trans (onesSum_add_checksum hbuf)

/-- Both headers read back field by field. -/
theorem receive_headers (ip : IpHdr) (udp : UdpHdr) {payload : Bytes} (hvhl : ip.vhl = 0x45)
    (hproto : ip.proto = 17) (hiplen : ip.iplen.toNat = 28 + payload.length)
    (hulen : udp.ulen.toNat = 8 + payload.length) :
    receive (ip.bytes ++ (udp.bytes ++ payload)) = some {
      src := ip.src, dst := ip.dst, udpsrc := udp.src.toNat, udpdst := udp.dst.toNat
      iplen := 28 + payload.length, udplen := 8 + payload.length, payload := payload } := by
  have hlen : (ip.bytes ++ (udp.bytes ++ payload)).length = 28 + payload.length := by
    rw [List.length_append, List.length_append, ← Nat.add_assoc]
    rfl
  have hsrc : addressField (ip.bytes ++ (udp.bytes ++ payload)) 12 = ip.src :=
    congrArg (fun a => Option.getD a 0) (beUint32_beBytes ip.src)
  have hdst : addressField (ip.bytes ++ (udp.bytes ++ payload)) 16 = ip.dst :=
    congrArg (fun a => Option.getD a 0) (beUint32_beBytes ip.dst)
  have htotal : field16 (ip.bytes ++ (udp.bytes ++ payload)) 2 = ip.iplen.toNat :=
    be16_toNat ip.iplen
  have hudpsrc : field16 (ip.bytes ++ (udp.bytes ++ payload)) 20 = udp.src.toNat :=
    be16_toNat udp.src
  have hudpdst : field16 (ip.bytes ++ (udp.bytes ++ payload)) 22 = udp.dst.toNat :=
    be16_toNat udp.dst
  have hudplen : field16 (ip.bytes ++ (udp.bytes ++ payload)) 24 = udp.ulen.toNat :=
    be16_toNat udp.ulen
  have hfirst : (ip.bytes ++ (udp.bytes ++ payload)).getD 0 0 = ip.vhl := rfl
  have hninth : (ip.bytes ++ (udp.bytes ++ payload)).getD 9 0 = ip.proto := rfl
  have hpayload : (ip.bytes ++ (udp.bytes ++ payload)).drop 28 = payload := rfl
  rw [receive, if_pos]
  · rw [hsrc, hdst, hudpsrc, hudpdst, htotal, hudplen, hpayload, hiplen, hulen]
  · rw [hfirst, hninth, htotal, hudplen, hlen]
    exact ⟨by omega, hvhl, hproto, hiplen, by omega⟩

/-- Two headers with their checksums set verify. -/
theorem verifies_withChecksum (ip : IpHdr) (udp : UdpHdr) {payload : Bytes}
    (hvhl : ip.vhl = 0x45) (hproto : ip.proto = 17) (hiplen : ip.iplen.toNat = 28 + payload.length)
    (hulen : udp.ulen.toNat = 8 + payload.length) :
    Verifies (ip.withChecksum.bytes ++ ((udp.withChecksum ip payload).bytes ++ payload)) {
      src := ip.src, dst := ip.dst, udpsrc := udp.src.toNat, udpdst := udp.dst.toNat
      iplen := 28 + payload.length, udplen := 8 + payload.length, payload := payload } := by
  have hfits := ip.iplen.toNat_lt
  have hbuf : AccumulatesExactly (udp.checksumBuf ip payload) := accumulatesExactly (by
    rw [UdpHdr.length_checksumBuf]
    omega)
  have hhead : (ip.withChecksum.bytes ++ ((udp.withChecksum ip payload).bytes ++ payload)).take 20 =
      ip.withChecksum.bytes := List.take_left' rfl
  have htail : (ip.withChecksum.bytes ++ ((udp.withChecksum ip payload).bytes ++ payload)).drop 20 =
      (udp.withChecksum ip payload).bytes ++ payload := List.drop_left' rfl
  refine ⟨?_, ?_, ?_, ?_⟩
  · exact receive_headers ip.withChecksum (udp.withChecksum ip payload) hvhl hproto hiplen hulen
  · rw [hhead]
    exact ip.onesSum_withChecksum
  · have hplen : UInt16.ofNat (8 + payload.length) = udp.ulen := by
      rw [← hulen, UInt16.ofNat_toNat]
    rw [htail, Received.pseudoHeader, hplen, ← hproto]
    exact UdpHdr.onesSum_withChecksum hbuf
  · have hcsum : field16 (ip.withChecksum.bytes ++ ((udp.withChecksum ip payload).bytes ++ payload))
        26 = (udp.withChecksum ip payload).csum.toNat := be16_toNat _
    rw [hcsum]
    intro hzero
    exact checksum_ne_zero _ (UInt16.toNat_inj.mp hzero)

theorem assemble_verifies {dhcp : Bytes} (hlen : 28 + dhcp.length ≤ 65535) (dstIP srcIP : Bytes)
    (udpsrc udpdst : ℕ) :
    Verifies (assemble dhcp dstIP srcIP udpsrc udpdst) {
      src := copyTo4 srcIP, dst := copyTo4 dstIP
      udpsrc := (UInt16.ofNat udpsrc).toNat, udpdst := (UInt16.ofNat udpdst).toNat
      iplen := 28 + dhcp.length, udplen := 8 + dhcp.length, payload := dhcp } := by
  refine verifies_withChecksum
    { ipOf dstIP srcIP with iplen := UInt16.ofNat (20 + (8 + dhcp.length)) }
    (udpOf udpsrc udpdst (8 + dhcp.length)) rfl rfl ?_ ?_
  · rw [UInt16.toNat_ofNat']
    omega
  · rw [udpOf, UInt16.toNat_ofNat']
    omega

/-! ## Addresses in either form -/

theorem copyTo4_of_to4 {ip : Bytes} {a : IPv4} (hip : to4 ip = some (beBytes a)) :
    copyTo4 ip = a := by
  rw [copyTo4, hip, Option.bind_some, beUint32_beBytes]
  rfl

theorem ipEqual_iff {ip x v w : Bytes} (hip : to4 ip = some v) (hx : to4 x = some w) :
    ipEqual ip x = true ↔ v = w := by
  rcases to4_eq_some.mp hip with ⟨hlen, rfl⟩ | ⟨hlen, hprefix, rfl⟩ <;>
    rcases to4_eq_some.mp hx with ⟨hlen', rfl⟩ | ⟨hlen', hprefix', rfl⟩
  · rw [ipEqual_of_length (by omega), decide_eq_true_iff]
  · simp [ipEqual, hlen, hlen', hprefix']
  · simp [ipEqual, hlen, hlen', hprefix]
  · rw [ipEqual_of_length (by omega), decide_eq_true_iff]
    constructor
    · rintro rfl
      rfl
    · intro hdrop
      rw [← List.take_append_drop 12 ip, ← List.take_append_drop 12 x, hprefix, hprefix', hdrop]

theorem copyTo4_unicastDst {dstIP giAddr : Bytes} {dst gi : IPv4}
    (hdst : to4 dstIP = some (beBytes dst)) (hgi : to4 giAddr = some (beBytes gi)) :
    copyTo4 (unicastDst dstIP giAddr) = if gi = 0#32 then dst else gi := by
  have hzero : to4 netIPv4zero = some (beBytes 0#32) := by decide
  have heq := ipEqual_iff hdst hgi
  have hunset := ipEqual_iff hgi hzero
  rw [beBytes_inj] at heq hunset
  unfold unicastDst
  by_cases hsame : dst = gi
  · rw [heq.mpr hsame]
    simp only [Bool.not_true, Bool.false_eq_true, if_false]
    rw [copyTo4_of_to4 hdst, hsame, ite_self]
  · rw [Bool.eq_false_iff.mpr (mt heq.mp hsame)]
    simp only [Bool.not_false, if_true]
    by_cases hset : gi = 0#32
    · rw [hunset.mpr hset, if_pos hset]
      exact copyTo4_of_to4 hdst
    · rw [Bool.eq_false_iff.mpr (mt hunset.mp hset), if_neg hset]
      exact copyTo4_of_to4 hgi

/-! ## What is sent -/

/-- The byte strings that `checksum` is called on while a packet is assembled. -/
def checksumBufs (dhcp dstIP srcIP : Bytes) (udpsrc udpdst : ℕ) : List Bytes :=
  [(udpOf udpsrc udpdst (8 + dhcp.length)).checksumBuf (ipOf dstIP srcIP) dhcp,
    { ipOf dstIP srcIP with iplen := UInt16.ofNat (20 + (8 + dhcp.length)) }.checksumBuf]

theorem checksumBufs_exact {dhcp : Bytes} (hlen : 28 + dhcp.length ≤ 65535) (dstIP srcIP : Bytes)
    (udpsrc udpdst : ℕ) :
    ∀ buf ∈ checksumBufs dhcp dstIP srcIP udpsrc udpdst, AccumulatesExactly buf := by
  simp only [checksumBufs, List.mem_cons, List.not_mem_nil, or_false, forall_eq_or_imp, forall_eq]
  refine ⟨accumulatesExactly ?_, accumulatesExactly ?_⟩
  · rw [UdpHdr.length_checksumBuf]
    omega
  · rw [IpHdr.length_checksumBuf]
    omega

/-- The packets of `sendDHCP` and `sendUnicastDHCP` verify at the receiver, and no sum leaves its
32 bits. -/
theorem sent_datagrams_verify (src dst gi : IPv4) (srcIP dstIP giAddr dhcp : Bytes)
    (udpsrc udpdst : UInt16) (hsrc : to4 srcIP = some (beBytes src))
    (hdst : to4 dstIP = some (beBytes dst)) (hgi : to4 giAddr = some (beBytes gi))
    (hlen : 28 + dhcp.length ≤ 65535) :
    Verifies (framePacket dhcp dstIP srcIP)
        ⟨src, dst, 67, 68, 28 + dhcp.length, 8 + dhcp.length, dhcp⟩ ∧
      (∀ buf ∈ checksumBufs dhcp dstIP srcIP 67 68, AccumulatesExactly buf) ∧
      Verifies (unicastPacket dhcp dstIP srcIP giAddr udpsrc.toNat udpdst.toNat)
        ⟨src, if gi = 0#32 then dst else gi, udpsrc.toNat, udpdst.toNat, 28 + dhcp.length,
          8 + dhcp.length, dhcp⟩ ∧
      (∀ buf ∈ checksumBufs dhcp (unicastDst dstIP giAddr) srcIP udpsrc.toNat udpdst.toNat,
        AccumulatesExactly buf) := by
  refine ⟨?_, checksumBufs_exact hlen _ _ _ _, ?_, checksumBufs_exact hlen _ _ _ _⟩
  · have h := assemble_verifies hlen dstIP srcIP bootpServer bootpClient
    rw [copyTo4_of_to4 hsrc, copyTo4_of_to4 hdst] at h
    exact h
  · have h := assemble_verifies hlen (unicastDst dstIP giAddr) srcIP udpsrc.toNat udpdst.toNat
    rw [copyTo4_of_to4 hsrc, copyTo4_unicastDst hdst hgi, UInt16.ofNat_toNat,
      UInt16.ofNat_toNat] at h
    exact h

theorem sent_datagrams_verify_odd :
    Verifies (unicastPacket [1, 2, 3] [10, 0, 0, 2] [10, 0, 0, 1] [10, 0, 0, 9] 67 1068)
      ⟨0x0a000001#32, 0x0a000009#32, 67, 1068, 31, 11, [1, 2, 3]⟩ :=
  (sent_datagrams_verify 0x0a000001#32 0x0a000002#32 0x0a000009#32 [10, 0, 0, 1] [10, 0, 0, 2]
    [10, 0, 0, 9] [1, 2, 3] 67 1068 (by decide) (by decide) (by decide) (by decide)).2.2.1

/-- The datagram of a message that `doWork` sends. -/
def Sent.packet : Sent → Bytes
  | .unicast dhcp dstIP srcIP udpsrc udpdst => assemble dhcp.bytes dstIP srcIP udpsrc udpdst
  | .frame _ dhcp dstIP srcIP => framePacket dhcp.bytes dstIP srcIP

/-- The destination that the model of `doWork` gives a message is the one of its packet. -/
theorem sendUnicastDHCP_packet {sockets : Sockets} {dhcp : Datagram} {dstIP srcIP giAddr : Bytes}
    {udpsrc udpdst : ℕ} (hdst : dstIP.length = 4) (hgi : giAddr.length = 4) :
    (sendUnicastDHCP sockets dhcp dstIP srcIP giAddr udpsrc udpdst).map Sent.packet =
      if sockets.ip then [unicastPacket dhcp.bytes dstIP srcIP giAddr udpsrc udpdst] else [] := by
  have heq : ipEqual dstIP giAddr = decide (dstIP = giAddr) := ipEqual_of_length (by omega)
  have hunset : ipEqual giAddr netIPv4zero = decide (giAddr = ipv4Zero) := by
    have hto : to4 giAddr = some giAddr := by rw [to4, if_pos hgi]
    have hzero : to4 netIPv4zero = some ipv4Zero := by decide
    rw [Bool.eq_iff_iff, ipEqual_iff hto hzero, decide_eq_true_iff]
  have hdest : unicastDst dstIP giAddr = if dstIP ≠ giAddr then
      if giAddr ≠ ipv4Zero then giAddr else dstIP else dstIP := by
    rw [unicastDst, heq, hunset]
    simp
  rw [sendUnicastDHCP]
  split
  · rw [unicastPacket, hdest]
    rfl
  · rfl

theorem mem_sendUnicastDHCP {sockets : Sockets} {dhcp : Datagram} {dstIP srcIP giAddr : Bytes}
    {udpsrc udpdst : ℕ} {sent : Sent}
    (hsent : sent ∈ sendUnicastDHCP sockets dhcp dstIP srcIP giAddr udpsrc udpdst) :
    ∃ dst, sent = .unicast dhcp dst srcIP udpsrc udpdst := by
  unfold sendUnicastDHCP at hsent
  split at hsent
  · exact ⟨_, List.mem_singleton.mp hsent⟩
  · cases hsent

theorem mem_sendFrame {sockets : Sockets} {target : Bytes} {dhcp : Datagram} {dstIP srcIP : Bytes}
    {sent : Sent} (hsent : sent ∈ sendFrame sockets target dhcp dstIP srcIP) :
    sent = .frame target dhcp dstIP srcIP := by
  unfold sendFrame at hsent
  split at hsent
  · exact List.mem_singleton.mp hsent
  · cases hsent

/-- Whatever `doWork` sends verifies, with the answer of `ServeDHCP` as its payload. -/
theorem doWork_verifies {sockets : Sockets} {interface : Interface} {p d : Datagram}
    {t : MessageType} {clientIP : Bytes} {clientPort : ℕ} {ans : WireAnswer} {sent : Sent}
    (hd : ans.d = some d) (hlen : 28 + d.bytes.length ≤ 65535)
    (hsent : sent ∈ doWork sockets interface p t clientIP clientPort ans) :
    ∃ r, Verifies sent.packet r ∧ r.payload = d.bytes := by
  have hunicast : ∀ {dstIP srcIP giAddr : Bytes} {udpsrc udpdst : ℕ},
      sent ∈ sendUnicastDHCP sockets d dstIP srcIP giAddr udpsrc udpdst →
        ∃ r, Verifies sent.packet r ∧ r.payload = d.bytes := by
    intro dstIP srcIP giAddr udpsrc udpdst hmem
    obtain ⟨dst, rfl⟩ := mem_sendUnicastDHCP hmem
    exact ⟨_, assemble_verifies hlen dst srcIP udpsrc udpdst, rfl⟩
  have hframe : ∀ {target dstIP srcIP : Bytes}, sent ∈ sendFrame sockets target d dstIP srcIP →
      ∃ r, Verifies sent.packet r ∧ r.payload = d.bytes := by
    intro target dstIP srcIP hmem
    obtain rfl := mem_sendFrame hmem
    exact ⟨_, assemble_verifies hlen dstIP srcIP bootpServer bootpClient, rfl⟩
  unfold doWork at hsent
  rw [hd] at hsent
  dsimp only at hsent
  split at hsent
  · split at hsent
    · exact hunicast hsent
    · exact hunicast hsent
    · exact hframe hsent
    · exact hframe hsent
    · cases hsent
  · split at hsent
    · exact hunicast hsent
    · exact hframe hsent

end StandaloneDHCP
