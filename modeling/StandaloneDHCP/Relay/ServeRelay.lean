import StandaloneDHCP.Wire.Dhcp4

/-! The relay branch of `ServeDHCP`: the packet that is passed on for a packet received on a
relay interface. It is built from scratch, with the options of the received packet added in the
order of a range loop over the parsed map. -/
namespace StandaloneDHCP
open Lib
set_option autoImplicit false

/-- What the relay branch reads of an interface: its own address, and for a relay interface the
address of the server. -/
structure Interface where
  isRelay : Bool
  ipv4 : Option IPv4
  relayIP : Option IPv4

namespace Datagram

section Cases
variable (interface : Interface) (order : RangeOrder ℕ) (p : Datagram)

def relayDiscover : Datagram :=
  newPacket .bootRequest
    |>.setCHAddr p.chAddr
    |>.setGIAddr (ipBytes interface.ipv4)
    |>.setXId p.xId
    |>.setBroadcast false
    |>.addOptions (rangeEntries order p.parseOptions)

def relayOffer : Datagram :=
  newPacket .bootReply
    |>.setXId p.xId
    |>.setFile p.file
    |>.setFlags p.flags
    |>.setYIAddr p.yiAddr
    |>.setGIAddr p.giAddr
    |>.setSIAddr p.siAddr
    |>.setCHAddr p.chAddr
    |>.setSecs p.secs
    |>.addOptions (rangeEntries order p.parseOptions)

/-- The case of REQUEST, and with the same body that of RELEASE and DECLINE. -/
def relayRequest : Datagram :=
  newPacket .bootRequest
    |>.setCHAddr p.chAddr
    |>.setFile p.file
    |>.setCIAddr p.ciAddr
    |>.setSIAddr p.siAddr
    |>.setGIAddr (ipBytes interface.ipv4)
    |>.setXId p.xId
    |>.setBroadcast false
    |>.addOptions (rangeEntries order p.parseOptions)

/-- The case of ACK, and with the same body that of NAK. -/
def relayAck : Datagram :=
  newPacket .bootReply
    |>.setXId p.xId
    |>.setFile p.file
    |>.setFlags p.flags
    |>.setSIAddr p.siAddr
    |>.setYIAddr p.yiAddr
    |>.setGIAddr p.giAddr
    |>.setCHAddr p.chAddr
    |>.setSecs p.secs
    |>.addOptions (rangeEntries order p.parseOptions)

/-- `answer.D` of the relay branch; `none` for the type without a case. -/
def serveRelay : MessageType → Option Datagram
  | .discover => some (relayDiscover interface order p)
  | .offer => some (relayOffer order p)
  | .request | .release | .decline => some (relayRequest interface order p)
  | .ack | .nak => some (relayAck order p)
  | .inform => none

end Cases

/-! ## What is passed on -/

theorem parseOptions_copied {base : Datagram} (hbase : base.options = [255])
    (order : RangeOrder ℕ) (p : Datagram) :
    (base.addOptions (rangeEntries order p.parseOptions)).parseOptions = p.parseOptions := by
  have hadded := addOptions_options (rangeEntries order p.parseOptions) [] hbase
  rw [decode_options hadded]
  · funext c
    exact lookupLast_rangeEntries order p.parseOptions c
  · intro e he
    exact encodable_of_parseOptions (of_mem_rangeEntries he)

/-- What the packet that is passed on has in common with the one received. -/
structure Relayed (interface : Interface) (t : MessageType) (p q : Datagram) : Prop where
  options : q.parseOptions = p.parseOptions
  xId : q.xId = p.xId
  chAddr : q.hLen = p.hLen ∧ q.chAddr = p.chAddr
  toClient : t = .offer ∨ t = .ack ∨ t = .nak → q.yiAddr = p.yiAddr ∧ q.siAddr = p.siAddr ∧
    q.giAddr = p.giAddr ∧ q.flags = p.flags ∧ q.secs = p.secs
  toServer : t = .request ∨ t = .release ∨ t = .decline → q.ciAddr = p.ciAddr ∧
    q.siAddr = p.siAddr ∧ ∀ a, interface.ipv4 = some a → q.giAddr = beBytes a

section Cases
variable {interface : Interface} {order : RangeOrder ℕ} {p : Datagram}

theorem relayed_discover (hlen : p.hLen ≤ 16) :
    Relayed interface .discover p (relayDiscover interface order p) := by
  refine ⟨parseOptions_copied (by simp) order p, ?_, ?_, by simp, by simp⟩
  · rw [xId, relayDiscover, field_addOptions, field_setBroadcast _ (by omega)]
    exact field_put (length_field (by omega) p)
  · apply chAddr_of_fields (r := newPacket .bootRequest) hlen
    · simp (disch := omega) only [relayDiscover, field_addOptions, field_setBroadcast, setXId,
        field_put_of_disjoint, setGIAddr, field_setAddr_of_disjoint]
    · intro n hn
      simp (disch := omega) only [relayDiscover, field_addOptions, field_setBroadcast, setXId,
        field_put_of_disjoint, setGIAddr, field_setAddr_of_disjoint]

theorem relayed_request {t : MessageType} (ht : t = .request ∨ t = .release ∨ t = .decline)
    (hlen : p.hLen ≤ 16) : Relayed interface t p (relayRequest interface order p) := by
  refine ⟨parseOptions_copied (by simp) order p, ?_, ?_, ?_, fun _ => ⟨?_, ?_, ?_⟩⟩
  · rw [xId, relayRequest, field_addOptions, field_setBroadcast _ (by omega)]
    exact field_put (length_field (by omega) p)
  · apply chAddr_of_fields (r := newPacket .bootRequest) hlen
    · simp (disch := omega) only [relayRequest, field_addOptions, field_setBroadcast, setXId,
        field_put_of_disjoint, setGIAddr, setSIAddr, setCIAddr, field_setAddr_of_disjoint,
        field_setFile]
    · intro n hn
      simp (disch := omega) only [relayRequest, field_addOptions, field_setBroadcast, setXId,
        field_put_of_disjoint, setGIAddr, setSIAddr, setCIAddr, field_setAddr_of_disjoint,
        field_setFile]
  · obtain rfl | rfl | rfl := ht <;> simp
  · simp (disch := omega) only [ciAddr, relayRequest, field_addOptions, field_setBroadcast, setXId,
      field_put_of_disjoint, setGIAddr, setSIAddr, setCIAddr, field_setAddr_of_disjoint]
    exact field_setAddr (length_field (by omega) p)
  · simp (disch := omega) only [siAddr, relayRequest, field_addOptions, field_setBroadcast, setXId,
      field_put_of_disjoint, setGIAddr, setSIAddr, field_setAddr_of_disjoint]
    exact field_setAddr (length_field (by omega) p)
  · intro a ha
    simp (disch := omega) only [giAddr, relayRequest, field_addOptions, field_setBroadcast, setXId,
      field_put_of_disjoint, setGIAddr, ha]
    exact field_setAddr (length_beBytes a)

/-- The setters of the OFFER case come in another order, the packet is the same. -/
theorem relayOffer_eq : relayOffer order p = relayAck order p := by
  have hgateway : ∀ q : Datagram, (q.setGIAddr p.giAddr).setSIAddr p.siAddr =
      (q.setSIAddr p.siAddr).setGIAddr p.giAddr := fun q =>
    put_comm (by omega) (by omega) (by omega)
  have hclient : ∀ q : Datagram, (q.setYIAddr p.yiAddr).setSIAddr p.siAddr =
      (q.setSIAddr p.siAddr).setYIAddr p.yiAddr := fun q =>
    put_comm (by omega) (by omega) (by omega)
  rw [relayOffer, relayAck, hgateway, hclient]

theorem relayed_ack {t : MessageType} (ht : t = .offer ∨ t = .ack ∨ t = .nak)
    (hlen : p.hLen ≤ 16) : Relayed interface t p (relayAck order p) := by
  refine ⟨parseOptions_copied (by simp) order p, ?_, ?_, fun _ => ⟨?_, ?_, ?_, ?_, ?_⟩, ?_⟩
  · simp (disch := omega) only [xId, relayAck, field_addOptions, setSecs, setFlags,
      field_put_of_disjoint, field_setCHAddr, setYIAddr, setGIAddr, setSIAddr,
      field_setAddr_of_disjoint, field_setFile]
    exact field_put (length_field (by omega) p)
  · apply chAddr_of_fields hlen
    · rw [relayAck, field_addOptions]
      exact field_put_of_disjoint (by omega)
    · intro n hn
      rw [relayAck, field_addOptions]
      exact field_put_of_disjoint (by omega)
  · simp (disch := omega) only [yiAddr, relayAck, field_addOptions, setSecs,
      field_put_of_disjoint, field_setCHAddr, setGIAddr, field_setAddr_of_disjoint]
    exact field_setAddr (length_field (by omega) p)
  · simp (disch := omega) only [siAddr, relayAck, field_addOptions, setSecs,
      field_put_of_disjoint, field_setCHAddr, setYIAddr, setGIAddr, field_setAddr_of_disjoint]
    exact field_setAddr (length_field (by omega) p)
  · simp (disch := omega) only [giAddr, relayAck, field_addOptions, setSecs,
      field_put_of_disjoint, field_setCHAddr]
    exact field_setAddr (length_field (by omega) p)
  · simp (disch := omega) only [flags, relayAck, field_addOptions, setSecs,
      field_put_of_disjoint, field_setCHAddr, setYIAddr, setGIAddr, setSIAddr,
      field_setAddr_of_disjoint]
    exact field_put (length_field (by omega) p)
  · rw [secs, relayAck, field_addOptions]
    exact field_put (length_field (by omega) p)
  · obtain rfl | rfl | rfl := ht <;> simp

theorem relayed_of_serveRelay (hlen : p.hLen ≤ 16) {t : MessageType} {q : Datagram}
    (hq : p.serveRelay interface order t = some q) : Relayed interface t p q := by
  cases t with
  | inform => cases hq
  | discover =>
    cases hq
    exact relayed_discover hlen
  | offer =>
    cases hq
    rw [relayOffer_eq]
    exact relayed_ack (.inl rfl) hlen
  | request =>
    cases hq
    exact relayed_request (.inl rfl) hlen
  | release =>
    cases hq
    exact relayed_request (.inr (.inl rfl)) hlen
  | decline =>
    cases hq
    exact relayed_request (.inr (.inr rfl)) hlen
  | ack =>
    cases hq
    exact relayed_ack (.inr (.inl rfl)) hlen
  | nak =>
    cases hq
    exact relayed_ack (.inr (.inr rfl)) hlen

end Cases

/-- Every type but INFORM is relayed, and the packet that is passed on has the options of the one
received and its fields that matter for the type. -/
theorem relay_preserves_message (interface : Interface) (order : RangeOrder ℕ) {p : Datagram}
    (hlen : p.hLen ≤ 16) {t : MessageType} (ht : t ≠ .inform) :
    ∃ q, p.serveRelay interface order t = some q ∧ Relayed interface t p q := by
  have hsome : ∃ q, p.serveRelay interface order t = some q := by
    cases t with
    | inform => exact absurd rfl ht
    | _ => exact ⟨_, rfl⟩
  obtain ⟨q, hq⟩ := hsome
  exact ⟨q, hq, relayed_of_serveRelay hlen hq⟩

/-- An OFFER with padding, a repeated option and a truncated last one. -/
theorem relay_preserves_message_sample :
    let p : Datagram := {
      newPacket .bootReply |>.setCHAddr [2, 0, 0, 0, 0, 1] with
      options := [0, 53, 1, 2, 51, 4, 0, 0, 0, 60, 0, 51, 4, 0, 0, 1, 44, 6, 9, 8] }
    ∃ q, p.serveRelay ⟨true, some 0x0a000001#32, some 0x0a640001#32⟩ RangeOrder.ascending .offer =
      some q ∧ q.parseOptions 51 = some [0, 0, 1, 44] ∧ q.parseOptions 6 = none ∧
      q.chAddr = [2, 0, 0, 0, 0, 1] := by
  intro p
  obtain ⟨q, hq, hrelayed⟩ := relay_preserves_message
    ⟨true, some 0x0a000001#32, some 0x0a640001#32⟩ RangeOrder.ascending (p := p) (t := .offer)
    (by decide) (by decide)
  refine ⟨q, hq, ?_, ?_, ?_⟩
  · rw [hrelayed.options]
    decide
  · rw [hrelayed.options]
    decide
  · rw [hrelayed.chAddr.2]
    decide

end Datagram
end StandaloneDHCP
