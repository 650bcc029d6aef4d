import StandaloneDHCP.Relay.ServeRelay

/-! From the socket to the socket. `Serve` turns what was read into a job, and `doWork` sends
what `ServeDHCP` answers: its relay branch has a switch over the message type of its own, and
`sendUnicastDHCP` decides about the destination once more. Addresses are the bytes of a `net.IP`
in the 4-byte form, none for `nil`. -/
namespace StandaloneDHCP
open Lib
set_option autoImplicit false

/-! ## `Serve` -/

/-- The message types from `Discover` to `Inform`. -/
def MessageType.ofCode (b : UInt8) : Option MessageType :=
  [discover, offer, request, decline, ack, nak, release, inform].find? (·.code == b)

theorem MessageType.ofCode_eq_some {b : UInt8} {t : MessageType} :
    MessageType.ofCode b = some t ↔ t.code = b := by
  constructor
  · intro h
    simpa using List.find?_some h
  · rintro rfl
    cases t with
    | _ => decide

/-- The body of the loop: the packet and the type of the job for what was read, `none` where it
is skipped. -/
def serve (buffer : Bytes) : Option (Datagram × MessageType) :=
  if hlong : 240 ≤ buffer.length then
    let req := Datagram.ofBytes buffer hlong
    if 16 < req.hLen then none
    else
      match req.parseOptions optionDHCPMessageType with
      | some [b] => (MessageType.ofCode b).map fun t => (req, t)
      | _ => none
  else none

/-- The packet as it is sent. -/
def Datagram.bytes (p : Datagram) : Bytes := p.header ++ p.options

theorem Datagram.ofBytes_bytes (p : Datagram) (hlong : 240 ≤ p.bytes.length) :
    Datagram.ofBytes p.bytes hlong = p := by
  obtain ⟨header, options, hsize⟩ := p
  simp [Datagram.ofBytes, Datagram.bytes, ← hsize]

/-- A packet with its header complete is admitted by its length byte and its option 53. -/
theorem serve_bytes {p : Datagram} {t : MessageType} :
    serve p.bytes = some (p, t) ↔
      p.hLen ≤ 16 ∧ p.parseOptions optionDHCPMessageType = some [t.code] := by
  have hlong : 240 ≤ p.bytes.length := by
    rw [Datagram.bytes, List.length_append, p.size]
    omega
  rw [serve, dif_pos hlong]
  simp only [Datagram.ofBytes_bytes]
  by_cases hlen : 16 < p.hLen
  · rw [if_pos hlen]
    simp only [reduceCtorEq, false_iff, not_and]
    omega
  · rw [if_neg hlen]
    have hle : p.hLen ≤ 16 := by omega
    rw [and_iff_right hle]
    split
    · next b hb =>
      rw [hb, Option.map_eq_some_iff]
      simp only [Prod.mk.injEq, true_and, exists_eq_right, MessageType.ofCode_eq_some]
      simp [eq_comm]
    · next hother =>
      simp only [reduceCtorEq, false_iff]
      exact hother _

/-- What a relay passes on is admitted by the next `Serve`, with the same type. -/
theorem serve_relayed {interface : Interface} {order : RangeOrder ℕ} {p q : Datagram}
    {t : MessageType} (hp : serve p.bytes = some (p, t))
    (hq : p.serveRelay interface order t = some q) : serve q.bytes = some (q, t) := by
  obtain ⟨hlen, htype⟩ := serve_bytes.mp hp
  have hrelayed := Datagram.relayed_of_serveRelay hlen hq
  refine serve_bytes.mpr ⟨?_, ?_⟩
  · rw [hrelayed.chAddr.1]
    exact hlen
  · rw [hrelayed.options]
    exact htype

/-! ## `doWork` -/

/-- The answer of `ServeDHCP` with its packet. -/
structure WireAnswer where
  d : Option Datagram
  ip : Bytes
  mac : Bytes
  srcIP : Option IPv4

/-- A call that reached its `Sendto` or `WriteTo`: `sendUnicastDHCP` over an IP socket,
`sendDHCP` as an Ethernet frame to a hardware address. -/
inductive Sent
  | unicast (dhcp : Datagram) (dstIP srcIP : Bytes) (udpsrc udpdst : ℕ)
  | frame (target : Bytes) (dhcp : Datagram) (dstIP srcIP : Bytes)

/-- Which kinds of socket can be opened. -/
structure Sockets where
  ip : Bool
  raw : Bool

def bootpServer : ℕ := 67
def bootpClient : ℕ := 68

def ipv4Zero : Bytes := [0, 0, 0, 0]

section Sending
variable (sockets : Sockets)

/-- The given destination is replaced by a gateway address that is set and another one. -/
def sendUnicastDHCP (dhcp : Datagram) (dstIP srcIP giAddr : Bytes) (udpsrc udpdst : ℕ) :
    List Sent :=
  if sockets.ip then
    let dstIP :=
      if dstIP ≠ giAddr then
        if giAddr ≠ ipv4Zero then giAddr else dstIP
      else dstIP
    [.unicast dhcp dstIP srcIP udpsrc udpdst]
  else []

/-- `NewRawClient`, `sendDHCP` and `Close`. -/
def sendFrame (target : Bytes) (dhcp : Datagram) (dstIP srcIP : Bytes) : List Sent :=
  if sockets.raw then [.frame target dhcp dstIP srcIP] else []

/-- `clientIP` and `clientPort` are what the source address of the packet parses to. -/
def doWork (interface : Interface) (p : Datagram) (t : MessageType) (clientIP : Bytes)
    (clientPort : ℕ) (ans : WireAnswer) : List Sent :=
  match ans.d with
  | none => []
  | some d =>
    if interface.isRelay then
      match t with
      | .discover | .request =>
        sendUnicastDHCP sockets d (ipBytes interface.relayIP) (ipBytes interface.ipv4) p.giAddr
          bootpClient bootpServer
      | .offer | .ack => sendFrame sockets ans.mac d ans.ip (ipBytes interface.ipv4)
      | _ => []
    else if ¬ (p.giAddr = ipv4Zero ∧ clientIP = ipv4Zero) then
      sendUnicastDHCP sockets d clientIP (ipBytes interface.ipv4) p.giAddr bootpServer clientPort
    else sendFrame sockets ans.mac d ans.ip (ipBytes interface.ipv4)

end Sending

/-- `ServeDHCP` on a relay interface. -/
def serveRelayAnswer (interface : Interface) (order : RangeOrder ℕ) (p : Datagram)
    (t : MessageType) : WireAnswer where
  d := p.serveRelay interface order t
  ip := if t = .offer then p.siAddr else []
  mac := p.chAddr
  srcIP := interface.ipv4

/-- Sent by the client of a server, as opposed to by a server. -/
def MessageType.fromClient : MessageType → Bool
  | .discover | .request | .release | .decline | .inform => true
  | .offer | .ack | .nak => false

/-- The relayed packet `q` is sent once: to the server for a message of a client, to the hardware
address of the client for one of the server. -/
def PassedOn (relayIP : IPv4) (p q : Datagram) (t : MessageType) (sent : List Sent) : Prop :=
  if t.fromClient then
    ∃ srcIP udpsrc udpdst, sent = [.unicast q (beBytes relayIP) srcIP udpsrc udpdst]
  else ∃ dstIP srcIP, sent = [.frame p.chAddr q dstIP srcIP]

/-- The messages that both switches know, and for the way to the server no other gateway. -/
def HasRoute (relayIP : IPv4) (p : Datagram) (t : MessageType) : Prop :=
  (t = .offer ∨ t = .ack) ∨
    (t = .discover ∨ t = .request) ∧ (p.giAddr = ipv4Zero ∨ p.giAddr = beBytes relayIP)

section Relay
variable {interface : Interface} {order : RangeOrder ℕ} {p q : Datagram} {t : MessageType}
  {relayIP : IPv4} {clientIP : Bytes} {clientPort : ℕ} {sockets : Sockets}

theorem sendUnicastDHCP_to {dhcp : Datagram} {srcIP giAddr : Bytes} {udpsrc udpdst : ℕ}
    (hopen : sockets.ip = true) (dstIP : Bytes) :
    (∃ srcIP' udpsrc' udpdst', sendUnicastDHCP sockets dhcp dstIP srcIP giAddr udpsrc udpdst =
      [.unicast dhcp dstIP srcIP' udpsrc' udpdst']) ↔ giAddr = ipv4Zero ∨ giAddr = dstIP := by
  simp only [sendUnicastDHCP, hopen, if_true]
  by_cases heq : dstIP = giAddr
  · simp [heq]
  · by_cases hzero : giAddr = ipv4Zero
    · simp [hzero]
    · simp [heq, hzero]

/-- With the sockets open, a relayed packet reaches the right party exactly when it has a
route. -/
theorem relayed_packet_sent_iff (hrelay : interface.isRelay = true)
    (hserver : interface.relayIP = some relayIP) (hip : sockets.ip = true)
    (hraw : sockets.raw = true) (hq : p.serveRelay interface order t = some q) :
    PassedOn relayIP p q t
      (doWork sockets interface p t clientIP clientPort
        (serveRelayAnswer interface order p t)) ↔ HasRoute relayIP p t := by
  have hto : ipBytes interface.relayIP = beBytes relayIP := by rw [hserver]; rfl
  cases t with
  | discover | request =>
    simp only [PassedOn, MessageType.fromClient, if_true, doWork, serveRelayAnswer, hq, hrelay, hto]
    rw [sendUnicastDHCP_to hip]
    simp [HasRoute]
  | offer | ack =>
    simp [PassedOn, MessageType.fromClient, doWork, serveRelayAnswer, hq, hrelay, sendFrame, hraw,
      HasRoute]
  | nak | release | decline | inform =>
    simp [PassedOn, MessageType.fromClient, doWork, serveRelayAnswer, hq, hrelay, HasRoute]

end Relay

/-- A relay for the server 10.100.0.1. -/
def relaySample : Interface := ⟨true, some 0x0a000001#32, some 0x0a640001#32⟩

/-- A packet of the given type. -/
def messageSample (opCode : Datagram.OpCode) (t : MessageType) : Datagram :=
  (Datagram.newPacket opCode).addOption optionDHCPMessageType [t.code]

/-- A DISCOVER straight from the client. -/
theorem relayed_packet_sent_sample :
    let p := messageSample .bootRequest .discover
    serve p.bytes = some (p, .discover) ∧
    ∃ q, p.serveRelay relaySample RangeOrder.ascending .discover = some q ∧
      PassedOn 0x0a640001#32 p q .discover
        (doWork ⟨true, true⟩ relaySample p .discover [0, 0, 0, 0] 68
          (serveRelayAnswer relaySample RangeOrder.ascending p .discover)) := by
  intro p
  refine ⟨serve_bytes.mpr ⟨by decide, by decide⟩, _, rfl,
    (relayed_packet_sent_iff rfl rfl rfl rfl rfl).mpr ?_⟩
  exact .inr ⟨.inl rfl, .inl (by decide)⟩

/-- A NAK of the server is built and not sent. -/
theorem relayed_nak_not_sent : ¬ ∀ (interface : Interface) (order : RangeOrder ℕ)
    (p q : Datagram) (t : MessageType) (relayIP : IPv4) (clientIP : Bytes) (clientPort : ℕ)
    (sockets : Sockets), interface.isRelay = true → interface.relayIP = some relayIP →
    sockets.ip = true → sockets.raw = true → serve p.bytes = some (p, t) →
    p.serveRelay interface order t = some q →
    PassedOn relayIP p q t (doWork sockets interface p t clientIP clientPort
      (serveRelayAnswer interface order p t)) := by
  intro hall
  have hserve : serve (messageSample .bootReply .nak).bytes =
      some (messageSample .bootReply .nak, .nak) := serve_bytes.mpr ⟨by decide, by decide⟩
  have hsent := hall relaySample RangeOrder.ascending (messageSample .bootReply .nak) _ .nak
    0x0a640001#32 [10, 100, 0, 1] 67 ⟨true, true⟩ rfl rfl rfl rfl hserve rfl
  obtain ⟨dstIP, srcIP, heq⟩ := hsent
  exact absurd heq (by simp [doWork, serveRelayAnswer, Datagram.serveRelay, relaySample])

end StandaloneDHCP
