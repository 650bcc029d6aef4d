import StandaloneDHCP.Server.ReplyPackets
import StandaloneDHCP.Server.ServerRun
import StandaloneDHCP.Workers.JobQueue

/-! An exchange between a client and a server through a relay, both of them this program. The relay
passes the client's packet on with its own address in `giaddr`, the server answers to the address
and the port that the packet came from, and the relay hands the answer to the client in a frame.
What the client reads is what the server would send to it directly. -/
namespace StandaloneDHCP
open Lib
set_option autoImplicit false

/-- The answer with its reply as `ReplyPacket` writes it. -/
def Answer.wire (req : Datagram) (answer : Answer) : WireAnswer where
  d := answer.d.map fun reply => reply.replyPacket req
  ip := answer.ip
  mac := answer.mac
  srcIP := answer.srcIP

section Parties
variable (sockets : Sockets)

/-- What a relay sends for a datagram. -/
def handleRelayed (interface : Interface) (order : RangeOrder ℕ) (a : Arrival) : List Sent :=
  match serve a.received with
  | none => []
  | some (p, t) =>
    doWork sockets interface p t a.addr.1 a.addr.2 (serveRelayAnswer interface order p t)

/-- What a server sends for a datagram at interface `i`, and how it goes on. -/
def handleServed (s : Server) (i : ℕ) (ipv4 : Option IPv4) (env : Env) (fuel : ℕ) (a : Arrival) :
    Option (Server × List Sent) :=
  match serve a.received with
  | none => some (s, [])
  | some (q, t) =>
    (s.serve i q.packet t env fuel).map fun r =>
      ({ s with globals := r.1, intsNet := s.setNetworks i r.2.1 },
        doWork sockets ⟨false, ipv4, none⟩ q t a.addr.1 a.addr.2 (r.2.2.wire q))

end Parties

/-- The packet as the server sees it behind a relay. A DISCOVER arrives without its `ciaddr`. -/
def Packet.relayed (p : Packet) (gateway : IPv4) (t : MessageType) : Packet :=
  { p with
    giaddr := gateway
    ciaddr := if t = .discover then 0 else p.ciaddr }

namespace Datagram
variable {p q : Datagram} {t : MessageType} {interface : Interface} {order : RangeOrder ℕ}
  {gateway : IPv4}

theorem relayDiscover_addresses (hgateway : interface.ipv4 = some gateway) :
    (relayDiscover interface order p).giAddr = beBytes gateway ∧
      (relayDiscover interface order p).ciAddr = [0, 0, 0, 0] := by
  constructor
  · simp (disch := omega) only [giAddr, relayDiscover, field_addOptions, field_setBroadcast, setXId,
      field_put_of_disjoint, setGIAddr, hgateway]
    exact field_setAddr (length_beBytes gateway)
  · simp (disch := omega) only [ciAddr, relayDiscover, field_addOptions, field_setBroadcast, setXId,
      field_put_of_disjoint, setGIAddr, field_setAddr_of_disjoint, field_setCHAddr]
    rfl

/-- The relayed packet reads as the client's own, but for the two addresses. -/
theorem packet_relayed (hlen : p.hLen ≤ 16) (hgateway : interface.ipv4 = some gateway)
    (ht : t = .discover ∨ t = .request) (hq : p.serveRelay interface order t = some q) :
    q.packet = p.packet.relayed gateway t ∧ q.giAddr = beBytes gateway := by
  have hrelayed := relayed_of_serveRelay hlen hq
  have haddresses : q.giAddr = beBytes gateway ∧
      q.ciAddr = if t = .discover then [0, 0, 0, 0] else p.ciAddr := by
    obtain rfl | rfl := ht
    · cases hq
      exact relayDiscover_addresses hgateway
    · obtain ⟨hci, -, hgi⟩ := hrelayed.toServer (.inl rfl)
      exact ⟨hgi gateway hgateway, hci⟩
  refine ⟨?_, haddresses.1⟩
  have hgi : (beUint32 q.giAddr).getD 0 = gateway := by
    rw [haddresses.1, beUint32_beBytes]
    rfl
  have hci : (beUint32 q.ciAddr).getD 0 = if t = .discover then 0 else p.packet.ciaddr := by
    rw [haddresses.2]
    split
    · rfl
    · rfl
  simp only [packet, Packet.relayed, hgi, hci, hrelayed.chAddr.2, hrelayed.xId, hrelayed.options]

end Datagram

namespace Reply
variable (reply : Reply) (req : Datagram)

/-- The header of the reply. -/
theorem field_replyPacket (off n : ℕ) :
    (reply.replyPacket req).field off n = (Datagram.newPacket .bootReply
      |>.setXId req.xId |>.setFlags req.flags |>.setYIAddr (ipBytes reply.yiaddr)
      |>.setGIAddr req.giAddr |>.setCHAddr req.chAddr |>.setSecs req.secs).field off n := by
  rw [replyPacket]
  show Datagram.field off n _ = _
  rw [Datagram.padToMinSize]
  show Datagram.field off n (Datagram.addOptions _ _) = _
  rw [Datagram.field_addOptions, Datagram.field_addOptions]

theorem replyPacket_xId : (reply.replyPacket req).xId = req.xId := by
  rw [Datagram.xId, field_replyPacket]
  simp (disch := omega) only [Datagram.setSecs, Datagram.setFlags, Datagram.setYIAddr,
    Datagram.setGIAddr, Datagram.field_put_of_disjoint, Datagram.field_setCHAddr,
    Datagram.field_setAddr_of_disjoint]
  exact Datagram.field_put (Datagram.length_field (by omega) req)

theorem replyPacket_chAddr (hlen : req.hLen ≤ 16) :
    (reply.replyPacket req).hLen = req.hLen ∧ (reply.replyPacket req).chAddr = req.chAddr := by
  apply Datagram.chAddr_of_fields hlen
  · rw [field_replyPacket]
    exact Datagram.field_put_of_disjoint (by omega)
  · intro n hn
    rw [field_replyPacket]
    exact Datagram.field_put_of_disjoint (by omega)

/-- The address of the client does not depend on the packet that is answered. -/
theorem replyPacket_yiAddr : (reply.replyPacket req).yiAddr =
    ((Datagram.newPacket .bootReply).setYIAddr (ipBytes reply.yiaddr)).yiAddr := by
  have hflags : ∀ d : Datagram, (d.setFlags req.flags).setYIAddr (ipBytes reply.yiaddr) =
      (d.setYIAddr (ipBytes reply.yiaddr)).setFlags req.flags := fun d =>
    Datagram.put_comm (by omega) (by omega) (by omega)
  have hxId : ∀ d : Datagram, (d.setXId req.xId).setYIAddr (ipBytes reply.yiaddr) =
      (d.setYIAddr (ipBytes reply.yiaddr)).setXId req.xId := fun d =>
    Datagram.put_comm (by omega) (by omega) (by omega)
  rw [Datagram.yiAddr, field_replyPacket, hflags, hxId]
  simp (disch := omega) only [Datagram.setSecs, Datagram.setGIAddr, Datagram.setXId,
    Datagram.setFlags, Datagram.field_put_of_disjoint, Datagram.field_setCHAddr,
    Datagram.field_setAddr_of_disjoint]
  rfl

theorem serve_replyPacket (hreq : req.hLen ≤ 16)
    (hoptions : ∀ e ∈ reply.options, Datagram.optionFormat.Encodable e)
    (htype : ∀ e ∈ reply.options, e.1 ≠ optionDHCPMessageType) :
    serve (reply.replyPacket req).bytes = some (reply.replyPacket req, reply.messageType) := by
  rw [serve_bytes]
  refine ⟨(reply.replyPacket_chAddr req hreq).1.trans_le hreq, ?_⟩
  rw [parseOptions_replyPacket hoptions]
  have hnone : lookupLast reply.options optionDHCPMessageType = none := by
    cases hlast : lookupLast reply.options optionDHCPMessageType with
    | none => rfl
    | some v => exact absurd rfl (htype _ (mem_of_lookupLast hlast))
  rw [hnone, Option.none_or, own, ownOptions]
  split
  · rfl
  · rfl

end Reply

/-! ## The exchange -/

section Exchange
variable {sockets : Sockets} (hip : sockets.ip = true) (hraw : sockets.raw = true)
  {relay : Interface} {gateway server : IPv4} (hrelay : relay.isRelay = true)
  (hgateway : relay.ipv4 = some gateway) (hserver : relay.relayIP = some server)
  {p q : Datagram} {t : MessageType} {order : RangeOrder ℕ} {a : Arrival}

theorem bytes_of_serve {buffer : Bytes} (hp : serve buffer = some (p, t)) : p.bytes = buffer := by
  unfold serve at hp
  split at hp
  · next hlong =>
    simp only at hp
    split at hp
    · cases hp
    · split at hp
      · obtain ⟨t', -, heq⟩ := Option.map_eq_some_iff.mp hp
        cases heq
        exact List.take_append_drop 240 buffer
      · cases hp
  · cases hp

theorem received_bytes {d : Datagram} {addr : Bytes × ℕ} (hfits : d.bytes.length ≤ bufferSize) :
    Arrival.received ⟨d.bytes, addr⟩ = d.bytes := List.take_of_length_le hfits

include hip hrelay hgateway hserver in
/-- The way to the server. -/
theorem handleRelayed_request (hp : serve a.received = some (p, t))
    (ht : t = .discover ∨ t = .request) (hdirect : p.giAddr = ipv4Zero)
    (hq : p.serveRelay relay order t = some q) :
    handleRelayed sockets relay order a =
      [.unicast q (beBytes server) (beBytes gateway) bootpClient bootpServer] := by
  rw [handleRelayed, hp]
  obtain rfl | rfl := ht <;>
    simp [doWork, serveRelayAnswer, hq, hrelay, sendUnicastDHCP, hip, hdirect, hserver, hgateway,
      ipBytes]

include hraw hrelay hgateway in
/-- The way to the client. -/
theorem handleRelayed_reply {d d' : Datagram} (hd : serve a.received = some (d, t))
    (ht : t = .offer ∨ t = .ack) (hd' : d.serveRelay relay order t = some d') :
    ∃ dstIP, handleRelayed sockets relay order a =
      [.frame d.chAddr d' dstIP (beBytes gateway)] := by
  rw [handleRelayed, hd]
  obtain rfl | rfl := ht <;>
    simp [doWork, serveRelayAnswer, hd', hrelay, sendFrame, hraw, hgateway, ipBytes]

include hip in
/-- The server answers to where the packet came from. -/
theorem handleServed_relayed {s : Server} {i : ℕ} {ipv4 : IPv4} {env : Env} {fuel : ℕ}
    {port : ℕ} (hq : serve a.received = some (q, t)) (hzero : beBytes gateway ≠ ipv4Zero)
    (hgiaddr : q.giAddr = beBytes gateway) (haddr : a.addr = (beBytes gateway, port)) :
    handleServed sockets s i (some ipv4) env fuel a =
      (s.serve i q.packet t env fuel).map fun r =>
        ({ s with globals := r.1, intsNet := s.setNetworks i r.2.1 },
          (r.2.2.d.map fun reply =>
            Sent.unicast (reply.replyPacket q) (beBytes gateway) (beBytes ipv4) bootpServer
              port).toList) := by
  rw [handleServed, hq]
  refine congrArg (fun f => Option.map f _) (funext fun r => ?_)
  obtain ⟨g, networks, answer⟩ := r
  cases hd : answer.d with
  | none => simp [doWork, Answer.wire, hd]
  | some reply =>
    simp [doWork, Answer.wire, hd, hgiaddr, haddr, hzero, sendUnicastDHCP, hip, ipBytes]

end Exchange

/-- What the two packets have in common for a client. -/
structure ReadsAs (d d' : Datagram) : Prop where
  options : d.parseOptions = d'.parseOptions
  xId : d.xId = d'.xId
  chAddr : d.chAddr = d'.chAddr
  yiAddr : d.yiAddr = d'.yiAddr

/-- A DISCOVER or REQUEST of a client behind a relay reaches the server with nothing but the
addresses `giaddr` and `ciaddr` changed, the reply of the server goes back to the relay, and the
relay sends the client one frame that reads like the reply to the client's own packet. -/
theorem relayed_exchange {sockets : Sockets} {relay : Interface} {gateway server ipv4 : IPv4}
    {p q : Datagram} {t : MessageType} {order order' : RangeOrder ℕ} {a : Arrival} {s : Server}
    {i : ℕ} {env : Env} {fuel : ℕ} {g : Globals} {networks : List Network} {answer : Answer}
    {reply : Reply} (hip : sockets.ip = true) (hraw : sockets.raw = true)
    (hrelay : relay.isRelay = true) (hgateway : relay.ipv4 = some gateway) (hzero : gateway ≠ 0)
    (hserver : relay.relayIP = some server)
    (hp : serve a.received = some (p, t)) (ht : t = .discover ∨ t = .request)
    (hdirect : p.giAddr = ipv4Zero) (hq : p.serveRelay relay order t = some q)
    (hserve : s.serve i (p.packet.relayed gateway t) t env fuel = some (g, networks, answer))
    (hreply : answer.d = some reply)
    (htype : reply.messageType = .offer ∨ reply.messageType = .ack)
    (hoptions : ∀ e ∈ reply.options,
      Datagram.optionFormat.Encodable e ∧ e.1 ≠ optionDHCPMessageType)
    (hfits : q.bytes.length ≤ bufferSize)
    (hfits' : (reply.replyPacket q).bytes.length ≤ bufferSize) :
    handleRelayed sockets relay order a =
        [.unicast q (beBytes server) (beBytes gateway) bootpClient bootpServer] ∧
      handleServed sockets s i (some ipv4) env fuel ⟨q.bytes, beBytes gateway, bootpClient⟩ =
        some ({ s with globals := g, intsNet := s.setNetworks i networks },
          [.unicast (reply.replyPacket q) (beBytes gateway) (beBytes ipv4) bootpServer
            bootpClient]) ∧
      ∃ d dstIP, handleRelayed sockets relay order'
          ⟨(reply.replyPacket q).bytes, beBytes ipv4, bootpServer⟩ =
            [.frame p.chAddr d dstIP (beBytes gateway)] ∧
        ReadsAs d (reply.replyPacket p) := by
  have hp' : serve p.bytes = some (p, t) := by
    rw [bytes_of_serve hp]
    exact hp
  have hlen := (serve_bytes.mp hp').1
  obtain ⟨hpacket, hgiaddr⟩ := Datagram.packet_relayed hlen hgateway ht hq
  have hrelayed := Datagram.relayed_of_serveRelay hlen hq
  have hlen' : q.hLen ≤ 16 := hrelayed.chAddr.1.trans_le hlen
  refine ⟨handleRelayed_request hip hrelay hgateway hserver hp ht hdirect hq, ?_, ?_⟩
  · have hbytes : beBytes gateway ≠ ipv4Zero := fun h => hzero (beBytes_inj.mp h)
    have hread :
        serve (Arrival.received ⟨q.bytes, beBytes gateway, bootpClient⟩) = some (q, t) := by
      rw [received_bytes hfits]
      exact serve_relayed hp' hq
    rw [handleServed_relayed hip hread hbytes hgiaddr rfl, hpacket, hserve, Option.map_some, hreply]
    rfl
  · have hread : serve (Arrival.received ⟨(reply.replyPacket q).bytes, beBytes ipv4,
        bootpServer⟩) = some (reply.replyPacket q, reply.messageType) := by
      rw [received_bytes hfits']
      exact reply.serve_replyPacket q hlen' (fun e he => (hoptions e he).1)
        fun e he => (hoptions e he).2
    obtain ⟨d, hd⟩ : ∃ d, (reply.replyPacket q).serveRelay relay order' reply.messageType =
        some d := by
      obtain h | h := htype
      · exact ⟨_, by rw [h]; rfl⟩
      · exact ⟨_, by rw [h]; rfl⟩
    obtain ⟨dstIP, hsent⟩ := handleRelayed_reply hraw hrelay hgateway hread htype hd
    obtain ⟨hhlen, hchAddr⟩ := reply.replyPacket_chAddr q hlen'
    have hback := Datagram.relayed_of_serveRelay (hhlen.trans_le hlen') hd
    obtain ⟨hyiAddr, -⟩ := hback.toClient (by tauto)
    rw [hchAddr, hrelayed.chAddr.2] at hsent
    refine ⟨d, dstIP, hsent, ?_, ?_, ?_, ?_⟩
    · rw [hback.options]
      funext c
      rw [reply.parseOptions_replyPacket fun e he => (hoptions e he).1,
        reply.parseOptions_replyPacket fun e he => (hoptions e he).1]
    · rw [hback.xId, reply.replyPacket_xId, reply.replyPacket_xId, hrelayed.xId]
    · rw [hback.chAddr.2, hchAddr, hrelayed.chAddr.2, (reply.replyPacket_chAddr p hlen).2]
    · rw [hyiAddr, reply.replyPacket_yiAddr, reply.replyPacket_yiAddr]

end StandaloneDHCP
