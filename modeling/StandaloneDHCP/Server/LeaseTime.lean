import StandaloneDHCP.Server.ReplyPackets

/-! The lease time a client reads against the time its entry is kept. `ReplyPacket` writes the
lease duration of the handler, but an option 51 that is read behind it is the one that counts; the
entry of the hardware cache gets the lease duration of the handler and 15 seconds in any case.
Behind the options of `ReplyPacket` a client reads those of the built set as they were sent, up to
one that cannot be represented: the code 255 ends the options there, the code 0 and a value of more
than 255 bytes shift what is read from there on. -/
namespace StandaloneDHCP
open Lib
set_option autoImplicit false

/-- The seconds of a lease time; a value of another length is none. -/
def leaseSeconds (v : Bytes) : Option ℕ :=
  if v.length = 4 then (beUint32 v).map BitVec.toNat else none

/-- The lease time that a client reads in a packet. -/
def Datagram.leaseTime (p : Datagram) : Option ℕ :=
  (p.parseOptions optionIPAddressLeaseTime).bind leaseSeconds

theorem leaseSeconds_beBytes (a : BitVec 32) : leaseSeconds (beBytes a) = some a.toNat := by
  rw [leaseSeconds, if_pos (length_beBytes a), beUint32_beBytes, Option.map_some]

/-- What `ReplyPacket` writes itself is at most the lease duration. -/
theorem optionsLeaseTime_le {d : Int} (hd : 0 < d) {n : ℕ}
    (hn : leaseSeconds (optionsLeaseTime d) = some n) : n * second ≤ d := by
  rw [optionsLeaseTime, leaseSeconds_beBytes, Option.some.injEq] at hn
  have hcut : (BitVec.ofInt 32 (d / second)).toNat = (d / second % 2 ^ 32).toNat := by
    rw [BitVec.toNat_ofInt]
    rfl
  rw [hcut] at hn
  unfold second at hn ⊢
  omega

theorem lookupLast_ownOptions_lease {mt : MessageType} {serverId : IPv4} {d : Int} {v : Bytes}
    (hv : lookupLast (Reply.ownOptions mt serverId d) optionIPAddressLeaseTime = some v) :
    0 < d ∧ v = optionsLeaseTime d := by
  unfold Reply.ownOptions at hv
  split at hv
  · next hd =>
    refine ⟨hd, ?_⟩
    cases hv
    rfl
  · cases hv

namespace World
variable (w : World) (env : ReplyEnv) (p : Packet)

/-- The built options in the order in which an OFFER or ACK has them. -/
def sentOptions : List (UInt8 × Bytes) :=
  match buildReplyOptions env w.handler.options p w.network.network.text p.clientMac with
  | some options => selectOrderOrAll env options (options optionParameterRequestList)
  | none => []

/-- Those before an option with the code 255, which a client takes for the end. -/
def readableOptions : List (UInt8 × Bytes) :=
  (w.sentOptions env p).takeWhile fun e => e.1 != 255

/-- None of them is taken for padding or is too long for its length byte. -/
def Unshifted : Prop := ∀ e ∈ w.readableOptions env p, e.1 ≠ 0 ∧ e.2.length ≤ 255

/-- What a client reads in an ACK behind the options of `ReplyPacket`. -/
def receivedOptions : List (UInt8 × Bytes) :=
  Datagram.optionFormat.received (Datagram.ending
    (Reply.ownOptions .ack w.handler.ip w.handler.leaseDuration ++ w.sentOptions env p))
    (w.sentOptions env p)

/-- An option 51 that is read there does not exceed the time the entry is kept. -/
def LeaseTimeKept : Prop :=
  ∀ v n, lookupLast (w.receivedOptions env p) optionIPAddressLeaseTime = some v →
    leaseSeconds v = some n → n * second ≤ w.handler.leaseDuration + 15 * second

end World

section Sent
variable {w : World} {env : ReplyEnv} {p : Packet}

theorem receivedOptions_of_unshifted (hunshifted : w.Unshifted env p) :
    w.receivedOptions env p = w.readableOptions env p :=
  TagFormat.received_of_short hunshifted (TagFormat.decode_stop _)

theorem Replies.sentOptions {options : Options} {reply : Reply}
    (hreplies : Replies env w.handler w.network.network.text p options reply) :
    w.sentOptions env p = reply.options := by
  rw [World.sentOptions, hreplies.built, hreplies.chosen]

/-- Every option that is sent has the value of the built set. -/
theorem lookupLast_readableOptions {options : Options}
    (hbuilt : buildReplyOptions env w.handler.options p w.network.network.text p.clientMac =
      some options) (c : UInt8) (v : Bytes) :
    lookupLast (w.readableOptions env p) c = some v ↔
      options c = some v ∧ c ∈ (w.readableOptions env p).map Prod.fst := by
  have hentries : ∀ e ∈ w.readableOptions env p, options e.1 = some e.2 := by
    intro e he
    have hsent : e ∈ w.sentOptions env p := (List.takeWhile_prefix _).subset he
    rw [World.sentOptions, hbuilt] at hsent
    exact (of_mem_selectOrderOrAll hsent).1
  constructor
  · intro hlast
    have hmem := mem_of_lookupLast hlast
    exact ⟨hentries (c, v) hmem, List.mem_map_of_mem hmem⟩
  · rintro ⟨hv, hc⟩
    obtain ⟨⟨c', v'⟩, hmem, rfl⟩ := List.mem_map.mp hc
    refine lookupLast_of_unique (v := v) ?_ ?_
    · cases hv.symm.trans (hentries (c', v') hmem)
      exact hmem
    · rintro e he rfl
      exact Option.some.inj ((hentries e he).symm.trans hv)

end Sent

section Acked
variable {w : World} {req : Datagram} {t : MessageType} {env : Env} {fuel : ℕ} {g : Globals}
  {h : DHCPHandler} {answer : Answer} {reply : Reply} {s : OverrideState}

/-- The lease time of an ACK is an option 51 that is read behind the options of `ReplyPacket`, else
the one that `ReplyPacket` writes. -/
theorem parseOptions_leaseTime {options : Options} {env : ReplyEnv}
    (hreplies : Replies env w.handler w.network.network.text req.packet options reply)
    (hack : reply.messageType = .ack) :
    (reply.replyPacket req).parseOptions optionIPAddressLeaseTime =
      (lookupLast (w.receivedOptions env req.packet) optionIPAddressLeaseTime).or
        (lookupLast (Reply.ownOptions .ack w.handler.ip w.handler.leaseDuration)
          optionIPAddressLeaseTime) := by
  rw [Reply.parseOptions_received, World.receivedOptions, hreplies.sentOptions, Reply.own,
    hreplies.server, hreplies.duration, hack]

/-- The lease time that `ReplyPacket` writes never exceeds the time the entry is kept. -/
theorem leaseTime_le_iff {options : Options} {env : ReplyEnv}
    (hreplies : Replies env w.handler w.network.network.text req.packet options reply)
    (hack : reply.messageType = .ack) :
    (∀ n, (reply.replyPacket req).leaseTime = some n →
      n * second ≤ w.handler.leaseDuration + 15 * second) ↔ w.LeaseTimeKept env req.packet := by
  have hread := parseOptions_leaseTime hreplies hack
  constructor
  · intro htold v n hv hn
    apply htold n
    rw [Datagram.leaseTime, hread, hv, Option.some_or, Option.bind_some, hn]
  · intro hkept n hn
    rw [Datagram.leaseTime, hread] at hn
    obtain ⟨v, hv, hn⟩ := Option.bind_eq_some_iff.mp hn
    obtain hset | ⟨-, hown⟩ := Option.or_eq_some_iff.mp hv
    · exact hkept v n hset hn
    · obtain ⟨hpos, rfl⟩ := lookupLast_ownOptions_lease hown
      have hle := optionsLeaseTime_le hpos hn
      unfold second at hle ⊢
      omega

/-- Without a shift the option that counts is the effective option 51. -/
theorem leaseTimeKept_iff_effective {options : Options} {env : ReplyEnv} {p : Packet}
    (hbuilt : buildReplyOptions env w.handler.options p w.network.network.text p.clientMac =
      some options) (hmirrors : s.Mirrors) (henv : env.applyOptionOverrides = s.overrideOptions)
    (hunshifted : w.Unshifted env p) :
    w.LeaseTimeKept env p ↔ ∀ v n, w.effectiveOption s.db p optionIPAddressLeaseTime = some v →
      optionIPAddressLeaseTime ∈ (w.readableOptions env p).map Prod.fst →
      leaseSeconds v = some n → n * second ≤ w.handler.leaseDuration + 15 * second := by
  have hlease : options optionIPAddressLeaseTime =
      w.effectiveOption s.db p optionIPAddressLeaseTime := by
    obtain heq | ⟨hshuffled, -⟩ := World.built_option hmirrors henv hbuilt optionIPAddressLeaseTime
    · exact heq
    · exact absurd hshuffled (by decide)
  rw [World.LeaseTimeKept, receivedOptions_of_unshifted hunshifted]
  simp only [lookupLast_readableOptions hbuilt, hlease, and_imp]

/-- An ACK gives the entry of the client `leaseDuration` and 15 seconds. The lease time in the ACK
is at most that exactly when an option 51 that is read behind the options of `ReplyPacket` is. If
no option before one with the code 255 has the code 0 or more than 255 bytes, this is the effective
option 51, provided it is sent and stands before one with the code 255. -/
theorem lease_time_kept_iff (hmirrors : s.Mirrors)
    (henv : env.applyOptionOverrides = s.overrideOptions) (ht : t = .request ∨ t = .inform)
    (hserve : w.serve req.packet t env fuel = some (g, h, answer)) (hd : answer.d = some reply)
    (hack : reply.messageType = .ack) :
    (∃ index, h.hwcache.peek req.packet.clientMac =
      some ⟨index, w.handler.hwcache.deadline w.now (w.handler.leaseDuration + 15 * second)⟩) ∧
    ((∀ n, (reply.replyPacket req).leaseTime = some n →
      n * second ≤ w.handler.leaseDuration + 15 * second) ↔
        w.LeaseTimeKept env.toReplyEnv req.packet) ∧
    (w.Unshifted env.toReplyEnv req.packet →
      (w.LeaseTimeKept env.toReplyEnv req.packet ↔
        ∀ v n, w.effectiveOption s.db req.packet optionIPAddressLeaseTime = some v →
          optionIPAddressLeaseTime ∈
            (w.readableOptions env.toReplyEnv req.packet).map Prod.fst →
          leaseSeconds v = some n → n * second ≤ w.handler.leaseDuration + 15 * second)) := by
  have hnak : reply.messageType ≠ .nak := by rw [hack]; decide
  obtain ⟨options, hreplies⟩ := World.serve_replies hserve hd hnak
  refine ⟨?_, leaseTime_le_iff hreplies hack, fun hunshifted => ?_⟩
  · obtain ⟨answer₀, hnone, hserve₀⟩ | ⟨g₀, answer₀, hnone, hserve₀⟩ :=
      w.serve_request req.packet ht env fuel
    · cases hserve₀.symm.trans hserve
      cases hnone.symm.trans hd
    · exact (serveRequest_replies hnone (Option.some.inj (hserve₀.symm.trans hserve)) hd hnak).2
  · exact leaseTimeKept_iff_effective hreplies.built hmirrors henv hunshifted

end Acked

namespace Sample

/-- The scope with the address 10.0.0.11 assigned to `02:…:01`. -/
def assigned : World :=
  World.init (scope [] [("02:00:00:00:00:01", 0x0a00000b#32)]) network none 0

/-- `02:…:01` requests its address. -/
def renewal : Datagram :=
  datagram [2, 0, 0, 0, 0, 1] [53, 1, 3, 50, 4, 10, 0, 0, 11, 255]

end Sample

/-- The client has a shorter lease of ten minutes, and an option with the code 255, which it takes
for the end of the options. -/
theorem lease_time_kept_sample :
    let s := OverrideState.init (Sample.stored [⟨51, "600", "uint32"⟩, ⟨255, "x", "string"⟩])
    ∃ g h answer reply, Sample.assigned.serve Sample.renewal.packet .request (Sample.envWith s) 1 =
      some (g, h, answer) ∧ answer.d = some reply ∧
      (reply.replyPacket Sample.renewal).leaseTime = some 600 ∧
      Sample.assigned.LeaseTimeKept (Sample.envWith s).toReplyEnv Sample.renewal.packet ∧
      ∀ n, (reply.replyPacket Sample.renewal).leaseTime = some n →
        n * second ≤ Sample.assigned.handler.leaseDuration + 15 * second := by
  intro s
  have hrun : ((Sample.assigned.serve Sample.renewal.packet .request (Sample.envWith s) 1).bind
      fun r => r.2.2.d.map fun reply =>
        (reply.messageType, (reply.replyPacket Sample.renewal).leaseTime)) =
      some (.ack, some 600) := by
    decide +kernel
  obtain ⟨⟨g, h, answer⟩, hserve, hreply⟩ := Option.bind_eq_some_iff.mp hrun
  obtain ⟨reply, hd, hout⟩ := Option.map_eq_some_iff.mp hreply
  obtain ⟨hack, htold⟩ := Prod.mk.inj hout
  have hread : lookupLast (Sample.assigned.receivedOptions (Sample.envWith s).toReplyEnv
      Sample.renewal.packet) optionIPAddressLeaseTime = some [0, 0, 2, 88] := by
    decide +kernel
  have hkept : Sample.assigned.LeaseTimeKept (Sample.envWith s).toReplyEnv
      Sample.renewal.packet := by
    intro v n hv hn
    cases hread.symm.trans hv
    have hseconds : leaseSeconds [0, 0, 2, 88] = some 600 := by decide
    cases hseconds.symm.trans hn
    decide
  have hiff := (lease_time_kept_iff (mirrors_init _) rfl (.inl rfl) hserve hd hack).2.1
  exact ⟨g, h, answer, reply, hserve, hd, htold, hkept, hiff.mpr hkept⟩

/-- The client is told a day, and its entry is kept for an hour and 15 seconds. -/
theorem lease_time_exceeds_entry : ¬ ∀ (w : World) (req : Datagram) (env : Env) (fuel : ℕ)
    (g : Globals) (h : DHCPHandler) (answer : Answer) (reply : Reply) (s : OverrideState) (n : ℕ),
    s.Mirrors → env.applyOptionOverrides = s.overrideOptions →
    w.serve req.packet .request env fuel = some (g, h, answer) → answer.d = some reply →
    reply.messageType = .ack → (reply.replyPacket req).leaseTime = some n →
    n * second ≤ w.handler.leaseDuration + 15 * second := by
  intro hclaim
  let s := OverrideState.init (Sample.stored [⟨51, "86400", "uint32"⟩])
  have hrun : ((Sample.assigned.serve Sample.renewal.packet .request (Sample.envWith s) 1).bind
      fun r => r.2.2.d.map fun reply =>
        (reply.messageType, (reply.replyPacket Sample.renewal).leaseTime)) =
      some (.ack, some 86400) := by
    decide +kernel
  obtain ⟨⟨g, h, answer⟩, hserve, hreply⟩ := Option.bind_eq_some_iff.mp hrun
  obtain ⟨reply, hd, hout⟩ := Option.map_eq_some_iff.mp hreply
  obtain ⟨hack, htold⟩ := Prod.mk.inj hout
  have hle := hclaim Sample.assigned Sample.renewal (Sample.envWith s) 1 g h answer reply s 86400
    (mirrors_init _) rfl hserve hd hack htold
  exact absurd hle (by decide)

end StandaloneDHCP
