import StandaloneDHCP.Server.Acknowledgements
import StandaloneDHCP.Server.ReplyAgreement

/-! The bytes of an OFFER or ACK. `ReplyPacket` writes its own options first and the chosen ones
after them; a client reads the last occurrence of each. The option set that was built arrives
as it is exactly when it can be encoded and nothing of it is filtered out, and then the lease
time a client reads is that of the set, if it has one. -/
namespace StandaloneDHCP
open Lib
set_option autoImplicit false

/-! ## `ReplyPacket` -/

def optionIPAddressLeaseTime : UInt8 := 51

/-- Whole seconds, cut to 32 bits. -/
def optionsLeaseTime (d : Int) : Bytes := beBytes (BitVec.ofInt 32 (d / second))

namespace Datagram

/-- What the accessors of the packet return. -/
def packet (p : Datagram) : Packet where
  chaddr := p.chAddr
  xid := (beUint32 p.xId).getD 0
  ciaddr := (beUint32 p.ciAddr).getD 0
  giaddr := (beUint32 p.giAddr).getD 0
  options := p.parseOptions

/-- Null bytes up to a length of 272. -/
def padToMinSize (p : Datagram) : Datagram :=
  { p with options := p.options ++ List.replicate (272 - (240 + p.options.length)) 0 }

/-- What stands behind the options of a reply: the End byte and the padding. -/
def ending (entries : List (UInt8 × Bytes)) : Bytes :=
  255 :: List.replicate (272 - (240 + ((TagFormat.encode entries).length + 1))) 0

end Datagram

namespace Reply

/-- The options that `ReplyPacket` adds itself. -/
def ownOptions (mt : MessageType) (serverId : IPv4) (leaseDuration : Int) :
    List (UInt8 × Bytes) :=
  [(optionDHCPMessageType, [mt.code]), (optionServerIdentifier, beBytes serverId)] ++
  if 0 < leaseDuration then [(optionIPAddressLeaseTime, optionsLeaseTime leaseDuration)] else []

/-- Those of this reply. -/
def own (reply : Reply) : List (UInt8 × Bytes) :=
  ownOptions reply.messageType reply.serverId reply.leaseDuration

def replyPacket (reply : Reply) (req : Datagram) : Datagram :=
  Datagram.newPacket .bootReply
    |>.setXId req.xId
    |>.setFlags req.flags
    |>.setYIAddr (ipBytes reply.yiaddr)
    |>.setGIAddr req.giAddr
    |>.setCHAddr req.chAddr
    |>.setSecs req.secs
    |>.addOptions reply.own
    |>.addOptions reply.options
    |>.padToMinSize

theorem own_encodable {reply : Reply} {e : UInt8 × Bytes} (he : e ∈ reply.own) :
    Datagram.optionFormat.Encodable e := by
  simp only [own, ownOptions, List.mem_append, List.mem_cons, List.not_mem_nil, or_false] at he
  obtain (rfl | rfl) | hlease := he
  · exact Datagram.encodable_iff.mpr ⟨by decide, by decide, by simp⟩
  · exact Datagram.encodable_iff.mpr ⟨by decide, by decide, by simp [length_beBytes]⟩
  · split at hlease
    · cases List.mem_singleton.mp hlease
      refine Datagram.encodable_iff.mpr ⟨by decide, by decide, ?_⟩
      simp [optionsLeaseTime, length_beBytes]
    · cases hlease

/-- The chosen options come after those of `ReplyPacket`. -/
theorem replyPacket_options (reply : Reply) (req : Datagram) :
    (reply.replyPacket req).options =
      TagFormat.encode (reply.own ++ reply.options) ++
        Datagram.ending (reply.own ++ reply.options) := by
  have hown := Datagram.addOptions_options reply.own (p := Datagram.newPacket .bootReply
    |>.setXId req.xId |>.setFlags req.flags |>.setYIAddr (ipBytes reply.yiaddr)
    |>.setGIAddr req.giAddr |>.setCHAddr req.chAddr |>.setSecs req.secs) [] (by simp)
  have hall := Datagram.addOptions_options reply.options _ hown
  rw [List.nil_append, ← TagFormat.encode_append] at hall
  rw [replyPacket, Datagram.padToMinSize]
  dsimp only
  rw [hall, Datagram.ending, List.length_append, List.append_assoc]
  rfl

/-- What a client reads: the own options of `ReplyPacket`, and over them what is left of the
chosen ones. -/
theorem parseOptions_received (reply : Reply) (req : Datagram) (c : UInt8) :
    (reply.replyPacket req).parseOptions c =
      (lookupLast (Datagram.optionFormat.received
        (Datagram.ending (reply.own ++ reply.options)) reply.options) c).or
          (lookupLast reply.own c) := by
  rw [Datagram.parseOptions, replyPacket_options, TagFormat.encode_append, List.append_assoc,
    TagFormat.decode_encode fun _ he => own_encodable he, TagFormat.decode_encode_eq_received,
    lookupLast_append]

theorem parseOptions_replyPacket {reply : Reply}
    (hoptions : ∀ e ∈ reply.options, Datagram.optionFormat.Encodable e) (req : Datagram)
    (c : UInt8) : (reply.replyPacket req).parseOptions c =
      (lookupLast reply.options c).or (lookupLast reply.own c) := by
  rw [Datagram.decode_options (reply.replyPacket_options req), lookupLast_append]
  intro e he
  obtain hown | hchosen := List.mem_append.mp he
  · exact own_encodable hown
  · exact hoptions e hchosen

end Reply

/-! ## The chosen options -/

/-- Does option 55 of the set, if there is one, list the code? -/
def selects (order : Option Bytes) (c : UInt8) : Bool :=
  match order with
  | some order => order.contains c
  | none => true

theorem lookupLast_selectOrderOrAll (env : ReplyEnv) (options : Options) (order : Option Bytes)
    (c : UInt8) : lookupLast (selectOrderOrAll env options order) c =
      if selects order c then options c else none := by
  cases order with
  | none => exact lookupLast_rangeEntries env.codeOrder options c
  | some order =>
    rw [selectOrderOrAll, lookupLast_listing]
    simp [selects]

theorem of_mem_selectOrderOrAll {env : ReplyEnv} {options : Options} {order : Option Bytes}
    {e : UInt8 × Bytes} (he : e ∈ selectOrderOrAll env options order) :
    options e.1 = some e.2 ∧ selects order e.1 = true := by
  cases order with
  | none => exact ⟨of_mem_rangeEntries he, rfl⟩
  | some order =>
    obtain ⟨code, hcode, hentry⟩ := List.mem_filterMap.mp he
    obtain ⟨value, hvalue, rfl⟩ := Option.map_eq_some_iff.mp hentry
    exact ⟨hvalue, by simpa [selects] using hcode⟩

section Chosen
variable {reply : Reply} {env : ReplyEnv} {options : Options}
  (hchosen : reply.options = selectOrderOrAll env options (options optionParameterRequestList))
include hchosen

/-- What a client reads when everything that is sent can be encoded. -/
theorem parseOptions_chosen
    (hencodable : ∀ c v, options c = some v →
      selects (options optionParameterRequestList) c = true →
      Datagram.optionFormat.Encodable (c, v)) (req : Datagram) (c : UInt8) :
    (reply.replyPacket req).parseOptions c =
      (if selects (options optionParameterRequestList) c then options c else none).or
        (lookupLast reply.own c) := by
  rw [Reply.parseOptions_replyPacket, hchosen, lookupLast_selectOrderOrAll]
  intro e he
  rw [hchosen] at he
  obtain ⟨hvalue, hselected⟩ := of_mem_selectOrderOrAll he
  exact hencodable e.1 e.2 hvalue hselected

theorem carries_iff (req : Datagram) :
    (∀ c v, options c = some v → (reply.replyPacket req).parseOptions c = some v) ↔
      ∀ c v, options c = some v → Datagram.optionFormat.Encodable (c, v) ∧
        (selects (options optionParameterRequestList) c = true ∨
          lookupLast reply.own c = some v) := by
  constructor
  · intro hcarries c v hv
    have hparsed : ∀ c v, options c = some v → Datagram.optionFormat.Encodable (c, v) :=
      fun c v hv => Datagram.encodable_of_parseOptions (hcarries c v hv)
    refine ⟨hparsed c v hv, ?_⟩
    by_cases hselected : selects (options optionParameterRequestList) c = true
    · exact .inl hselected
    · have hread := hcarries c v hv
      rw [parseOptions_chosen hchosen (fun c v hv _ => hparsed c v hv), if_neg hselected,
        Option.none_or] at hread
      exact .inr hread
  · intro hall c v hv
    rw [parseOptions_chosen hchosen (fun c v hv _ => (hall c v hv).1)]
    obtain ⟨-, hselected | hown⟩ := hall c v hv
    · rw [if_pos hselected, hv, Option.some_or]
    · split
      · rw [hv, Option.some_or]
      · rw [Option.none_or, hown]

end Chosen

/-! ## The replies of `ServeDHCP` -/

/-- The reply is made from the option set that was built for the packet. -/
structure Replies (env : ReplyEnv) (h : DHCPHandler) (networkIP : String) (p : Packet)
    (options : Options) (reply : Reply) : Prop where
  built : buildReplyOptions env h.options p networkIP p.clientMac = some options
  server : reply.serverId = h.ip
  duration : reply.leaseDuration = h.leaseDuration
  chosen : reply.options = selectOrderOrAll env options (options optionParameterRequestList)

section Serving
variable {env : Env} {now : Int} {h h' : DHCPHandler} {networkIP : String} {p : Packet}
  {t : MessageType} {answer answer' : Answer} {reply : Reply}

theorem Replies.of_settings {env : ReplyEnv} {options : Options}
    (hreplies : Replies env h' networkIP p options reply) (hset : h'.settings = h.settings) :
    Replies env h networkIP p options reply := by
  obtain ⟨hbuilt, hserver, hduration, hchosen⟩ := hreplies
  rw [DHCPHandler.options_of_settings hset] at hbuilt
  rw [DHCPHandler.ip_of_settings hset] at hserver
  rw [DHCPHandler.leaseDuration_of_settings hset] at hduration
  exact ⟨hbuilt, hserver, hduration, hchosen⟩

theorem retry_settings (fuel : ℕ) : ∀ {round : ℕ} {firstTry : Bool} {free : Int}
    {h h' : DHCPHandler} {out : Option Int},
    retry env now p fuel round firstTry free h = some (h', out) → h'.settings = h.settings := by
  induction fuel with
  | zero =>
    intro round firstTry free h h' out hr
    cases hr
  | succ fuel ih =>
    intro round firstTry free h h' out hr
    rw [retry] at hr
    split at hr
    · cases hr
      rfl
    · split at hr
      · cases hr
        rfl
      · exact ih hr
      · split at hr
        · cases hr
          rfl
        · simp only at hr
          split at hr
          · rw [ih hr, DHCPHandler.quarantine_settings, DHCPHandler.evict_settings]
            rfl
          · cases hr
            rfl

theorem replyOffer_replies {free : Int} (hnone : answer.d = none)
    (hd : (replyOffer env h networkIP p answer free).d = some reply) :
    ∃ options, Replies env.toReplyEnv h networkIP p options reply := by
  unfold replyOffer at hd
  simp only at hd
  split at hd
  · cases hnone.symm.trans hd
  · next options hoptions =>
    cases hd
    exact ⟨options, hoptions, rfl, rfl, rfl⟩

theorem confirm_replies {free : Int} (hnone : answer.d = none)
    (hr : confirm env now h networkIP p answer free = (h', answer'))
    (hd : answer'.d = some reply) :
    ∃ options, Replies env.toReplyEnv h networkIP p options reply := by
  unfold confirm at hr
  split at hr
  · cases hr
    cases hnone.symm.trans hd
  · cases hr
    obtain ⟨options, hreplies⟩ := replyOffer_replies hnone hd
    exact ⟨options, hreplies.of_settings rfl⟩

theorem allocate_replies {fuel : ℕ} (hnone : answer.d = none)
    (hr : allocate env fuel now h networkIP p answer = some (h', answer'))
    (hd : answer'.d = some reply) :
    ∃ options, Replies env.toReplyEnv h networkIP p options reply := by
  obtain ⟨⟨h₁, out⟩, hretry, hanswer⟩ := Option.map_eq_some_iff.mp hr
  cases out with
  | none =>
    cases hanswer
    cases hnone.symm.trans hd
  | some free =>
    cases hanswer
    obtain ⟨options, hreplies⟩ := replyOffer_replies hnone hd
    exact ⟨options, hreplies.of_settings (retry_settings fuel hretry)⟩

theorem serveDiscover_replies {fuel : ℕ} (hnone : answer.d = none)
    (hr : serveDiscover env fuel now h networkIP p answer = some (h', answer'))
    (hd : answer'.d = some reply) :
    ∃ options, Replies env.toReplyEnv h networkIP p options reply := by
  unfold serveDiscover at hr
  split at hr
  · cases hr
    exact replyOffer_replies hnone hd
  · split at hr
    · exact allocate_replies hnone hr hd
    · next x _ =>
      split at hr
      · exact confirm_replies hnone (Option.some.inj hr) hd
      · split at hr
        · -- the index is reserved after the old entry is dropped
          have hset : ({ h.evict now p.clientMac with
              available := ((h.evict now p.clientMac).available.reserveIPIndex
                (safeIntToUint64 x) p.clientMac).1 } : DHCPHandler).settings = h.settings :=
            h.evict_settings now p.clientMac
          simp only at hr
          split at hr
          · obtain ⟨options, hreplies⟩ := confirm_replies hnone (Option.some.inj hr) hd
            exact ⟨options, hreplies.of_settings hset⟩
          · obtain ⟨options, hreplies⟩ := allocate_replies hnone hr hd
            exact ⟨options, hreplies.of_settings hset⟩
        · exact allocate_replies hnone hr hd

/-- An ACK renews the entry of the hardware cache in the same step. -/
theorem serveRequest_replies {g g' : Globals} (hnone : answer.d = none)
    (hr : serveRequest env now g h networkIP p t answer = (g', h', answer'))
    (hd : answer'.d = some reply) (hack : reply.messageType ≠ .nak) :
    (∃ options, Replies env.toReplyEnv h networkIP p options reply) ∧
      ∃ index, h'.hwcache.peek p.clientMac =
        some ⟨index, h.hwcache.deadline now (h.leaseDuration + 15 * second)⟩ := by
  have hnak : ∀ h₁ : DHCPHandler, some (nakReply h₁) = some reply → False := by
    intro h₁ heq
    cases heq
    exact hack rfl
  unfold serveRequest at hr
  split at hr
  · cases hr
    cases hd
  simp only at hr
  split at hr
  · cases hr
    cases hnak _ hd
  · next addr _ =>
    rcases hj : judge now g h p t addr with ⟨v, g₁, h₁⟩
    simp only [hj] at hr
    cases v with
    | unknown =>
      cases hr
      cases hd
    | duplicate =>
      cases hr
      cases hnone.symm.trans hd
    | nak =>
      cases hr
      cases hnak _ hd
    | ack index =>
      obtain ⟨hv, -⟩ | ⟨rfl, -⟩ := judge_cases hj
      · cases hv
      · simp only [acknowledge] at hr
        split at hr
        · cases hr
          cases hnone.symm.trans hd
        · next options hoptions =>
          cases hr
          cases hd
          exact ⟨⟨options, hoptions, rfl, rfl, rfl⟩, index, DHCPHandler.peek_lock _ _ _ _ _⟩

theorem World.serve_replies {w : World} {fuel : ℕ} {g : Globals}
    (hserve : w.serve p t env fuel = some (g, h, answer)) (hd : answer.d = some reply)
    (hnak : reply.messageType ≠ .nak) :
    ∃ options, Replies env.toReplyEnv w.handler w.network.network.text p options reply := by
  obtain ⟨-, -, rfl⟩ | ⟨-, hmessage⟩ := World.serve_message hserve
  · cases hd
  cases t with
  | discover =>
    obtain ⟨⟨h₁, answer₁⟩, hr, heq⟩ := Option.map_eq_some_iff.mp hmessage
    cases heq
    exact serveDiscover_replies rfl hr hd
  | request | inform => exact (serveRequest_replies rfl (Option.some.inj hmessage) hd hnak).1
  | release | decline =>
    cases hmessage
    cases hd
  | offer | ack | nak =>
    cases hmessage
    cases hd
    exact absurd rfl hnak

end Serving

/-! ## What the client reads -/

namespace World
variable (w : World) (db : OverrideTable) (p : Packet)

/-- The stored value of an option code, else that of the handler. -/
def effectiveOption (c : UInt8) : Option Bytes :=
  (storedOverride db w.network.network.text p.clientMac c).or (w.handler.options c)

/-- The built set has the effective options; those that were shuffled have lost the bytes after
the last complete address. -/
theorem built_option {w : World} {p : Packet} {env : ReplyEnv} {s : OverrideState}
    {options : Options} (hmirrors : s.Mirrors) (henv : env.applyOptionOverrides = s.overrideOptions)
    (hbuilt : buildReplyOptions env w.handler.options p w.network.network.text p.clientMac =
      some options) (c : UInt8) :
    options c = w.effectiveOption s.db p c ∨ isShuffled c = true ∧ ∃ v v',
      w.effectiveOption s.db p c = some v ∧ options c = some v' ∧
        v'.length = 4 * (v.length / 4) := by
  cases hseed : p.chaddr[5]? with
  | none =>
    simp only [buildReplyOptions, hseed] at hbuilt
    split at hbuilt
    · cases hbuilt
    · rw [henv, OverrideState.overrideOptions_of_mirrors hmirrors] at hbuilt
      cases hbuilt
      exact .inl (overrideOptions_apply _ _ _ _ _)
  | some seed =>
    rw [buildReplyOptions_of_mirrors hseed hmirrors henv] at hbuilt
    cases hbuilt
    rw [overrideOptions_apply, effectiveOption]
    cases storedOverride s.db w.network.network.text p.clientMac c with
    | some v => exact .inl rfl
    | none =>
      simp only [Option.none_or, shuffledOptions]
      cases hbase : w.handler.options c with
      | none => exact .inl rfl
      | some v =>
        cases hc : isShuffled c with
        | false => exact .inl rfl
        | true => exact .inr ⟨rfl, v, _, rfl, rfl, length_shuffleIP v _⟩

/-- Every option of the set can be encoded, and it is selected or the same that `ReplyPacket`
adds itself. -/
structure Transmissible (mt : MessageType) : Prop where
  encodable : ∀ c v, w.effectiveOption db p c = some v → c ≠ 0 ∧ c ≠ 255 ∧ v.length ≤ 255
  present : ∀ c v, w.effectiveOption db p c = some v →
    selects (w.effectiveOption db p optionParameterRequestList) c = true ∨
      lookupLast (Reply.ownOptions mt w.handler.ip w.handler.leaseDuration) c = some v

end World

theorem lookupLast_ownOptions_shuffled {c : UInt8} (hc : isShuffled c = true) (mt : MessageType)
    (serverId : IPv4) (leaseDuration : Int) :
    lookupLast (Reply.ownOptions mt serverId leaseDuration) c = none := by
  obtain rfl | rfl : c = 6 ∨ c = 3 := by
    simpa [isShuffled, optionDomainNameServer, optionRouter] using hc
  · unfold Reply.ownOptions
    split <;> rfl
  · unfold Reply.ownOptions
    split <;> rfl

section Served
variable {w : World} {req : Datagram} {t : MessageType} {env : Env} {fuel : ℕ} {g : Globals}
  {h : DHCPHandler} {answer : Answer} {reply : Reply} {s : OverrideState}

/-- Option 55 is not shuffled. -/
theorem built_requestList {options : Options}
    (hbuilt : ∀ c, options c = w.effectiveOption s.db req.packet c ∨ isShuffled c = true ∧ ∃ v v',
      w.effectiveOption s.db req.packet c = some v ∧ options c = some v' ∧
        v'.length = 4 * (v.length / 4)) :
    options optionParameterRequestList =
      w.effectiveOption s.db req.packet optionParameterRequestList := by
  obtain heq | ⟨hshuffled, -⟩ := hbuilt optionParameterRequestList
  · exact heq
  · exact absurd hshuffled (by decide)

/-- An OFFER or ACK carries the options that were built for it exactly when these are
transmissible. -/
theorem reply_carries_options_iff (hmirrors : s.Mirrors)
    (henv : env.applyOptionOverrides = s.overrideOptions)
    (hserve : w.serve req.packet t env fuel = some (g, h, answer)) (hd : answer.d = some reply)
    (hnak : reply.messageType ≠ .nak) :
    ∃ options, buildReplyOptions env.toReplyEnv w.handler.options req.packet
        w.network.network.text req.packet.clientMac = some options ∧
      ((∀ c v, options c = some v → (reply.replyPacket req).parseOptions c = some v) ↔
        w.Transmissible s.db req.packet reply.messageType) := by
  obtain ⟨options, hbuilt, hserver, hduration, hchosen⟩ := World.serve_replies hserve hd hnak
  refine ⟨options, hbuilt, ?_⟩
  have hoption := World.built_option hmirrors henv hbuilt
  have hown : reply.own =
      Reply.ownOptions reply.messageType w.handler.ip w.handler.leaseDuration := by
    rw [Reply.own, hserver, hduration]
  rw [carries_iff hchosen, built_requestList hoption, hown]
  constructor
  · intro hall
    refine ⟨?_, ?_⟩
    · intro c v hv
      obtain heq | ⟨-, v₀, v', hv₀, hv', hlen⟩ := hoption c
      · exact Datagram.encodable_iff.mp (hall c v (heq.trans hv)).1
      · obtain ⟨hpad, hstop, hshort⟩ := Datagram.encodable_iff.mp (hall c v' hv').1
        cases hv₀.symm.trans hv
        exact ⟨hpad, hstop, by omega⟩
    · intro c v hv
      obtain heq | ⟨hc, v₀, v', hv₀, hv', -⟩ := hoption c
      · exact (hall c v (heq.trans hv)).2
      · obtain hselected | hown' := (hall c v' hv').2
        · exact .inl hselected
        · rw [lookupLast_ownOptions_shuffled hc] at hown'
          cases hown'
  · intro htrans c v hv
    obtain heq | ⟨hc, v₀, v', hv₀, hv', hlen⟩ := hoption c
    · have hv₁ := heq.symm.trans hv
      exact ⟨Datagram.encodable_iff.mpr (htrans.encodable c v hv₁), htrans.present c v hv₁⟩
    · cases hv'.symm.trans hv
      obtain ⟨hpad, hstop, hshort⟩ := htrans.encodable c v₀ hv₀
      refine ⟨Datagram.encodable_iff.mpr ⟨hpad, hstop, by omega⟩, ?_⟩
      obtain hselected | hown' := htrans.present c v₀ hv₀
      · exact .inl hselected
      · rw [lookupLast_ownOptions_shuffled hc] at hown'
        cases hown'

end Served

namespace Sample

/-- A packet of a client with the given options. -/
def datagram (chaddr options : Bytes) : Datagram :=
  { Datagram.newPacket .bootRequest |>.setCHAddr chaddr with options := options }

/-- The overrides are those of the store. -/
def envWith (s : OverrideState) : Env :=
  { env [] with applyOptionOverrides := s.overrideOptions }

/-- One list of options for `02:…:01`. -/
def stored (options : List DHCPOption) : OverrideTable :=
  OverrideTable.saveOptionOverride ∅ .mac "02:00:00:00:00:01" 0 1 options

theorem mem_of_stored {options : List DHCPOption} {type : OverrideType} {target : String}
    {opt : DHCPOption} (hopt : opt ∈ OverrideTable.storedOptions (stored options) type target) :
    opt ∈ options := by
  unfold OverrideTable.storedOptions stored at hopt
  split at hopt
  · cases hopt
  · by_cases hkey : (type, target) = (OverrideType.mac, "02:00:00:00:00:01")
    · cases hkey
      rwa [OverrideTable.getOptionOverride_save] at hopt
    · rw [OverrideTable.getOptionOverride_save_ne hkey] at hopt
      simp [OverrideTable.getOptionOverride] at hopt

theorem scope_encodable {c : UInt8} {v : Bytes} (hv : (scope [] []).options c = some v) :
    c ≠ 0 ∧ c ≠ 255 ∧ v.length ≤ 255 := by
  simp only [scope] at hv
  split_ifs at hv with hmask haddr hname
  · cases hv
    subst hmask
    decide
  · cases hv
    obtain rfl | rfl := haddr <;> decide
  · cases hv
    subst hname
    decide

/-- Another domain name for the network, and another DNS server for `02:…:01`. -/
def overridden : OverrideTable :=
  (stored [⟨6, "10.0.0.53", "ip"⟩]).saveOptionOverride .network "10.0.0.0" 0 2
    [⟨15, "corp", "string"⟩]

end Sample

/-- A DISCOVER in the sample scope, with an override for the network and one for the client. -/
theorem reply_carries_options_sample :
    let w := World.init (Sample.scope [] []) Sample.network none 0
    let req := Sample.datagram [2, 0, 0, 0, 0, 1] [53, 1, 1, 255]
    let s := OverrideState.init Sample.overridden
    ∃ g h answer reply options,
      w.serve req.packet .discover (Sample.envWith s) 3 = some (g, h, answer) ∧
      answer.d = some reply ∧
      buildReplyOptions (Sample.envWith s).toReplyEnv w.handler.options req.packet
        w.network.network.text req.packet.clientMac = some options ∧
      options 6 = some [10, 0, 0, 53] ∧ options 15 = some [99, 111, 114, 112] ∧
      ∀ c v, options c = some v → (reply.replyPacket req).parseOptions c = some v := by
  intro w req s
  have hrun : ((w.serve req.packet .discover (Sample.envWith s) 3).bind fun r =>
      r.2.2.d.map (·.messageType)) = some .offer := by
    decide +kernel
  have hbuild : (buildReplyOptions (Sample.envWith s).toReplyEnv w.handler.options req.packet
      w.network.network.text req.packet.clientMac).map (fun options => (options 6, options 15)) =
      some (some [10, 0, 0, 53], some [99, 111, 114, 112]) := by
    decide +kernel
  obtain ⟨⟨g, h, answer⟩, hserve, hreply⟩ := Option.bind_eq_some_iff.mp hrun
  obtain ⟨reply, hd, hmt⟩ := Option.map_eq_some_iff.mp hreply
  obtain ⟨options, hbuilt, hvalues⟩ := Option.map_eq_some_iff.mp hbuild
  obtain ⟨hdns, hname⟩ := Prod.mk.inj hvalues
  have hmac : converted (OverrideTable.storedOptions s.db .mac req.packet.clientMac) =
      [(6, [10, 0, 0, 53])] := by
    decide +kernel
  have hnet : converted (OverrideTable.storedOptions s.db .network w.network.network.text) =
      [(15, [99, 111, 114, 112])] := by
    decide +kernel
  have heffective : ∀ c, w.effectiveOption s.db req.packet c =
      if 6 = c then some [10, 0, 0, 53] else if 15 = c then some [99, 111, 114, 112]
      else (Sample.scope [] []).options c := by
    intro c
    rw [World.effectiveOption, storedOverride, hmac, hnet]
    simp only [lookupLast]
    split_ifs <;> rfl
  have htrans : w.Transmissible s.db req.packet reply.messageType := by
    refine ⟨?_, fun _ _ _ => .inl ?_⟩
    · intro c v hv
      rw [heffective] at hv
      split_ifs at hv with hsix hfifteen
      · cases hv
        subst hsix
        decide
      · cases hv
        subst hfifteen
        decide
      · exact Sample.scope_encodable hv
    · rw [heffective]
      rfl
  obtain ⟨options', hbuilt', hiff⟩ := reply_carries_options_iff (mirrors_init _) rfl hserve hd
    (by rw [hmt]; decide)
  cases hbuilt.symm.trans hbuilt'
  exact ⟨g, h, answer, reply, options, hserve, hd, hbuilt, hdns, hname, hiff.mpr htrans⟩

/-- The client has an override of option 55 that lists option 1 only: the routers of the set are
not sent. -/
theorem unlisted_option_lost : ¬ ∀ (w : World) (req : Datagram) (t : MessageType) (env : Env)
    (fuel : ℕ) (g : Globals) (h : DHCPHandler) (answer : Answer) (reply : Reply)
    (s : OverrideState) (options : Options), s.Mirrors →
    (∀ type target, ∀ opt ∈ OverrideTable.storedOptions s.db type target,
      0 ≤ opt.optionCode ∧ opt.optionCode ≤ 255 ∧ opt.optionValue ≠ "" ∧
        (convertOptionToDHCP opt).toOption.isSome = true) →
    env.applyOptionOverrides = s.overrideOptions →
    w.serve req.packet t env fuel = some (g, h, answer) → answer.d = some reply →
    reply.messageType ≠ .nak →
    buildReplyOptions env.toReplyEnv w.handler.options req.packet w.network.network.text
      req.packet.clientMac = some options →
    ∀ c v, options c = some v → (reply.replyPacket req).parseOptions c = some v := by
  intro hclaim
  let w := World.init (Sample.scope [] []) Sample.network none 0
  let req := Sample.datagram [2, 0, 0, 0, 0, 1] [53, 1, 1, 255]
  let s := OverrideState.init (Sample.stored [⟨55, "01", "hex"⟩])
  have haccepted : ∀ type target, ∀ opt ∈ OverrideTable.storedOptions s.db type target,
      0 ≤ opt.optionCode ∧ opt.optionCode ≤ 255 ∧ opt.optionValue ≠ "" ∧
        (convertOptionToDHCP opt).toOption.isSome = true := by
    intro type target opt hopt
    obtain rfl := List.mem_singleton.mp (Sample.mem_of_stored hopt)
    decide +kernel
  have hrun : ((w.serve req.packet .discover (Sample.envWith s) 3).bind fun r =>
      r.2.2.d.map fun reply => (reply.messageType, (reply.replyPacket req).parseOptions 3)) =
      some (.offer, none) := by
    decide +kernel
  have hbuild : (buildReplyOptions (Sample.envWith s).toReplyEnv w.handler.options req.packet
      w.network.network.text req.packet.clientMac).map (· 3) = some (some [10, 0, 0, 1]) := by
    decide +kernel
  obtain ⟨⟨g, h, answer⟩, hserve, hreply⟩ := Option.bind_eq_some_iff.mp hrun
  obtain ⟨reply, hd, hout⟩ := Option.map_eq_some_iff.mp hreply
  obtain ⟨hmt, hparse⟩ := Prod.mk.inj hout
  obtain ⟨options, hbuilt, hrouter⟩ := Option.map_eq_some_iff.mp hbuild
  have hcarried := hclaim w req .discover (Sample.envWith s) 3 g h answer reply s options
    (mirrors_init _) haccepted rfl hserve hd (by rw [hmt]; decide) hbuilt 3 _ hrouter
  cases hparse.symm.trans hcarried

end StandaloneDHCP
