import StandaloneDHCP.Server.AddressIndexes
import StandaloneDHCP.Server.HandlerRun

/-! Static assignments after configuration. The map of `AssignIP` holds for every MAC the position
of its last entry, the pool records for every position the first entry that names it, the entries
of `ip_reserved` before those of `ip_assigned`; the errors of `ReserveIPIndex` are dropped, so the
two can differ. The OFFER to a static client uses the position as it stands in the map, the
REQUEST case tests the range first. -/
namespace StandaloneDHCP
open Lib
set_option autoImplicit false

/-! ## The map and the pool -/

section Owner
variable (cfg : ScopeConfig)

theorem readConfig_owner {i : ℕ} (hi : i < cfg.size) :
    (readConfig cfg).available.mac.lookup i = cfg.reservations.lookup i := by
  rw [readConfig_available, lookup_reserveAll, DHCPPool.newDHCPPool_capacity,
    DHCPPool.newDHCPPool_free, if_pos ⟨hi, Finset.mem_range.mpr hi⟩, DHCPPool.newDHCPPool_mac,
    Finmap.lookup_empty, Option.or_none]

theorem readConfig_getMACIndex {i : ℕ} (hi : i < cfg.size) {m : String}
    (hfirst : cfg.reservations.lookup i = some m) :
    ((readConfig cfg).available.getMACIndex i).2.1 = m := by
  have hown := (readConfig_owner cfg hi).trans hfirst
  rw [DHCPPool.getMACIndex_of_lookup (readConfig_sound cfg).pool hown]

theorem exists_first_reservation {m : String} {a : IPv4} (hm : (m, a) ∈ cfg.ipAssigned) :
    ∃ o, cfg.reservations.lookup (cfg.position a).toNat = some o := by
  have hmem : ((cfg.position a).toNat, m) ∈ cfg.reservations :=
    List.mem_append_right _ (List.mem_map_of_mem hm)
  cases hfirst : cfg.reservations.lookup (cfg.position a).toNat with
  | some o => exact ⟨o, rfl⟩
  | none =>
    have hne := List.lookup_eq_none_iff.mp hfirst _ hmem
    simp at hne

end Owner

/-- The static map and the pool say the same, and no position is given twice. -/
structure StaticMapAgrees (h : DHCPHandler) : Prop where
  owned : ∀ m position, h.ipAssigned.lookup m = some position →
    (h.available.getMACIndex position.toNat).2.1 = m
  injective : ∀ m m' position, h.ipAssigned.lookup m = some position →
    h.ipAssigned.lookup m' = some position → m = m'

/-- The map agrees with the pool exactly when, for every MAC, the first entry of `ip_reserved` and
`ip_assigned` that names its address is its own. -/
theorem static_map_agrees_iff (cfg : ScopeConfig)
    (hin : ∀ e ∈ cfg.ipAssigned, cfg.Contains e.2) :
    StaticMapAgrees (readConfig cfg) ↔
      ∀ m a, lookupLast cfg.ipAssigned m = some a →
        cfg.reservations.lookup (cfg.position a).toNat = some m := by
  have hlt : ∀ {m a}, lookupLast cfg.ipAssigned m = some a → (cfg.position a).toNat < cfg.size :=
    fun hlast => cfg.contains_iff_position.mp (hin _ (mem_of_lookupLast hlast))
  constructor
  · intro hagree m a hlast
    have hpos : (readConfig cfg).ipAssigned.lookup m = some (cfg.position a) := by
      rw [readConfig_lookup, hlast]
      rfl
    obtain ⟨o, hfirst⟩ := exists_first_reservation cfg (mem_of_lookupLast hlast)
    have hown := hagree.owned m _ hpos
    rw [readConfig_getMACIndex cfg (hlt hlast) hfirst] at hown
    rw [hfirst, hown]
  · intro hfirst
    have howned : ∀ m position, (readConfig cfg).ipAssigned.lookup m = some position →
        ((readConfig cfg).available.getMACIndex position.toNat).2.1 = m := by
      intro m position hpos
      rw [readConfig_lookup] at hpos
      obtain ⟨a, hlast, rfl⟩ := Option.map_eq_some_iff.mp hpos
      exact readConfig_getMACIndex cfg (hlt hlast) (hfirst m a hlast)
    -- a position has one owner, so the map is injective as soon as it agrees with the pool
    refine ⟨howned, fun m m' position hm hm' => ?_⟩
    exact (howned m position hm).symm.trans (howned m' position hm')

theorem static_map_agrees_sample :
    StaticMapAgrees (readConfig (Sample.scope [0x0a00000c#32]
      [("02:00:00:00:00:01", 0x0a00000a#32), ("02:00:00:00:00:02", 0x0a00000b#32)])) := by
  refine (static_map_agrees_iff _ ?_).mpr ?_
  · decide
  · intro m a hlast
    have hmem := mem_of_lookupLast hlast
    rcases List.mem_cons.mp hmem with heq | hmem
    · cases heq
      decide
    · cases List.mem_singleton.mp hmem
      decide

/-- Two MACs are given 10.0.0.10: the map has it for both, the pool for the first. -/
theorem one_address_two_macs :
    ¬ StaticMapAgrees (readConfig (Sample.scope []
      [("02:00:00:00:00:01", 0x0a00000a#32), ("02:00:00:00:00:02", 0x0a00000a#32)])) := by
  intro hagree
  have hmac := hagree.injective "02:00:00:00:00:01" "02:00:00:00:00:02" 0 (by decide) (by decide)
  exact absurd hmac (by decide)

/-! ## OFFER and REQUEST of a static client -/

theorem serve_static_offer {w : World} {p : Packet} {position : BitVec 32} {env : Env} {fuel : ℕ}
    {g : Globals} {h : DHCPHandler} {answer : Answer} {a : IPv4}
    (hstat : w.handler.ipAssigned.lookup p.clientMac = some position)
    (hserve : w.serve p .discover env fuel = some (g, h, answer))
    (hoffer : answer.offered = some a) : a = ipAdd w.handler.start position.toNat := by
  obtain ⟨-, -, rfl⟩ | ⟨-, hmessage⟩ := World.serve_message hserve
  · cases hoffer
  · simp only [serveMessage, serveDiscover, hstat, Option.map_some] at hmessage
    cases hmessage
    exact replyOffer_offered rfl hoffer

theorem judge_static {now : Int} {g : Globals} {h : DHCPHandler} {p : Packet} {t : MessageType}
    {addr : IPv4} {position : BitVec 32}
    (hstat : h.ipAssigned.lookup p.clientMac = some position) :
    judge now g h p t addr =
      (if 0 ≤ ipRange h.start addr - 1 ∧ ipRange h.start addr - 1 < h.leaseRange ∧
          (position.toNat : Int) = ipRange h.start addr - 1 then .ack position.toNat else .nak,
        g, h) := by
  unfold judge
  simp only [hstat]
  by_cases hrange : 0 ≤ ipRange h.start addr - 1 ∧ ipRange h.start addr - 1 < h.leaseRange
  · by_cases hpos : (position.toNat : Int) = ipRange h.start addr - 1
    · rw [if_pos hrange, if_pos hpos, if_pos ⟨hrange.1, hrange.2, hpos⟩]
    · rw [if_pos hrange, if_neg hpos, if_neg fun hc => hpos hc.2.2]
  · rw [if_neg hrange, if_neg fun hc => hrange ⟨hc.1, hc.2.1⟩]

theorem validAddress_beBytes (a : IPv4) :
    validAddress (beBytes a) = if a = 0 then none else some a := by
  rw [validAddress, if_pos (length_beBytes a), beUint32_beBytes]

/-- A REQUEST for `a` with the identifier of this server. -/
structure RequestsFrom (h : DHCPHandler) (q : Packet) (a : IPv4) : Prop where
  address : q.reqIP = beBytes a
  server : q.options optionServerIdentifier = some (beBytes h.ip)

theorem RequestsFrom.namesOtherServer {h : DHCPHandler} {q : Packet} {a : IPv4}
    (hq : RequestsFrom h q a) : namesOtherServer h q = false := by
  rw [StandaloneDHCP.namesOtherServer, hq.server]
  simp [beUint32_beBytes]

/-- What a static client gets for a REQUEST that reaches the switch. -/
theorem serveRequest_static {env : Env} {now : Int} {g : Globals} {h : DHCPHandler}
    {networkIP : String} {q : Packet} {answer : Answer} {a : IPv4} {position : BitVec 32}
    (hstat : h.ipAssigned.lookup q.clientMac = some position) (hlen : q.chaddr.length = 6)
    (hq : RequestsFrom h q a) :
    (serveRequest env now g h networkIP q .request answer).2.2.acked = some a ↔
      a ≠ 0 ∧ 0 ≤ ipRange h.start a - 1 ∧ ipRange h.start a - 1 < h.leaseRange ∧
        (position.toNat : Int) = ipRange h.start a - 1 := by
  obtain ⟨b, hb⟩ : ∃ b, q.chaddr[5]? = some b := ⟨_, List.getElem?_eq_getElem (by omega)⟩
  rw [serveRequest, hq.namesOtherServer, if_neg Bool.false_ne_true]
  simp only [hq.address, validAddress_beBytes]
  by_cases hzero : a = 0
  · simp [hzero, Answer.acked, Answer.addressOf, nakReply]
  · simp only [if_neg hzero, judge_static hstat]
    by_cases hcond : 0 ≤ ipRange h.start a - 1 ∧ ipRange h.start a - 1 < h.leaseRange ∧
        (position.toNat : Int) = ipRange h.start a - 1
    · simp only [if_pos hcond, acknowledge, buildReplyOptions, hb]
      exact ⟨fun _ => ⟨hzero, hcond⟩, fun _ => rfl⟩
    · simp only [if_neg hcond]
      refine ⟨fun hack => ?_, fun hc => absurd hc.2 hcond⟩
      simp [Answer.acked, Answer.addressOf, nakReply] at hack

theorem serve_request_acked {w : World} {q : Packet} {env : Env} {fuel : ℕ} {a : IPv4}
    {P : Prop} (hreq : ∀ g answer, (serveRequest env w.now g w.handler w.network.network.text q
      .request answer).2.2.acked = some a ↔ P) :
    (∃ g h answer, w.serve q .request env fuel = some (g, h, answer) ∧
      answer.acked = some a) ↔ P ∧ w.Admits q .request := by
  unfold World.serve
  by_cases hsel : w.network.selects q = true
  · simp only [if_pos hsel, serveHandler]
    cases hseen : w.globals.globalTransactionCache.get w.now (q.cacheKey .request) with
    | some _ =>
      constructor
      · rintro ⟨g, h, answer, heq, hack⟩
        cases heq
        cases hack
      · rintro ⟨-, hadmits⟩
        cases hadmits.2.symm.trans hseen
    | none =>
      simp only [serveMessage]
      constructor
      · rintro ⟨g, h, answer, heq, hack⟩
        have hres := congrArg (fun r => r.2.2.acked) (Option.some.inj heq)
        exact ⟨(hreq _ _).mp (hres.trans hack), hsel, hseen⟩
      · rintro ⟨hp, -⟩
        exact ⟨_, _, _, rfl, (hreq _ _).mpr hp⟩
  · simp only [if_neg hsel]
    constructor
    · rintro ⟨g, h, answer, heq, hack⟩
      cases heq
      cases hack
    · rintro ⟨-, hadmits⟩
      exact absurd hadmits.1 hsel

/-- The offered static address is acknowledged exactly when it lies in the range and is not
`0.0.0.0`, whatever happened to the handler before either packet. -/
theorem static_offer_acked_iff {cfg : ScopeConfig} {w₁ w₂ : World}
    (hw₁ : w₁.handler.settings = (readConfig cfg).settings)
    (hw₂ : w₂.handler.settings = (readConfig cfg).settings) {p q : Packet} {s a : IPv4}
    (hstat : lookupLast cfg.ipAssigned p.clientMac = some s) (hlen : p.chaddr.length = 6)
    {env : Env} {fuel : ℕ} {g : Globals} {h : DHCPHandler} {answer : Answer}
    (hserve : w₁.serve p .discover env fuel = some (g, h, answer))
    (hoffer : answer.offered = some a) (hsender : q.chaddr = p.chaddr)
    (hq : RequestsFrom w₂.handler q a) (env' : Env) (fuel' : ℕ) :
    (∃ g' h' answer', w₂.serve q .request env' fuel' = some (g', h', answer') ∧
      answer'.acked = some a) ↔ (s ≠ 0 ∧ cfg.Contains s) ∧ w₂.Admits q .request := by
  have hmac : q.clientMac = p.clientMac := congrArg hexString hsender
  have hlook : ∀ {w : World}, w.handler.settings = (readConfig cfg).settings →
      w.handler.ipAssigned.lookup p.clientMac = some (cfg.position s) := by
    intro w hw
    rw [DHCPHandler.ipAssigned_of_settings hw, readConfig_lookup, hstat]
    rfl
  -- the OFFER names the assigned address, inside the range or not
  have ha : a = s := by
    rw [serve_static_offer (hlook hw₁) hserve hoffer, DHCPHandler.start_of_settings hw₁]
    exact cfg.ipAdd_position s
  subst ha
  refine serve_request_acked fun g answer => ?_
  have hlook₂ := hlook hw₂
  rw [← hmac] at hlook₂
  rw [serveRequest_static hlook₂ (hsender ▸ hlen) hq, DHCPHandler.start_of_settings hw₂,
    DHCPHandler.leaseRange_of_settings hw₂]
  refine and_congr_right fun _ => ?_
  have hrange := cfg.contains_iff_leaseNum (a := a)
  constructor
  · rintro ⟨hlo, hhi, -⟩
    exact hrange.mpr ⟨hlo, hhi⟩
  · intro hin
    exact ⟨(hrange.mp hin).1, (hrange.mp hin).2, (cfg.leaseNum_eq_position hin).symm⟩

namespace Sample

/-- A REQUEST of `02:…:01` for `a` with the identifier of the sample server. -/
def identified (a : IPv4) : Packet :=
  let p := packet [2, 0, 0, 0, 0, 1] 2 (some a)
  { p with options := fun code =>
      if code = optionServerIdentifier then some (beBytes 0x0a000001#32) else p.options code }

/-- One static client, `02:…:01` with the address `a`. -/
def staticScope (a : IPv4) : ScopeConfig := scope [] [("02:00:00:00:00:01", a)]

/-- The state after the DISCOVER of the static client. -/
def afterDiscover (a : IPv4) : Option World :=
  (World.init (staticScope a) network none 0).step (send [2, 0, 0, 0, 0, 1] 1 none .discover)

/-- `a` was offered, the REQUEST for it reaches the switch, and it is acknowledged or not. -/
def requestAfterOffer (a : IPv4) (acked : Bool) (w : World) : Bool :=
  (w.log.head?.bind fun r => r.answer.offered) == some a && w.handler.ip == 0x0a000001#32 &&
    decide (w.Admits (identified a) .request) &&
    ((w.serve (identified a) .request (env []) 3).map fun r => r.2.2.acked) ==
      some (if acked then some a else none)

theorem requestsFrom_identified {h : DHCPHandler} (hip : h.ip = 0x0a000001#32) (a : IPv4) :
    RequestsFrom h (identified a) a := by
  refine ⟨rfl, ?_⟩
  rw [hip]
  rfl

end Sample

theorem static_offer_acked_sample :
    ∃ w, Sample.afterDiscover 0x0a00000b#32 = some w ∧
      ∃ g h answer, w.serve (Sample.identified 0x0a00000b#32) .request (Sample.env []) 3 =
        some (g, h, answer) ∧ answer.acked = some 0x0a00000b#32 := by
  have hrun : (Sample.afterDiscover 0x0a00000b#32).map
      (Sample.requestAfterOffer 0x0a00000b#32 true) = some true := by decide +kernel
  obtain ⟨w, hstep, hw⟩ := Option.map_eq_some_iff.mp hrun
  simp only [Sample.requestAfterOffer, Bool.and_eq_true, beq_iff_eq, decide_eq_true_eq] at hw
  obtain ⟨⟨⟨hoffer, hip⟩, hadmits⟩, -⟩ := hw
  have hreg : w.Regular (Sample.staticScope 0x0a00000b#32) :=
    World.RunsTo.regular (.next .start trivial hstep : World.RunsTo (fun _ _ => True) _ _ _ _ _)
  obtain ⟨g, h, answer, hserve, rfl⟩ := World.step_packet hstep
  have hstat : lookupLast (Sample.staticScope 0x0a00000b#32).ipAssigned
      (Sample.packet [2, 0, 0, 0, 0, 1] 1 none).clientMac = some 0x0a00000b#32 := by
    decide +kernel
  have hsender : (Sample.identified 0x0a00000b#32).chaddr =
      (Sample.packet [2, 0, 0, 0, 0, 1] 1 none).chaddr := rfl
  refine ⟨_, hstep, ?_⟩
  exact (static_offer_acked_iff rfl hreg.settings hstat rfl hserve
    hoffer hsender (Sample.requestsFrom_identified hip _) (Sample.env []) 3).mpr
    ⟨⟨by decide, by decide⟩, hadmits⟩

/-- The static address 10.0.0.50 lies outside 10.0.0.10 to 10.0.0.12: it is offered, and the
REQUEST for it is not acknowledged. -/
theorem static_offer_refused :
    ∃ w, Sample.afterDiscover 0x0a000032#32 = some w ∧
      (w.log.head?.bind fun r => r.answer.offered) = some 0x0a000032#32 ∧
      RequestsFrom w.handler (Sample.identified 0x0a000032#32) 0x0a000032#32 ∧
      w.Admits (Sample.identified 0x0a000032#32) .request ∧
      ¬ ∃ g h answer, w.serve (Sample.identified 0x0a000032#32) .request (Sample.env []) 3 =
        some (g, h, answer) ∧ answer.acked = some 0x0a000032#32 := by
  have hrun : (Sample.afterDiscover 0x0a000032#32).map
      (Sample.requestAfterOffer 0x0a000032#32 false) = some true := by decide +kernel
  obtain ⟨w, hstep, hw⟩ := Option.map_eq_some_iff.mp hrun
  simp only [Sample.requestAfterOffer, Bool.and_eq_true, beq_iff_eq, decide_eq_true_eq] at hw
  obtain ⟨⟨⟨hoffer, hip⟩, hadmits⟩, hreq⟩ := hw
  refine ⟨w, hstep, hoffer, Sample.requestsFrom_identified hip _, hadmits, ?_⟩
  rintro ⟨g, h, answer, hserve, hack⟩
  rw [hserve] at hreq
  cases (Option.some.inj hreq).symm.trans hack

end StandaloneDHCP
