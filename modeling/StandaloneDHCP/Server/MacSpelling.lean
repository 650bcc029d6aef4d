import StandaloneDHCP.Server.AssignedText
import StandaloneDHCP.Server.DiscoverOutcome
import StandaloneDHCP.Server.ScopeSelection
import StandaloneDHCP.Server.StaticAssignments

/-! How the MAC of a static assignment is spelled. `AssignIP` takes hex digits of either case and
keeps the text as the key of its map; `ServeDHCP` looks up `net.HardwareAddr.String`, which has no
capitals. A client whose MAC is written with one is served from the dynamic addresses, and its own
address stays reserved for nobody. -/
namespace StandaloneDHCP
open Lib
set_option autoImplicit false

/-- The text of `ip_assigned` with the given entries. -/
def assignedText (entries : List StaticEntry) : String :=
  String.ofList ([','].intercalate (entries.map StaticEntry.text))

/-- What `AssignIP` keeps of an entry. -/
def StaticEntry.kept (s : StaticEntry) : String × IPv4 := (String.ofList s.mac, s.address)

theorem entriesOf_assignedText (entries : List StaticEntry) :
    entriesOf (assignedText entries) = entries.map StaticEntry.kept ∧
      ¬ TakesWrongAddress (assignedText entries) := by
  have hcomma : ∀ e ∈ entries.map StaticEntry.text, ',' ∉ e := fun e he => by
    obtain ⟨s, -, rfl⟩ := List.mem_map.mp he
    exact s.comma_notMem_text
  obtain ⟨hentries, hwrong⟩ := entriesOf_joined hcomma
  constructor
  · have hfound : found ∘ StaticEntry.text = some ∘ StaticEntry.kept := by
      funext s
      rw [Function.comp_apply, s.found_text]
      rfl
    rw [assignedText, hentries, List.filterMap_map, hfound, List.filterMap_eq_map]
  · intro h
    obtain ⟨e, he, hw⟩ := hwrong.mp h
    obtain ⟨s, -, rfl⟩ := List.mem_map.mp he
    exact s.not_wrongAddress hw

section Spelling
variable {cfg : ScopeConfig} {entries : List StaticEntry}
  (hcfg : cfg.ipAssigned = entriesOf (assignedText entries))
  (hmacs : (entries.map StaticEntry.hw).Nodup) {s : StaticEntry} (hs : s ∈ entries)
include hcfg hmacs hs

theorem lookupLast_lowercase (hlower : ∀ c ∈ s.mac, c.isUpper = false) :
    lookupLast cfg.ipAssigned (hexString s.hw) = some s.address := by
  have hspell : String.ofList s.mac = hexString s.hw :=
    congrArg String.ofList ((hexChars_eq_iff s.mac_text).mpr hlower).symm
  rw [hcfg, (entriesOf_assignedText entries).1, ← hspell]
  refine lookupLast_of_unique (List.mem_map_of_mem hs) fun e he hkey => ?_
  obtain ⟨s', hs', rfl⟩ := List.mem_map.mp he
  have hmac : s'.mac = s.mac := String.ofList_injective hkey
  have hhw : s'.hw = s.hw := by
    have htext := s'.mac_text
    rw [hmac, s.mac_text] at htext
    exact (Option.some.inj htext).symm
  rw [List.inj_on_of_nodup_map hmacs hs' hs hhw]
  rfl

/-- No key is the printed form of a hardware address that is spelled with capitals. -/
theorem lookupLast_uppercase (hupper : ¬ ∀ c ∈ s.mac, c.isUpper = false) :
    lookupLast cfg.ipAssigned (hexString s.hw) = none := by
  rw [hcfg, (entriesOf_assignedText entries).1]
  cases hlast : lookupLast (entries.map StaticEntry.kept) (hexString s.hw) with
  | none => rfl
  | some a =>
    obtain ⟨s', hs', hkept⟩ := List.mem_map.mp (mem_of_lookupLast hlast)
    have hmac : s'.mac = hexChars s.hw := String.ofList_injective (congrArg Prod.fst hkept)
    have htext := s'.mac_text
    rw [hmac] at htext
    obtain rfl := List.inj_on_of_nodup_map hmacs hs' hs (eq_of_hexPairs_hexChars htext).symm
    exact absurd ((hexChars_eq_iff s'.mac_text).mp hmac.symm) hupper

end Spelling

/-! ## The DISCOVER of a static client -/

theorem offered_replyOffer {env : Env} {h : DHCPHandler} {networkIP : String} {p : Packet}
    {answer : Answer} {free : Int} (hlen : p.chaddr.length = 6) :
    (replyOffer env h networkIP p answer free).offered = some (ipAdd h.start free) := by
  obtain ⟨b, hb⟩ : ∃ b, p.chaddr[5]? = some b := ⟨_, List.getElem?_eq_getElem (by omega)⟩
  simp only [replyOffer, buildReplyOptions, hb]
  rfl

theorem serve_static {w : World} {p : Packet} (hadmits : w.Admits p .discover)
    {position : BitVec 32} (hstat : w.handler.ipAssigned.lookup p.clientMac = some position)
    (hlen : p.chaddr.length = 6) (env : Env) (fuel : ℕ) :
    ∃ g h answer, w.serve p .discover env fuel = some (g, h, answer) ∧
      answer.offered = some (ipAdd w.handler.start position.toNat) := by
  rw [World.serve_discover hadmits, serveDiscover, hstat]
  exact ⟨_, _, _, rfl, offered_replyOffer hlen⟩

/-- The first packet of a client that names no address. -/
def firstDiscover (chaddr : Bytes) : Packet where
  chaddr := chaddr
  xid := 1
  ciaddr := 0
  giaddr := 0
  options := fun _ => none

/-- A client without a static address is not offered a reserved one by a server that has just
started. -/
theorem first_offer_ne {cfg : ScopeConfig} {network : IPNet} {ipv4 : Option IPv4} {now : Int}
    {chaddr : Bytes} {m : String} {a : IPv4} (hm : (m, a) ∈ cfg.ipAssigned) (hin : cfg.Contains a)
    (hdyn : lookupLast cfg.ipAssigned (hexString chaddr) = none) {env : Env} (hsilent : env.Silent)
    {fuel : ℕ} {g : Globals} {h : DHCPHandler} {answer : Answer}
    (hserve : (World.init cfg network ipv4 now).serve (firstDiscover chaddr) .discover env fuel =
      some (g, h, answer)) : answer.offered ≠ some a := by
  intro hoffer
  have hreg := World.regular_init cfg network ipv4 now
  have hlookup : (readConfig cfg).ipAssigned.lookup (firstDiscover chaddr).clientMac = none := by
    have hnone : lookupLast cfg.ipAssigned (firstDiscover chaddr).clientMac = none := hdyn
    rw [readConfig_lookup, hnone]
    rfl
  obtain ⟨-, -, hd⟩ | ⟨-, -, hhandled⟩ := World.serve_cases hreg.sound hserve
  · cases (Answer.silent hd).2.symm.trans hoffer
  obtain ⟨position, hstat, -⟩ | ⟨index, hsrc, haddr⟩ := hhandled.source (.inl hoffer)
  · cases hlookup.symm.trans hstat
  · have hindex := hreg.index_eq (hsrc.isOffset hreg.sound hreg.offsets) haddr
    cases hsrc with
    | cached _ hget =>
      obtain ⟨e, he, -⟩ := Cache.get_eq_some.mp hget
      cases (Cache.peek_empty _ _).symm.trans he
    | asked i _ _ _ hreq => cases hreq
    | fresh i _ hfree =>
      have hi : i = (cfg.position a).toNat := by omega
      obtain ⟨o, hfirst⟩ := exists_first_reservation cfg hm
      have hown := (readConfig_owner cfg (cfg.contains_iff_position.mp hin)).trans hfirst
      exact hreg.sound.pool.notMem_free hown (hi ▸ hfree)
    | fallback _ hping => exact hsilent.not_answered hping

/-- A DISCOVER from the hardware address of an entry is always answered with an OFFER of its
address if and only if the MAC is written without capitals. -/
theorem static_spelling_iff {cfg : ScopeConfig} {entries : List StaticEntry}
    (hcfg : cfg.ipAssigned = entriesOf (assignedText entries))
    (hmacs : (entries.map StaticEntry.hw).Nodup) (hin : ∀ s ∈ entries, cfg.Contains s.address)
    (network : IPNet) (ipv4 : Option IPv4) (now : Int) {s : StaticEntry} (hs : s ∈ entries) :
    (∀ w, World.RunsTo (fun _ _ => True) cfg network ipv4 now w → ∀ (p : Packet) (env : Env)
      (fuel : ℕ), p.chaddr = s.hw → w.Admits p .discover →
      ∃ g h answer, w.serve p .discover env fuel = some (g, h, answer) ∧
        answer.offered = some s.address) ↔ ∀ c ∈ s.mac, c.isUpper = false := by
  have hlen : s.hw.length = 6 := (length_of_hexPairs s.mac_text).2
  constructor
  · intro hall
    by_contra hupper
    have hdyn := lookupLast_uppercase hcfg hmacs hs hupper
    have hmem : s.kept ∈ cfg.ipAssigned := by
      rw [hcfg, (entriesOf_assignedText entries).1]
      exact List.mem_map_of_mem hs
    have hadmits : (World.init cfg network ipv4 now).Admits (firstDiscover s.hw) .discover :=
      ⟨(Network.selects_iff _ _).mpr (.inr (.inr ⟨rfl, rfl, rfl⟩)), rfl⟩
    obtain ⟨g, h, answer, hserve, hoffer⟩ :=
      hall _ .start (firstDiscover s.hw) (Sample.env []) 3 rfl hadmits
    exact first_offer_ne hmem (hin s hs) hdyn Sample.silent_env hserve hoffer
  · intro hlower w hrun p env fuel hchaddr hadmits
    have hreg := hrun.regular
    have hstat : w.handler.ipAssigned.lookup p.clientMac = some (cfg.position s.address) := by
      have hmac : p.clientMac = hexString s.hw := congrArg hexString hchaddr
      rw [hreg.ipAssigned, readConfig_lookup, hmac, lookupLast_lowercase hcfg hmacs hs hlower]
      rfl
    obtain ⟨g, h, answer, hserve, hoffer⟩ := serve_static hadmits hstat (hchaddr ▸ hlen) env fuel
    rw [hreg.start, cfg.ipAdd_position] at hoffer
    exact ⟨g, h, answer, hserve, hoffer⟩

namespace Sample

/-- `02:00:00:00:00:0a` with 10.0.0.11. -/
def lowercase : StaticEntry where
  mac := "02:00:00:00:00:0a".toList
  ip := "10.0.0.11".toList
  hw := [2, 0, 0, 0, 0, 10]
  address := 0x0a00000b#32
  mac_text := rfl
  ip_text := rfl

/-- The same entry with a capital. -/
def uppercase : StaticEntry :=
  { lowercase with mac := "02:00:00:00:00:0A".toList, mac_text := rfl }

/-- The scope with one entry in `ip_assigned`. -/
def spelled (s : StaticEntry) : ScopeConfig := scope [] (entriesOf (assignedText [s]))

end Sample

theorem static_spelling_sample : ∃ g h answer,
    (World.init (Sample.spelled Sample.lowercase) Sample.network none 0).serve
      (firstDiscover [2, 0, 0, 0, 0, 10]) .discover (Sample.env []) 3 = some (g, h, answer) ∧
    answer.offered = some 0x0a00000b#32 := by
  have hin : ∀ s ∈ [Sample.lowercase], (Sample.spelled Sample.lowercase).Contains s.address := by
    intro s hs
    rw [List.mem_singleton.mp hs]
    decide
  have hall : (Sample.lowercase.mac.all fun c => c.isUpper == false) = true := by decide
  have hlower : ∀ c ∈ Sample.lowercase.mac, c.isUpper = false := fun c hc =>
    beq_iff_eq.mp (List.all_eq_true.mp hall c hc)
  have hcfg : (Sample.spelled Sample.lowercase).ipAssigned =
      entriesOf (assignedText [Sample.lowercase]) := rfl
  have hiff := static_spelling_iff hcfg (List.nodup_singleton _) hin Sample.network none 0
    List.mem_cons_self
  exact hiff.mpr hlower _ .start _ _ _ rfl (by decide +kernel)

/-- The client of `02:00:00:00:00:0A:10.0.0.11` is offered 10.0.0.10. -/
theorem uppercase_offered_other :
    assignedText [Sample.uppercase] = "02:00:00:00:00:0A:10.0.0.11" ∧
      (Sample.spelled Sample.uppercase).Contains 0x0a00000b#32 ∧
      (World.init (Sample.spelled Sample.uppercase) Sample.network none 0).Admits
        (firstDiscover [2, 0, 0, 0, 0, 10]) .discover ∧
      ((World.init (Sample.spelled Sample.uppercase) Sample.network none 0).serve
        (firstDiscover [2, 0, 0, 0, 0, 10]) .discover (Sample.env []) 3).map
          (fun r => r.2.2.offered) = some (some 0x0a00000a#32) := by
  decide +kernel

end StandaloneDHCP
