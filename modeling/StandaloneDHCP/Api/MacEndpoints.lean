import StandaloneDHCP.Api.OverrideApi

/-! The spelling of a hardware address in a URL. The routes take hex digits of either case. The
override endpoints put the text in lower case, which is how `net.HardwareAddr.String` prints it
and how `ServeDHCP` keys its caches; the lookup and the release of a lease take it as it comes,
and find no entry under a text with a capital. -/
namespace StandaloneDHCP
open Lib
set_option autoImplicit false

def ApiReply.map {β γ : Type} (f : β → γ) (r : ApiReply β) : ApiReply γ :=
  ⟨r.status, r.body.map f⟩

/-- The entry that a lookup read. -/
def Node.entry (n : Node) : String × Option Int := (n.ip, n.endsAt)

/-- Called with the text `mac`, each endpoint answers from the entries under `key` and changes
these. The echo of the text in a body is left aside. -/
structure ActsOn (s : Server) (o : OverrideState) (key mac : String) : Prop where
  lookup : (s.handleMac2Ip mac).map Node.entry = (s.handleMac2Ip key).map Node.entry
  released : (s.handleReleaseIP mac).1 = (s.handleReleaseIP key).1
  release : (s.handleReleaseIP mac).2.map Info.network =
    (s.handleReleaseIP key).2.map Info.network
  post : ∀ env body, o.handleOverrideOptions mac env body = o.postOptions .mac "MAC" key env body
  remove : ∀ dbError, o.handleRemoveOptions mac dbError = o.removeOptions .mac "MAC" key dbError
  get : ∀ dbError, o.handleGetOptionOverride "mac" mac dbError = o.getOverride .mac key dbError

/-! ## The keys of `GlobalMacCache` -/

namespace Server

/-- Every key is a printed hardware address. -/
def Printed (s : Server) : Prop :=
  ∀ mac item, s.globals.globalMacCache.peek mac = some item → ∃ hw, mac = hexString hw

theorem printed_init (cfg : List (Option IPv4 × List (IPNet × ScopeConfig))) (now : Int) :
    (init cfg now).Printed := by
  intro mac item hpeek
  have hempty : (init cfg now).globals.globalMacCache.peek mac = none := Cache.peek_empty _ _
  rw [hempty] at hpeek
  cases hpeek

theorem Printed.step {s s' : Server} (hprinted : s.Printed) {e : ServerEvent}
    (hstep : s.step e = some s') : s'.Printed := by
  intro mac item hpeek
  obtain ⟨-, hsame⟩ | ⟨-, -, hmacs⟩ | ⟨-, -, hmacs⟩ | ⟨-, -, addr, hw, lifetime, hrec⟩ :=
    step_lookups hstep
  · rw [hsame.macs] at hpeek
    exact hprinted mac item hpeek
  · rw [hmacs] at hpeek
    exact hprinted mac item hpeek
  · rw [hmacs] at hpeek
    exact hprinted mac item (Cache.peek_deleteExpired.mp hpeek).1
  · by_cases hmac : mac = hexString hw
    · exact ⟨hw, hmac⟩
    · rw [hrec.macs, Cache.peek_set_ne _ _ _ _ hmac] at hpeek
      exact hprinted mac item hpeek

theorem printed_of_run {cfg : List (Option IPv4 × List (IPNet × ScopeConfig))} {now : Int}
    {s : Server} (hrun : RunsTo (fun _ _ => True) cfg now s) : s.Printed :=
  hrun.invariant Printed (printed_init cfg now) fun _ _ _ hprinted _ hstep =>
    hprinted.step hstep

/-- Nothing stands under a text with a capital. -/
theorem Printed.get_eq_none {s : Server} (hprinted : s.Printed) {mac : String} {c : Char}
    (hc : c ∈ mac.toList) (hupper : c.isUpper = true) :
    s.globals.globalMacCache.get s.now mac = none := by
  refine Cache.get_eq_none.mpr fun item hpeek => ?_
  obtain ⟨hw, rfl⟩ := hprinted mac item hpeek
  rw [hexString, String.toList_ofList] at hc
  rw [isUpper_of_mem_hexChars hw c hc] at hupper
  cases hupper

/-! ## Lookups and releases without an entry -/

variable {s : Server} {mac : String}

theorem handleMac2Ip_none (hnone : s.globals.globalMacCache.get s.now mac = none) :
    s.handleMac2Ip mac = .error "Cannot find match for this MAC address" 404 := by
  have hitem : s.globals.globalMacCache.getWithExpiration s.now mac = none := by
    rwa [← Cache.getWithExpiration_object, Option.map_eq_none_iff] at hnone
  simp only [handleMac2Ip, hitem]

theorem get_eq_none_of_status (hstatus : (s.handleMac2Ip mac).status = 404) :
    s.globals.globalMacCache.get s.now mac = none := by
  unfold handleMac2Ip at hstatus
  rw [← Cache.getWithExpiration_object]
  split at hstatus
  · cases hstatus
  · next hnone =>
    rw [hnone]
    rfl

theorem handleReleaseIP_none (hnone : s.globals.globalMacCache.get s.now mac = none) :
    s.handleReleaseIP mac =
      (s, .error "Cannot find an active lease for this MAC address" 404) := by
  simp only [handleReleaseIP, interfaceScopeFromMac, hnone, if_true]

end Server

/-! ## The endpoints -/

section Spelling
variable {s : Server} (o : OverrideState) {hw : Bytes} {mac : String}
  (hmac : parseMAC mac.toList = some hw)
include hmac

theorem toLower_spelling : toLower mac = hexString hw :=
  congrArg String.ofList (map_toLower_of_hexPairs hmac)

theorem spelling_eq_iff : mac = hexString hw ↔ ∀ c ∈ mac.toList, c.isUpper = false := by
  rw [← hexChars_eq_iff hmac, hexString, ← String.toList_inj, String.toList_ofList, eq_comm]

/-- The override endpoints always find the entries of the client. -/
theorem actsOn_of_leases
    (hlookup : (s.handleMac2Ip mac).map Node.entry =
      (s.handleMac2Ip (hexString hw)).map Node.entry)
    (hreleased : (s.handleReleaseIP mac).1 = (s.handleReleaseIP (hexString hw)).1)
    (hrelease : (s.handleReleaseIP mac).2.map Info.network =
      (s.handleReleaseIP (hexString hw)).2.map Info.network) :
    ActsOn s o (hexString hw) mac where
  lookup := hlookup
  released := hreleased
  release := hrelease
  post env body := by rw [OverrideState.handleOverrideOptions, toLower_spelling hmac]
  remove dbError := by rw [OverrideState.handleRemoveOptions, toLower_spelling hmac]
  get dbError := by rw [OverrideState.handleGetOptionOverride, toLower_spelling hmac]

theorem actsOn_iff (hprinted : s.Printed) : ActsOn s o (hexString hw) mac ↔
    (∀ c ∈ mac.toList, c.isUpper = false) ∨
      s.globals.globalMacCache.get s.now (hexString hw) = none := by
  by_cases hlower : ∀ c ∈ mac.toList, c.isUpper = false
  · have hkey := (spelling_eq_iff hmac).mpr hlower
    refine iff_of_true (actsOn_of_leases o hmac ?_ ?_ ?_) (.inl hlower)
    · rw [← hkey]
    · rw [← hkey]
    · rw [← hkey]
  · have hcapital : ∃ c ∈ mac.toList, c.isUpper = true := by simpa using hlower
    obtain ⟨c, hc, hupper⟩ := hcapital
    have hnone := hprinted.get_eq_none hc hupper
    simp only [hlower, false_or]
    constructor
    · intro hacts
      have hstatus := congrArg ApiReply.status hacts.lookup
      rw [Server.handleMac2Ip_none hnone] at hstatus
      exact Server.get_eq_none_of_status hstatus.symm
    · intro hkey
      refine actsOn_of_leases o hmac ?_ ?_ ?_
      · rw [Server.handleMac2Ip_none hnone, Server.handleMac2Ip_none hkey]
      · rw [Server.handleReleaseIP_none hnone, Server.handleReleaseIP_none hkey]
      · rw [Server.handleReleaseIP_none hnone, Server.handleReleaseIP_none hkey]

end Spelling

/-- In every state of the server, the endpoints treat two spellings of a hardware address alike,
and as the DHCP path does, exactly when neither has a capital or the client is not listed. -/
theorem mac_endpoints_ignore_case_iff (cfg : List (Option IPv4 × List (IPNet × ScopeConfig)))
    (now : Int) (s : Server) (hrun : Server.RunsTo (fun _ _ => True) cfg now s)
    (o : OverrideState) (hw : Bytes) (mac mac' : String)
    (hmac : parseMAC mac.toList = some hw) (hmac' : parseMAC mac'.toList = some hw) :
    (ActsOn s o (hexString hw) mac ∧ ActsOn s o (hexString hw) mac') ↔
      ((∀ c ∈ mac.toList, c.isUpper = false) ∧ ∀ c ∈ mac'.toList, c.isUpper = false) ∨
        s.globals.globalMacCache.get s.now (hexString hw) = none := by
  have hprinted := Server.printed_of_run hrun
  rw [actsOn_iff o hmac hprinted, actsOn_iff o hmac' hprinted]
  tauto

theorem mac_endpoints_ignore_case_unlisted :
    ∃ s, Server.RunsTo (fun _ _ => True) Sample.server 0 s ∧
      ActsOn s ⟨∅, ∅, []⟩ "02:00:00:00:00:aa" "02:00:00:00:00:AA" := by
  obtain ⟨s, hrun, hp⟩ := Sample.exists_server_run (fun _ _ => True)
    [Sample.arrive [2, 0, 0, 0, 0, 1] 1 (some 0x0a00000a#32) .discover,
      Sample.arrive [2, 0, 0, 0, 0, 1] 1 (some 0x0a00000a#32) .request]
    (fun s => s.globals.globalMacCache.get s.now (hexString [2, 0, 0, 0, 0, 0xaa]) = none)
    (by decide +kernel)
  exact ⟨s, hrun, ((mac_endpoints_ignore_case_iff Sample.server 0 s hrun ⟨∅, ∅, []⟩
    [2, 0, 0, 0, 0, 0xaa] "02:00:00:00:00:AA" "02:00:00:00:00:aa" (by decide) (by decide)).mpr
      (.inr (of_decide_eq_true hp))).1⟩

/-- A client that has a lease is not found when its address is spelled with capitals. -/
theorem capital_spelling_not_found :
    ¬ ∀ (cfg : List (Option IPv4 × List (IPNet × ScopeConfig))) (now : Int) (s : Server),
      Server.RunsTo (fun _ _ => True) cfg now s → ∀ (o : OverrideState) (hw : Bytes)
        (mac mac' : String), parseMAC mac.toList = some hw → parseMAC mac'.toList = some hw →
          ActsOn s o (hexString hw) mac ∧ ActsOn s o (hexString hw) mac' := by
  intro hclaim
  obtain ⟨s, hrun, hp⟩ := Sample.exists_server_run (fun _ _ => True)
    [Sample.arrive [2, 0, 0, 0, 0, 0xaa] 1 (some 0x0a00000a#32) .discover,
      Sample.arrive [2, 0, 0, 0, 0, 0xaa] 1 (some 0x0a00000a#32) .request]
    (fun s => (s.handleMac2Ip (hexString [2, 0, 0, 0, 0, 0xaa])).status = 200 ∧
      (s.handleMac2Ip "02:00:00:00:00:AA").status = 404)
    (by decide +kernel)
  obtain ⟨hlower, hcapital⟩ := of_decide_eq_true hp
  have hacts := (hclaim Sample.server 0 s hrun ⟨∅, ∅, []⟩ [2, 0, 0, 0, 0, 0xaa]
    "02:00:00:00:00:AA" "02:00:00:00:00:aa" (by decide) (by decide)).1
  have hstatus := congrArg ApiReply.status hacts.lookup
  simp only [ApiReply.map] at hstatus
  rw [hlower, hcapital] at hstatus
  cases hstatus

end StandaloneDHCP
