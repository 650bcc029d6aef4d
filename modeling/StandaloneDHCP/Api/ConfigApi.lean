import StandaloneDHCP.Api.LeaseApi
import StandaloneDHCP.Lib.IniFile
import StandaloneDHCP.Lib.JsonTree

/-! The configuration endpoints (`api.go`) and the values that `readConfig` (`config.go`) takes
from the same file. Three functions name the sections and keys on their own: the reader, the
getter and the updater. What the getter returns is enough to say what the reader consults, and the
updater writes a file of which the getter returns the same again.

The file is the list of sections that `ini` loads and saves; expanding references within a value
and inheriting keys from a section with a shorter name are not part of it. -/
namespace StandaloneDHCP
open Lib
set_option autoImplicit false

/-! ## Texts -/

/-- `strings.Split(s, ",")`. -/
def splitComma (s : String) : List String := (s.toList.splitOn ',').map String.ofList

/-- `strings.Join(l, ",")`. -/
def joinComma (l : List String) : String := String.ofList ([','].intercalate (l.map String.toList))

theorem joinComma_splitComma (s : String) : joinComma (splitComma s) = s := by
  have hparts : (splitComma s).map String.toList = s.toList.splitOn ',' := by
    rw [splitComma, List.map_map]
    exact List.map_id'' (fun l => String.toList_ofList) _
  rw [joinComma, hparts, List.intercalate_splitOn, String.ofList_toList]

/-- The rest of a section name that starts with `"network "`. -/
def networkPart (name : String) : Option String :=
  match name.toList with
  | 'n' :: 'e' :: 't' :: 'w' :: 'o' :: 'r' :: 'k' :: ' ' :: rest => some (String.ofList rest)
  | _ => none

theorem networkPart_append (network : String) :
    networkPart ("network " ++ network) = some network := by
  have hlist : ("network " ++ network).toList = "network ".toList ++ network.toList :=
    String.toList_append
  rw [networkPart, hlist]
  exact congrArg some String.ofList_toList

theorem eq_of_networkPart {name network : String} (h : networkPart name = some network) :
    "network " ++ network = name := by
  unfold networkPart at h
  split at h
  · next rest hname =>
    cases h
    have hrest : (String.ofList rest).toList = rest := String.toList_ofList
    rw [← String.toList_inj, String.toList_append, hrest, hname]
    rfl
  · cases h

/-! ## The records -/

/-- A network section of the configuration. -/
structure ConfigSection where
  network : String := ""
  dns : String := ""
  gateway : String := ""
  dhcpStart : String := ""
  dhcpEnd : String := ""
  netmask : String := ""
  domainName : String := ""
  dhcpDefaultLeaseTime : String := ""
  dhcpMaxLeaseTime : String := ""
  dhcpEnabled : String := ""
  ipReserved : String := ""
  ipAssigned : String := ""
  algorithm : String := ""
  nextHop : String := ""
deriving DecidableEq

/-- A list is nil where it is empty. -/
@[ext] structure ConfigResponse where
  interfaces : List String := []
  relay : List String := []
  networks : List ConfigSection := []
deriving DecidableEq

/-- The fields of `ConfigSection`. -/
inductive ConfigField where
  | network
  | dns
  | gateway
  | dhcpStart
  | dhcpEnd
  | netmask
  | domainName
  | dhcpDefaultLeaseTime
  | dhcpMaxLeaseTime
  | dhcpEnabled
  | ipReserved
  | ipAssigned
  | algorithm
  | nextHop
deriving DecidableEq

namespace ConfigField

/-- All of them, in the order of the record. -/
def all : List ConfigField :=
  [.network, .dns, .gateway, .dhcpStart, .dhcpEnd, .netmask, .domainName, .dhcpDefaultLeaseTime,
    .dhcpMaxLeaseTime, .dhcpEnabled, .ipReserved, .ipAssigned, .algorithm, .nextHop]

/-- The name in the `json` tag. -/
def tag : ConfigField → String
  | network => "network"
  | dns => "dns"
  | gateway => "gateway"
  | dhcpStart => "dhcp_start"
  | dhcpEnd => "dhcp_end"
  | netmask => "netmask"
  | domainName => "domain_name"
  | dhcpDefaultLeaseTime => "dhcp_default_lease_time"
  | dhcpMaxLeaseTime => "dhcp_max_lease_time"
  | dhcpEnabled => "dhcpd"
  | ipReserved => "ip_reserved"
  | ipAssigned => "ip_assigned"
  | algorithm => "algorithm"
  | nextHop => "next_hop"

/-- The fields that are left out when they are empty. -/
def omitempty : ConfigField → Bool
  | domainName | ipReserved | ipAssigned | algorithm | nextHop => true
  | _ => false

/-- The field that a name of an object stands for. -/
def ofName (name : String) : Option ConfigField :=
  all.find? fun f => f.tag = Json.foldName name

theorem ofName_tag (f : ConfigField) : ofName f.tag = some f := by
  cases f <;> decide +kernel

end ConfigField

namespace ConfigSection

def get (s : ConfigSection) : ConfigField → String
  | .network => s.network
  | .dns => s.dns
  | .gateway => s.gateway
  | .dhcpStart => s.dhcpStart
  | .dhcpEnd => s.dhcpEnd
  | .netmask => s.netmask
  | .domainName => s.domainName
  | .dhcpDefaultLeaseTime => s.dhcpDefaultLeaseTime
  | .dhcpMaxLeaseTime => s.dhcpMaxLeaseTime
  | .dhcpEnabled => s.dhcpEnabled
  | .ipReserved => s.ipReserved
  | .ipAssigned => s.ipAssigned
  | .algorithm => s.algorithm
  | .nextHop => s.nextHop

def set (s : ConfigSection) (field : ConfigField) (value : String) : ConfigSection :=
  match field with
  | .network => { s with network := value }
  | .dns => { s with dns := value }
  | .gateway => { s with gateway := value }
  | .dhcpStart => { s with dhcpStart := value }
  | .dhcpEnd => { s with dhcpEnd := value }
  | .netmask => { s with netmask := value }
  | .domainName => { s with domainName := value }
  | .dhcpDefaultLeaseTime => { s with dhcpDefaultLeaseTime := value }
  | .dhcpMaxLeaseTime => { s with dhcpMaxLeaseTime := value }
  | .dhcpEnabled => { s with dhcpEnabled := value }
  | .ipReserved => { s with ipReserved := value }
  | .ipAssigned => { s with ipAssigned := value }
  | .algorithm => { s with algorithm := value }
  | .nextHop => { s with nextHop := value }

def json (s : ConfigSection) : Json :=
  .obj (ConfigField.all.flatMap fun f => Json.field f.tag f.omitempty (s.get f))

def decodeField (s : ConfigSection) (f : String × Json) : Option ConfigSection :=
  match ConfigField.ofName f.1 with
  | some field => (f.2.intoString (s.get field)).map (s.set field)
  | none => some s

def decode : Json → Option ConfigSection
  | .obj fields => fields.foldlM decodeField {}
  | .null => some {}
  | _ => none

end ConfigSection

def ConfigResponse.json (r : ConfigResponse) : Json :=
  .obj (("interfaces", .ofList (r.interfaces.map .str)) ::
    ((if r.relay = [] then [] else [("relay", .ofList (r.relay.map .str))]) ++
      [("networks", .ofList (r.networks.map ConfigSection.json))]))

/-- The elements of a list are read into new records. -/
def ConfigResponse.put (r : ConfigResponse) (tag : String) (value : Json) :
    Option ConfigResponse :=
  match tag with
  | "interfaces" =>
    (value.intoList (Json.intoString "")).map fun l => { r with interfaces := l }
  | "relay" => (value.intoList (Json.intoString "")).map fun l => { r with relay := l }
  | "networks" => (value.intoList ConfigSection.decode).map fun l => { r with networks := l }
  | _ => some r

def ConfigResponse.decodeField (r : ConfigResponse) (f : String × Json) :
    Option ConfigResponse :=
  r.put (Json.foldName f.1) f.2

def ConfigResponse.decode : Json → Option ConfigResponse
  | .obj fields => fields.foldlM ConfigResponse.decodeField {}
  | .null => some {}
  | _ => none

/-! ## The handlers -/

/-- A list in the section `interfaces`. -/
def interfaceList (cfg : IniFile) (key : String) : List String :=
  if (cfg.sectionNamed "interfaces").key key ≠ "" then
    splitComma ((cfg.sectionNamed "interfaces").key key)
  else []

def ConfigSection.ofSection (network : String) (sec : IniSection) : ConfigSection where
  network := network
  dns := sec.key "dns"
  gateway := sec.key "gateway"
  dhcpStart := sec.key "dhcp_start"
  dhcpEnd := sec.key "dhcp_end"
  netmask := sec.key "netmask"
  domainName := sec.key "domain-name"
  dhcpDefaultLeaseTime := sec.key "dhcp_default_lease_time"
  dhcpMaxLeaseTime := sec.key "dhcp_max_lease_time"
  dhcpEnabled := sec.key "dhcpd"
  ipReserved := sec.key "ip_reserved"
  ipAssigned := sec.key "ip_assigned"
  algorithm := sec.key "algorithm"
  nextHop := sec.key "next_hop"

def configResponse (cfg : IniFile) : ConfigResponse where
  interfaces := interfaceList cfg "listen"
  relay := interfaceList cfg "relay"
  networks := cfg.keys.filterMap fun name =>
    (networkPart name).map fun network => ConfigSection.ofSection network (cfg.sectionNamed name)

/-- The argument is the outcome of `ini.Load`. -/
def handleGetConfig (loaded : Except String IniFile) : ApiReply Json :=
  match loaded with
  | .error err => .error ("Failed to load configuration: " ++ err) 500
  | .ok cfg => .ok (configResponse cfg).json

/-- The keys that are set, in this order, unless their value is empty. -/
def ConfigSection.entries (s : ConfigSection) : List (String × String) :=
  [("dns", s.dns), ("gateway", s.gateway), ("dhcp_start", s.dhcpStart),
    ("dhcp_end", s.dhcpEnd), ("netmask", s.netmask), ("domain-name", s.domainName),
    ("dhcp_default_lease_time", s.dhcpDefaultLeaseTime),
    ("dhcp_max_lease_time", s.dhcpMaxLeaseTime), ("dhcpd", s.dhcpEnabled),
    ("ip_reserved", s.ipReserved), ("ip_assigned", s.ipAssigned), ("algorithm", s.algorithm),
    ("next_hop", s.nextHop)]

def ConfigSection.sectionName (s : ConfigSection) : String := "network " ++ s.network

def ConfigResponse.writeInterfaces (r : ConfigResponse) (sec : IniSection) : IniSection :=
  let sec := if r.interfaces ≠ [] then sec.insert "listen" (joinComma r.interfaces) else sec
  if r.relay ≠ [] then sec.insert "relay" (joinComma r.relay) else sec

def addNetworks : List ConfigSection → IniFile → Except String IniFile
  | [], cfg => .ok cfg
  | network :: rest, cfg =>
    match cfg.newSection network.sectionName fun sec => sec.writeAll network.entries with
    | .error err => .error ("Failed to create network section: " ++ err)
    | .ok cfg => addNetworks rest cfg

/-- `ini.Empty()`. -/
def emptyFile : IniFile := AList.singleton "DEFAULT" ∅

def ConfigResponse.file (r : ConfigResponse) : Except String IniFile :=
  match emptyFile.newSection "interfaces" r.writeInterfaces with
  | .error err => .error ("Failed to create interfaces section: " ++ err)
  | .ok cfg => addNetworks r.networks cfg

/-- The texts that the environment of a request supplies: of a type error in the body, and of an
error of `SaveTo`. -/
structure UpdateEnv where
  typeError : Json → String
  saveError : Option String

/-- The stored file after the request, and the `message` of the answer. -/
def handleUpdateConfig (env : UpdateEnv) (stored : IniFile) (body : Except String Json) :
    IniFile × ApiReply String :=
  match body with
  | .error err => (stored, .error ("Invalid JSON: " ++ err) 400)
  | .ok json =>
    match ConfigResponse.decode json with
    | none => (stored, .error ("Invalid JSON: " ++ env.typeError json) 400)
    | some configRequest =>
      match configRequest.file with
      | .error message => (stored, .error message 500)
      | .ok cfg =>
        match env.saveError with
        | some err => (stored, .error ("Failed to save configuration: " ++ err) 500)
        | none =>
          (cfg, .ok
            "Configuration updated successfully. Restart the service to apply changes.")

/-- A request that fails leaves the file as it is. -/
theorem handleUpdateConfig_failed {env : UpdateEnv} {stored : IniFile}
    {body : Except String Json} (hfailed : (handleUpdateConfig env stored body).2.status ≠ 200) :
    (handleUpdateConfig env stored body).1 = stored := by
  unfold handleUpdateConfig at hfailed ⊢
  cases body with
  | error err => rfl
  | ok json =>
    cases hdecode : ConfigResponse.decode json with
    | none => simp only [hdecode]
    | some configRequest =>
      cases hfile : configRequest.file with
      | error message => simp only [hdecode, hfile]
      | ok cfg =>
        cases hsave : env.saveError with
        | some err => simp only [hdecode, hfile]
        | none => simp [hdecode, hfile, hsave, ApiReply.ok] at hfailed

/-! ## What the server reads -/

/-- The values of one network section. -/
structure NetworkSettings where
  network : String
  dhcpd : String
  dhcpStart : String
  dhcpEnd : String
  nextHop : String
  netmask : String
  dhcpDefaultLeaseTime : String
  algorithm : String
  ipReserved : String
  ipAssigned : String
  dns : String
  gateway : String
  domainName : String
deriving DecidableEq

@[ext] structure Settings where
  listen : String
  relay : String
  networks : List NetworkSettings
deriving DecidableEq

/-- The submatch of `^network (?P<Net>.*)$`; a dot is any character but a line feed. -/
def networkKey (name : String) : Option String :=
  (networkPart name).filter fun network => network.toList.all (· ≠ '\n')

/-- The values that `readConfig` consults, in its order. -/
def readSettings (cfg : IniFile) : Settings where
  listen := (cfg.sectionNamed "interfaces").key "listen"
  relay := (cfg.sectionNamed "interfaces").key "relay"
  networks := cfg.keys.filterMap fun name => (networkKey name).map fun network =>
    let sec := cfg.sectionNamed name
    { network := network
      dhcpd := sec.key "dhcpd"
      dhcpStart := sec.key "dhcp_start"
      dhcpEnd := sec.key "dhcp_end"
      nextHop := sec.key "next_hop"
      netmask := sec.key "netmask"
      dhcpDefaultLeaseTime := sec.key "dhcp_default_lease_time"
      algorithm := sec.key "algorithm"
      ipReserved := sec.key "ip_reserved"
      ipAssigned := sec.key "ip_assigned"
      dns := sec.key "dns"
      gateway := sec.key "gateway"
      domainName := sec.key "domain-name" }

/-! ## The body is read back -/

namespace ConfigSection

theorem set_get (s : ConfigSection) (f : ConfigField) : s.set f (s.get f) = s := by
  cases f <;> rfl

theorem get_set (s : ConfigSection) (f : ConfigField) (value : String) :
    (s.set f value).get f = value := by
  cases f <;> rfl

theorem get_set_ne (s : ConfigSection) {f f' : ConfigField} (value : String) (hne : f' ≠ f) :
    (s.set f value).get f' = s.get f' := by
  cases f <;> cases f' <;> first | rfl | exact absurd rfl hne

theorem ext_get {s s' : ConfigSection} (h : ∀ f, s.get f = s'.get f) : s = s' := by
  cases s
  cases s'
  rw [mk.injEq]
  exact ⟨h .network, h .dns, h .gateway, h .dhcpStart, h .dhcpEnd, h .netmask, h .domainName,
    h .dhcpDefaultLeaseTime, h .dhcpMaxLeaseTime, h .dhcpEnabled, h .ipReserved, h .ipAssigned,
    h .algorithm, h .nextHop⟩

/-- The fields of `l` are read into a record in which they are empty. -/
theorem foldlM_fields (s : ConfigSection) {l : List ConfigField} (hnodup : l.Nodup)
    {s₀ : ConfigSection} (hempty : ∀ f ∈ l, s₀.get f = "") :
    (l.flatMap fun f => Json.field f.tag f.omitempty (s.get f)).foldlM decodeField s₀ =
      some (l.foldl (fun s₁ f => s₁.set f (s.get f)) s₀) := by
  induction l generalizing s₀ with
  | nil => rfl
  | cons f l ih =>
    obtain ⟨hfirst, hrest⟩ := List.forall_mem_cons.mp hempty
    obtain ⟨hhead, htail⟩ := List.nodup_cons.mp hnodup
    have hread : s₀.decodeField (f.tag, .str (s.get f)) = some (s₀.set f (s.get f)) := by
      rw [decodeField, ConfigField.ofName_tag]
      rfl
    have homitted : s.get f = "" → s₀.set f (s.get f) = s₀ := by
      intro hvalue
      rw [hvalue, ← hfirst, set_get]
    rw [List.flatMap_cons, List.foldl_cons, Json.foldlM_field hread homitted]
    refine ih htail fun f' hf' => ?_
    have hne : f' ≠ f := by
      rintro rfl
      exact hhead hf'
    rw [get_set_ne _ _ hne, hrest f' hf']

theorem get_foldl_set (s : ConfigSection) {f : ConfigField} {l : List ConfigField} (hf : f ∈ l)
    (s₀ : ConfigSection) : (l.foldl (fun s₁ f => s₁.set f (s.get f)) s₀).get f = s.get f := by
  -- from the end of the list, where the last assignment to the field stands
  induction l using List.reverseRecOn with
  | nil => cases hf
  | append_singleton l g ih =>
    rw [List.foldl_append, List.foldl_cons, List.foldl_nil]
    by_cases hfg : f = g
    · rw [hfg, get_set]
    · have hl : f ∈ l := by simpa [hfg] using hf
      rw [get_set_ne _ _ hfg, ih hl]

theorem decode_json (s : ConfigSection) : decode s.json = some s := by
  rw [json, decode, foldlM_fields s (by decide) (by decide)]
  refine congrArg some (ext_get fun f => get_foldl_set s ?_ _)
  cases f <;> decide

end ConfigSection

theorem ConfigResponse.decodeField_tag {tag : String} (htag : Json.foldName tag = tag)
    (r : ConfigResponse) (value : Json) : r.decodeField (tag, value) = r.put tag value := by
  rw [decodeField, htag]

theorem ConfigResponse.decode_json (r : ConfigResponse) :
    ConfigResponse.decode r.json = some r := by
  have htexts : ∀ l : List String,
      Json.intoList (Json.intoString "") (.ofList (l.map .str)) = some l :=
    Json.intoList_ofList fun _ => rfl
  have hinterfaces : decodeField {} ("interfaces", .ofList (r.interfaces.map .str)) =
      some { interfaces := r.interfaces } := by
    rw [decodeField_tag (by decide +kernel), put, htexts]
    rfl
  have hrelay : decodeField { interfaces := r.interfaces } ("relay", .ofList (r.relay.map .str)) =
      some { interfaces := r.interfaces, relay := r.relay } := by
    rw [decodeField_tag (by decide +kernel), put, htexts]
    rfl
  have hnetworks : decodeField { interfaces := r.interfaces, relay := r.relay }
      ("networks", .ofList (r.networks.map ConfigSection.json)) = some r := by
    rw [decodeField_tag (by decide +kernel), put,
      Json.intoList_ofList ConfigSection.decode_json r.networks]
    rfl
  rw [json, decode, List.foldlM_cons, hinterfaces]
  by_cases hempty : r.relay = []
  · rw [hempty] at hnetworks
    simp [hempty, hnetworks]
  · simp [hempty, hrelay, hnetworks]

/-! ## The file is read back -/

theorem joinComma_interfaceList (cfg : IniFile) (key : String) :
    joinComma (interfaceList cfg key) = (cfg.sectionNamed "interfaces").key key := by
  unfold interfaceList
  split
  · exact joinComma_splitComma _
  · next hempty =>
    rw [not_not.mp hempty]
    rfl

/-- What the server reads is a function of what the getter returns. -/
def ConfigResponse.settings (r : ConfigResponse) : Settings where
  listen := joinComma r.interfaces
  relay := joinComma r.relay
  networks := r.networks.filterMap fun s =>
    if s.network.toList.all (· ≠ '\n') then
      some ⟨s.network, s.dhcpEnabled, s.dhcpStart, s.dhcpEnd, s.nextHop, s.netmask,
        s.dhcpDefaultLeaseTime, s.algorithm, s.ipReserved, s.ipAssigned, s.dns, s.gateway,
        s.domainName⟩
    else none

theorem settings_configResponse (cfg : IniFile) :
    (configResponse cfg).settings = readSettings cfg := by
  have hnetworks : (configResponse cfg).settings.networks = (readSettings cfg).networks := by
    show List.filterMap _ (List.filterMap _ _) = List.filterMap _ _
    rw [List.filterMap_filterMap]
    refine List.filterMap_congr fun name _ => ?_
    rw [networkKey]
    cases networkPart name with
    | none => rfl
    | some network =>
      show (if network.toList.all (· ≠ '\n') = true then some _ else none) =
        Option.map _ (if network.toList.all (· ≠ '\n') = true then some network else none)
      split
      · rfl
      · rfl
  exact Settings.ext (joinComma_interfaceList cfg "listen") (joinComma_interfaceList cfg "relay")
    hnetworks

theorem addNetworks_eq (l : List ConfigSection) (cfg : IniFile) :
    addNetworks l cfg = .ok (l.foldl (fun cfg s =>
      cfg.write s.sectionName fun sec => sec.writeAll s.entries) cfg) := by
  induction l generalizing cfg with
  | nil => rfl
  | cons s l ih =>
    have hname : s.sectionName ≠ "" := by simp [ConfigSection.sectionName]
    rw [addNetworks, IniFile.newSection, if_neg hname]
    exact ih _

theorem networkPart_sectionName (s : ConfigSection) :
    networkPart s.sectionName = some s.network :=
  networkPart_append s.network

/-- The sections of the new file. -/
theorem ConfigResponse.file_entries (r : ConfigResponse)
    (hnames : (r.networks.map ConfigSection.sectionName).Nodup) :
    ∃ cfg, r.file = .ok cfg ∧ cfg.entries =
      ⟨"DEFAULT", ∅⟩ :: ⟨"interfaces", r.writeInterfaces ∅⟩ ::
        r.networks.map fun s => ⟨s.sectionName, IniSection.writeAll ∅ s.entries⟩ := by
  have hinterfaces : (emptyFile.write "interfaces" r.writeInterfaces).entries =
      [⟨"DEFAULT", ∅⟩, ⟨"interfaces", r.writeInterfaces ∅⟩] :=
    IniFile.entries_write (by decide) _
  have hfresh : ∀ s ∈ r.networks,
      s.sectionName ∉ emptyFile.write "interfaces" r.writeInterfaces := by
    intro s _ hmem
    have hkey : s.sectionName ∈ (emptyFile.write "interfaces" r.writeInterfaces).entries.keys :=
      hmem
    rw [hinterfaces] at hkey
    have hnone : networkPart s.sectionName = none := by
      rcases List.mem_cons.mp hkey with hdefault | hkey
      · rw [hdefault]
        rfl
      · have hname : s.sectionName = "interfaces" := by simpa using hkey
        rw [hname]
        rfl
    rw [networkPart_sectionName] at hnone
    cases hnone
  refine ⟨_, addNetworks_eq r.networks _, ?_⟩
  rw [IniFile.entries_foldl_write _ _ _ _ hnames hfresh, hinterfaces]
  rfl

section WriteList
variable (sec : IniSection) {name other : String} (l : List String)

theorem key_writeList (hempty : sec.key name = "") :
    IniSection.key (if l ≠ [] then sec.insert name (joinComma l) else sec) name =
      joinComma l := by
  split
  · exact IniSection.key_insert _ _ _
  · next hnil =>
    rw [hempty, not_not.mp hnil]
    rfl

theorem key_writeList_ne (hne : other ≠ name) :
    IniSection.key (if l ≠ [] then sec.insert name (joinComma l) else sec) other =
      sec.key other := by
  split
  · exact IniSection.key_insert_ne _ _ hne
  · rfl

end WriteList

theorem ConfigResponse.key_writeInterfaces (r : ConfigResponse) :
    (r.writeInterfaces ∅).key "listen" = joinComma r.interfaces ∧
      (r.writeInterfaces ∅).key "relay" = joinComma r.relay := by
  constructor
  · exact (key_writeList_ne _ _ (by decide)).trans (key_writeList _ _ rfl)
  · exact key_writeList _ _ (key_writeList_ne _ _ (by decide))

theorem ConfigSection.ofSection_entries (s : ConfigSection) :
    ofSection s.network (IniSection.writeAll ∅ s.entries) = s := by
  have hkeys : (s.entries.map Prod.fst).Nodup := by
    show (["dns", "gateway", "dhcp_start", "dhcp_end", "netmask", "domain-name",
      "dhcp_default_lease_time", "dhcp_max_lease_time", "dhcpd", "ip_reserved", "ip_assigned",
      "algorithm", "next_hop"] : List String).Nodup
    decide
  refine ext_get fun f => ?_
  cases f
  case network => rfl
  all_goals exact IniSection.key_writeAll hkeys (by simp [entries, get])

/-- The network sections of a file keep their names. -/
theorem configResponse_names (cfg : IniFile) :
    ((configResponse cfg).networks.map ConfigSection.sectionName).Nodup := by
  have hnames : (configResponse cfg).networks.map ConfigSection.sectionName =
      cfg.keys.filter fun name => (networkPart name).isSome := by
    rw [configResponse, List.map_filterMap, ← List.filterMap_eq_filter]
    refine List.filterMap_congr fun name _ => ?_
    cases hname : networkPart name with
    | none => simp [Option.guard, hname]
    | some network =>
      have htext := eq_of_networkPart hname
      simp [Option.guard, hname, ConfigSection.sectionName, ConfigSection.ofSection, htext]
  rw [hnames]
  exact (AList.keys_nodup cfg).filter _

/-- The getter returns the same of the new file as of the old one. -/
theorem configResponse_file (cfg : IniFile) :
    ∃ cfg', (configResponse cfg).file = .ok cfg' ∧ configResponse cfg' = configResponse cfg := by
  obtain ⟨cfg', hfile, hentries⟩ := (configResponse cfg).file_entries (configResponse_names cfg)
  have hsection : cfg'.sectionNamed "interfaces" = (configResponse cfg).writeInterfaces ∅ :=
    IniFile.sectionNamed_of_mem (by rw [hentries]; simp)
  obtain ⟨hlisten, hrelay⟩ := (configResponse cfg).key_writeInterfaces
  have hlists : ∀ key, (cfg'.sectionNamed "interfaces").key key =
      (cfg.sectionNamed "interfaces").key key →
        interfaceList cfg' key = interfaceList cfg key := by
    intro key hkey
    rw [interfaceList, hkey]
    rfl
  have hnetworks : (configResponse cfg').networks = (configResponse cfg).networks := by
    have hkeys : cfg'.keys = "DEFAULT" :: "interfaces" ::
        (configResponse cfg).networks.map ConfigSection.sectionName := by
      rw [AList.keys, hentries]
      simp [List.keys]
    show List.filterMap _ cfg'.keys = _
    rw [hkeys, List.filterMap_cons_none rfl, List.filterMap_cons_none rfl, List.filterMap_map]
    refine (List.filterMap_congr fun s hs => ?_).trans List.filterMap_some
    have hmem : cfg'.sectionNamed s.sectionName = IniSection.writeAll ∅ s.entries := by
      refine IniFile.sectionNamed_of_mem ?_
      rw [hentries]
      exact List.mem_cons_of_mem _ (List.mem_cons_of_mem _ (List.mem_map_of_mem hs))
    rw [Function.comp_apply, networkPart_sectionName, Option.map_some, hmem,
      ConfigSection.ofSection_entries]
  refine ⟨cfg', hfile, ConfigResponse.ext (hlists _ ?_) (hlists _ ?_) hnetworks⟩
  · rw [hsection, hlisten]
    exact joinComma_interfaceList cfg "listen"
  · rw [hsection, hrelay]
    exact joinComma_interfaceList cfg "relay"

/-- Posting what the getter returned loses nothing: the server reads the same settings, and the
getter returns the same body. -/
theorem config_round_trip (typeError : Json → String) (cfg : IniFile) :
    ∃ body, handleGetConfig (.ok cfg) = .ok body ∧
      let r := handleUpdateConfig ⟨typeError, none⟩ cfg (.ok body)
      r.2.status = 200 ∧ readSettings r.1 = readSettings cfg ∧
        handleGetConfig (.ok r.1) = .ok body := by
  obtain ⟨cfg', hfile, hsame⟩ := configResponse_file cfg
  refine ⟨(configResponse cfg).json, rfl, ?_⟩
  simp only [handleUpdateConfig, ConfigResponse.decode_json, hfile]
  refine ⟨rfl, ?_, ?_⟩
  · rw [← settings_configResponse, hsame, settings_configResponse]
  · rw [handleGetConfig, hsame]

end StandaloneDHCP
