import Mathlib.Data.List.Sort
import Mathlib.Data.Set.Card
import StandaloneDHCP.Api.MacEndpoints

/-! The override endpoints over whole histories. `handleListOptionOverrides` (`api.go`) and
`ListOptionOverrides` (`database.go`) are added to the handlers, and `InitDatabase` when the program
starts again on the same file. Seen through the endpoints and through the replies to DHCP clients,
the table and its cache are a map from targets to option lists, as long as one request comes after
the other. -/
namespace StandaloneDHCP
open Lib
set_option autoImplicit false

/-! ## The list -/

/-- The order in which SQLite comes across the rows; it decides between rows that the `ORDER BY`
does not. -/
structure ScanOrder where
  rows : List OptionOverride → List OptionOverride
  perm : ∀ l, (rows l).Perm l

namespace OptionOverride

/-- `ORDER BY created_at DESC`. -/
def NewerFirst (a b : OptionOverride) : Prop := b.createdAt ≤ a.createdAt

/-- `ORDER BY type, created_at DESC`. -/
def ByType (a b : OptionOverride) : Prop :=
  a.type.text < b.type.text ∨ (a.type = b.type ∧ a.NewerFirst b)

instance : DecidableRel NewerFirst := fun a b =>
  inferInstanceAs (Decidable (b.createdAt ≤ a.createdAt))

instance : DecidableRel ByType := fun a b =>
  inferInstanceAs (Decidable (a.type.text < b.type.text ∨ (a.type = b.type ∧ a.NewerFirst b)))

def key (row : OptionOverride) : OverrideType × String := (row.type, row.target)

end OptionOverride

namespace OverrideTable
variable (db : OverrideTable)

def rows : List OptionOverride := db.entries.map Sigma.snd

/-- The `SELECT` with and without the type. -/
def listOptionOverrides (scan : ScanOrder) : Option OverrideType → List OptionOverride
  | some type =>
    ((scan.rows db.rows).filter fun row => row.type = type).insertionSort OptionOverride.NewerFirst
  | none => (scan.rows db.rows).insertionSort OptionOverride.ByType

end OverrideTable

/-- The body of the list, next to `"status": "success"`. -/
structure ListBody where
  count : ℕ
  overrides : List OptionOverride
deriving DecidableEq

/-- The query parameter `type`; the empty one asks for every type. -/
def listedType (overrideType : String) : Option (Option OverrideType) :=
  match overrideType with
  | "" => some none
  | "network" => some (some .network)
  | "mac" => some (some .mac)
  | _ => none

def OverrideState.handleListOptionOverrides (s : OverrideState) (overrideType : String)
    (scan : ScanOrder) (dbError : Option String) : ApiReply ListBody :=
  match listedType overrideType with
  | none => .error "Invalid type parameter. Must be 'network' or 'mac'" 400
  | some type =>
    match dbError with
    | some err => .error ("Failed to list option overrides: " ++ err) 500
    | none =>
      let overrides := OverrideTable.listOptionOverrides s.db scan type
      .ok ⟨overrides.length, overrides⟩

/-! ## Histories -/

/-- A request, a reply to a DHCP client, or a start of the program on the same file. The database
reads of a reply (`apply`) succeed: after a failed one the reply goes out without the overrides of
that level unless they are cached, so there the cache would show. -/
inductive OverrideRequest
  | postNetwork (network : String) (env : StoreEnv) (body : Except String (List DHCPOption))
  | postMac (mac : String) (env : StoreEnv) (body : Except String (List DHCPOption))
  | removeNetwork (network : String) (dbError : Option String)
  | removeMac (mac : String) (dbError : Option String)
  | get (overrideType target : String) (dbError : Option String)
  | list (overrideType : String) (scan : ScanOrder) (dbError : Option String)
  | apply (networkIP mac : String)
  | restart

/-- `applied` are the entries that the two levels contribute to a reply. -/
inductive OverrideResponse
  | written (reply : ApiReply OverrideBody)
  | got (reply : ApiReply OptionOverride)
  | listed (reply : ApiReply ListBody)
  | applied (network mac : List DHCPOption)
  | restarted

def OverrideState.request (s : OverrideState) : OverrideRequest → OverrideState × OverrideResponse
  | .postNetwork network env body =>
    let r := s.handleOverrideNetworkOptions network env body
    (r.1, .written r.2)
  | .postMac mac env body =>
    let r := s.handleOverrideOptions mac env body
    (r.1, .written r.2)
  | .removeNetwork network dbError =>
    let r := s.handleRemoveNetworkOptions network dbError
    (r.1, .written r.2)
  | .removeMac mac dbError =>
    let r := s.handleRemoveOptions mac dbError
    (r.1, .written r.2)
  | .get overrideType target dbError =>
    (s, .got (s.handleGetOptionOverride overrideType target dbError))
  | .list overrideType scan dbError =>
    (s, .listed (s.handleListOptionOverrides overrideType scan dbError))
  | .apply networkIP mac =>
    let r := s.optionsOf .network networkIP
    let r' := r.1.optionsOf .mac mac
    (r'.1, .applied r.2 r'.2)
  | .restart => (.init s.db, .restarted)

/-! ## The map -/

/-- What the endpoints are for: a list of options for every target that has one. -/
abbrev OverrideMap : Type := OverrideType × String → Option (List DHCPOption)

/-- A response without ids, times and the order of the list. -/
inductive OverrideObservation
  | written (reply : ApiReply OverrideBody)
  | got (reply : ApiReply ((OverrideType × String) × List DHCPOption))
  | listed (reply : ApiReply (ℕ × Set ((OverrideType × String) × List DHCPOption)))
  | applied (network mac : List DHCPOption)
  | restarted

def OptionOverride.entry (row : OptionOverride) : (OverrideType × String) × List DHCPOption :=
  (row.key, row.options)

def OverrideResponse.observe : OverrideResponse → OverrideObservation
  | .written reply => .written reply
  | .got reply => .got (reply.map OptionOverride.entry)
  | .listed reply => .listed (reply.map fun body =>
      (body.count, { e | ∃ row ∈ body.overrides, row.entry = e }))
  | .applied network mac => .applied network mac
  | .restarted => .restarted

def OverrideState.observed (s : OverrideState) (r : OverrideRequest) :
    OverrideState × OverrideObservation :=
  ((s.request r).1, (s.request r).2.observe)

namespace OverrideMap
variable (m : OverrideMap)

def post (type : OverrideType) (label target : String) (dbError : Option String)
    (body : Except String (List DHCPOption)) : OverrideMap × OverrideObservation :=
  match acceptedOptions body, dbError with
  | .error message, _ => (m, .written (.error message 400))
  | .ok _, some err => (m, .written (.error ("Failed to save option override: " ++ err) 500))
  | .ok options, none =>
    (Function.update m (type, target) (some options), .written
      (.ok (.saved ("Option overrides saved for " ++ label ++ " " ++ target) target options)))

def remove (type : OverrideType) (label target : String) (dbError : Option String) :
    OverrideMap × OverrideObservation :=
  match dbError, m (type, target) with
  | some err, _ => (m, .written (.error ("Failed to delete option override: " ++ err) 500))
  | none, none =>
    (m, .written (.error ("No option overrides found for " ++ label ++ " " ++ target) 404))
  | none, some _ =>
    (Function.update m (type, target) none, .written
      (.ok (.removed ("Option overrides removed for " ++ label ++ " " ++ target) target)))

def get (type : OverrideType) (target : String) (dbError : Option String) : OverrideObservation :=
  match dbError, m (type, target) with
  | some err, _ => .got (.error ("Failed to get option override: " ++ err) 500)
  | none, none =>
    .got (.error ("No option override found for " ++ type.text ++ " " ++ target) 404)
  | none, some options => .got (.ok ((type, target), options))

/-- The entries of one type, or of both. -/
def entries (type : Option OverrideType) : Set ((OverrideType × String) × List DHCPOption) :=
  { e | m e.1 = some e.2 ∧ ∀ t ∈ type, e.1.1 = t }

noncomputable def list (overrideType : String) (dbError : Option String) : OverrideObservation :=
  match listedType overrideType, dbError with
  | none, _ => .listed (.error "Invalid type parameter. Must be 'network' or 'mac'" 400)
  | some _, some err => .listed (.error ("Failed to list option overrides: " ++ err) 500)
  | some type, none => .listed (.ok (Set.ncard (m.entries type), m.entries type))

def optionsAt (type : OverrideType) (target : String) : List DHCPOption :=
  if target = "" then [] else (m (type, target)).getD []

noncomputable def request : OverrideRequest → OverrideMap × OverrideObservation
  | .postNetwork network env body => m.post .network "network" network env.dbError body
  | .postMac mac env body => m.post .mac "MAC" (toLower mac) env.dbError body
  | .removeNetwork network dbError => m.remove .network "network" network dbError
  | .removeMac mac dbError => m.remove .mac "MAC" (toLower mac) dbError
  | .get overrideType target dbError =>
    (m,
      if overrideType = "network" then m.get .network target dbError
      else if overrideType = "mac" then m.get .mac (toLower target) dbError
      else .got (.error "Invalid type. Must be 'network' or 'mac'" 400))
  | .list overrideType _ dbError => (m, m.list overrideType dbError)
  | .apply networkIP mac => (m, .applied (m.optionsAt .network networkIP) (m.optionsAt .mac mac))
  | .restart => (m, .restarted)

end OverrideMap

/-! ## The rows of the table -/

namespace OverrideTable
variable {db : OverrideTable}

/-- A row is stored under its own type and target. -/
def RowsKeyed (db : OverrideTable) : Prop :=
  ∀ key row, db.lookup key = some row → row.key = key

theorem RowsKeyed.insert (hdb : db.RowsKeyed) (new : OptionOverride) :
    RowsKeyed (AList.insert new.key new db) := by
  intro key row hrow
  by_cases hkey : key = new.key
  · subst hkey
    rw [AList.lookup_insert] at hrow
    cases hrow
    rfl
  · rw [AList.lookup_insert_ne hkey] at hrow
    exact hdb key row hrow

theorem RowsKeyed.erase (hdb : db.RowsKeyed) (type : OverrideType) (target : String) :
    RowsKeyed (AList.erase (type, target) db) := by
  intro key row hrow
  by_cases hkey : key = (type, target)
  · subst hkey
    rw [AList.lookup_erase] at hrow
    cases hrow
  · rw [AList.lookup_erase_ne hkey] at hrow
    exact hdb key row hrow

theorem mem_rows (hdb : db.RowsKeyed) {row : OptionOverride} :
    row ∈ db.rows ↔ db.lookup row.key = some row := by
  rw [rows, List.mem_map]
  constructor
  · rintro ⟨⟨key, row'⟩, hmem, rfl⟩
    have hlookup : db.lookup key = some row' := AList.mem_lookup_iff.mpr hmem
    rw [hdb key row' hlookup]
    exact hlookup
  · intro hlookup
    exact ⟨⟨row.key, row⟩, AList.mem_lookup_iff.mp hlookup, rfl⟩

theorem nodup_keys_rows (hdb : db.RowsKeyed) : (db.rows.map OptionOverride.key).Nodup := by
  have hkeys : db.rows.map OptionOverride.key = db.keys := by
    rw [rows, List.map_map]
    refine List.map_congr_left fun e he => ?_
    exact hdb e.1 e.2 (AList.mem_lookup_iff.mpr he)
  rw [hkeys]
  exact db.keys_nodup

/-- A row that is there keeps its id and the time of its creation. -/
theorem save_eq_insert (hdb : db.RowsKeyed) (type : OverrideType) (target : String)
    (now newId : Int) (options : List DHCPOption) :
    ∃ new : OptionOverride,
      saveOptionOverride db type target now newId options = AList.insert new.key new db ∧
      new.updatedAt = now ∧
      ((∃ old ∈ db.rows, new.key = old.key ∧ new.id = old.id ∧ new.createdAt = old.createdAt) ∨
        (new.id = newId ∧ new.createdAt = now)) := by
  unfold saveOptionOverride
  split
  · next old hold =>
    have hkey : old.key = (type, target) := hdb _ old hold
    refine ⟨{ old with options := options, updatedAt := now }, ?_, rfl,
      .inl ⟨old, ?_, rfl, rfl, rfl⟩⟩
    · rw [← hkey]
      rfl
    · rw [mem_rows hdb, hkey]
      exact hold
  · exact ⟨⟨newId, type, target, options, now, now⟩, rfl, rfl, .inr ⟨rfl, rfl⟩⟩

theorem RowsKeyed.save (hdb : db.RowsKeyed) (type : OverrideType) (target : String)
    (now newId : Int) (options : List DHCPOption) :
    (saveOptionOverride db type target now newId options).RowsKeyed := by
  obtain ⟨new, heq, -⟩ := save_eq_insert hdb type target now newId options
  rw [heq]
  exact hdb.insert new

/-- The rows of a list, before they are sorted. -/
theorem perm_listOptionOverrides (scan : ScanOrder) (type : Option OverrideType) :
    (db.listOptionOverrides scan type).Perm
      (db.rows.filter fun row => ∀ t ∈ type, row.type = t) := by
  cases type with
  | some type =>
    refine (List.perm_insertionSort _ _).trans ?_
    simpa using (scan.perm db.rows).filter fun row => row.type = type
  | none =>
    refine (List.perm_insertionSort _ _).trans ?_
    simpa using scan.perm db.rows

theorem nodup_keys_list (hdb : db.RowsKeyed) (scan : ScanOrder) (type : Option OverrideType) :
    ((db.listOptionOverrides scan type).map OptionOverride.key).Nodup := by
  rw [((perm_listOptionOverrides scan type).map _).nodup_iff]
  exact (nodup_keys_rows hdb).sublist (List.filter_sublist.map _)

theorem mem_listOptionOverrides (hdb : db.RowsKeyed) {scan : ScanOrder}
    {type : Option OverrideType} {row : OptionOverride} :
    row ∈ db.listOptionOverrides scan type ↔
      db.lookup row.key = some row ∧ ∀ t ∈ type, row.type = t := by
  rw [(perm_listOptionOverrides scan type).mem_iff, List.mem_filter, mem_rows hdb]
  simp

end OverrideTable

/-! ## The cache is invisible -/

namespace OverrideState
variable {s : OverrideState}

theorem mirrors_save (hs : s.Mirrors) (type : OverrideType) (target : String)
    (options : List DHCPOption) (now newId : Int) :
    (s.saveOptionOverride type target options now newId).Mirrors := by
  intro key v hv
  have hne : key ≠ overrideCacheKey type target := by
    rintro rfl
    rw [saveOptionOverride, AList.lookup_erase] at hv
    cases hv
  rw [saveOptionOverride, AList.lookup_erase_ne hne] at hv
  obtain ⟨type', target', rfl, rfl⟩ := hs key v hv
  refine ⟨type', target', rfl, ?_⟩
  refine (OverrideTable.getOptionOverride_save_ne ?_).symm
  rintro ⟨⟩
  exact hne rfl

/-- A `DELETE` without a row changes nothing; one with a row removes it from the table and the
cache. -/
theorem deleteOptionOverride_cases (s : OverrideState) (type : OverrideType) (target : String) :
    (s.db.lookup (type, target) = none ∧ s.deleteOptionOverride type target = (s, false)) ∨
      ∃ row, s.db.lookup (type, target) = some row ∧
        s.deleteOptionOverride type target =
          ({ s with
              db := s.db.erase (type, target)
              overrideCache := s.overrideCache.erase (overrideCacheKey type target) }, true) := by
  unfold deleteOptionOverride OverrideTable.deleteOptionOverride
  cases hrow : s.db.lookup (type, target) with
  | none => exact .inl ⟨rfl, rfl⟩
  | some row => exact .inr ⟨row, rfl, rfl⟩

theorem mirrors_delete (hs : s.Mirrors) (type : OverrideType) (target : String) :
    (s.deleteOptionOverride type target).1.Mirrors := by
  obtain ⟨-, heq⟩ | ⟨row, -, heq⟩ := s.deleteOptionOverride_cases type target
  · rw [heq]
    exact hs
  · rw [heq]
    intro key v hv
    have hne : key ≠ overrideCacheKey type target := by
      rintro rfl
      rw [AList.lookup_erase] at hv
      cases hv
    rw [AList.lookup_erase_ne hne] at hv
    obtain ⟨type', target', rfl, rfl⟩ := hs key v hv
    refine ⟨type', target', rfl, ?_⟩
    refine (AList.lookup_erase_ne ?_).symm
    rintro ⟨⟩
    exact hne rfl

/-- The state stands for the map. -/
structure Represents (s : OverrideState) (m : OverrideMap) : Prop where
  mirrors : s.Mirrors
  keyed : s.db.RowsKeyed
  lookup : ∀ type target, m (type, target) = s.row type target

variable {m : OverrideMap}

theorem Represents.save (hs : s.Represents m) (type : OverrideType) (target : String)
    (options : List DHCPOption) (now newId : Int) :
    (s.saveOptionOverride type target options now newId).Represents
      (Function.update m (type, target) (some options)) where
  mirrors := mirrors_save hs.mirrors type target options now newId
  keyed := hs.keyed.save type target now newId options
  lookup := fun type' target' => by
    have hrow := s.row_perform type' target' (.save type target options now newId)
    simp only [perform, savedFrom] at hrow
    rw [hrow, Function.update_apply, hs.lookup]
    by_cases hkey : (type', target') = (type, target)
    · rw [if_pos hkey, if_pos hkey.symm]
    · rw [if_neg hkey, if_neg (Ne.symm hkey)]

theorem Represents.delete (hs : s.Represents m) (type : OverrideType) (target : String) :
    (s.deleteOptionOverride type target).1.Represents (Function.update m (type, target) none) where
  mirrors := mirrors_delete hs.mirrors type target
  keyed := by
    obtain ⟨-, heq⟩ | ⟨row, -, heq⟩ := s.deleteOptionOverride_cases type target
    · rw [heq]
      exact hs.keyed
    · rw [heq]
      exact hs.keyed.erase type target
  lookup := fun type' target' => by
    have hrow := s.row_perform type' target' (.delete type target)
    simp only [perform, savedFrom] at hrow
    rw [hrow, Function.update_apply, hs.lookup]
    by_cases hkey : (type', target') = (type, target)
    · rw [if_pos hkey, if_pos hkey.symm]
    · rw [if_neg hkey, if_neg (Ne.symm hkey)]

theorem Represents.optionsOf (hs : s.Represents m) (type : OverrideType) (target : String) :
    (s.optionsOf type target).1.Represents m ∧
      (s.optionsOf type target).2 = m.optionsAt type target := by
  have hdb := (s.optionsOf_frame type target).1
  refine ⟨⟨mirrors_optionsOf hs.mirrors type target, ?_, ?_⟩, ?_⟩
  · rw [hdb]
    exact hs.keyed
  · intro type' target'
    rw [OverrideState.row, hdb]
    exact hs.lookup type' target'
  · rw [optionsOf_of_mirrors hs.mirrors, OverrideTable.storedOptions, OverrideMap.optionsAt,
      hs.lookup]
    rfl

theorem Represents.restart (hs : s.Represents m) : (init s.db).Represents m where
  mirrors := fun key v hv => by
    rw [init, AList.lookup_empty] at hv
    cases hv
  keyed := hs.keyed
  lookup := hs.lookup

/-! ## One request -/

theorem Represents.post (hs : s.Represents m) (type : OverrideType) (label target : String)
    (env : StoreEnv) (body : Except String (List DHCPOption)) :
    OverrideObservation.written (s.postOptions type label target env body).2 =
        (m.post type label target env.dbError body).2 ∧
      (s.postOptions type label target env body).1.Represents
        (m.post type label target env.dbError body).1 := by
  unfold postOptions OverrideMap.post
  cases acceptedOptions body with
  | error message => exact ⟨rfl, hs⟩
  | ok options =>
    cases env.dbError with
    | some err => exact ⟨rfl, hs⟩
    | none => exact ⟨rfl, hs.save type target options env.now env.newId⟩

theorem Represents.remove (hs : s.Represents m) (type : OverrideType) (label target : String)
    (dbError : Option String) :
    OverrideObservation.written (s.removeOptions type label target dbError).2 =
        (m.remove type label target dbError).2 ∧
      (s.removeOptions type label target dbError).1.Represents
        (m.remove type label target dbError).1 := by
  unfold removeOptions OverrideMap.remove
  cases dbError with
  | some err => exact ⟨rfl, hs⟩
  | none =>
    have hlookup := hs.lookup type target
    have hdelete := hs.delete type target
    obtain ⟨hnone, heq⟩ | ⟨row, hrow, heq⟩ := s.deleteOptionOverride_cases type target
    · have hm : m (type, target) = none := by
        rw [hlookup, OverrideState.row, OverrideTable.getOptionOverride, hnone]
        rfl
      rw [hm, heq]
      exact ⟨rfl, hs⟩
    · have hm : m (type, target) = some row.options := by
        rw [hlookup, OverrideState.row, OverrideTable.getOptionOverride, hrow]
        rfl
      rw [hm]
      rw [heq] at hdelete ⊢
      exact ⟨rfl, hdelete⟩

theorem Represents.get (hs : s.Represents m) (type : OverrideType) (target : String)
    (dbError : Option String) :
    (OverrideResponse.got (s.getOverride type target dbError)).observe =
      m.get type target dbError := by
  unfold getOverride OverrideMap.get
  cases dbError with
  | some err => rfl
  | none =>
    rw [hs.lookup, OverrideState.row]
    cases hrow : OverrideTable.getOptionOverride s.db type target with
    | none => rfl
    | some row =>
      have hkey : row.key = (type, target) := hs.keyed _ row hrow
      rw [← hkey]
      rfl

theorem Represents.entries (hs : s.Represents m) (scan : ScanOrder) (type : Option OverrideType) :
    { e | ∃ row ∈ s.db.listOptionOverrides scan type, row.entry = e } = m.entries type := by
  ext ⟨⟨type', target⟩, options⟩
  simp only [Set.mem_ofPred_eq, OverrideTable.mem_listOptionOverrides hs.keyed, OverrideMap.entries,
    hs.lookup, OverrideState.row, Option.map_eq_some_iff]
  constructor
  · rintro ⟨row, ⟨hrow, htype⟩, heq⟩
    obtain ⟨hkey, rfl⟩ := Prod.mk.inj heq
    cases hkey
    exact ⟨⟨row, hrow, rfl⟩, htype⟩
  · rintro ⟨⟨row, hrow, rfl⟩, htype⟩
    have hkey : row.key = (type', target) := hs.keyed _ row hrow
    refine ⟨row, ⟨?_, ?_⟩, ?_⟩
    · rw [hkey]
      exact hrow
    · rw [(Prod.mk.inj hkey).1]
      exact htype
    · rw [OptionOverride.entry, hkey]

/-- The list names every entry once. -/
theorem Represents.ncard (hs : s.Represents m) (scan : ScanOrder) (type : Option OverrideType) :
    (s.db.listOptionOverrides scan type).length = Set.ncard (m.entries type) := by
  have hnodup : ((s.db.listOptionOverrides scan type).map OptionOverride.entry).Nodup := by
    refine List.Nodup.of_map Prod.fst ?_
    rw [List.map_map]
    exact OverrideTable.nodup_keys_list hs.keyed scan type
  have hset : m.entries type =
      ((s.db.listOptionOverrides scan type).map OptionOverride.entry).toFinset := by
    rw [← hs.entries scan type]
    ext e
    simp
  rw [hset, Set.ncard_coe_finset, List.toFinset_card_of_nodup hnodup, List.length_map]

theorem Represents.list (hs : s.Represents m) (overrideType : String) (scan : ScanOrder)
    (dbError : Option String) :
    (OverrideResponse.listed (s.handleListOptionOverrides overrideType scan dbError)).observe =
      m.list overrideType dbError := by
  unfold handleListOptionOverrides OverrideMap.list
  cases listedType overrideType with
  | none => rfl
  | some type =>
    cases dbError with
    | some err => rfl
    | none =>
      show _ = OverrideObservation.listed (.ok (Set.ncard (m.entries type), m.entries type))
      rw [← hs.ncard scan type, ← hs.entries scan type]
      rfl

theorem Represents.request (hs : s.Represents m) (r : OverrideRequest) :
    (s.request r).2.observe = (m.request r).2 ∧
      (s.request r).1.Represents (m.request r).1 := by
  cases r with
  | postNetwork network env body => exact hs.post .network "network" network env body
  | postMac mac env body => exact hs.post .mac "MAC" (toLower mac) env body
  | removeNetwork network dbError => exact hs.remove .network "network" network dbError
  | removeMac mac dbError => exact hs.remove .mac "MAC" (toLower mac) dbError
  | get overrideType target dbError =>
    refine ⟨?_, hs⟩
    simp only [OverrideState.request, OverrideMap.request, handleGetOptionOverride]
    split
    · exact hs.get .network target dbError
    · exact hs.get .mac (toLower target) dbError
    · next hnetwork hmac =>
      rw [if_neg hnetwork, if_neg hmac]
      rfl
  | list overrideType scan dbError => exact ⟨hs.list overrideType scan dbError, hs⟩
  | apply networkIP mac =>
    obtain ⟨hnetwork, hlevel⟩ := hs.optionsOf .network networkIP
    obtain ⟨hmac, hlevel'⟩ := hnetwork.optionsOf .mac mac
    refine ⟨?_, hmac⟩
    show OverrideObservation.applied _ _ = .applied _ _
    rw [hlevel, hlevel']
  | restart => exact ⟨rfl, hs.restart⟩

theorem represents_empty : (init ∅).Represents fun _ => none where
  mirrors := fun key v hv => by
    rw [init, AList.lookup_empty] at hv
    cases hv
  keyed := fun key row hrow => by
    rw [init, AList.lookup_empty] at hrow
    cases hrow
  lookup := fun type target => by
    rw [OverrideState.row, init, OverrideTable.getOptionOverride, AList.lookup_empty]
    rfl

end OverrideState

/-- Whatever is asked for and in whatever order, the endpoints and the replies to DHCP clients show
a map. -/
theorem overrides_refine_map (history : List OverrideRequest) :
    let run := responses OverrideState.request (.init ∅) history
    let spec := responses OverrideMap.request (fun _ => none) history
    run.2.map OverrideResponse.observe = spec.2 ∧ run.1.Represents spec.1 := by
  have hmap : responses OverrideState.observed (.init ∅) history = _ :=
    responses_map OverrideResponse.observe OverrideState.request history (.init ∅)
  have hstep : ∀ (s : OverrideState) (m : OverrideMap) (r : OverrideRequest)
      (_ : List OverrideRequest), s.Represents m →
      (s.observed r).2 = (m.request r).2 ∧ (s.observed r).1.Represents (m.request r).1 :=
    fun _ _ r _ hs => hs.request r
  have hsim := responses_simulation (fun s m _ => OverrideState.Represents s m) hstep history _ _
    OverrideState.represents_empty
  rw [hmap] at hsim
  exact hsim

/-! ## Ids and times

`AUTOINCREMENT` gives a new row an id above every id that the table has had, and
`CURRENT_TIMESTAMP` does not go back. -/

/-- The state next to the last time that the table was written to and the highest id it has had. -/
structure OverrideLedger where
  state : OverrideState
  now : Int
  lastId : Int

def OverrideRequest.storeEnv : OverrideRequest → Option StoreEnv
  | .postNetwork _ env _ | .postMac _ env _ => some env
  | _ => none

namespace OverrideLedger

def next (l : OverrideLedger) (r : OverrideRequest) : OverrideLedger :=
  let state := (l.state.request r).1
  { state := state
    now := r.storeEnv.elim l.now StoreEnv.now
    lastId := state.db.rows.foldl (fun lastId row => max lastId row.id) l.lastId }

/-- What SQLite grants. -/
def Timely (l : OverrideLedger) (r : OverrideRequest) : Prop :=
  ∀ env ∈ r.storeEnv, l.now ≤ env.now ∧ l.lastId < env.newId

instance : DecidableRel Timely := fun l r =>
  inferInstanceAs (Decidable (∀ env ∈ r.storeEnv, l.now ≤ env.now ∧ l.lastId < env.newId))

/-- The ledgers that can follow `l`. -/
def Leads (l : OverrideLedger) : OverrideLedger → Prop :=
  Reaches (fun l r => some (l.next r)) Timely l

end OverrideLedger

namespace OverrideTable
variable {db : OverrideTable}

theorem mem_rows_insert (hdb : db.RowsKeyed) {new row : OptionOverride}
    (hrow : row ∈ rows (AList.insert new.key new db)) :
    row = new ∨ (row ∈ db.rows ∧ row.key ≠ new.key) := by
  rw [mem_rows (hdb.insert new)] at hrow
  by_cases hkey : row.key = new.key
  · rw [hkey, AList.lookup_insert] at hrow
    cases hrow
    exact .inl rfl
  · rw [AList.lookup_insert_ne hkey] at hrow
    exact .inr ⟨(mem_rows hdb).mpr hrow, hkey⟩

theorem mem_rows_erase (hdb : db.RowsKeyed) {type : OverrideType} {target : String}
    {row : OptionOverride} (hrow : row ∈ rows (AList.erase (type, target) db)) :
    row ∈ db.rows := by
  rw [mem_rows (hdb.erase type target)] at hrow
  by_cases hkey : row.key = (type, target)
  · rw [hkey, AList.lookup_erase] at hrow
    cases hrow
  · rw [AList.lookup_erase_ne hkey] at hrow
    exact (mem_rows hdb).mpr hrow

/-- The rows of `db'` are rows of `db`, but for one that was saved. -/
def Succeeds (db' db : OverrideTable) (env : Option StoreEnv) : Prop :=
  (∀ row ∈ db'.rows, row ∈ db.rows) ∨
    ∃ e ∈ env, ∃ new : OptionOverride,
      (∀ row ∈ db'.rows, row = new ∨ (row ∈ db.rows ∧ row.key ≠ new.key)) ∧
      new.updatedAt = e.now ∧
      ((∃ old ∈ db.rows, new.key = old.key ∧ new.id = old.id ∧ new.createdAt = old.createdAt) ∨
        (new.id = e.newId ∧ new.createdAt = e.now))

end OverrideTable

namespace OverrideState
variable {s : OverrideState}

theorem succeeds_post (hs : s.db.RowsKeyed) (type : OverrideType) (label target : String)
    (env : StoreEnv) (body : Except String (List DHCPOption)) :
    (s.postOptions type label target env body).1.db.Succeeds s.db (some env) := by
  unfold postOptions
  cases acceptedOptions body with
  | error message => exact .inl fun _ hrow => hrow
  | ok options =>
    cases env.dbError with
    | some err => exact .inl fun _ hrow => hrow
    | none =>
      obtain ⟨new, heq, hnew⟩ :=
        OverrideTable.save_eq_insert hs type target env.now env.newId options
      refine .inr ⟨env, rfl, new, fun row hrow => ?_, hnew⟩
      simp only [saveOptionOverride, heq] at hrow
      exact OverrideTable.mem_rows_insert hs hrow

theorem succeeds_remove (hs : s.db.RowsKeyed) (type : OverrideType) (label target : String)
    (dbError : Option String) :
    (s.removeOptions type label target dbError).1.db.Succeeds s.db none := by
  refine .inl fun row hrow => ?_
  unfold removeOptions at hrow
  cases dbError with
  | some err => exact hrow
  | none =>
    obtain ⟨-, heq⟩ | ⟨old, -, heq⟩ := s.deleteOptionOverride_cases type target
    · rw [heq] at hrow
      exact hrow
    · rw [heq] at hrow
      exact OverrideTable.mem_rows_erase hs hrow

theorem succeeds_request (hs : s.db.RowsKeyed) (r : OverrideRequest) :
    (s.request r).1.db.Succeeds s.db r.storeEnv := by
  cases r with
  | postNetwork network env body => exact succeeds_post hs _ _ _ env body
  | postMac mac env body => exact succeeds_post hs _ _ _ env body
  | removeNetwork network dbError => exact succeeds_remove hs _ _ _ dbError
  | removeMac mac dbError => exact succeeds_remove hs _ _ _ dbError
  | get overrideType target dbError => exact .inl fun _ hrow => hrow
  | list overrideType scan dbError => exact .inl fun _ hrow => hrow
  | apply networkIP mac =>
    have hnetwork := (s.optionsOf_frame .network networkIP).1
    have hmac := ((s.optionsOf .network networkIP).1.optionsOf_frame .mac mac).1
    refine .inl fun row hrow => ?_
    rw [← hnetwork, ← hmac]
    exact hrow
  | restart => exact .inl fun _ hrow => hrow

end OverrideState

namespace OverrideLedger
variable {l l' : OverrideLedger} {r : OverrideRequest}

/-- Ids tell rows apart and grow with the time of creation. -/
def Apart (a b : OptionOverride) : Prop :=
  (a.id < b.id ∧ a.createdAt ≤ b.createdAt) ∨ (b.id < a.id ∧ b.createdAt ≤ a.createdAt)

theorem Apart.symm {a b : OptionOverride} (h : Apart a b) : Apart b a := Or.symm h

structure Dated (l : OverrideLedger) : Prop where
  represents : ∃ m, l.state.Represents m
  times : ∀ row ∈ l.state.db.rows, row.createdAt ≤ row.updatedAt ∧ row.updatedAt ≤ l.now
  issued : ∀ row ∈ l.state.db.rows, row.id ≤ l.lastId
  apart : ∀ a ∈ l.state.db.rows, ∀ b ∈ l.state.db.rows, a.key ≠ b.key → Apart a b

theorem Dated.keyed (hl : l.Dated) : l.state.db.RowsKeyed := by
  obtain ⟨m, hm⟩ := hl.represents
  exact hm.keyed

theorem le_foldl_max (rows : List OptionOverride) (lastId : Int) :
    lastId ≤ rows.foldl (fun lastId row => max lastId row.id) lastId ∧
      ∀ row ∈ rows, row.id ≤ rows.foldl (fun lastId row => max lastId row.id) lastId := by
  induction rows generalizing lastId with
  | nil => simp
  | cons row rows ih =>
    obtain ⟨hlast, hrows⟩ := ih (max lastId row.id)
    rw [List.foldl_cons]
    constructor
    · omega
    · intro row' hrow
      obtain rfl | hrow := List.mem_cons.mp hrow
      · omega
      · exact hrows row' hrow

theorem now_le_next (htimely : l.Timely r) : l.now ≤ (l.next r).now := by
  unfold next
  cases henv : r.storeEnv with
  | none => exact le_rfl
  | some env => exact (htimely env henv).1

theorem lastId_le_next : l.lastId ≤ (l.next r).lastId := (le_foldl_max _ _).1

/-- The rows after a timely request: the rows before it, but for one that was saved at the time of
the request. If that row is new, so is its id. -/
theorem rows_next (hkeyed : l.state.db.RowsKeyed) (htimely : l.Timely r) :
    (∀ row ∈ (l.next r).state.db.rows, row ∈ l.state.db.rows) ∨
      ∃ new : OptionOverride,
        (∀ row ∈ (l.next r).state.db.rows, row = new ∨
          (row ∈ l.state.db.rows ∧ row.key ≠ new.key)) ∧
        new.updatedAt = (l.next r).now ∧
        ((∃ old ∈ l.state.db.rows,
            new.key = old.key ∧ new.id = old.id ∧ new.createdAt = old.createdAt) ∨
          (l.lastId < new.id ∧ new.createdAt = (l.next r).now)) := by
  obtain hrows | ⟨env, henv, new, hrows, hnow, hnew⟩ := OverrideState.succeeds_request hkeyed r
  · exact .inl hrows
  · have htime : (l.next r).now = env.now := by
      simp only [next, Option.mem_def.mp henv, Option.elim]
    refine .inr ⟨new, hrows, hnow.trans htime.symm, ?_⟩
    obtain hold | ⟨hid, hcreated⟩ := hnew
    · exact .inl hold
    · refine .inr ⟨?_, hcreated.trans htime.symm⟩
      rw [hid]
      exact (htimely env henv).2

/-- A row that is saved fits in with the rows under other keys. -/
theorem Dated.saved (hl : l.Dated) {now : Int} (hnow : l.now ≤ now) {new : OptionOverride}
    (hupdated : new.updatedAt = now)
    (hnew : (∃ old ∈ l.state.db.rows,
        new.key = old.key ∧ new.id = old.id ∧ new.createdAt = old.createdAt) ∨
      (l.lastId < new.id ∧ new.createdAt = now)) :
    (new.createdAt ≤ new.updatedAt ∧ new.updatedAt ≤ now) ∧
      ∀ row ∈ l.state.db.rows, row.key ≠ new.key → Apart row new := by
  obtain ⟨old, hold, hkey, hid, hcreated⟩ | ⟨hid, hcreated⟩ := hnew
  · constructor
    · have := hl.times old hold
      omega
    · intro row hrow hne
      rw [hkey] at hne
      rw [Apart, hid, hcreated]
      exact hl.apart row hrow old hold hne
  · constructor
    · omega
    · intro row hrow _
      have hissued := hl.issued row hrow
      have htimes := hl.times row hrow
      exact .inl (by omega)

theorem Dated.next (hl : l.Dated) (htimely : l.Timely r) : (l.next r).Dated := by
  have hnow := now_le_next htimely
  refine ⟨?_, ?_, (le_foldl_max _ _).2, ?_⟩
  · obtain ⟨m, hm⟩ := hl.represents
    exact ⟨_, (hm.request r).2⟩
  · intro row hrow
    obtain hrows | ⟨new, hrows, hupdated, hnew⟩ := rows_next hl.keyed htimely
    · have := hl.times row (hrows row hrow)
      omega
    · obtain rfl | ⟨hrow, -⟩ := hrows row hrow
      · exact (hl.saved hnow hupdated hnew).1
      · have := hl.times row hrow
        omega
  · intro a ha b hb hne
    obtain hrows | ⟨new, hrows, hupdated, hnew⟩ := rows_next hl.keyed htimely
    · exact hl.apart a (hrows a ha) b (hrows b hb) hne
    · have hsaved := (hl.saved hnow hupdated hnew).2
      obtain rfl | ⟨ha, hane⟩ := hrows a ha
      · obtain rfl | ⟨hb, hbne⟩ := hrows b hb
        · exact (hne rfl).elim
        · exact (hsaved b hb hbne).symm
      · obtain rfl | ⟨hb, -⟩ := hrows b hb
        · exact hsaved a ha hane
        · exact hl.apart a ha b hb hne

theorem Leads.dated (hlater : l.Leads l') (hl : l.Dated) : l'.Dated := by
  refine Reaches.invariant Dated hlater hl ?_
  rintro s _ r hs htimely ⟨⟩
  exact hs.next htimely

theorem dated_empty (now : Int) : Dated ⟨.init ∅, now, 0⟩ where
  represents := ⟨_, OverrideState.represents_empty⟩
  times := fun row hrow => by cases hrow
  issued := fun row hrow => by cases hrow
  apart := fun a ha => by cases ha

/-- Two rows of one table with one id are one row. -/
theorem Dated.eq_of_id (hl : l.Dated) {a b : OptionOverride} (ha : a ∈ l.state.db.rows)
    (hb : b ∈ l.state.db.rows) (hid : a.id = b.id) : a = b := by
  by_cases hkey : a.key = b.key
  · rw [OverrideTable.mem_rows hl.keyed] at ha hb
    rw [hkey, hb] at ha
    exact (Option.some.inj ha).symm
  · rcases hl.apart a ha b hb hkey with h | h
    · omega
    · omega

/-- What was seen of a row stays true of every row with its id. -/
theorem Dated.incarnation (hl : l.Dated) {a b : OptionOverride} (ha : a ∈ l.state.db.rows)
    (hlater : l.Leads l') (hb : b ∈ l'.state.db.rows) (hid : a.id = b.id) :
    a.key = b.key ∧ a.createdAt = b.createdAt ∧ a.updatedAt ≤ b.updatedAt := by
  let inv (l : OverrideLedger) : Prop := l.Dated ∧ a.id ≤ l.lastId ∧ a.updatedAt ≤ l.now ∧
    ∀ b ∈ l.state.db.rows, a.id = b.id →
      a.key = b.key ∧ a.createdAt = b.createdAt ∧ a.updatedAt ≤ b.updatedAt
  have hstart : inv l := by
    refine ⟨hl, hl.issued a ha, (hl.times a ha).2, fun b hb hid => ?_⟩
    rw [hl.eq_of_id ha hb hid]
    exact ⟨rfl, rfl, le_rfl⟩
  have hinv : inv l' := by
    refine Reaches.invariant inv hlater hstart ?_
    rintro s _ r ⟨hs, hissued, hupdated, hsame⟩ htimely ⟨⟩
    have hnow := now_le_next htimely
    refine ⟨hs.next htimely, hissued.trans lastId_le_next, hupdated.trans hnow, ?_⟩
    intro b hb hid
    obtain hrows | ⟨new, hrows, hwritten, hnew⟩ := rows_next hs.keyed htimely
    · exact hsame b (hrows b hb) hid
    · obtain rfl | ⟨hb, -⟩ := hrows b hb
      · obtain ⟨old, hold, hkey, hid', hcreated⟩ | ⟨hid', -⟩ := hnew
        · obtain ⟨hkey', hcreated', -⟩ := hsame old hold (hid.trans hid')
          exact ⟨hkey'.trans hkey.symm, hcreated'.trans hcreated.symm, by omega⟩
        · omega
      · exact hsame b hb hid
  exact hinv.2.2.2 b hb hid

end OverrideLedger

/-! ## The order of the list -/

namespace OptionOverride

instance : Std.Total NewerFirst := ⟨fun a b => (le_total a.createdAt b.createdAt).symm⟩

instance : IsTrans OptionOverride NewerFirst := ⟨fun _ _ _ hab hbc => le_trans hbc hab⟩

theorem byType_iff {a b : OptionOverride} :
    a.ByType b ↔ (a.type = .mac ∧ b.type = .network) ∨ (a.type = b.type ∧ a.NewerFirst b) := by
  have htext : a.type.text < b.type.text ↔ a.type = .mac ∧ b.type = .network := by
    cases a.type <;> cases b.type <;> decide
  rw [ByType, htext]

instance : Std.Total ByType := ⟨fun a b => by
  rw [byType_iff, byType_iff]
  have htotal := total_of NewerFirst a b
  cases a.type <;> cases b.type <;> simp [htotal]⟩

instance : IsTrans OptionOverride ByType := ⟨fun a b c hab hbc => by
  rw [byType_iff] at *
  obtain ⟨ha, hb⟩ | ⟨hab, hnewer⟩ := hab
  · obtain ⟨hb', -⟩ | ⟨hbc, -⟩ := hbc
    · rw [hb] at hb'
      cases hb'
    · exact .inl ⟨ha, hbc.symm.trans hb⟩
  · obtain ⟨hb, hc⟩ | ⟨hbc, hnewer'⟩ := hbc
    · exact .inl ⟨hab.trans hb, hc⟩
    · exact .inr ⟨hab.trans hbc, IsTrans.trans _ _ _ hnewer hnewer'⟩⟩

end OptionOverride

/-- Every list is sorted, in the way that the `SELECT` without the type asks for. -/
theorem OverrideTable.pairwise_listOptionOverrides (db : OverrideTable) (scan : ScanOrder)
    (type : Option OverrideType) :
    (db.listOptionOverrides scan type).Pairwise OptionOverride.ByType := by
  cases type with
  | none => exact List.pairwise_insertionSort _ _
  | some type =>
    have htype : ∀ row ∈ db.listOptionOverrides scan (some type), row.type = type := by
      intro row hrow
      rw [listOptionOverrides, List.mem_insertionSort, List.mem_filter] at hrow
      exact of_decide_eq_true hrow.2
    refine (List.pairwise_insertionSort _ _).imp_of_mem fun {a b} ha hb hab => ?_
    exact .inr ⟨(htype a ha).trans (htype b hb).symm, hab⟩

theorem OverrideState.eq_of_listed {s : OverrideState} {overrideType : String} {scan : ScanOrder}
    {dbError : Option String} {body : ListBody}
    (hlist : s.handleListOptionOverrides overrideType scan dbError = .ok body) :
    ∃ type, body.overrides = s.db.listOptionOverrides scan type := by
  unfold handleListOptionOverrides at hlist
  split at hlist
  · cases hlist
  · next type _ =>
    cases dbError with
    | some err => cases hlist
    | none =>
      cases hlist
      exact ⟨type, rfl⟩

theorem OverrideState.mem_rows_of_got {s : OverrideState} (hs : s.db.RowsKeyed)
    {overrideType target : String} {dbError : Option String} {row : OptionOverride}
    (hgot : s.handleGetOptionOverride overrideType target dbError = .ok row) :
    row ∈ s.db.rows := by
  have hrow : ∀ type target, s.getOverride type target dbError = .ok row → row ∈ s.db.rows := by
    intro type target hgot
    unfold getOverride at hgot
    cases dbError with
    | some err => cases hgot
    | none =>
      cases hlookup : OverrideTable.getOptionOverride s.db type target with
      | none =>
        rw [hlookup] at hgot
        cases hgot
      | some old =>
        rw [hlookup] at hgot
        cases hgot
        rw [OverrideTable.mem_rows hs, hs _ row hlookup]
        exact hlookup
  unfold handleGetOptionOverride at hgot
  split at hgot
  · exact hrow _ _ hgot
  · exact hrow _ _ hgot
  · cases hgot

/-- In every list the overrides of clients stand before those of networks, and of one type the newer
ones before the older ones. How often an override was saved again plays no part. -/
theorem listing_newest_first {now : Int} {l : OverrideLedger} {overrideType : String}
    {scan : ScanOrder} {dbError : Option String} {body : ListBody}
    (hrun : OverrideLedger.Leads ⟨.init ∅, now, 0⟩ l)
    (hlist : l.state.handleListOptionOverrides overrideType scan dbError = .ok body) :
    (∀ row ∈ body.overrides, row.createdAt ≤ row.updatedAt ∧ row.updatedAt ≤ l.now) ∧
      body.overrides.Pairwise fun a b =>
        a.id ≠ b.id ∧ ((a.type = .mac ∧ b.type = .network) ∨
          (a.type = b.type ∧
            (b.createdAt = a.createdAt ∨ (b.createdAt < a.createdAt ∧ b.id < a.id)))) := by
  have hl : l.Dated := hrun.dated (OverrideLedger.dated_empty now)
  obtain ⟨type, hbody⟩ := OverrideState.eq_of_listed hlist
  have hmem : ∀ row ∈ body.overrides, row ∈ l.state.db.rows := by
    intro row hrow
    rw [hbody, OverrideTable.mem_listOptionOverrides hl.keyed] at hrow
    exact (OverrideTable.mem_rows hl.keyed).mpr hrow.1
  refine ⟨fun row hrow => hl.times row (hmem row hrow), ?_⟩
  have hsorted : body.overrides.Pairwise OptionOverride.ByType := by
    rw [hbody]
    exact l.state.db.pairwise_listOptionOverrides scan type
  have hkeys : body.overrides.Pairwise fun a b => a.key ≠ b.key := by
    rw [hbody]
    exact List.pairwise_map.mp (OverrideTable.nodup_keys_list hl.keyed scan type)
  refine (hsorted.and hkeys).imp_of_mem fun {a b} ha hb hab => ?_
  have hapart := hl.apart a (hmem a ha) b (hmem b hb) hab.2
  constructor
  · rcases hapart with h | h
    · omega
    · omega
  · obtain htypes | ⟨htype, hnewer⟩ := OptionOverride.byType_iff.mp hab.1
    · exact .inl htypes
    · refine .inr ⟨htype, ?_⟩
      rw [OptionOverride.NewerFirst] at hnewer
      rcases hapart with h | h
      · omega
      · omega

/-- Two `POST` requests for a network, with one for a client between them. -/
def Sample.posted : OverrideLedger :=
  OverrideLedger.next ⟨.init ∅, 4, 0⟩ (.postNetwork "10.0.0.0" ⟨none, 5, 1⟩ (.ok []))

def Sample.postedMac : OverrideLedger :=
  Sample.posted.next (.postMac "AA" ⟨none, 7, 2⟩ (.ok []))

def Sample.postedAgain : OverrideLedger :=
  Sample.postedMac.next (.postNetwork "10.0.0.0" ⟨none, 9, 3⟩ (.ok []))

theorem Sample.leads_posted : OverrideLedger.Leads ⟨.init ∅, 4, 0⟩ Sample.posted :=
  .next (e := .postNetwork "10.0.0.0" ⟨none, 5, 1⟩ (.ok [])) .start (by decide +kernel) rfl

theorem Sample.leads_postedAgain : Sample.posted.Leads Sample.postedAgain := by
  have hsecond : Sample.posted.Leads Sample.postedMac :=
    .next (e := .postMac "AA" ⟨none, 7, 2⟩ (.ok [])) .start (by decide +kernel) rfl
  exact .next (e := .postNetwork "10.0.0.0" ⟨none, 9, 3⟩ (.ok [])) hsecond (by decide +kernel) rfl

theorem listing_newest_first_sample :
    let rows : List OptionOverride :=
      [⟨2, .mac, "aa", [], 7, 7⟩, ⟨1, .network, "10.0.0.0", [], 5, 9⟩]
    rows.Pairwise fun a b =>
      a.id ≠ b.id ∧ ((a.type = .mac ∧ b.type = .network) ∨
        (a.type = b.type ∧
          (b.createdAt = a.createdAt ∨ (b.createdAt < a.createdAt ∧ b.id < a.id)))) := by
  have hlist : Sample.postedAgain.state.handleListOptionOverrides "" ⟨id, List.Perm.refl⟩ none =
      .ok ⟨2, [⟨2, .mac, "aa", [], 7, 7⟩, ⟨1, .network, "10.0.0.0", [], 5, 9⟩]⟩ := by
    decide +kernel
  exact (listing_newest_first (Sample.leads_posted.trans Sample.leads_postedAgain) hlist).2

/-- Answers that show one id, whenever they were given, are about one override: an id is not given
to a second one, even after the first is removed. -/
theorem ids_never_reused {now : Int} {l l' : OverrideLedger} {type type' target target' : String}
    {dbError dbError' : Option String} {a b : OptionOverride}
    (hrun : OverrideLedger.Leads ⟨.init ∅, now, 0⟩ l) (hlater : l.Leads l')
    (ha : l.state.handleGetOptionOverride type target dbError = .ok a)
    (hb : l'.state.handleGetOptionOverride type' target' dbError' = .ok b) (hid : a.id = b.id) :
    a.key = b.key ∧ a.createdAt = b.createdAt ∧ a.updatedAt ≤ b.updatedAt := by
  have hl : l.Dated := hrun.dated (OverrideLedger.dated_empty now)
  have hmem := OverrideState.mem_rows_of_got hl.keyed ha
  have hmem' := OverrideState.mem_rows_of_got (hlater.dated hl).keyed hb
  exact hl.incarnation hmem hlater hmem' hid

theorem ids_never_reused_sample :
    let a : OptionOverride := ⟨1, .network, "10.0.0.0", [], 5, 5⟩
    let b : OptionOverride := ⟨1, .network, "10.0.0.0", [], 5, 9⟩
    a.key = b.key ∧ a.createdAt = b.createdAt ∧ a.updatedAt ≤ b.updatedAt := by
  have hfirst : Sample.posted.state.handleGetOptionOverride "network" "10.0.0.0" none =
      .ok ⟨1, .network, "10.0.0.0", [], 5, 5⟩ := by
    decide +kernel
  have hthird : Sample.postedAgain.state.handleGetOptionOverride "network" "10.0.0.0" none =
      .ok ⟨1, .network, "10.0.0.0", [], 5, 9⟩ := by
    decide +kernel
  exact ids_never_reused Sample.leads_posted Sample.leads_postedAgain hfirst hthird rfl

end StandaloneDHCP
