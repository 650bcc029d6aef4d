import Mathlib.Data.List.AList

/-! The override database (`database.go`): one row for each type and target, with the options
that replace those of the scope. SQLite is taken at its word as a map keyed by type and target,
and the JSON text of the options column as the list it encodes. A row keeps its id and its time
of creation when it is saved again. -/
namespace StandaloneDHCP
set_option autoImplicit false

/-- The values that the `CHECK` of the schema admits. -/
inductive OverrideType
  | network
  | mac
deriving DecidableEq, Repr

def OverrideType.text : OverrideType → String
  | .network => "network"
  | .mac => "mac"

structure DHCPOption where
  optionCode : Int
  optionValue : String
  optionType : String
deriving DecidableEq, Repr

structure OptionOverride where
  id : Int
  type : OverrideType
  target : String
  options : List DHCPOption
  createdAt : Int
  updatedAt : Int
deriving DecidableEq, Repr

/-- The table `dhcp_option_overrides`. -/
abbrev OverrideTable : Type := AList (fun _ : OverrideType × String => OptionOverride)

namespace OverrideTable
variable (db : OverrideTable) (type : OverrideType) (target : String)

/-- The `SELECT` of `GetOptionOverride`; `none` when there is no row. -/
def getOptionOverride : Option OptionOverride := db.lookup (type, target)

/-- The upsert of `SaveOptionOverride` at the clock reading `now`. `newId` is the id that
SQLite picks for a new row. -/
def saveOptionOverride (now newId : Int) (options : List DHCPOption) : OverrideTable :=
  match db.lookup (type, target) with
  | some row => db.insert (type, target) { row with options := options, updatedAt := now }
  | none => db.insert (type, target) ⟨newId, type, target, options, now, now⟩

/-- The `DELETE` of `DeleteOptionOverride`, with the number of rows affected. -/
def deleteOptionOverride : OverrideTable × ℕ :=
  match db.lookup (type, target) with
  | some _ => (db.erase (type, target), 1)
  | none => (db, 0)

variable {db type target}

theorem getOptionOverride_save {now newId : Int} {options : List DHCPOption} :
    (getOptionOverride (saveOptionOverride db type target now newId options) type target).map
      (·.options) = some options := by
  unfold saveOptionOverride getOptionOverride
  split
  · rw [AList.lookup_insert]
    rfl
  · rw [AList.lookup_insert]
    rfl

theorem getOptionOverride_delete :
    getOptionOverride (deleteOptionOverride db type target).1 type target = none := by
  unfold deleteOptionOverride getOptionOverride
  split
  · exact AList.lookup_erase _ _
  · next hnone => exact hnone

theorem getOptionOverride_save_ne {now newId : Int} {options : List DHCPOption}
    {type' : OverrideType} {target' : String} (hne : (type', target') ≠ (type, target)) :
    getOptionOverride (saveOptionOverride db type target now newId options) type' target' =
      getOptionOverride db type' target' := by
  unfold saveOptionOverride
  split
  · exact AList.lookup_insert_ne hne
  · exact AList.lookup_insert_ne hne

theorem getOptionOverride_delete_ne {type' : OverrideType} {target' : String}
    (hne : (type', target') ≠ (type, target)) :
    getOptionOverride (deleteOptionOverride db type target).1 type' target' =
      getOptionOverride db type' target' := by
  unfold deleteOptionOverride
  split
  · exact AList.lookup_erase_ne hne
  · rfl

theorem delete_of_no_rows (hrows : (deleteOptionOverride db type target).2 = 0) :
    (deleteOptionOverride db type target).1 = db := by
  unfold deleteOptionOverride at hrows ⊢
  split
  · next heq =>
    rw [heq] at hrows
    cases hrows
  · rfl

end OverrideTable

def overrideCacheKey (type : OverrideType) (target : String) : String :=
  type.text ++ "\x00" ++ target

theorem overrideCacheKey_inj {type type' : OverrideType} {target target' : String}
    (heq : overrideCacheKey type target = overrideCacheKey type' target') :
    type = type' ∧ target = target' := by
  have hlist := congrArg String.toList heq
  simp only [overrideCacheKey, String.toList_append] at hlist
  cases type <;> cases type'
  · exact ⟨rfl, String.toList_inj.mp (List.append_cancel_left hlist)⟩
  · -- the two types differ in their first letter
    cases hlist
  · cases hlist
  · exact ⟨rfl, String.toList_inj.mp (List.append_cancel_left hlist)⟩

end StandaloneDHCP
