import StandaloneDHCP.Overrides.Convert
import StandaloneDHCP.Overrides.OverrideCache
import StandaloneDHCP.Wire.Dhcp4

/-! `ApplyOptionOverrides` over whole histories. The calls are taken one after the other here;
each is a run of the steps of `OverrideCache`, so the cache mirrors the database between them
and a lookup returns the row that the history left. Option maps are references in the source:
`MapHeap` holds what each of them refers to, so that writing to the copy can be told from
writing to the original. -/
namespace StandaloneDHCP
open Lib
set_option autoImplicit false

/-! ## The calls -/

namespace OverrideState

def cachedGetOptionOverride (s : OverrideState) (type : OverrideType) (target : String) :
    OverrideState × Option OptionOverride :=
  match s.overrideCache.lookup (overrideCacheKey type target) with
  | some cached => (s, cached)
  | none =>
    let override := OverrideTable.getOptionOverride s.db type target
    ({ s with
        overrideCache := s.overrideCache.insert (overrideCacheKey type target) override },
      override)

def saveOptionOverride (s : OverrideState) (type : OverrideType) (target : String)
    (options : List DHCPOption) (now newId : Int) : OverrideState :=
  { s with
    db := OverrideTable.saveOptionOverride s.db type target now newId options
    overrideCache := s.overrideCache.erase (overrideCacheKey type target) }

/-- `false`: `sql.ErrNoRows`, and the cache is left alone. -/
def deleteOptionOverride (s : OverrideState) (type : OverrideType) (target : String) :
    OverrideState × Bool :=
  match OverrideTable.deleteOptionOverride s.db type target with
  | (db, 0) => ({ s with db := db }, false)
  | (db, _) =>
    ({ s with
        db := db
        overrideCache := s.overrideCache.erase (overrideCacheKey type target) }, true)

/-- The options that one level contributes; an empty target contributes none. -/
def optionsOf (s : OverrideState) (type : OverrideType) (target : String) :
    OverrideState × List DHCPOption :=
  if target = "" then (s, [])
  else
    match s.cachedGetOptionOverride type target with
    | (s, none) => (s, [])
    | (s, some override) => (s, override.options)

end OverrideState

/-! ## Option maps -/

/-- The option maps of the program; the references below `size` are in use. -/
structure MapHeap where
  size : ℕ
  maps : ℕ → Options

namespace MapHeap

/-- `make(dhcp.Options)`. -/
def make (heap : MapHeap) : MapHeap × ℕ :=
  (⟨heap.size + 1, Function.update heap.maps heap.size fun _ => none⟩, heap.size)

/-- `m[code] = value` for the map behind a reference. -/
def assign (heap : MapHeap) (ref : ℕ) (code : UInt8) (value : Bytes) : MapHeap :=
  { heap with
    maps := Function.update heap.maps ref (Function.update (heap.maps ref) code (some value)) }

/-- Assign a list of entries one after the other. -/
def assignAll (heap : MapHeap) (ref : ℕ) : List (UInt8 × Bytes) → MapHeap
  | [] => heap
  | e :: l => (heap.assign ref e.1 e.2).assignAll ref l

theorem assignAll_self (l : List (UInt8 × Bytes)) : ∀ (heap : MapHeap) (ref : ℕ),
    (heap.assignAll ref l).maps ref = overlay (heap.maps ref) l := by
  induction l with
  | nil =>
    intro heap ref
    rfl
  | cons e l ih =>
    intro heap ref
    rw [assignAll, ih, overlay]
    simp [assign]

theorem assignAll_ne (l : List (UInt8 × Bytes)) : ∀ (heap : MapHeap) {ref other : ℕ},
    other ≠ ref → (heap.assignAll ref l).maps other = heap.maps other := by
  induction l with
  | nil =>
    intro heap ref other _
    rfl
  | cons e l ih =>
    intro heap ref other hne
    rw [assignAll, ih _ hne]
    simp [assign, hne]

end MapHeap

/-! ## `ApplyOptionOverrides` -/

/-- The entries that convert, with their codes; the others are logged and skipped. -/
def converted (options : List DHCPOption) : List (UInt8 × Bytes) :=
  options.filterMap fun opt => (convertOptionToDHCP opt).toOption

/-- The result is the reference of a new map. -/
def OverrideState.applyOptionOverrides (s : OverrideState) (heap : MapHeap)
    (order : RangeOrder ℕ) (options : ℕ) (networkIP mac : String) :
    OverrideState × MapHeap × ℕ :=
  let result := heap.make.2
  let heap := heap.make.1
  let heap := heap.assignAll result (rangeEntries order (heap.maps options))
  let (s, networkOptions) := s.optionsOf .network networkIP
  let heap := heap.assignAll result (converted networkOptions)
  let (s, macOptions) := s.optionsOf .mac mac
  let heap := heap.assignAll result (converted macOptions)
  (s, heap, result)

/-- The returned map as a value. -/
def OverrideState.overrideOptions (s : OverrideState) (options : Options)
    (networkIP mac : String) : Options :=
  let networkLevel := s.optionsOf .network networkIP
  let macLevel := networkLevel.1.optionsOf .mac mac
  overlay (overlay options (converted networkLevel.2)) (converted macLevel.2)

namespace OverrideTable
variable (db : OverrideTable)

/-- The list of a key, empty when there is no row. -/
def storedOptions (type : OverrideType) (target : String) : List DHCPOption :=
  if target = "" then []
  else ((db.getOptionOverride type target).map (·.options)).getD []

def overrideOptions (options : Options) (networkIP mac : String) : Options :=
  overlay (overlay options (converted (db.storedOptions .network networkIP)))
    (converted (db.storedOptions .mac mac))

end OverrideTable

section Apply
variable (s : OverrideState) (heap : MapHeap) (order : RangeOrder ℕ) (networkIP mac : String)

theorem applyOptionOverrides_value {options : ℕ} (hin : options < heap.size) :
    let r := s.applyOptionOverrides heap order options networkIP mac
    r.2.1.maps r.2.2 = s.overrideOptions (heap.maps options) networkIP mac := by
  have hsame : heap.make.1.maps options = heap.maps options :=
    Function.update_of_ne (Nat.ne_of_lt hin) _ _
  have hempty : heap.make.1.maps heap.make.2 = fun _ => none := Function.update_self _ _ _
  have hcopy : overlay (fun _ => none) (rangeEntries order (heap.maps options)) =
      heap.maps options := by
    funext c
    rw [overlay_apply, lookupLast_rangeEntries, Option.or_none]
  show ((_ : MapHeap).assignAll heap.make.2 _).maps heap.make.2 = _
  rw [MapHeap.assignAll_self, MapHeap.assignAll_self, MapHeap.assignAll_self, hempty, hsame, hcopy]
  rfl

theorem applyOptionOverrides_frame (options : ℕ) {ref : ℕ} (hin : ref < heap.size) :
    (s.applyOptionOverrides heap order options networkIP mac).2.1.maps ref = heap.maps ref := by
  have hne : ref ≠ heap.make.2 := Nat.ne_of_lt hin
  show ((_ : MapHeap).assignAll heap.make.2 _).maps ref = _
  rw [MapHeap.assignAll_ne _ _ hne, MapHeap.assignAll_ne _ _ hne, MapHeap.assignAll_ne _ _ hne]
  exact Function.update_of_ne hne _ _

end Apply

/-! ## A call on its own is a run of its steps -/

namespace OverrideState

/-- Runs in which nothing outdated is cached. -/
abbrev Calm : OverrideState → OverrideState → Prop :=
  Reaches step fun s e => ¬ s.CachesOutdated e

variable {s : OverrideState} (hidle : s.calls = []) (type : OverrideType) (target : String)
include hidle

theorem calm_cachedGet : Calm s (s.cachedGetOptionOverride type target).1 := by
  obtain ⟨db, cache, calls⟩ := s
  cases hidle
  unfold cachedGetOptionOverride
  have hstart : Calm ⟨db, cache, []⟩ ⟨db, cache, [.cacheRead type target]⟩ :=
    .next .start (by simp [CachesOutdated]) rfl (e := .cachedGetOptionOverride type target)
  cases hhit : cache.lookup (overrideCacheKey type target) with
  | some cached =>
    refine .next hstart (e := .advance 0 done) (by simp [CachesOutdated, Outdated]) ?_
    simp [step, runCall, hhit, resume]
  | none =>
    have hmiss : Calm ⟨db, cache, []⟩ ⟨db, cache, [.databaseRead type target]⟩ := by
      refine .next hstart (e := .advance 0 done) (by simp [CachesOutdated, Outdated]) ?_
      simp [step, runCall, hhit, resume]
    have hread : Calm ⟨db, cache, []⟩ ⟨db, cache,
        [.cacheWrite type target (OverrideTable.getOptionOverride db type target)]⟩ := by
      refine .next hmiss (e := .advance 0 done) (by simp [CachesOutdated, Outdated]) ?_
      simp [step, runCall, locked, OverrideCall.holdsMutex, done, resume]
    refine .next hread (e := .advance 0 done) (by simp [CachesOutdated, Outdated]) ?_
    simp [step, runCall, resume]

theorem calm_save (options : List DHCPOption) (now newId : Int) :
    Calm s (s.saveOptionOverride type target options now newId) := by
  obtain ⟨db, cache, calls⟩ := s
  cases hidle
  have hstart : Calm ⟨db, cache, []⟩ ⟨db, cache, [.save type target options]⟩ :=
    .next .start (by simp [CachesOutdated]) rfl (e := .saveOptionOverride type target options)
  have hwrite : Calm ⟨db, cache, []⟩
      ⟨OverrideTable.saveOptionOverride db type target now newId options, cache,
        [.invalidate type target]⟩ := by
    refine .next hstart (e := .advance 0 ⟨false, now, newId⟩) ?_ ?_
    · simp [CachesOutdated, Outdated]
    · simp [step, runCall, locked, OverrideCall.holdsMutex, resume]
  refine .next hwrite (e := .advance 0 done) (by simp [CachesOutdated, Outdated]) ?_
  simp [step, runCall, resume, saveOptionOverride]

theorem calm_delete : Calm s (s.deleteOptionOverride type target).1 := by
  obtain ⟨db, cache, calls⟩ := s
  cases hidle
  have hstart : Calm ⟨db, cache, []⟩ ⟨db, cache, [.delete type target]⟩ :=
    .next .start (by simp [CachesOutdated]) rfl (e := .deleteOptionOverride type target)
  have hfresh : ¬ CachesOutdated ⟨db, cache, [.delete type target]⟩ (.advance 0 done) := by
    simp [CachesOutdated, Outdated]
  unfold deleteOptionOverride
  rcases hrows : OverrideTable.deleteOptionOverride db type target with ⟨db', _ | n⟩
  · refine .next hstart hfresh ?_
    simp [step, runCall, locked, OverrideCall.holdsMutex, done, hrows, resume]
  · have hwrite : Calm ⟨db, cache, []⟩ ⟨db', cache, [.invalidate type target]⟩ := by
      refine .next hstart hfresh ?_
      simp [step, runCall, locked, OverrideCall.holdsMutex, done, hrows, resume]
    refine .next hwrite (e := .advance 0 done) (by simp [CachesOutdated, Outdated]) ?_
    simp [step, runCall, resume]

end OverrideState

/-! ## Histories -/

/-- A call of a sequential history. -/
inductive OverrideOp
  | save (type : OverrideType) (target : String) (options : List DHCPOption) (now newId : Int)
  | delete (type : OverrideType) (target : String)
  | apply (networkIP mac : String)

namespace OverrideState

def perform (s : OverrideState) : OverrideOp → OverrideState
  | .save type target options now newId => s.saveOptionOverride type target options now newId
  | .delete type target => (s.deleteOptionOverride type target).1
  | .apply networkIP mac => ((s.optionsOf .network networkIP).1.optionsOf .mac mac).1

def performAll (s : OverrideState) (history : List OverrideOp) : OverrideState :=
  history.foldl perform s

theorem optionsOf_fst (s : OverrideState) (type : OverrideType) (target : String) :
    (s.optionsOf type target).1 = s ∨
      (s.optionsOf type target).1 = (s.cachedGetOptionOverride type target).1 := by
  unfold optionsOf
  split
  · exact .inl rfl
  · rcases s.cachedGetOptionOverride type target with ⟨s', _ | override⟩
    · exact .inr rfl
    · exact .inr rfl

theorem cachedGet_frame (s : OverrideState) (type : OverrideType) (target : String) :
    (s.cachedGetOptionOverride type target).1.db = s.db ∧
      (s.cachedGetOptionOverride type target).1.calls = s.calls := by
  unfold cachedGetOptionOverride
  split
  · exact ⟨rfl, rfl⟩
  · exact ⟨rfl, rfl⟩

theorem optionsOf_frame (s : OverrideState) (type : OverrideType) (target : String) :
    (s.optionsOf type target).1.db = s.db ∧ (s.optionsOf type target).1.calls = s.calls := by
  obtain heq | heq := s.optionsOf_fst type target
  · rw [heq]
    exact ⟨rfl, rfl⟩
  · rw [heq]
    exact s.cachedGet_frame type target

theorem calm_optionsOf {s : OverrideState} (hidle : s.calls = []) (type : OverrideType)
    (target : String) : Calm s (s.optionsOf type target).1 := by
  obtain heq | heq := s.optionsOf_fst type target
  · rw [heq]
    exact .start
  · rw [heq]
    exact calm_cachedGet hidle type target

theorem calm_perform {s : OverrideState} (hidle : s.calls = []) (op : OverrideOp) :
    Calm s (s.perform op) ∧ (s.perform op).calls = [] := by
  cases op with
  | save type target options now newId => exact ⟨calm_save hidle type target _ _ _, hidle⟩
  | delete type target =>
    refine ⟨calm_delete hidle type target, ?_⟩
    rw [perform, deleteOptionOverride]
    split
    · exact hidle
    · exact hidle
  | apply networkIP mac =>
    have hnet := (s.optionsOf_frame .network networkIP).2.trans hidle
    refine ⟨(calm_optionsOf hidle .network networkIP).trans (calm_optionsOf hnet .mac mac), ?_⟩
    exact ((s.optionsOf .network networkIP).1.optionsOf_frame .mac mac).2.trans hnet

theorem calm_performAll (history : List OverrideOp) : ∀ {s : OverrideState}, s.calls = [] →
    Calm s (s.performAll history) ∧ (s.performAll history).calls = [] := by
  induction history with
  | nil =>
    intro s hidle
    exact ⟨.start, hidle⟩
  | cons op history ih =>
    intro s hidle
    obtain ⟨hop, hidle'⟩ := calm_perform hidle op
    obtain ⟨hrest, hend⟩ := ih hidle'
    exact ⟨hop.trans hrest, hend⟩

/-- Between two calls a lookup returns the row of the database. -/
theorem cachedGet_of_mirrors {s : OverrideState} (hmirrors : s.Mirrors) (type : OverrideType)
    (target : String) : (s.cachedGetOptionOverride type target).2 =
      OverrideTable.getOptionOverride s.db type target := by
  unfold cachedGetOptionOverride
  cases hhit : s.overrideCache.lookup (overrideCacheKey type target) with
  | none => rfl
  | some cached =>
    obtain ⟨type', target', hkey, hget⟩ := hmirrors _ _ hhit
    obtain ⟨rfl, rfl⟩ := overrideCacheKey_inj hkey
    exact hget

theorem optionsOf_of_mirrors {s : OverrideState} (hmirrors : s.Mirrors) (type : OverrideType)
    (target : String) :
    (s.optionsOf type target).2 = OverrideTable.storedOptions s.db type target := by
  rw [OverrideTable.storedOptions, ← cachedGet_of_mirrors hmirrors, optionsOf]
  split
  · rfl
  · rcases s.cachedGetOptionOverride type target with ⟨s', _ | override⟩
    · rfl
    · rfl

theorem mirrors_cachedGet {s : OverrideState} (hmirrors : s.Mirrors) (type : OverrideType)
    (target : String) : (s.cachedGetOptionOverride type target).1.Mirrors := by
  unfold cachedGetOptionOverride
  cases s.overrideCache.lookup (overrideCacheKey type target) with
  | some cached => exact hmirrors
  | none =>
    intro key v hv
    by_cases hkey : key = overrideCacheKey type target
    · subst hkey
      rw [AList.lookup_insert] at hv
      exact ⟨type, target, rfl, (Option.some.inj hv).symm⟩
    · rw [AList.lookup_insert_ne hkey] at hv
      exact hmirrors key v hv

theorem mirrors_optionsOf {s : OverrideState} (hmirrors : s.Mirrors) (type : OverrideType)
    (target : String) : (s.optionsOf type target).1.Mirrors := by
  obtain heq | heq := s.optionsOf_fst type target
  · rwa [heq]
  · rw [heq]
    exact mirrors_cachedGet hmirrors type target

/-- Between two calls the overrides depend on the database alone. -/
theorem overrideOptions_of_mirrors {s : OverrideState} (hmirrors : s.Mirrors) (options : Options)
    (networkIP mac : String) : s.overrideOptions options networkIP mac =
      OverrideTable.overrideOptions s.db options networkIP mac := by
  have hdb := (s.optionsOf_frame .network networkIP).1
  rw [overrideOptions, optionsOf_of_mirrors hmirrors,
    optionsOf_of_mirrors (mirrors_optionsOf hmirrors .network networkIP), hdb]
  rfl

end OverrideState

/-- The list most recently saved under a key and not deleted since; `row` is what the key held
before. -/
def savedFrom (type : OverrideType) (target : String) :
    Option (List DHCPOption) → List OverrideOp → Option (List DHCPOption)
  | row, [] => row
  | row, .save type' target' options _ _ :: history =>
    savedFrom type target (if (type', target') = (type, target) then some options else row) history
  | row, .delete type' target' :: history =>
    savedFrom type target (if (type', target') = (type, target) then none else row) history
  | row, .apply _ _ :: history => savedFrom type target row history

/-- The value of the last entry with the code `c` that converts. -/
def lastConvertible (options : List DHCPOption) (c : UInt8) : Option Bytes :=
  options.reverse.findSome? fun opt =>
    if opt.optionCode = (c.toNat : Int) then
      (convertValue opt.optionType opt.optionValue).toOption
    else none

/-- What the level `type` says about the code `c` after a history on the database `db`. -/
def overriddenBy (db : OverrideTable) (history : List OverrideOp) (type : OverrideType)
    (target : String) (c : UInt8) : Option Bytes :=
  if target = "" then none
  else
    let row := (OverrideTable.getOptionOverride db type target).map (·.options)
    (savedFrom type target row history).bind fun options => lastConvertible options c

def CodesInRange (options : List DHCPOption) : Prop :=
  ∀ opt ∈ options, 0 ≤ opt.optionCode ∧ opt.optionCode ≤ 255

/-- Every list that is saved has its codes in range. -/
def OverrideOp.InRange : OverrideOp → Prop
  | .save _ _ options _ _ => CodesInRange options
  | _ => True

theorem code_eq_iff {code : Int} (hcode : 0 ≤ code ∧ code ≤ 255) (c : UInt8) :
    UInt8.ofInt code = c ↔ code = (c.toNat : Int) := by
  obtain ⟨n, rfl⟩ := Int.eq_ofNat_of_zero_le hcode.1
  have hc := c.toNat_lt
  have hn : (UInt8.ofInt (n : Int)).toNat = n := by
    rw [UInt8.ofInt, UInt8.toNat_ofNat']
    omega
  rw [← UInt8.toNat_inj, hn]
  omega

theorem lookupLast_converted {options : List DHCPOption} (hcodes : CodesInRange options)
    (c : UInt8) : lookupLast (converted options) c = lastConvertible options c := by
  induction options with
  | nil => rfl
  | cons opt options ih =>
    have hrest : CodesInRange options := fun o ho => hcodes o (List.mem_cons_of_mem opt ho)
    have hopt := code_eq_iff (hcodes opt List.mem_cons_self) c
    specialize ih hrest
    unfold lastConvertible at ih ⊢
    rw [List.reverse_cons, List.findSome?_append, ← ih]
    unfold converted
    cases hval : convertValue opt.optionType opt.optionValue with
    | error e =>
      rw [List.filterMap_cons_none (by simp [convertOptionToDHCP, hval, Except.toOption])]
      simp [hval, Except.toOption]
    | ok value =>
      rw [List.filterMap_cons_some (b := (UInt8.ofInt opt.optionCode, value))
        (by simp [convertOptionToDHCP, hval, Except.toOption])]
      rw [lookupLast]
      cases lookupLast (List.filterMap _ options) c with
      | some v => rfl
      | none =>
        by_cases hc : UInt8.ofInt opt.optionCode = c
        · simp only [if_pos hc]
          simp [hopt.mp hc, hval, Except.toOption]
        · have hne : ¬opt.optionCode = (c.toNat : Int) := fun heq => hc (hopt.mpr heq)
          simp [if_neg hc, if_neg hne]

namespace OverrideState
variable (type : OverrideType) (target : String)

/-- What the key holds in the database, as a list of options. -/
def row (s : OverrideState) : Option (List DHCPOption) :=
  (OverrideTable.getOptionOverride s.db type target).map (·.options)

theorem row_perform (s : OverrideState) (op : OverrideOp) :
    (s.perform op).row type target = savedFrom type target (s.row type target) [op] := by
  cases op with
  | save type' target' options now newId =>
    rw [savedFrom, savedFrom]
    split
    · next heq =>
      cases heq
      exact OverrideTable.getOptionOverride_save
    · next hne =>
      exact congrArg (Option.map _) (OverrideTable.getOptionOverride_save_ne (Ne.symm hne))
  | delete type' target' =>
    have hdb : (s.deleteOptionOverride type' target').1.db =
        (OverrideTable.deleteOptionOverride s.db type' target').1 := by
      unfold deleteOptionOverride
      split
      · next heq => rw [heq]
      · next heq => rw [heq]
    rw [savedFrom, savedFrom, row, perform, hdb]
    split
    · next heq =>
      cases heq
      rw [OverrideTable.getOptionOverride_delete]
      rfl
    · next hne => rw [OverrideTable.getOptionOverride_delete_ne (Ne.symm hne), row]
  | apply networkIP mac =>
    rw [savedFrom, savedFrom, row, perform,
      ((s.optionsOf .network networkIP).1.optionsOf_frame _ _).1, (s.optionsOf_frame _ _).1, row]

theorem row_performAll (history : List OverrideOp) : ∀ s : OverrideState,
    (s.performAll history).row type target = savedFrom type target (s.row type target) history := by
  induction history with
  | nil =>
    intro s
    rfl
  | cons op history ih =>
    intro s
    show ((s.perform op).performAll history).row type target = _
    rw [ih, row_perform]
    cases op with
    | save type' target' options now newId => rfl
    | delete type' target' => rfl
    | apply networkIP mac => rfl

end OverrideState

theorem savedFrom_inRange {type : OverrideType} {target : String} {history : List OverrideOp}
    (hops : ∀ op ∈ history, op.InRange) : ∀ {row : Option (List DHCPOption)},
    (∀ options ∈ row, CodesInRange options) →
    ∀ options ∈ savedFrom type target row history, CodesInRange options := by
  induction history with
  | nil =>
    intro row hrow
    exact hrow
  | cons op history ih =>
    intro row hrow
    have hrest := fun op' hop => hops op' (List.mem_cons_of_mem op hop)
    cases op with
    | save type' target' saved now newId =>
      have hsaved : CodesInRange saved := hops _ List.mem_cons_self
      refine ih hrest ?_
      intro options hmem
      split at hmem
      · cases hmem
        exact hsaved
      · exact hrow options hmem
    | delete type' target' =>
      refine ih hrest ?_
      intro options hmem
      split at hmem
      · cases hmem
      · exact hrow options hmem
    | apply networkIP mac => exact ih hrest hrow

/-- One level of `ApplyOptionOverrides` after a history. -/
theorem lookupLast_storedOptions {db : OverrideTable} {history : List OverrideOp}
    (hdb : ∀ type target, ∀ row ∈ OverrideTable.getOptionOverride db type target,
      CodesInRange row.options)
    (hops : ∀ op ∈ history, op.InRange) (type : OverrideType) (target : String) (c : UInt8) :
    lookupLast (converted (OverrideTable.storedOptions
        ((OverrideState.init db).performAll history).db type target)) c =
      overriddenBy db history type target c := by
  rw [OverrideTable.storedOptions, overriddenBy]
  split
  · rfl
  · have hrow := OverrideState.row_performAll type target history (OverrideState.init db)
    rw [OverrideState.row] at hrow
    have hstart : ∀ options ∈ (OverrideState.init db).row type target, CodesInRange options := by
      intro options hmem
      obtain ⟨row, hget, rfl⟩ := Option.map_eq_some_iff.mp hmem
      exact hdb type target row hget
    have hrange : ∀ options ∈ savedFrom type target ((OverrideState.init db).row type target)
        history, CodesInRange options := savedFrom_inRange hops hstart
    rw [hrow]
    show _ = (savedFrom type target ((OverrideState.init db).row type target) history).bind _
    cases hsaved : savedFrom type target ((OverrideState.init db).row type target) history with
    | none => rfl
    | some options => exact lookupLast_converted (hrange options hsaved) c

/-- The overrides of the client come before those of its network, and these before the options
of the handler, whose own map is left as it is. -/
theorem override_semantics (db : OverrideTable)
    (hdb : ∀ type target, ∀ row ∈ OverrideTable.getOptionOverride db type target,
      CodesInRange row.options)
    (history : List OverrideOp) (hops : ∀ op ∈ history, op.InRange) (heap : MapHeap)
    (order : RangeOrder ℕ) (base : ℕ) (hbase : base < heap.size) (networkIP mac : String) :
    let s := (OverrideState.init db).performAll history
    let r := s.applyOptionOverrides heap order base networkIP mac
    (∀ c, r.2.1.maps r.2.2 c = (overriddenBy db history .mac mac c).or
      ((overriddenBy db history .network networkIP c).or (heap.maps base c))) ∧
    ∀ ref < heap.size, r.2.1.maps ref = heap.maps ref := by
  intro s r
  refine ⟨?_, fun ref hin => applyOptionOverrides_frame s heap order networkIP mac base hin⟩
  intro c
  obtain ⟨hcalm, hidle⟩ := OverrideState.calm_performAll history (s := .init db) rfl
  obtain ⟨hcoherent, hkeyed⟩ := OverrideState.coherent_of_calm hcalm
  have hmirrors : s.Mirrors := OverrideState.mirrors_of_coherent hcoherent hkeyed hidle
  rw [applyOptionOverrides_value s heap order networkIP mac hbase,
    OverrideState.overrideOptions_of_mirrors hmirrors, OverrideTable.overrideOptions,
    overlay_apply, overlay_apply, lookupLast_storedOptions hdb hops,
    lookupLast_storedOptions hdb hops]

/-- The overrides of `TestApplyOptionOverrides`, with a network entry that does not convert. -/
theorem override_semantics_sample :
    let history : List OverrideOp :=
      [.save .network "192.168.1.0" [⟨6, "8.8.8.8", "ip"⟩, ⟨3, "gateway", "ip"⟩] 0 1,
        .apply "192.168.1.0" "aa:bb:cc:dd:ee:ff",
        .save .mac "aa:bb:cc:dd:ee:ff" [⟨6, "1.1.1.1", "ip"⟩] 0 2]
    let heap : MapHeap := ⟨1, fun _ c => if c = 1 then some [255, 255, 255, 0] else none⟩
    let r := ((OverrideState.init ∅).performAll history).applyOptionOverrides heap
      RangeOrder.ascending 0 "192.168.1.0" "aa:bb:cc:dd:ee:ff"
    r.2.1.maps r.2.2 6 = some [1, 1, 1, 1] ∧ r.2.1.maps r.2.2 3 = none ∧
      r.2.1.maps r.2.2 1 = some [255, 255, 255, 0] ∧ r.2.1.maps 0 6 = none := by
  intro history heap r
  have hdb : ∀ type target, ∀ row ∈ OverrideTable.getOptionOverride ∅ type target,
      CodesInRange row.options := by
    intro type target row hrow
    simp [OverrideTable.getOptionOverride] at hrow
  have hops : ∀ op ∈ history, op.InRange := by
    intro op hop
    simp only [history, List.mem_cons, List.not_mem_nil, or_false] at hop
    obtain rfl | rfl | rfl := hop <;> simp [OverrideOp.InRange, CodesInRange]
  obtain ⟨hvalue, hframe⟩ := override_semantics ∅ hdb history hops heap RangeOrder.ascending 0
    Nat.one_pos "192.168.1.0" "aa:bb:cc:dd:ee:ff"
  refine ⟨(hvalue 6).trans ?_, (hvalue 3).trans ?_, (hvalue 1).trans ?_, ?_⟩
  · decide +kernel
  · decide +kernel
  · decide +kernel
  · exact congrFun (hframe 0 Nat.one_pos) 6

end StandaloneDHCP
