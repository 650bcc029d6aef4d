import StandaloneDHCP.Lib.CacheAside
import StandaloneDHCP.Lib.Runs
import StandaloneDHCP.Overrides.Database

/-! The override cache under concurrent calls. A call is cut into the steps between which other
calls can run: `cachedGetOptionOverride` reads the cache, reads the database under `dbMutex` and
writes the cache; `SaveOptionOverride` and `DeleteOptionOverride` write the database and
invalidate the cache key, with `dbMutex` held from the one to the other. The cache write of the
reader is outside of `dbMutex`: a writer that gets in between leaves a row in the cache that is
not in the database any more. -/
namespace StandaloneDHCP
open Lib
set_option autoImplicit false

/-- A call in progress, by the step it takes next. -/
inductive OverrideCall
  | cacheRead (type : OverrideType) (target : String)
  | databaseRead (type : OverrideType) (target : String)
  | cacheWrite (type : OverrideType) (target : String) (override : Option OptionOverride)
  | save (type : OverrideType) (target : String) (options : List DHCPOption)
  | delete (type : OverrideType) (target : String)
  | invalidate (type : OverrideType) (target : String)
deriving DecidableEq

namespace OverrideCall

/-- Between the database write and the invalidation the call holds `dbMutex`. -/
def holdsMutex : OverrideCall → Bool
  | .invalidate _ _ => true
  | _ => false

end OverrideCall

/-- A nil entry of the cache says that there is no row. -/
structure OverrideState where
  db : OverrideTable
  overrideCache : AList (fun _ : String => Option OptionOverride)
  calls : List OverrideCall

/-- What the database does to a statement: fail, or run it at the clock reading `now`, with
`newId` for a new row. -/
structure Outcome where
  fails : Bool
  now : Int
  newId : Int

inductive OverrideEvent
  | cachedGetOptionOverride (type : OverrideType) (target : String)
  | saveOptionOverride (type : OverrideType) (target : String) (options : List DHCPOption)
  | deleteOptionOverride (type : OverrideType) (target : String)
  | advance (k : ℕ) (outcome : Outcome)

namespace OverrideState

/-- `InitDatabase`: whatever rows the file has, the cache starts empty. -/
def init (db : OverrideTable) : OverrideState := ⟨db, ∅, []⟩

def locked (s : OverrideState) : Bool := s.calls.any OverrideCall.holdsMutex

/-- One step of a call: the database and the cache after it, and the call's next step unless it
returns. `none` while the call waits for `dbMutex`. -/
def runCall (s : OverrideState) (outcome : Outcome) : OverrideCall →
    Option (OverrideTable × AList (fun _ : String => Option OptionOverride) ×
      Option OverrideCall)
  | .cacheRead type target =>
    match s.overrideCache.lookup (overrideCacheKey type target) with
    | some _ => some (s.db, s.overrideCache, none)
    | none => some (s.db, s.overrideCache, some (.databaseRead type target))
  | .databaseRead type target =>
    if s.locked then none
    else if outcome.fails then some (s.db, s.overrideCache, none)
    else some (s.db, s.overrideCache,
      some (.cacheWrite type target (OverrideTable.getOptionOverride s.db type target)))
  | .cacheWrite type target override =>
    some (s.db, s.overrideCache.insert (overrideCacheKey type target) override, none)
  | .save type target options =>
    if s.locked then none
    else if outcome.fails then some (s.db, s.overrideCache, none)
    else some (OverrideTable.saveOptionOverride s.db type target outcome.now outcome.newId options,
      s.overrideCache, some (.invalidate type target))
  | .delete type target =>
    if s.locked then none
    else if outcome.fails then some (s.db, s.overrideCache, none)
    else
      let (db, rowsAffected) := OverrideTable.deleteOptionOverride s.db type target
      -- sql.ErrNoRows is returned before the invalidation
      if rowsAffected = 0 then some (db, s.overrideCache, none)
      else some (db, s.overrideCache, some (.invalidate type target))
  | .invalidate type target =>
    some (s.db, s.overrideCache.erase (overrideCacheKey type target), none)

def start (s : OverrideState) (call : OverrideCall) : OverrideState :=
  { s with calls := s.calls ++ [call] }

def resume (s : OverrideState) (k : ℕ) : Option OverrideCall → List OverrideCall
  | some call => s.calls.set k call
  | none => s.calls.eraseIdx k

def step (s : OverrideState) : OverrideEvent → Option OverrideState
  | .cachedGetOptionOverride type target => some (s.start (.cacheRead type target))
  | .saveOptionOverride type target options => some (s.start (.save type target options))
  | .deleteOptionOverride type target => some (s.start (.delete type target))
  | .advance k outcome =>
    (s.calls[k]?).bind fun call => (s.runCall outcome call).map fun r =>
      ⟨r.1, r.2.1, s.resume k r.2.2⟩

/-! ## The calls in progress -/

theorem mem_resume {s : OverrideState} {k : ℕ} {call c : OverrideCall}
    {next : Option OverrideCall} (hcall : s.calls[k]? = some call) (hne : c ≠ call)
    (hc : c ∈ s.calls) : c ∈ s.resume k next := by
  obtain ⟨j, hj⟩ := List.mem_iff_getElem?.mp hc
  have hjk : j ≠ k := by
    rintro rfl
    exact hne (Option.some.inj (hj.symm.trans hcall))
  cases next with
  | none => exact List.mem_eraseIdx_iff_getElem?.mpr ⟨j, hjk, hj⟩
  | some d =>
    refine List.mem_iff_getElem?.mpr ⟨j, ?_⟩
    rw [resume, List.getElem?_set_ne hjk.symm]
    exact hj

/-- What one step of a call can do. -/
inductive Ran (s : OverrideState) : OverrideCall → OverrideTable →
    AList (fun _ : String => Option OptionOverride) → Option OverrideCall → Prop
  -- a hit, a failed statement, or a `DELETE` that affects no row
  | returned (call : OverrideCall) (hfree : call.holdsMutex = false) :
      Ran s call s.db s.overrideCache none
  | missed (type : OverrideType) (target : String) :
      Ran s (.cacheRead type target) s.db s.overrideCache (some (.databaseRead type target))
  | fetched (type : OverrideType) (target : String) :
      Ran s (.databaseRead type target) s.db s.overrideCache
        (some (.cacheWrite type target (OverrideTable.getOptionOverride s.db type target)))
  | filled (type : OverrideType) (target : String) (override : Option OptionOverride) :
      Ran s (.cacheWrite type target override) s.db
        (s.overrideCache.insert (overrideCacheKey type target) override) none
  | wrote (call : OverrideCall) (type : OverrideType) (target : String) (db : OverrideTable)
      (hfree : call.holdsMutex = false)
      (hother : ∀ type' target', (type', target') ≠ (type, target) →
        OverrideTable.getOptionOverride db type' target' =
          OverrideTable.getOptionOverride s.db type' target') :
      Ran s call db s.overrideCache (some (.invalidate type target))
  | invalidated (type : OverrideType) (target : String) :
      Ran s (.invalidate type target) s.db
        (s.overrideCache.erase (overrideCacheKey type target)) none

theorem ran_of_runCall {s : OverrideState} {outcome : Outcome} {call : OverrideCall}
    {db : OverrideTable} {cache : AList (fun _ : String => Option OptionOverride)}
    {next : Option OverrideCall} (hr : s.runCall outcome call = some (db, cache, next)) :
    s.Ran call db cache next := by
  cases call with
  | cacheRead type target =>
    simp only [runCall] at hr
    split at hr
    · cases hr
      exact .returned _ rfl
    · cases hr
      exact .missed type target
  | databaseRead type target =>
    simp only [runCall] at hr
    split at hr
    · cases hr
    · split at hr
      · cases hr
        exact .returned _ rfl
      · cases hr
        exact .fetched type target
  | cacheWrite type target override =>
    cases hr
    exact .filled type target override
  | save type target options =>
    simp only [runCall] at hr
    split at hr
    · cases hr
    · split at hr
      · cases hr
        exact .returned _ rfl
      · cases hr
        exact .wrote _ type target _ rfl fun _ _ hne => OverrideTable.getOptionOverride_save_ne hne
  | delete type target =>
    simp only [runCall] at hr
    split at hr
    · cases hr
    · split at hr
      · cases hr
        exact .returned _ rfl
      · split at hr
        · next hrows =>
          cases hr
          rw [OverrideTable.delete_of_no_rows hrows]
          exact .returned _ rfl
        · cases hr
          exact .wrote _ type target _ rfl
            fun _ _ hne => OverrideTable.getOptionOverride_delete_ne hne
  | invalidate type target =>
    cases hr
    exact .invalidated type target

/-! ## The calls as readers and writers of a cache beside a store -/

/-- Each row is a stored value, `none` included. -/
def shared (s : OverrideState) : CacheAside (OverrideType × String) (Option OptionOverride) where
  store := fun key => OverrideTable.getOptionOverride s.db key.1 key.2
  cache := fun key => s.overrideCache.lookup (overrideCacheKey key.1 key.2)
  dirty := { key | OverrideCall.invalidate key.1 key.2 ∈ s.calls }

theorem mem_dirty {s : OverrideState} {key : OverrideType × String} :
    key ∈ s.shared.dirty ↔ OverrideCall.invalidate key.1 key.2 ∈ s.calls := Iff.rfl

theorem shared_cache (s : OverrideState) (key : OverrideType × String) :
    s.shared.cache key = s.overrideCache.lookup (overrideCacheKey key.1 key.2) := rfl

theorem cacheKey_ne {key key' : OverrideType × String} (hne : key' ≠ key) :
    overrideCacheKey key'.1 key'.2 ≠ overrideCacheKey key.1 key.2 := by
  intro heq
  obtain ⟨htype, htarget⟩ := overrideCacheKey_inj heq
  exact hne (Prod.ext htype htarget)

/-- The call is about to cache a row that is not in the database any more, and no writer is
going to invalidate the key. -/
def Outdated (s : OverrideState) : OverrideCall → Prop
  | .cacheWrite type target override =>
    override ≠ OverrideTable.getOptionOverride s.db type target ∧
      OverrideCall.invalidate type target ∉ s.calls
  | _ => False

/-- The event is the cache write of such a call. -/
def CachesOutdated (s : OverrideState) : OverrideEvent → Prop
  | .advance k _ => ∃ call ∈ s.calls[k]?, s.Outdated call
  | _ => False

instance (s : OverrideState) (call : OverrideCall) : Decidable (s.Outdated call) :=
  match call with
  | .cacheWrite _ _ _ => inferInstanceAs (Decidable (_ ∧ _))
  | .cacheRead _ _ | .databaseRead _ _ | .save _ _ _ | .delete _ _ | .invalidate _ _ =>
    inferInstanceAs (Decidable False)

instance (s : OverrideState) (e : OverrideEvent) : Decidable (s.CachesOutdated e) :=
  match e with
  | .advance _ _ => Option.decidableExistsMem _
  | .cachedGetOptionOverride _ _ => inferInstanceAs (Decidable False)
  | .saveOptionOverride _ _ _ => inferInstanceAs (Decidable False)
  | .deleteOptionOverride _ _ => inferInstanceAs (Decidable False)

section Advance
variable {s : OverrideState} {k : ℕ} {call : OverrideCall} {db : OverrideTable}
  {cache : AList (fun _ : String => Option OptionOverride)} {next : Option OverrideCall}

theorem dirty_resume (hcall : s.calls[k]? = some call) (hfree : call.holdsMutex = false) :
    s.shared.dirty ⊆ (shared ⟨db, cache, s.resume k next⟩).dirty := by
  intro key hkey
  refine mem_dirty.mpr (mem_resume hcall ?_ hkey)
  rintro rfl
  cases hfree

theorem advance_simulates (hcall : s.calls[k]? = some call) (hran : s.Ran call db cache next)
    (hfresh : ¬ s.Outdated call) :
    CacheAside.Step s.shared (shared ⟨db, cache, s.resume k next⟩) := by
  cases hran with
  | returned _ hfree => exact .idle rfl rfl (dirty_resume hcall hfree)
  | missed type target => exact .idle rfl rfl (dirty_resume hcall rfl)
  | fetched type target => exact .idle rfl rfl (dirty_resume hcall rfl)
  | filled type target override =>
    refine .fill (type, target) override ?_ rfl ?_ ?_ (dirty_resume hcall rfl)
    · by_cases hdirty : OverrideCall.invalidate type target ∈ s.calls
      · exact .inl hdirty
      · exact .inr (by_contra fun hne => hfresh ⟨hne, hdirty⟩)
    · rw [shared_cache, AList.lookup_insert]
    · intro key hne
      rw [shared_cache, AList.lookup_insert_ne (cacheKey_ne hne), shared_cache]
  | wrote _ type target _ hfree hother =>
    refine .write (type, target) (fun key hne => hother key.1 key.2 hne) rfl ?_
    rintro key (rfl | hkey)
    · exact List.mem_set (List.getElem?_eq_some_iff.mp hcall).1 _
    · exact dirty_resume hcall hfree hkey
  | invalidated type target =>
    refine .invalidate (type, target) rfl ?_ ?_ ?_
    · rw [shared_cache, AList.lookup_erase]
    · intro key hne
      rw [shared_cache, AList.lookup_erase_ne (cacheKey_ne hne), shared_cache]
    · intro key hne hkey
      show OverrideCall.invalidate key.1 key.2 ∈ s.resume k none
      refine mem_resume hcall ?_ hkey
      rintro ⟨⟩
      exact hne rfl

end Advance

theorem start_simulates (s : OverrideState) (call : OverrideCall) :
    CacheAside.Step s.shared (s.start call).shared :=
  .idle rfl rfl fun _ hkey => mem_dirty.mpr (List.mem_append_left _ hkey)

/-- Every step that caches nothing outdated is a step of a reader or writer of the cache. -/
theorem step_simulates {s s' : OverrideState} {e : OverrideEvent} (hok : ¬ s.CachesOutdated e)
    (hstep : s.step e = some s') : CacheAside.Step s.shared s'.shared := by
  cases e with
  | cachedGetOptionOverride type target =>
    cases hstep
    exact s.start_simulates _
  | saveOptionOverride type target options =>
    cases hstep
    exact s.start_simulates _
  | deleteOptionOverride type target =>
    cases hstep
    exact s.start_simulates _
  | advance k outcome =>
    obtain ⟨call, hcall, hrest⟩ := Option.bind_eq_some_iff.mp hstep
    obtain ⟨⟨db, cache, next⟩, hr, rfl⟩ := Option.map_eq_some_iff.mp hrest
    exact advance_simulates hcall (ran_of_runCall hr) fun hout => hok ⟨call, hcall, hout⟩

def Keyed (s : OverrideState) : Prop :=
  ∀ key ∈ s.overrideCache, ∃ type target, key = overrideCacheKey type target

theorem Keyed.step {s s' : OverrideState} {e : OverrideEvent} (hkeyed : s.Keyed)
    (hstep : s.step e = some s') : s'.Keyed := by
  cases e with
  | advance k outcome =>
    obtain ⟨call, -, hrest⟩ := Option.bind_eq_some_iff.mp hstep
    obtain ⟨⟨db, cache, next⟩, hr, rfl⟩ := Option.map_eq_some_iff.mp hrest
    intro key hkey
    cases ran_of_runCall hr with
    | filled type target override =>
      rcases (AList.mem_insert _).mp hkey with rfl | hold
      · exact ⟨type, target, rfl⟩
      · exact hkeyed key hold
    | invalidated type target => exact hkeyed key (AList.mem_erase.mp hkey).2
    | _ => exact hkeyed key hkey
  | _ =>
    cases hstep
    exact hkeyed

/-- Each key of the cache belongs to a type and target, and holds what `GetOptionOverride`
returns for them. -/
def Mirrors (s : OverrideState) : Prop :=
  ∀ key v, s.overrideCache.lookup key = some v → ∃ type target,
    key = overrideCacheKey type target ∧ v = OverrideTable.getOptionOverride s.db type target

theorem coherent_of_calm {db : OverrideTable} {s : OverrideState}
    (hrun : Reaches step (fun s e => ¬ s.CachesOutdated e) (init db) s) :
    s.shared.Coherent ∧ s.Keyed := by
  refine Reaches.invariant (fun s => s.shared.Coherent ∧ s.Keyed) hrun ⟨?_, ?_⟩ ?_
  · exact .of_empty fun _ => rfl
  · intro key hkey
    exact absurd hkey (AList.notMem_empty key)
  · rintro s e s' ⟨hcoherent, hkeyed⟩ hok hstep
    exact ⟨hcoherent.step (step_simulates hok hstep), hkeyed.step hstep⟩

theorem mirrors_of_coherent {s : OverrideState} (hcoherent : s.shared.Coherent) (hkeyed : s.Keyed)
    (hidle : s.calls = []) : s.Mirrors := by
  have hclean : s.shared.dirty = ∅ := by
    ext key
    simp [shared, hidle]
  intro key v hv
  have hmem : key ∈ s.overrideCache := by
    rw [← AList.lookup_isSome, hv]
    rfl
  obtain ⟨type, target, rfl⟩ := hkeyed key hmem
  exact ⟨type, target, rfl, hcoherent.mirrors (k := (type, target)) hclean hv⟩

theorem mirrors_of_calm {db : OverrideTable} {s : OverrideState}
    (hrun : Reaches step (fun s e => ¬ s.CachesOutdated e) (init db) s) (hidle : s.calls = []) :
    s.Mirrors := by
  obtain ⟨hcoherent, hkeyed⟩ := coherent_of_calm hrun
  exact mirrors_of_coherent hcoherent hkeyed hidle

theorem not_mirrors_of_outdated {s s' : OverrideState} {e : OverrideEvent}
    (hout : s.CachesOutdated e) (hstep : s.step e = some s') : ¬ s'.Mirrors := by
  intro hmirrors
  cases e with
  | advance k outcome =>
    obtain ⟨call, hcall, hrest⟩ := Option.bind_eq_some_iff.mp hstep
    obtain ⟨call', hcall', hout⟩ := hout
    cases hcall.symm.trans hcall'
    cases call with
    | cacheWrite type target override =>
      obtain rfl := Option.some.inj hrest
      obtain ⟨type', target', hkey, heq⟩ := hmirrors _ _ (AList.lookup_insert _)
      obtain ⟨rfl, rfl⟩ := overrideCacheKey_inj hkey
      exact hout.1 heq
    | _ => exact hout
  | _ => exact hout

/-- As long as no outdated row is cached whose key is not going to be invalidated, the cache
mirrors the database whenever no call is in progress; one such row, and it does not. -/
theorem cache_mirrors_database {db : OverrideTable} {s : OverrideState}
    (hrun : Reaches step (fun s e => ¬ s.CachesOutdated e) (init db) s) :
    (s.calls = [] → s.Mirrors) ∧
      ∀ e s', s.step e = some s' → s'.calls = [] → (s'.Mirrors ↔ ¬ s.CachesOutdated e) := by
  refine ⟨mirrors_of_calm hrun, fun e s' hstep hidle => ⟨fun hmirrors hout => ?_, fun hok => ?_⟩⟩
  · exact not_mirrors_of_outdated hout hstep hmirrors
  · exact mirrors_of_calm (hrun.next hok hstep) hidle

section Runs

/-- Every statement succeeds, and a new row gets the id 1. -/
def done : Outcome := ⟨false, 0, 1⟩

def leaseTime : List DHCPOption := [⟨51, "3600", "uint32"⟩]

/-- The options of a network are looked up and saved at the same time. The reader caches that
there is no row before the writer invalidates the key, and the next lookup finds the row. -/
theorem cache_mirrors_database_sample : ∃ s,
    Reaches step (fun s e => ¬ s.CachesOutdated e) (init ∅) s ∧ s.calls = [] ∧
    s.overrideCache.lookup (overrideCacheKey .network "10.0.0.0") =
      some (some ⟨1, .network, "10.0.0.0", leaseTime, 0, 0⟩) ∧ s.Mirrors := by
  have hreplay : (replay step (fun s e => ¬ s.CachesOutdated e) (init ∅)
      [.cachedGetOptionOverride .network "10.0.0.0",
        .saveOptionOverride .network "10.0.0.0" leaseTime, .advance 0 done, .advance 0 done,
        .advance 1 done, .advance 0 done, .advance 0 done,
        .cachedGetOptionOverride .network "10.0.0.0", .advance 0 done, .advance 0 done,
        .advance 0 done]).map
      (fun s => (s.calls, s.overrideCache.lookup (overrideCacheKey .network "10.0.0.0"))) =
      some ([], some (some ⟨1, .network, "10.0.0.0", leaseTime, 0, 0⟩)) := by
    decide +kernel
  obtain ⟨s, hs, hfound⟩ := Option.map_eq_some_iff.mp hreplay
  obtain ⟨hidle, hrow⟩ := Prod.mk.inj hfound
  have hrun := reaches_of_replay hs
  exact ⟨s, hrun, hidle, hrow, (cache_mirrors_database hrun).1 hidle⟩

/-- The reader finds no row; the writer saves one and invalidates; then the reader caches what
it found. -/
theorem stale_row_cached : ¬ ∀ (db : OverrideTable) (s : OverrideState),
    Reaches step (fun _ _ => True) (init db) s → s.calls = [] → s.Mirrors := by
  intro hclaim
  have hreplay : (replay step (fun _ _ => True) (init ∅)
      [.cachedGetOptionOverride .mac "02:00:00:00:00:01",
        .saveOptionOverride .mac "02:00:00:00:00:01" leaseTime, .advance 0 done,
        .advance 0 done, .advance 1 done, .advance 1 done, .advance 0 done]).map
      (fun s => (s.calls, s.overrideCache.lookup (overrideCacheKey .mac "02:00:00:00:00:01"),
        OverrideTable.getOptionOverride s.db .mac "02:00:00:00:00:01")) =
      some ([], some none, some ⟨1, .mac, "02:00:00:00:00:01", leaseTime, 0, 0⟩) := by
    decide +kernel
  obtain ⟨s, hs, hfound⟩ := Option.map_eq_some_iff.mp hreplay
  simp only [Prod.mk.injEq] at hfound
  obtain ⟨hidle, hcached, hrow⟩ := hfound
  obtain ⟨type, target, hkey, hget⟩ := hclaim ∅ s (reaches_of_replay hs) hidle _ _ hcached
  obtain ⟨rfl, rfl⟩ := overrideCacheKey_inj hkey
  cases hget.trans hrow

end Runs
end OverrideState
end StandaloneDHCP
