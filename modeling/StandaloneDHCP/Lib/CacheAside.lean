import Mathlib.Data.Set.Insert

/-! A cache beside a store. A reader that misses reads the store and puts the value into the
cache in a later step; a writer changes the store and takes the key out of the cache in a later
step. In between, other readers and writers go on. The cache stays coherent as long as no reader
puts a value into the cache that is not the stored one any more, unless a writer is still going
to take the key out. Keys and values are arbitrary, and how readers and writers are represented
is left to the user: only the three sets of facts below count. -/
namespace StandaloneDHCP.Lib
set_option autoImplicit false

/-- `dirty` are the keys written and not yet taken out of the cache. -/
structure CacheAside (K V : Type) where
  store : K → V
  cache : K → Option V
  dirty : Set K

namespace CacheAside
variable {K V : Type} {s s' : CacheAside K V}

/-- One step of a reader or a writer. Keys may always enter `dirty`: that only weakens what is
known of the cache. -/
inductive Step (s s' : CacheAside K V) : Prop
  | idle (hstore : s'.store = s.store) (hcache : s'.cache = s.cache) (hdirty : s.dirty ⊆ s'.dirty)
  | fill (k : K) (v : V) (hfresh : k ∈ s.dirty ∨ v = s.store k) (hstore : s'.store = s.store)
      (hself : s'.cache k = some v) (hcache : ∀ k', k' ≠ k → s'.cache k' = s.cache k')
      (hdirty : s.dirty ⊆ s'.dirty)
  | write (k : K) (hstore : ∀ k', k' ≠ k → s'.store k' = s.store k')
      (hcache : s'.cache = s.cache) (hdirty : insert k s.dirty ⊆ s'.dirty)
  | invalidate (k : K) (hstore : s'.store = s.store) (hself : s'.cache k = none)
      (hcache : ∀ k', k' ≠ k → s'.cache k' = s.cache k')
      (hdirty : ∀ k', k' ≠ k → k' ∈ s.dirty → k' ∈ s'.dirty)

/-- What is cached is the stored value, except for the keys whose invalidation is still to
come. -/
def Coherent (s : CacheAside K V) : Prop :=
  ∀ k v, s.cache k = some v → k ∈ s.dirty ∨ v = s.store k

theorem Coherent.step (hc : s.Coherent) (hst : Step s s') : s'.Coherent := by
  intro k v hv
  cases hst with
  | idle hstore hcache hdirty =>
    rw [hcache] at hv
    rw [hstore]
    exact (hc k v hv).imp_left fun hk => hdirty hk
  | fill k' v' hfresh hstore hself hcache hdirty =>
    rw [hstore]
    by_cases hk : k = k'
    · subst hk
      cases hself.symm.trans hv
      exact hfresh.imp_left fun hk => hdirty hk
    · rw [hcache k hk] at hv
      exact (hc k v hv).imp_left fun hk => hdirty hk
  | write k' hstore hcache hdirty =>
    by_cases hk : k = k'
    · exact .inl (hdirty (.inl hk))
    · rw [hcache] at hv
      rw [hstore k hk]
      exact (hc k v hv).imp_left fun hold => hdirty (.inr hold)
  | invalidate k' hstore hself hcache hdirty =>
    have hk : k ≠ k' := by
      rintro rfl
      cases hself.symm.trans hv
    rw [hcache k hk] at hv
    rw [hstore]
    exact (hc k v hv).imp_left fun hold => hdirty k hk hold

theorem Coherent.of_empty (hcache : ∀ k, s.cache k = none) : s.Coherent :=
  fun k _ hv => nomatch (hcache k).symm.trans hv

/-- Once every writer has returned, the cache mirrors the store. -/
theorem Coherent.mirrors (hc : s.Coherent) (hclean : s.dirty = ∅) {k : K} {v : V}
    (hv : s.cache k = some v) : v = s.store k := by
  rcases hc k v hv with hk | heq
  · rw [hclean] at hk
    cases hk
  · exact heq

end CacheAside
end StandaloneDHCP.Lib
