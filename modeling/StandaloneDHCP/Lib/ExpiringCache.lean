import Mathlib.Data.List.AList

/-! An in-memory cache whose entries carry an expiration time. An expired entry
is invisible to `get` but stays in `items` until `deleteExpired` removes it; `set`
overwrites whatever stands under the key, expired or not, and tells nobody.
`delete` and `deleteExpired` return what they removed, so that the owner of the
cache can run its eviction callback on it. -/
namespace StandaloneDHCP.Lib
set_option autoImplicit false

/-- `expiration = none`: the entry never expires. -/
structure Item (ν : Type) where
  object : ν
  expiration : Option Int
deriving DecidableEq, Repr

namespace Item
variable {ν : Type}

def expired (e : Item ν) (now : Int) : Bool :=
  match e.expiration with
  | none => false
  | some t => decide (t < now)

end Item

structure Cache (κ ν : Type) where
  defaultExpiration : Int
  items : AList (fun _ : κ => Item ν)

namespace Cache
variable {κ ν : Type}

def empty (defaultExpiration : Int) : Cache κ ν where
  defaultExpiration := defaultExpiration
  items := ∅

/-- A zero lifetime stands for the default one; a lifetime that is still not
positive means no expiration. -/
def deadline (c : Cache κ ν) (now d : Int) : Option Int :=
  let d := if d = 0 then c.defaultExpiration else d
  if 0 < d then some (now + d) else none

theorem deadline_of_pos (c : Cache κ ν) (now : Int) {d : Int} (hd : 0 < d) :
    c.deadline now d = some (now + d) := by
  have hne : d ≠ 0 := by omega
  simp only [deadline, if_neg hne, if_pos hd]

theorem deadline_unexpired (c : Cache κ ν) (now d : Int) (x : ν) :
    (⟨x, c.deadline now d⟩ : Item ν).expired now = false := by
  unfold deadline Item.expired
  dsimp only
  split_ifs <;> simp <;> omega

variable [DecidableEq κ]

/-- The entry under a key, expired or not. -/
def peek (c : Cache κ ν) (k : κ) : Option (Item ν) := c.items.lookup k

def get (c : Cache κ ν) (now : Int) (k : κ) : Option ν :=
  match c.items.lookup k with
  | none => none
  | some e => if e.expired now then none else some e.object

/-- `get` with the time of expiration. -/
def getWithExpiration (c : Cache κ ν) (now : Int) (k : κ) : Option (Item ν) :=
  match c.items.lookup k with
  | none => none
  | some e => if e.expired now then none else some e

def set (c : Cache κ ν) (now : Int) (k : κ) (x : ν) (d : Int) : Cache κ ν :=
  { c with items := c.items.insert k ⟨x, c.deadline now d⟩ }

/-- `none`: the key is absent or expired, and the cache is left alone. -/
def replace (c : Cache κ ν) (now : Int) (k : κ) (x : ν) (d : Int) : Option (Cache κ ν) :=
  match c.get now k with
  | none => none
  | some _ => some (c.set now k x d)

/-- The cache without the key, and the object removed with it. -/
def delete (c : Cache κ ν) (k : κ) : Cache κ ν × Option ν :=
  ({ c with items := c.items.erase k }, (c.items.lookup k).map Item.object)

/-- The entries that a purge at `now` keeps. -/
def unexpired (c : Cache κ ν) (now : Int) : AList (fun _ : κ => Item ν) where
  entries := c.items.entries.filter (fun e => !e.2.expired now)
  nodupKeys := c.items.nodupKeys.sublist List.filter_sublist

/-- The cache without its expired entries, and the objects removed with them. -/
def deleteExpired (c : Cache κ ν) (now : Int) : Cache κ ν × List (κ × ν) :=
  ({ c with items := c.unexpired now },
    (c.items.entries.filter (fun e => e.2.expired now)).map (fun e => (e.1, e.2.object)))

/-! ## What each operation leaves under each key -/

@[simp] theorem peek_empty (d : Int) (k : κ) : (empty d : Cache κ ν).peek k = none := by
  simp [peek, empty]

theorem mem_entries_of_peek {c : Cache κ ν} {k : κ} {e : Item ν} (h : c.peek k = some e) :
    ⟨k, e⟩ ∈ c.items.entries :=
  AList.mem_lookup_iff.mp h

theorem get_eq_some {c : Cache κ ν} {now : Int} {k : κ} {x : ν} :
    c.get now k = some x ↔ ∃ e, c.peek k = some e ∧ e.expired now = false ∧ e.object = x := by
  unfold get peek
  cases h : c.items.lookup k with
  | none => simp
  | some e =>
    cases hx : e.expired now <;> simp [hx]

theorem get_eq_none {c : Cache κ ν} {now : Int} {k : κ} :
    c.get now k = none ↔ ∀ e, c.peek k = some e → e.expired now = true := by
  unfold get peek
  cases h : c.items.lookup k with
  | none => simp
  | some e => simp

theorem getWithExpiration_object (c : Cache κ ν) (now : Int) (k : κ) :
    (c.getWithExpiration now k).map Item.object = c.get now k := by
  unfold getWithExpiration get
  split
  · rfl
  · split <;> rfl

theorem get_congr {c c' : Cache κ ν} {k : κ} (h : c'.peek k = c.peek k) (now : Int) :
    c'.get now k = c.get now k := by
  unfold get peek at *
  rw [h]

@[simp] theorem peek_set (c : Cache κ ν) (now : Int) (k : κ) (x : ν) (d : Int) :
    (c.set now k x d).peek k = some ⟨x, c.deadline now d⟩ := by
  simp [set, peek]

theorem peek_set_ne (c : Cache κ ν) (now : Int) {k k' : κ} (x : ν) (d : Int) (h : k' ≠ k) :
    (c.set now k x d).peek k' = c.peek k' := by
  simp [set, peek, AList.lookup_insert_ne h]

@[simp] theorem get_set (c : Cache κ ν) (now : Int) (k : κ) (x : ν) (d : Int) :
    (c.set now k x d).get now k = some x :=
  get_eq_some.mpr ⟨_, peek_set c now k x d, deadline_unexpired c now d x, rfl⟩

theorem set_set (c : Cache κ ν) (now : Int) (k : κ) (x : ν) (d : Int) :
    (c.set now k x d).set now k x d = c.set now k x d := by
  have hd : (c.set now k x d).deadline now d = c.deadline now d := rfl
  rw [set, hd, set, AList.insert_insert]

theorem replace_eq_some {c c' : Cache κ ν} {now : Int} {k : κ} {x : ν} {d : Int} :
    c.replace now k x d = some c' ↔ (∃ y, c.get now k = some y) ∧ c' = c.set now k x d := by
  unfold replace
  cases c.get now k with
  | none => simp
  | some y => simp [eq_comm]

@[simp] theorem peek_delete (c : Cache κ ν) (k : κ) : (c.delete k).1.peek k = none := by
  simp [delete, peek]

theorem peek_delete_ne (c : Cache κ ν) {k k' : κ} (h : k' ≠ k) :
    (c.delete k).1.peek k' = c.peek k' := by
  simp [delete, peek, AList.lookup_erase_ne h]

theorem delete_snd (c : Cache κ ν) (k : κ) : (c.delete k).2 = (c.peek k).map Item.object := rfl

theorem peek_deleteExpired {c : Cache κ ν} {now : Int} {k : κ} {e : Item ν} :
    (c.deleteExpired now).1.peek k = some e ↔ c.peek k = some e ∧ e.expired now = false := by
  have h₁ : (c.unexpired now).lookup k = some e ↔ ⟨k, e⟩ ∈ (c.unexpired now).entries :=
    AList.mem_lookup_iff
  have h₂ : c.items.lookup k = some e ↔ (⟨k, e⟩ : Sigma fun _ : κ => Item ν) ∈ c.items.entries :=
    AList.mem_lookup_iff
  unfold peek deleteExpired
  rw [h₁, h₂]
  simp [unexpired]

theorem mem_deleteExpired {c : Cache κ ν} {now : Int} {k : κ} {x : ν} :
    (k, x) ∈ (c.deleteExpired now).2 ↔
      ∃ e, c.peek k = some e ∧ e.expired now = true ∧ e.object = x := by
  have h₂ : ∀ e, c.items.lookup k = some e ↔
      (⟨k, e⟩ : Sigma fun _ : κ => Item ν) ∈ c.items.entries := fun e => AList.mem_lookup_iff
  simp only [deleteExpired, peek, h₂, List.mem_map, List.mem_filter, Prod.mk.injEq]
  constructor
  · rintro ⟨⟨k', e⟩, ⟨hm, hx⟩, rfl, rfl⟩
    exact ⟨e, hm, hx, rfl⟩
  · rintro ⟨e, hm, hx, rfl⟩
    exact ⟨⟨k, e⟩, ⟨hm, hx⟩, rfl, rfl⟩

end Cache
end StandaloneDHCP.Lib
