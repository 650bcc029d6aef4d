import StandaloneDHCP.Pool.PoolInvariant

/-! The pool as a ledger. The abstract model is the history alone: the holder of an index
is whoever its last grant named, and nobody after a free. `Tracks` ties the pool's maps to
the history; it is kept by every call, so along any run the grants and frees of one index
alternate, `GetMACIndex` reads the ledger, and the pool is full exactly when the grants
outnumber the frees by the capacity. -/
namespace StandaloneDHCP
open Lib
set_option autoImplicit false

namespace DHCPPool

/-! ## The ledger -/

/-- Who holds index `i` after the listed events, given who held it before them. -/
def holder (i : ℕ) : Option String → List Event → Option String
  | o, [] => o
  | o, .granted j mac :: es => holder i (if j = i then some mac else o) es
  | o, .freed j :: es => holder i (if j = i then none else o) es

/-- Grants and frees take turns; `held` says whether a grant is still open. -/
def alternates : Bool → List Event → Bool
  | _, [] => true
  | held, .granted _ _ :: es => !held && alternates true es
  | held, .freed _ :: es => held && alternates false es

def eventsOf (i : ℕ) (es : List Event) : List Event := es.filter (fun e => e.index = i)

def grants (es : List Event) : ℕ :=
  es.countP fun e => match e with | .granted _ _ => true | .freed _ => false

def frees (es : List Event) : ℕ :=
  es.countP fun e => match e with | .granted _ _ => false | .freed _ => true

theorem eventsOf_cons_self (e : Event) (es : List Event) :
    eventsOf e.index (e :: es) = e :: eventsOf e.index es := by
  simp [eventsOf]

theorem eventsOf_cons_ne {i : ℕ} {e : Event} (h : e.index ≠ i) (es : List Event) :
    eventsOf i (e :: es) = eventsOf i es := by
  simp [eventsOf, h]

theorem holder_cons_ne {i : ℕ} {e : Event} (h : e.index ≠ i) (o : Option String)
    (es : List Event) : holder i o (e :: es) = holder i o es := by
  cases e with
  | granted j mac =>
    have hj : ¬ j = i := h
    simp [holder, hj]
  | freed j =>
    have hj : ¬ j = i := h
    simp [holder, hj]

theorem holder_of_no_events {i : ℕ} (o : Option String) {es : List Event}
    (h : eventsOf i es = []) : holder i o es = o := by
  induction es with
  | nil => rfl
  | cons e es ih =>
    by_cases he : e.index = i
    · rw [← he, eventsOf_cons_self] at h
      cases h
    · rw [eventsOf_cons_ne he] at h
      rw [holder_cons_ne he, ih h]

theorem holder_of_getLast? (i : ℕ) (o : Option String) (es : List Event) (mac : String)
    (h : (eventsOf i es).getLast? = some (.granted i mac)) : holder i o es = some mac := by
  induction es generalizing o with
  | nil => simp [eventsOf] at h
  | cons e es ih =>
    by_cases he : e.index = i
    · subst he
      rw [eventsOf_cons_self] at h
      cases hrest : eventsOf e.index es with
      | nil =>
        rw [hrest] at h
        cases e with
        | granted j mac' =>
          have hmac : mac' = mac := by simpa [Event.index] using h
          subst hmac
          have hj : holder j (some mac') es = some mac' := holder_of_no_events _ hrest
          simpa [holder, Event.index] using hj
        | freed j => simp at h
      | cons e' es' =>
        have h' : (eventsOf e.index es).getLast? = some (.granted e.index mac) := by
          rw [hrest] at h ⊢
          rw [List.getLast?_cons_cons] at h
          exact h
        cases e with
        | granted j mac' => exact ih _ h'
        | freed j => exact ih _ h'
    · rw [eventsOf_cons_ne he] at h
      rw [holder_cons_ne he]
      exact ih o h

/-! ## One call moves the pool and the ledger together -/

theorem mac_card_grant {dp : DHCPPool} (hwf : dp.WellFormed) {i : ℕ} (hi : i ∈ dp.free)
    (m : String) : (dp.grant i m).mac.keys.card = dp.mac.keys.card + 1 := by
  have hn : i ∉ dp.mac.keys := Finset.disjoint_left.mp hwf.disjoint hi
  simp only [grant, keys_insert]
  exact Finset.card_insert_of_notMem hn

theorem mac_card_giveBack {dp : DHCPPool} (hwf : dp.WellFormed) {i : ℕ} (hlt : i < dp.capacity)
    (hi : i ∉ dp.free) (now : Int) :
    (dp.giveBack now i).mac.keys.card + 1 = dp.mac.keys.card := by
  obtain ⟨m, hm⟩ := hwf.exists_owner hlt hi
  have hk : i ∈ dp.mac.keys := Finmap.mem_keys.mpr (Finmap.mem_of_lookup_eq_some hm)
  simp only [giveBack, Finmap.keys_erase]
  exact Finset.card_erase_add_one hk

theorem performAll_cons_ok {dp dp' : DHCPPool} {call : Call} {e : Event}
    (h : dp.perform call = (dp', .ok e)) (calls : List Call) :
    performAll dp (call :: calls) =
      ((performAll dp' calls).1, e :: (performAll dp' calls).2) := by
  rw [performAll, h]

theorem performAll_cons_error {dp dp' : DHCPPool} {call : Call} {err : PoolError}
    (h : dp.perform call = (dp', .error err)) (calls : List Call) :
    performAll dp (call :: calls) = performAll dp' calls := by
  rw [performAll, h]

/-- The ledger read from the pool's own map: along every run the owner map is the holder
function of the history. -/
theorem lookup_performAll {dp : DHCPPool} (hwf : dp.WellFormed) (calls : List Call) (i : ℕ) :
    (performAll dp calls).1.mac.lookup i =
      holder i (dp.mac.lookup i) (performAll dp calls).2 := by
  induction calls generalizing dp with
  | nil => rfl
  | cons call calls ih =>
    obtain ⟨err, h⟩ | ⟨j, m, hj, h⟩ | ⟨j, now, hlt, -, h⟩ := perform_cases hwf call
    · rw [performAll_cons_error h]
      exact ih hwf
    · rw [performAll_cons_ok h]
      have hl : (dp.grant j m).mac.lookup i = if j = i then some m else dp.mac.lookup i := by
        simp only [grant, lookup_insert_eq, eq_comm]
      simp only [holder]
      rw [← hl]
      exact ih (hwf.grant hj m)
    · rw [performAll_cons_ok h]
      have hl : (dp.giveBack now j).mac.lookup i = if j = i then none else dp.mac.lookup i := by
        simp only [giveBack, lookup_erase_eq, eq_comm]
      simp only [holder]
      rw [← hl]
      exact ih (hwf.giveBack hlt now)

theorem alternates_performAll {dp : DHCPPool} (hwf : dp.WellFormed) (calls : List Call)
    (i : ℕ) :
    alternates (dp.mac.lookup i).isSome (eventsOf i (performAll dp calls).2) = true := by
  induction calls generalizing dp with
  | nil => rfl
  | cons call calls ih =>
    obtain ⟨err, h⟩ | ⟨j, m, hj, h⟩ | ⟨j, now, hlt, hnf, h⟩ := perform_cases hwf call
    · rw [performAll_cons_error h]
      exact ih hwf
    · rw [performAll_cons_ok h]
      have hrec := ih (hwf.grant hj m)
      by_cases hji : j = i
      · -- a free index has no owner, so this grant opens a new turn
        subst hji
        have hnone := lookup_mac_of_free hwf hj
        have hsome : (dp.grant j m).mac.lookup j = some m := by
          simp [grant]
        rw [hsome] at hrec
        have hcons : eventsOf j (Event.granted j m :: (performAll (dp.grant j m) calls).2) =
            .granted j m :: eventsOf j (performAll (dp.grant j m) calls).2 :=
          eventsOf_cons_self (.granted j m) _
        rw [hcons, hnone]
        simpa [alternates] using hrec
      · have hl := (sameExcept_grant dp j m).2.2 i (Ne.symm hji)
        rw [eventsOf_cons_ne (e := .granted j m) hji, ← hl.2.1]
        exact hrec
    · rw [performAll_cons_ok h]
      have hrec := ih (hwf.giveBack hlt now)
      by_cases hji : j = i
      · subst hji
        obtain ⟨m, hm⟩ := hwf.exists_owner hlt hnf
        have hnone : (dp.giveBack now j).mac.lookup j = none := by
          simp [giveBack]
        rw [hnone] at hrec
        have hcons : eventsOf j (Event.freed j :: (performAll (dp.giveBack now j) calls).2) =
            .freed j :: eventsOf j (performAll (dp.giveBack now j) calls).2 :=
          eventsOf_cons_self (.freed j) _
        rw [hcons, hm]
        simpa [alternates] using hrec
      · have hl := (sameExcept_giveBack dp now j).2.2 i (Ne.symm hji)
        rw [eventsOf_cons_ne (e := .freed j) hji, ← hl.2.1]
        exact hrec

theorem balance_performAll {dp : DHCPPool} (hwf : dp.WellFormed) (calls : List Call) :
    (performAll dp calls).1.mac.keys.card + frees (performAll dp calls).2 =
      dp.mac.keys.card + grants (performAll dp calls).2 := by
  induction calls generalizing dp with
  | nil => rfl
  | cons call calls ih =>
    obtain ⟨err, h⟩ | ⟨j, m, hj, h⟩ | ⟨j, now, hlt, hnf, h⟩ := perform_cases hwf call
    · rw [performAll_cons_error h]
      exact ih hwf
    · rw [performAll_cons_ok h]
      have hrec := ih (hwf.grant hj m)
      have hcard := mac_card_grant hwf hj m
      simp only [grants, frees, List.countP_cons] at hrec ⊢
      simp only [Bool.false_eq_true, if_false, if_true] at hrec ⊢
      omega
    · rw [performAll_cons_ok h]
      have hrec := ih (hwf.giveBack hlt now)
      have hcard := mac_card_giveBack hwf hlt hnf now
      simp only [grants, frees, List.countP_cons] at hrec ⊢
      simp only [Bool.false_eq_true, if_false, if_true] at hrec ⊢
      omega

theorem getFreeIPIndex_error_iff {dp : DHCPPool} (hwf : dp.WellFormed) (choice : Choice)
    (mac : String) :
    (dp.getFreeIPIndex choice mac).2.2.2 ≠ none ↔ dp.mac.keys.card = dp.capacity := by
  have hcard := hwf.card_add_card
  simp only [freeIPsRemaining] at hcard
  by_cases h : dp.free.card = 0
  · rw [getFreeIPIndex_full choice mac h]
    simp only [ne_eq, reduceCtorEq, not_false_eq_true, true_iff]
    omega
  · obtain ⟨i, -, heq⟩ := getFreeIPIndex_ok hwf choice mac h
    rw [heq]
    simp only [ne_eq, not_true_eq_false, false_iff]
    omega

theorem grants_alternate_with_frees (capacity : ℕ) (algorithm : Int) (clock : ℕ → Int)
    (calls : List Call) :
    let run := performAll (newDHCPPool capacity algorithm clock) calls
    (∀ i, alternates false (eventsOf i run.2) = true) ∧
    (∀ i mac, (eventsOf i run.2).getLast? = some (.granted i mac) →
      run.1.getMACIndex i = (i, mac, none)) ∧
    (∀ mac choice, (run.1.getFreeIPIndex choice mac).2.2.2 ≠ none ↔
      (grants run.2 : Int) - frees run.2 = capacity) := by
  intro run
  have hnew := wellFormed_new capacity algorithm clock
  have hrun := performAll_wellFormed hnew calls
  have hwf : run.1.WellFormed := hrun.1
  have hcap : run.1.capacity = capacity := by
    rw [hrun.2, newDHCPPool_capacity]
  refine ⟨?_, ?_, ?_⟩
  · intro i
    have h := alternates_performAll hnew calls i
    simpa using h
  · intro i mac hlast
    apply getMACIndex_of_lookup hwf
    have h := lookup_performAll hnew calls i
    rw [h]
    exact holder_of_getLast? i _ _ mac hlast
  · intro mac choice
    have hb := balance_performAll hnew calls
    rw [newDHCPPool_mac, Finmap.keys_empty, Finset.card_empty, zero_add] at hb
    have hb' : run.1.mac.keys.card + frees run.2 = grants run.2 := hb
    rw [getFreeIPIndex_error_iff hwf choice mac, hcap]
    omega

end DHCPPool
end StandaloneDHCP
