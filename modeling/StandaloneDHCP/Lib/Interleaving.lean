import Mathlib.Algebra.BigOperators.Group.Finset.Piecewise
import Mathlib.Algebra.GroupWithZero.Nat
import Mathlib.Algebra.Order.BigOperators.Group.Finset
import Mathlib.Data.Nat.Notation
import Mathlib.Logic.Relation
import StandaloneDHCP.Lib.Runs

/-! Threads that share a state. Each thread has a local state; its next step is a partial
function of its number, the shared state and the local state, where `none` says that it waits or
has ended. The scheduler picks the thread that moves, starts new ones, and lets the surroundings
change the shared state in between.

An assertion about every thread holds in every schedule if the thread's own steps keep it and no
step of another thread or of the surroundings breaks it (`Good.invariant`). -/
namespace StandaloneDHCP.Lib
set_option autoImplicit false

variable {σ τ ε : Type}

structure Threads (σ τ : Type) where
  shared : σ
  locals : List τ

inductive Sched (τ ε : Type)
  | run (i : ℕ)
  | start (t : τ)
  | outside (e : ε)

namespace Threads

/-- Thread `i`, which is at `t`, makes one step. -/
def runThread (act : ℕ → σ → τ → Option (σ × τ)) (c : Threads σ τ) (i : ℕ) (t : τ) :
    Option (Threads σ τ) :=
  (act i c.shared t).map fun r => ⟨r.1, c.locals.set i r.2⟩

def step (act : ℕ → σ → τ → Option (σ × τ)) (out : σ → ε → Option σ) (c : Threads σ τ) :
    Sched τ ε → Option (Threads σ τ)
  | .run i => c.locals[i]?.bind (c.runThread act i)
  | .start t => some { c with locals := c.locals ++ [t] }
  | .outside e => (out c.shared e).map fun s => { c with shared := s }

variable {act : ℕ → σ → τ → Option (σ × τ)} {out : σ → ε → Option σ} {c c' : Threads σ τ}

theorem step_run {i : ℕ} (h : c.step act out (.run i) = some c') :
    ∃ t s' t', c.locals[i]? = some t ∧ act i c.shared t = some (s', t') ∧
      c' = ⟨s', c.locals.set i t'⟩ := by
  obtain ⟨t, ht, hact⟩ := Option.bind_eq_some_iff.mp h
  obtain ⟨⟨s', t'⟩, hr, rfl⟩ := Option.map_eq_some_iff.mp hact
  exact ⟨t, s', t', ht, hr, rfl⟩

theorem step_run_of {i : ℕ} {t t' : τ} {s' : σ} (ht : c.locals[i]? = some t)
    (hact : act i c.shared t = some (s', t')) :
    c.step act out (.run i) = some ⟨s', c.locals.set i t'⟩ := by
  simp only [step, ht, Option.bind_some, runThread, hact, Option.map_some]

theorem step_outside {e : ε} (h : c.step act out (.outside e) = some c') :
    ∃ s', out c.shared e = some s' ∧ c' = { c with shared := s' } := by
  obtain ⟨s', hs, rfl⟩ := Option.map_eq_some_iff.mp h
  exact ⟨s', hs, rfl⟩

/-! ## Assertions about every thread -/

/-- The shared state satisfies `I`, which may speak of the number of threads, and each thread its
own assertion. -/
structure Good (I : ℕ → σ → Prop) (A : ℕ → σ → τ → Prop) (c : Threads σ τ) : Prop where
  shared : I c.locals.length c.shared
  each : ∀ i t, c.locals[i]? = some t → A i c.shared t

/-- A thread's own steps, the steps of the other threads and those of the surroundings keep
the assertions. -/
structure Kept (act : ℕ → σ → τ → Option (σ × τ)) (out : σ → ε → Option σ)
    (ok : Threads σ τ → Sched τ ε → Prop) (I : ℕ → σ → Prop) (A : ℕ → σ → τ → Prop) : Prop where
  own : ∀ c i t s' t', Good I A c → ok c (.run i) → c.locals[i]? = some t →
    act i c.shared t = some (s', t') → I c.locals.length s' ∧ A i s' t'
  other : ∀ c i t s' t' j u, Good I A c → ok c (.run i) → c.locals[i]? = some t →
    act i c.shared t = some (s', t') → c.locals[j]? = some u → j ≠ i → A j s' u
  start : ∀ c t, Good I A c → ok c (.start t) →
    I (c.locals.length + 1) c.shared ∧ A c.locals.length c.shared t
  outside : ∀ c e s', Good I A c → ok c (.outside e) → out c.shared e = some s' →
    I c.locals.length s' ∧ ∀ j u, c.locals[j]? = some u → A j s' u

theorem Good.step {ok : Threads σ τ → Sched τ ε → Prop} {I : ℕ → σ → Prop}
    {A : ℕ → σ → τ → Prop} (hk : Kept act out ok I A) {e : Sched τ ε} (hc : Good I A c)
    (hok : ok c e) (hstep : c.step act out e = some c') : Good I A c' := by
  cases e with
  | run i =>
    obtain ⟨t, s', t', ht, hact, rfl⟩ := step_run hstep
    obtain ⟨hI, hA⟩ := hk.own c i t s' t' hc hok ht hact
    refine ⟨by simpa using hI, fun j u hu => ?_⟩
    by_cases hj : j = i
    · subst hj
      have hlt : j < c.locals.length := (List.getElem?_eq_some_iff.mp ht).1
      rw [List.getElem?_set_self hlt] at hu
      cases hu
      exact hA
    · rw [List.getElem?_set_ne (Ne.symm hj)] at hu
      exact hk.other c i t s' t' j u hc hok ht hact hu hj
  | start t =>
    cases hstep
    obtain ⟨hI, hA⟩ := hk.start c t hc hok
    refine ⟨by simpa using hI, fun j u hu => ?_⟩
    simp only [List.getElem?_append] at hu
    split at hu
    · exact hc.each j u hu
    · next hge =>
      obtain ⟨hj, rfl⟩ := List.getElem?_eq_some_iff.mp hu
      have hlast : j = c.locals.length := by
        rw [List.length_singleton] at hj
        omega
      subst hlast
      simpa using hA
  | outside e =>
    obtain ⟨s', hs, rfl⟩ := step_outside hstep
    obtain ⟨hI, hA⟩ := hk.outside c e s' hc hok hs
    exact ⟨hI, hA⟩

theorem Good.invariant {ok : Threads σ τ → Sched τ ε → Prop} {I : ℕ → σ → Prop}
    {A : ℕ → σ → τ → Prop} (hk : Kept act out ok I A) {c₀ : Threads σ τ} (hc₀ : Good I A c₀)
    (hrun : Reaches (Threads.step act out) ok c₀ c) : Good I A c :=
  hrun.invariant (Good I A) hc₀ fun _ _ _ hc hok hstep => hc.step hk hok hstep

/-! ## A thread that runs alone -/

/-- One step of thread `i` on the shared state and its local state. -/
def Advances (act : ℕ → σ → τ → Option (σ × τ)) (i : ℕ) (a b : σ × τ) : Prop :=
  act i a.1 a.2 = some b

/-- Thread `i` runs and nothing else does. -/
def Alone (act : ℕ → σ → τ → Option (σ × τ)) (i : ℕ) : σ × τ → σ × τ → Prop :=
  Relation.ReflTransGen (Advances act i)

theorem Alone.reaches {ok : Threads σ τ → Sched τ ε → Prop} {i : ℕ} {s s' : σ} {t t' : τ}
    {locals : List τ} (halone : Alone act i (s, t) (s', t')) (ht : locals[i]? = some t)
    (hok : ∀ c, ok c (.run i)) :
    Reaches (step act out) ok ⟨s, locals⟩ ⟨s', locals.set i t'⟩ := by
  have hlt : i < locals.length := (List.getElem?_eq_some_iff.mp ht).1
  suffices hrun : ∀ b : σ × τ, Alone act i (s, t) b →
      Reaches (step act out) ok ⟨s, locals⟩ ⟨b.1, locals.set i b.2⟩ from hrun _ halone
  intro b hb
  induction hb with
  | refl =>
    have hsame : locals.set i t = locals := by
      rw [List.getElem?_eq_some_iff] at ht
      obtain ⟨-, rfl⟩ := ht
      exact List.set_getElem_self hlt
    rw [hsame]
    exact .start
  | @tail b b' _ hmove ih =>
    have hat : (locals.set i b.2)[i]? = some b.2 := List.getElem?_set_self hlt
    have hnext : step act out ⟨b.1, locals.set i b.2⟩ (.run i) =
        some ⟨b'.1, (locals.set i b.2).set i b'.2⟩ := step_run_of hat hmove
    rw [List.set_set] at hnext
    exact .next ih (hok _) hnext

end Threads

/-! ## How many steps one thread takes -/

/-- The number of times the schedule picks thread `i`. -/
def turns (i : ℕ) : List (Sched τ ε) → ℕ
  | [] => 0
  | .run j :: es => (if j = i then 1 else 0) + turns i es
  | .start _ :: es => turns i es
  | .outside _ :: es => turns i es

namespace Threads
variable {act : ℕ → σ → τ → Option (σ × τ)} {out : σ → ε → Option σ} {c c' : Threads σ τ}

/-- The configuration after a whole schedule, `none` if one of its moves is not possible. -/
def follow (act : ℕ → σ → τ → Option (σ × τ)) (out : σ → ε → Option σ) (c : Threads σ τ) :
    List (Sched τ ε) → Option (Threads σ τ)
  | [] => some c
  | e :: es => (c.step act out e).bind fun c' => c'.follow act out es

/-- A thread whose own steps all lower `μ` takes at most `μ` of them, whatever the others do in
between. -/
theorem turns_le {W : τ → Prop} {μ : τ → ℕ} {i : ℕ}
    (hlower : ∀ s t s' t', W t → act i s t = some (s', t') → W t' ∧ μ t' < μ t)
    {es : List (Sched τ ε)} {t : τ} (hc : c.locals[i]? = some t) (ht : W t)
    (hrun : c.follow act out es = some c') :
    ∃ t', c'.locals[i]? = some t' ∧ W t' ∧ turns i es + μ t' ≤ μ t := by
  induction es generalizing c t with
  | nil =>
    cases hrun
    exact ⟨t, hc, ht, by simp [turns]⟩
  | cons e es ih =>
    obtain ⟨c₁, hstep, hrest⟩ := Option.bind_eq_some_iff.mp hrun
    have hlt : i < c.locals.length := (List.getElem?_eq_some_iff.mp hc).1
    cases e with
    | run j =>
      obtain ⟨u, s', u', hu, hact, rfl⟩ := step_run hstep
      by_cases hj : j = i
      · subst hj
        rw [hc] at hu
        cases hu
        obtain ⟨hW, hμ⟩ := hlower _ _ _ _ ht hact
        obtain ⟨t', ht', hW', hle⟩ := ih (List.getElem?_set_self hlt) hW hrest
        refine ⟨t', ht', hW', ?_⟩
        simp only [turns, if_pos]
        omega
      · have hkept : (c.locals.set j u')[i]? = some t := by rw [List.getElem?_set_ne hj, hc]
        obtain ⟨t', ht', hW', hle⟩ := ih hkept ht hrest
        refine ⟨t', ht', hW', ?_⟩
        simpa only [turns, if_neg hj, Nat.zero_add] using hle
    | start u =>
      cases hstep
      exact ih (by rw [List.getElem?_append_left hlt]; exact hc) ht hrest
    | outside e =>
      obtain ⟨s', -, rfl⟩ := step_outside hstep
      exact @ih ⟨s', c.locals⟩ t hc ht hrest

/-- Turns of threads only: nothing starts and the surroundings rest. -/
def OnlyRuns (es : List (Sched τ ε)) : Prop := ∀ e ∈ es, ∃ i, e = .run i

theorem follow_run {i : ℕ} {es : List (Sched τ ε)} (h : c.follow act out (.run i :: es) = some c') :
    i < c.locals.length ∧ ∃ c₁, c.step act out (.run i) = some c₁ ∧
      c₁.locals.length = c.locals.length ∧ c₁.follow act out es = some c' := by
  obtain ⟨c₁, hstep, hrest⟩ := Option.bind_eq_some_iff.mp h
  obtain ⟨t, s', t', ht, -, rfl⟩ := step_run hstep
  exact ⟨(List.getElem?_eq_some_iff.mp ht).1, _, hstep, by simp, hrest⟩

/-- Where only threads move, every turn is one of theirs. -/
theorem length_eq_sum_turns {es : List (Sched τ ε)} (honly : OnlyRuns es)
    (hrun : c.follow act out es = some c') :
    es.length = ∑ i ∈ Finset.range c.locals.length, turns i es := by
  induction es generalizing c with
  | nil => simp [turns]
  | cons e es ih =>
    obtain ⟨j, rfl⟩ := honly e List.mem_cons_self
    obtain ⟨hj, c₁, -, hlen, hrest⟩ := follow_run hrun
    have hes := ih (fun e he => honly e (List.mem_cons_of_mem _ he)) hrest
    rw [hlen] at hes
    simp only [turns, Finset.sum_add_distrib, Finset.sum_ite_eq, Finset.mem_range, hj, if_true,
      List.length_cons, ← hes]
    omega

/-- A schedule of turns that all lower `μ` has at most `μ` of them. -/
theorem length_le_of_lowers {P : Threads σ τ → Prop} {μ : Threads σ τ → ℕ}
    (hlower : ∀ c i c', P c → c.step act out (.run i) = some c' → P c' ∧ μ c' < μ c)
    {es : List (Sched τ ε)} (honly : OnlyRuns es) (hc : P c)
    (hrun : c.follow act out es = some c') : P c' ∧ es.length + μ c' ≤ μ c := by
  induction es generalizing c with
  | nil =>
    cases hrun
    exact ⟨hc, by simp⟩
  | cons e es ih =>
    obtain ⟨j, rfl⟩ := honly e List.mem_cons_self
    obtain ⟨-, c₁, hstep, -, hrest⟩ := follow_run hrun
    obtain ⟨hc₁, hμ⟩ := hlower c j c₁ hc hstep
    obtain ⟨hc', hle⟩ := ih (fun e he => honly e (List.mem_cons_of_mem _ he)) hc₁ hrest
    refine ⟨hc', ?_⟩
    rw [List.length_cons]
    omega

/-- One thread's share of a sum over all of them. -/
theorem sum_map_set {f : τ → ℕ} {l : List τ} {i : ℕ} {t : τ} (t' : τ) (ht : l[i]? = some t) :
    ((l.set i t').map f).sum + f t = (l.map f).sum + f t' := by
  induction l generalizing i with
  | nil => cases ht
  | cons u l ih =>
    cases i with
    | zero =>
      cases ht
      simp only [List.set_cons_zero, List.map_cons, List.sum_cons]
      omega
    | succ i =>
      have hrest := ih ht
      simp only [List.set_cons_succ, List.map_cons, List.sum_cons]
      omega

theorem reaches_of_follow {ok : Threads σ τ → Sched τ ε → Prop} {es : List (Sched τ ε)}
    (honly : OnlyRuns es) (hok : ∀ c i, ok c (.run i)) (hrun : c.follow act out es = some c') :
    Reaches (step act out) ok c c' := by
  induction es generalizing c with
  | nil =>
    cases hrun
    exact .start
  | cons e es ih =>
    obtain ⟨j, rfl⟩ := honly e List.mem_cons_self
    obtain ⟨-, c₁, hstep, -, hrest⟩ := follow_run hrun
    have hfirst : Reaches (step act out) ok c c₁ := .next .start (hok c j) hstep
    exact hfirst.trans (ih (fun e he => honly e (List.mem_cons_of_mem _ he)) hrest)

end Threads

/-! ## Logs that say which thread wrote an entry -/

/-- What thread `i` wrote, in its order. -/
def writtenBy {α : Type} (i : ℕ) (log : List (ℕ × α)) : List α :=
  log.filterMap fun e => if e.1 = i then some e.2 else none

section Logs
variable {α : Type} {i j : ℕ}

@[simp] theorem writtenBy_nil : writtenBy i ([] : List (ℕ × α)) = [] := rfl

@[simp] theorem writtenBy_own (log : List (ℕ × α)) (a : α) :
    writtenBy i (log ++ [(i, a)]) = writtenBy i log ++ [a] := by
  simp [writtenBy]

theorem writtenBy_other (h : j ≠ i) (log : List (ℕ × α)) (a : α) :
    writtenBy i (log ++ [(j, a)]) = writtenBy i log := by
  simp [writtenBy, h]

theorem writtenBy_map {β : Type} (f : α → β) (log : List (ℕ × α)) :
    writtenBy i (log.map fun e => (e.1, f e.2)) = (writtenBy i log).map f := by
  induction log with
  | nil => rfl
  | cons e log ih =>
    simp only [writtenBy, List.map_cons, List.filterMap_cons] at ih ⊢
    split_ifs <;> simp [ih]

theorem mem_writtenBy {log : List (ℕ × α)} {a : α} : a ∈ writtenBy i log ↔ (i, a) ∈ log := by
  simp [writtenBy]

theorem count_writtenBy [DecidableEq α] (log : List (ℕ × α)) (a : α) :
    (writtenBy i log).count a = log.count (i, a) := by
  induction log with
  | nil => rfl
  | cons e log ih =>
    obtain ⟨j, b⟩ := e
    by_cases hj : j = i
    · subst hj
      have hhead : writtenBy j ((j, b) :: log) = b :: writtenBy j log := by simp [writtenBy]
      by_cases hb : b = a
      · subst hb
        rw [hhead, List.count_cons_self, List.count_cons_self, ih]
      · have hne : (j, b) ≠ (j, a) := fun h => hb (Prod.mk.inj h).2
        rw [hhead, List.count_cons_of_ne hb, List.count_cons_of_ne hne, ih]
    · have hhead : writtenBy i ((j, b) :: log) = writtenBy i log := by simp [writtenBy, hj]
      have hne : (j, b) ≠ (i, a) := fun h => hj (Prod.mk.inj h).1
      rw [hhead, List.count_cons_of_ne hne, ih]

/-- Logs in which every thread wrote the same have the same entries. -/
theorem perm_of_writtenBy {log log' : List (ℕ × α)} (h : ∀ i, writtenBy i log = writtenBy i log') :
    log.Perm log' := by
  classical
  rw [List.perm_iff_count]
  rintro ⟨i, a⟩
  rw [← count_writtenBy, ← count_writtenBy, h i]

end Logs
end StandaloneDHCP.Lib
