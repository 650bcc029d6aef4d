import Mathlib.Logic.Basic

/-! Runs of a partial step function. `step s e = none` says that the event `e`
cannot happen in `s` (or that its handling does not return). `Reaches step ok s₀ s`:
some run from `s₀`, every step of which meets `ok` in the state before it, ends in `s`.
An invariant is proved once for one step and holds of every state reached.

A machine that answers every input is run by `responses`. Two of them answer alike when a
relation between their states and the inputs still to come is kept by every input. -/
namespace StandaloneDHCP.Lib
set_option autoImplicit false

variable {σ ε : Type}

/-- The states reached from `s₀` by steps that all meet `ok`. -/
inductive Reaches (step : σ → ε → Option σ) (ok : σ → ε → Prop) (s₀ : σ) : σ → Prop
  | start : Reaches step ok s₀ s₀
  | next {s s' : σ} {e : ε} : Reaches step ok s₀ s → ok s e → step s e = some s' →
      Reaches step ok s₀ s'

theorem Reaches.invariant {step : σ → ε → Option σ} {ok : σ → ε → Prop} {s₀ s : σ}
    (inv : σ → Prop) (hrun : Reaches step ok s₀ s) (hstart : inv s₀)
    (hstep : ∀ s e s', inv s → ok s e → step s e = some s' → inv s') : inv s := by
  induction hrun with
  | start => exact hstart
  | next _ hok he ih => exact hstep _ _ _ ih hok he

theorem Reaches.mono {step : σ → ε → Option σ} {ok ok' : σ → ε → Prop} {s₀ s : σ}
    (hle : ∀ s e, ok s e → ok' s e) (hrun : Reaches step ok s₀ s) :
    Reaches step ok' s₀ s := by
  induction hrun with
  | start => exact .start
  | next _ hok he ih => exact .next ih (hle _ _ hok) he

theorem Reaches.trans {step : σ → ε → Option σ} {ok : σ → ε → Prop} {s₀ s₁ s₂ : σ}
    (h₁ : Reaches step ok s₀ s₁) (h₂ : Reaches step ok s₁ s₂) : Reaches step ok s₀ s₂ := by
  induction h₂ with
  | start => exact h₁
  | next _ hok he ih => exact .next ih hok he

/-- Replay a list of events, giving up at the first one that does not meet `ok`. -/
def replay (step : σ → ε → Option σ) (ok : σ → ε → Prop) [∀ s e, Decidable (ok s e)] :
    σ → List ε → Option σ
  | s, [] => some s
  | s, e :: es => if ok s e then (step s e).bind (replay step ok · es) else none

theorem replay_reaches {step : σ → ε → Option σ} {ok : σ → ε → Prop}
    [∀ s e, Decidable (ok s e)] {allowed : ε → Prop} (es : List ε) (s s' : σ)
    (hall : ∀ e ∈ es, allowed e) (h : replay step ok s es = some s') :
    Reaches step (fun s e => allowed e ∧ ok s e) s s' := by
  induction es generalizing s with
  | nil =>
    have hs : s = s' := by simpa [replay] using h
    exact hs ▸ .start
  | cons e es ih =>
    simp only [replay] at h
    split at h
    · next hok =>
      obtain ⟨s₁, he, hr⟩ := Option.bind_eq_some_iff.mp h
      have hfirst : Reaches step (fun s e => allowed e ∧ ok s e) s s₁ :=
        .next .start ⟨hall e List.mem_cons_self, hok⟩ he
      exact hfirst.trans (ih s₁ (fun e' he' => hall e' (List.mem_cons_of_mem e he')) hr)
    · cases h

theorem reaches_of_replay {step : σ → ε → Option σ} {ok : σ → ε → Prop}
    [∀ s e, Decidable (ok s e)] {es : List ε} {s s' : σ} (h : replay step ok s es = some s') :
    Reaches step ok s s' := by
  have hrun : Reaches step (fun s e => True ∧ ok s e) s s' :=
    replay_reaches es s s' (fun _ _ => trivial) h
  exact hrun.mono fun _ _ hok => hok.2

theorem exists_reaches_of_replay {step : σ → ε → Option σ} {ok : σ → ε → Prop}
    [∀ s e, Decidable (ok s e)] {allowed : ε → Prop} {s₀ : σ} (es : List ε) {p : σ → Bool}
    (hall : ∀ e ∈ es, allowed e) (h : (replay step ok s₀ es).map p = some true) :
    ∃ s, Reaches step (fun s e => allowed e ∧ ok s e) s₀ s ∧ p s = true := by
  obtain ⟨s, hs, hp⟩ := Option.map_eq_some_iff.mp h
  exact ⟨s, replay_reaches es s₀ s hall hs, hp⟩

/-! ## Machines that answer -/

section Machines
variable {τ ι ο : Type}

/-- The state after the listed inputs, and the answer to each of them. -/
def responses (step : σ → ι → σ × ο) : σ → List ι → σ × List ο
  | s, [] => (s, [])
  | s, i :: is =>
    let rest := responses step (step s i).1 is
    (rest.1, (step s i).2 :: rest.2)

theorem responses_simulation {step : σ → ι → σ × ο} {step' : τ → ι → τ × ο}
    (R : σ → τ → List ι → Prop)
    (hstep : ∀ s t i is, R s t (i :: is) →
      (step s i).2 = (step' t i).2 ∧ R (step s i).1 (step' t i).1 is)
    (is : List ι) (s : σ) (t : τ) (h : R s t is) :
    (responses step s is).2 = (responses step' t is).2 ∧
      R (responses step s is).1 (responses step' t is).1 [] := by
  induction is generalizing s t with
  | nil => exact ⟨rfl, h⟩
  | cons i is ih =>
    obtain ⟨hanswer, hnext⟩ := hstep s t i is h
    obtain ⟨hrest, hfinal⟩ := ih _ _ hnext
    refine ⟨?_, hfinal⟩
    simp only [responses, hanswer, hrest]

theorem responses_map {ο' : Type} (f : ο → ο') (step : σ → ι → σ × ο) (is : List ι) (s : σ) :
    responses (fun s i => ((step s i).1, f (step s i).2)) s is =
      ((responses step s is).1, (responses step s is).2.map f) := by
  induction is generalizing s with
  | nil => rfl
  | cons i is ih => simp only [responses, ih, List.map_cons]

end Machines
end StandaloneDHCP.Lib
