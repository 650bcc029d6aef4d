import Mathlib.Data.List.Basic

/-! Regular expressions with capture groups, matched as a backtracking engine matches them: the
matches at a position are tried in order, the left branch of an alternative before the right
one, and the first one found counts. `find` is the unanchored search: the first position that
has a match. -/
namespace StandaloneDHCP.Lib
set_option autoImplicit false

inductive Pattern (α : Type) where
  | empty
  | sat (p : α → Bool)
  | seq (r t : Pattern α)
  | alt (r t : Pattern α)
  | group (r : Pattern α)

namespace Pattern
variable {α : Type}

/-- `r?`, greedy. -/
def opt (r : Pattern α) : Pattern α := alt r empty

/-- `r{n}`. -/
def times (r : Pattern α) : ℕ → Pattern α
  | 0 => empty
  | n + 1 => seq r (times r n)

/-- `r{0,n}`, greedy. -/
def atMost (r : Pattern α) : ℕ → Pattern α
  | 0 => empty
  | n + 1 => opt (seq r (atMost r n))

/-- The matches of a pattern at the start of a text, in the order in which they are tried: the
texts of the groups, numbered by their opening brackets, and the text behind the match. -/
def run : Pattern α → List α → List (List (List α) × List α)
  | empty, s => [([], s)]
  | sat _, [] => []
  | sat p, c :: s => if p c then [([], s)] else []
  | seq r t, s => (r.run s).flatMap fun m => (t.run m.2).map fun m' => (m.1 ++ m'.1, m'.2)
  | alt r t, s => r.run s ++ t.run s
  | group r, s => (r.run s).map fun m => (s.take (s.length - m.2.length) :: m.1, m.2)

/-- The groups of the leftmost match in a text. -/
def find (r : Pattern α) (s : List α) : Option (List (List α)) :=
  match (r.run s).head?, s with
  | some m, _ => some m.1
  | none, [] => none
  | none, _ :: s => r.find s

/-- The match that a search at the start of the text finds. -/
def First (r : Pattern α) (s : List α) (groups : List (List α)) (rest : List α) : Prop :=
  (r.run s).head? = some (groups, rest)

theorem find_of_first {r : Pattern α} {s : List α} {groups : List (List α)} {rest : List α}
    (h : r.First s groups rest) : r.find s = some groups := by
  have hhead : (r.run s).head? = some (groups, rest) := h
  unfold find
  rw [hhead]

theorem first_empty (s : List α) : (empty : Pattern α).First s [] s := rfl

theorem first_sat {p : α → Bool} {c : α} (s : List α) (hc : p c = true) :
    (sat p).First (c :: s) [] s := by
  rw [First, run, if_pos hc]
  rfl

/-- The first match of a sequence goes through the first match of its first part if the second
part matches behind it: no other match is tried. -/
theorem First.seq {r t : Pattern α} {s rest rest' : List α} {gs gs' : List (List α)}
    (hr : r.First s gs rest) (ht : t.First rest gs' rest') :
    (seq r t).First s (gs ++ gs') rest' := by
  obtain ⟨ms, hms⟩ := List.head?_eq_some_iff.mp hr
  obtain ⟨ns, hns⟩ := List.head?_eq_some_iff.mp ht
  rw [First, run, hms, List.flatMap_cons, hns]
  rfl

theorem First.opt {r : Pattern α} {s rest : List α} {gs : List (List α)}
    (hr : r.First s gs rest) : (opt r).First s gs rest := by
  obtain ⟨ms, hms⟩ := List.head?_eq_some_iff.mp hr
  rw [First, Pattern.opt, run, hms]
  rfl

theorem first_opt_of_run_nil {r : Pattern α} {s : List α} (hr : r.run s = []) :
    (opt r).First s [] s := by
  rw [First, opt, run, hr]
  rfl

theorem First.group {r : Pattern α} {s matched rest : List α} {gs : List (List α)}
    (hr : r.First s gs rest) (hs : s = matched ++ rest) :
    (group r).First s (matched :: gs) rest := by
  obtain ⟨ms, hms⟩ := List.head?_eq_some_iff.mp hr
  have htake : s.take (s.length - rest.length) = matched := by
    rw [hs, List.length_append, Nat.add_sub_cancel]
    exact List.take_left' rfl
  rw [First, run, hms, List.map_cons, htake]
  rfl

/-- A text that does not start with a character of the class. -/
theorem run_seq_sat_nil {p : α → Bool} {s : List α} (t : Pattern α)
    (hs : ∀ c ∈ s.head?, p c = false) : (seq (sat p) t).run s = [] := by
  cases s with
  | nil => rfl
  | cons c s =>
    have hc : p c = false := hs c rfl
    rw [run, run, if_neg (by rw [hc]; exact Bool.false_ne_true), List.flatMap_nil]

/-- A run of at most `n` characters of the class is taken whole if the text behind it does not
go on with one. -/
theorem first_atMost {p : α → Bool} {cs rest : List α} {n : ℕ} (hlen : cs.length ≤ n)
    (hcs : ∀ c ∈ cs, p c = true) (hrest : ∀ c ∈ rest.head?, p c = false) :
    (atMost (sat p) n).First (cs ++ rest) [] rest := by
  induction n generalizing cs with
  | zero =>
    obtain rfl := List.eq_nil_of_length_eq_zero (Nat.le_zero.mp hlen)
    exact first_empty rest
  | succ n ih =>
    cases cs with
    | nil => exact first_opt_of_run_nil (run_seq_sat_nil _ hrest)
    | cons c cs =>
      have htail := ih (Nat.le_of_succ_le_succ hlen) fun d hd => hcs d (List.mem_cons_of_mem c hd)
      exact ((first_sat _ (hcs c List.mem_cons_self)).seq htail).opt

end Pattern
end StandaloneDHCP.Lib
