import Mathlib.Data.List.Basic

/-! JSON values as trees, and how `encoding/json` takes them into records. A record is read field
by field: the name is compared with the tags without regard to case, an unknown name is skipped,
and a field that is missing or null keeps its value. A list is written as null when it is nil. -/
namespace StandaloneDHCP.Lib
set_option autoImplicit false

inductive Json where
  | null
  | bool (b : Bool)
  | number (text : String)
  | str (s : String)
  | arr (items : List Json)
  | obj (fields : List (String × Json))

namespace Json

/-- The letters beyond ASCII that fold to one within it are the long s and the Kelvin sign. -/
def foldChar (c : Char) : Char :=
  if c.toNat = 0x17f then 's' else if c.toNat = 0x212a then 'k' else c.toLower

/-- The name as it is compared with a tag in lower case. -/
def foldName (name : String) : String := String.ofList (name.toList.map foldChar)

/-! ## Texts -/

/-- A text field with its tag. -/
def field (tag : String) (omitempty : Bool) (value : String) : List (String × Json) :=
  if omitempty = true ∧ value = "" then [] else [(tag, .str value)]

/-- What a text field holds afterwards; `none` is a type error. -/
def intoString (old : String) : Json → Option String
  | .str s => some s
  | .null => some old
  | _ => none

/-- A text field is read back, whether it was omitted or not. -/
theorem foldlM_field {σ : Type} {step : σ → String × Json → Option σ} {s s' : σ} {tag : String}
    {omitempty : Bool} {value : String} {rest : List (String × Json)}
    (hstep : step s (tag, .str value) = some s') (hempty : value = "" → s' = s) :
    (field tag omitempty value ++ rest).foldlM step s = rest.foldlM step s' := by
  unfold field
  split
  · next homit => rw [hempty homit.2, List.nil_append]
  · rw [List.singleton_append, List.foldlM_cons, hstep]
    rfl

/-! ## Lists -/

def ofList (items : List Json) : Json :=
  match items with
  | [] => .null
  | _ => .arr items

def intoList {α : Type} (decode : Json → Option α) : Json → Option (List α)
  | .arr items => items.mapM decode
  | .null => some []
  | _ => none

theorem mapM_map {α : Type} {encode : α → Json} {decode : Json → Option α}
    (hinverse : ∀ a, decode (encode a) = some a) (l : List α) :
    (l.map encode).mapM decode = some l := by
  induction l with
  | nil => rfl
  | cons a l ih =>
    rw [List.map_cons, List.mapM_cons, hinverse, ih]
    rfl

theorem intoList_ofList {α : Type} {encode : α → Json} {decode : Json → Option α}
    (hinverse : ∀ a, decode (encode a) = some a) (l : List α) :
    intoList decode (ofList (l.map encode)) = some l := by
  cases l with
  | nil => rfl
  | cons a l => exact mapM_map hinverse (a :: l)

end Json
end StandaloneDHCP.Lib
