import Replatform.Text.Utf8

/-! # Checking all at once

The check of a value either yields a result or lists everything that is wrong, each
with the place where it is.  Two checks side by side report the faults of both.
-/
namespace Replatform
namespace Schema

/-- A step from a value to a part of it. -/
inductive Step where
  | key (name : String)
  | index (n : Int)
  deriving DecidableEq, Repr

/-- What is wrong with a value. -/
inductive Problem where
  | missing
  | notText
  /-- A string of bytes is no text. -/
  | notUnicode
  | notBool
  /-- A text or a number stands for no truth value. -/
  | boolForm
  | notInt
  /-- A text stands for no whole number. -/
  | intForm
  | intSize
  /-- A number has a fraction. -/
  | intFraction
  | notFloat
  /-- A text stands for no number. -/
  | floatForm
  | notList
  | notMap
  | notSection
  /-- A text is not a word of a closed set. -/
  | notTerm
  /-- A number is infinite or none. -/
  | notFinite
  | tooSmall
  | belowLeast
  /-- A rule of its own is broken; `wording` says which. -/
  | rule (wording : String)
  deriving DecidableEq, Repr

/-- The code by which a report tells what is wrong. -/
def Problem.code : Problem → String
  | .missing => "missing"
  | .notText => "string_type"
  | .notUnicode => "string_unicode"
  | .notBool => "bool_type"
  | .boolForm => "bool_parsing"
  | .notInt => "int_type"
  | .notFinite => "finite_number"
  | .intForm => "int_parsing"
  | .intSize => "int_parsing_size"
  | .intFraction => "int_from_float"
  | .notFloat => "float_type"
  | .floatForm => "float_parsing"
  | .notList => "list_type"
  | .notMap => "dict_type"
  | .notSection => "model_type"
  | .notTerm => "enum"
  | .tooSmall => "greater_than"
  | .belowLeast => "greater_than_equal"
  | .rule _ => "value_error"

/-- Something wrong, and where. -/
structure Issue where
  place : List Step
  problem : Problem
  deriving DecidableEq, Repr

/-- What keeps an issue from being worded: a rule's wording with a surrogate in it. -/
def Issue.obstacle? (i : Issue) : Option Utf8.Obstacle :=
  match i.problem with
  | .rule wording => Utf8.obstacle? wording.toList
  | _ => none

/-- The outcome of a check. -/
inductive Checked (α : Type) where
  | ok (a : α)
  | faulty (issues : List Issue)
  deriving Repr

namespace Checked

variable {α β : Type}

/-- Applies a function to a result. -/
def map (f : α → β) : Checked α → Checked β
  | .ok a => .ok (f a)
  | .faulty is => .faulty is

/-- Applies one result to another; the issues of the first come first. -/
def ap (f : Checked (α → β)) (a : Checked α) : Checked β :=
  match f, a with
  | .ok f, .ok a => .ok (f a)
  | .ok _, .faulty js => .faulty js
  | .faulty is, .ok _ => .faulty is
  | .faulty is, .faulty js => .faulty (is ++ js)

instance : Applicative Checked where
  pure := .ok
  map := map
  seq f a := ap f (a ())

/-- A single thing wrong with the value itself. -/
def fail (p : Problem) : Checked α := .faulty [⟨[], p⟩]

/-- The outcome for a part of a value. -/
def under (step : Step) : Checked α → Checked α
  | .ok a => .ok a
  | .faulty is => .faulty (is.map fun i => { i with place := step :: i.place })

/-- A further check of a result. -/
def bind (a : Checked α) (f : α → Checked β) : Checked β :=
  match a with
  | .ok a => f a
  | .faulty is => .faulty is

/-- The results of all checks in a list. -/
def all : List (Checked α) → Checked (List α)
  | [] => .ok []
  | c :: rest => ap (c.map List.cons) (all rest)

/-- The result, if nothing is wrong. -/
def result? : Checked α → Option α
  | .ok a => some a
  | .faulty _ => none

end Checked
end Schema
end Replatform
