import Replatform.Calendar
import Replatform.Decimal.Layout
import Replatform.Text.Quoted

/-! # Plain data

The values that a document, a settings source or a log event may hold before anything
is known about their shape.
-/
namespace Replatform

/-- A plain value. -/
inductive Value where
  | null
  | bool (b : Bool)
  | int (n : Int)
  | float (x : Binary64)
  | text (s : String)
  | bytes (bs : List UInt8)
  | date (d : Date)
  | moment (t : Moment)
  | list (items : List Value)
  | pair (first second : Value)
  | set (items : List Value)
  | map (entries : List (Value × Value))

namespace Value

instance : Inhabited Value := ⟨.null⟩

/-- The whole number that a number or a truth value stands for, if it is one. -/
def whole? : Value → Option Int
  | .bool b => some (if b then 1 else 0)
  | .int n => some n
  | .float x => x.toInt?
  | _ => none

/-- The value counts as true: it is not null, zero or empty. -/
def holds : Value → Bool
  | .null => false
  | .text s => s ≠ ""
  | .list items => !items.isEmpty
  | .map entries => !entries.isEmpty
  | v => v.whole? ≠ some 0

/-- The two scalars are the same key of a map: equal numbers are, whatever their kind. -/
def sameKey : Value → Value → Bool
  | .null, .null => true
  | .text s, .text t => s == t
  | .bytes s, .bytes t => s == t
  | .date c, .date d => c == d
  | .moment s, .moment t => s.same t
  | .float x, .float y => x.same y
  | v, w =>
    match v.whole?, w.whole? with
    | some m, some n => m == n
    | _, _ => false

/-- The value is not a number, as a number says it of itself. -/
def isNaN : Value → Bool
  | .float .notANumber => true
  | _ => false

/-- The value under the text `k` in the entries of a map. -/
def lookupText (k : String) : List (Value × Value) → Option Value
  | [] => none
  | (.text k', v) :: rest => if k' = k then some v else lookupText k rest
  | _ :: rest => lookupText k rest

mutual

/-- A value as it is shown in messages. -/
def shown : Value → String
  | .null => "None"
  | .bool b => if b then "True" else "False"
  | .int n => toString n
  | .float x => x.text
  | .text s => quoted s
  | .bytes bs => String.ofList (Text.quotedBytes bs)
  | .date d => d.shown
  | .moment t => t.shown
  | .list items => "[" ++ ", ".intercalate (shownItems items) ++ "]"
  | .pair a b => "(" ++ a.shown ++ ", " ++ b.shown ++ ")"
  | .set items => if items.isEmpty then "set()" else "\x7b" ++ ", ".intercalate (shownItems items) ++ "\x7d"
  | .map entries => "\x7b" ++ ", ".intercalate (shownEntries entries) ++ "\x7d"

/-- The items of a list as they are shown in messages. -/
def shownItems : List Value → List String
  | [] => []
  | v :: rest => v.shown :: shownItems rest

/-- The entries of a map as they are shown in messages. -/
def shownEntries : List (Value × Value) → List String
  | [] => []
  | (k, v) :: rest => (k.shown ++ ": " ++ v.shown) :: shownEntries rest

end

/-- A value in the middle of a sentence: a text without quotes. -/
def inSentence : Value → String
  | .text s => s
  | v => v.shown

end Value
end Replatform
