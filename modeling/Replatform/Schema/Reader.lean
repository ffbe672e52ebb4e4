import Replatform.OrderedMap
import Replatform.Schema.Checked
import Replatform.Text.Utf8
import Replatform.Value
import Replatform.Vocabulary

/-! # Readers

A reader checks a plain value for a shape.  Texts, truth values, words of a closed set,
lists and maps have readers here; a section reads its fields by their names in files
or, where those are absent, by their plain names.
-/
namespace Replatform
namespace Schema

/-- A reader of values of a shape. -/
abbrev Reader (α : Type) := Value → Checked α

/-- The entries of a map. -/
abbrev Entries := List (Value × Value)

namespace Reader

/-- A text, or bytes that are one. -/
def text : Reader String
  | .text s => .ok s
  | .bytes bs =>
    match Utf8.decode bs with
    | .ok cs => .ok (String.ofList (Text.ofChars cs))
    | .error _ => .fail .notUnicode
  | _ => .fail .notText

/-- The words for truth values; the case of ASCII letters does not count. -/
def truths : List (String × Bool) := [
  ("0", false), ("f", false), ("n", false), ("no", false), ("off", false), ("false", false),
  ("1", true), ("t", true), ("y", true), ("yes", true), ("on", true), ("true", true)]

/-- A truth value by its word. -/
def flagOfWord (word : List Char) : Checked Bool :=
  match truths.lookup (String.ofList (word.map Char.toLower)) with
  | some b => .ok b
  | none => .fail .boolForm

/-- The least whole number that is too great for sixty-four bits with a sign. -/
def wideBound : Int := 0x8000000000000000

/-- The number is one of sixty-four bits. -/
def isWide (n : Int) : Bool := -wideBound ≤ n && n < wideBound

/-- A truth value by its number. -/
def flagOfInt (n : Int) : Checked Bool :=
  if !isWide n then .fail .notBool
  else if n = 0 then .ok false
  else if n = 1 then .ok true
  else .fail .boolForm

/-- A truth value: itself, one of the words for it, or zero or one. -/
def flag : Reader Bool
  | .bool b => .ok b
  | .int n => flagOfInt n
  | .float x =>
    match x.toInt? with
    | some n => if n = -wideBound then .fail .notBool else flagOfInt n
    | none => .fail .notBool
  | .text s => if Text.hasSurrogate s.toList then .fail .notUnicode else flagOfWord s.toList
  | .bytes bs =>
    match Utf8.decode bs with
    | .ok cs => flagOfWord cs
    | .error _ => .fail .boolForm
  | _ => .fail .notBool

/-- The value is a text with a surrogate in it. -/
def isBroken : Value → Bool
  | .text s => Text.hasSurrogate s.toList
  | _ => false

/-- A word of a closed set. -/
def term {α : Type} [Term α] : Reader α := fun v =>
  if isBroken v then .fail .notUnicode
  else
    match (text v).result?.bind Term.ofWord? with
    | some a => .ok a
    | none => .fail .notTerm

/-- Reads the items of a list, which stand at `n` and behind. -/
def readItems {α : Type} (read : Reader α) : Int → List Value → Checked (List α)
  | _, [] => .ok []
  | n, v :: rest => .ap (((read v).under (.index n)).map List.cons) (readItems read (n + 1) rest)

/-- A list of what `read` accepts. -/
def list {α : Type} (read : Reader α) : Reader (List α)
  | .list items => readItems read 0 items
  | .pair a b => readItems read 0 [a, b]
  | .set items => readItems read 0 items
  | _ => .fail .notList

/-- The most digits with which a whole number is shown. -/
def shownDigits : Nat := 4300

/-- The step to the value under a key: a number, or the text that shows it. -/
def keyStep : Value → Step
  | .text s => .key (Text.mended s)
  | .bool b => .index (if b then 1 else 0)
  | .int n =>
    if isWide n then .index n
    else if Nat.pow 10 shownDigits ≤ n.natAbs then .key "<unprintable int object>"
    else .key (toString n)
  | v => .key v.shown

/-- The mark of a key in the place of an issue. -/
def keyMark : Step := .key "[key]"

/-- Reads the entries of a map. -/
def readEntries {κ α : Type} (key : Reader κ) (read : Reader α) : Entries → Checked (List (κ × α))
  | [] => .ok []
  | (k, v) :: rest =>
    let entry := Checked.ap (((key k).under keyMark).map Prod.mk) (read v)
    .ap ((entry.under (keyStep k)).map List.cons) (readEntries key read rest)

/-- A map from what `key` accepts to what `read` accepts. -/
def map {κ α : Type} [DecidableEq κ] (key : Reader κ) (read : Reader α) : Reader (OrderedMap κ α)
  | .map es => (readEntries key read es).map .ofList
  | _ => .fail .notMap

/-- A section with the fields that `read` looks for. -/
def fields {α : Type} (read : Entries → Checked α) : Reader α
  | .map es => read es
  | _ => .fail .notSection

/-- What stands for nothing at all. -/
def orElse {α : Type} (default : α) (read : Reader α) : Reader α
  | .null => .ok default
  | v => read v

/-- A list; null is the empty one. -/
def listOrNull {α : Type} (read : Reader α) : Reader (List α) := orElse [] (list read)

/-- A map; null is the empty one. -/
def mapOrNull {κ α : Type} [DecidableEq κ] (key : Reader κ) (read : Reader α) : Reader (OrderedMap κ α) :=
  orElse .empty (map key read)

end Reader

/-- The value of a field and the name under which it stands. -/
def fieldValue? (name plainName : String) (es : Entries) : Option (String × Value) :=
  match Value.lookupText name es, Value.lookupText plainName es with
  | some v, _ => some (name, v)
  | none, some v => some (plainName, v)
  | none, none => none

/-- A field, which has a default. -/
def optional {α : Type} (default : α) (name plainName : String) (read : Reader α) (es : Entries) :
    Checked α :=
  match fieldValue? name plainName es with
  | some (found, v) => (read v).under (.key found)
  | none => .ok default

/-- A field, which must not be missing. -/
def required {α : Type} (name plainName : String) (read : Reader α) (es : Entries) : Checked α :=
  match fieldValue? name plainName es with
  | some (found, v) => (read v).under (.key found)
  | none => (Checked.fail .missing).under (.key name)

end Schema
end Replatform
