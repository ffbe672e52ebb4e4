import Replatform.Json
import Replatform.Log.Event
import Replatform.Text.Blank

/-! # Log records

What is written of an event: its fields, its message, what is bound in its context, its
level and the time.  A record is written as an object, or in columns: the time, the
level, the message and the source, and then the other fields in alphabetical order.
-/
namespace Replatform
namespace Log

/-- The lines of a text that is written with a line end behind it. -/
def writtenLines (s : String) : List String :=
  (Text.lines (s.toList ++ ['\n'])).map String.ofList

/-- What is written of an event. -/
structure Record where
  fields : Fields

namespace Record

/-- The names of fields that are never written. -/
def hidden : List String := ["_record", "_from_structlog"]

/-- The record of an event at a time.  Its own fields take precedence over those that are bound,
but message, level and time are not replaced by either. -/
def ofEvent (time : String) (context : Fields) (e : Event) : Record :=
  let own := e.fields.insert "event" (.text e.message)
  let all := context.entries.foldl (fun m b => if m.contains b.1 then m else m.insert b.1 b.2) own
  let all := (all.insert "level" (.text e.level.name)).insert "timestamp" (.text time)
  ⟨.ofList (all.entries.filter fun b => !hidden.contains b.1)⟩

/-- The record as an object. -/
def json (r : Record) : String := Json.ofValue (.map (r.fields.entries.map fun b => (.text b.1, b.2)))

/-! ### Columns -/

/-- The columns of the level and of the message. -/
def levelWidth : Nat := 9

def messageWidth : Nat := 30

/-- A text with spaces behind it up to a width. -/
def padded (width : Nat) (s : String) : String :=
  s ++ String.ofList (List.replicate (width - (Text.codes s.toList).length) ' ')

/-- A text is quoted if it holds one of these. -/
def marks : List Char := [' ', '\t', '=', '\r', '\n', '"', '\'']

/-- A value behind its name. -/
def valueText : Value → String
  | .text s => if s.toList.any marks.contains then quoted s else s
  | v => v.shown

/-- A field with its name. -/
def named (name : String) (v : Value) : String := name ++ "=" ++ valueText v

/-- The source of an event between brackets. -/
def bracketed (v : Value) : String := "[" ++ v.inSentence ++ "]"

/-- The fields that have a column of their own, in order, and how they are written there.  A
field without a name comes before all others. -/
def columns : List (String × (Value → String)) := [
  ("", named ""), ("timestamp", Value.inSentence),
  ("level", fun v => "[" ++ padded levelWidth v.inSentence ++ "]"),
  ("event", fun v => padded messageWidth v.inSentence), ("logger", bracketed), ("logger_name", bracketed)]

/-- The fields that tell of a failure.  They stand below the line. -/
def failureNames : List String := ["stack", "exception", "exc_info"]

/-- The other fields, in alphabetical order. -/
def others (r : Record) : List (String × Value) :=
  (r.fields.entries.filter fun b =>
    !failureNames.contains b.1 && !(columns.map Prod.fst).contains b.1).mergeSort
      fun a b => !(b.1 < a.1)

/-- The line with the columns, without spaces at its end. -/
def line (r : Record) : String :=
  let front := columns.filterMap fun column => (r.fields.get? column.1).map column.2
  let all := " ".intercalate (front ++ r.others.map fun b => named b.1 b.2)
  String.ofList (all.toList.reverse.dropWhile (· = ' ')).reverse

/-- The text of a field, if it has one. -/
def text? (r : Record) (name : String) : Option String :=
  match r.fields.get? name with
  | none => none
  | some .null => none
  | some v => some v.inSentence

/-- The border between the place and the fault of a failure. -/
def border : String := "\n\n" ++ String.ofList (List.replicate 79 '=') ++ "\n"

/-- The record in columns; what is known of a failure stands below. -/
def console (r : Record) : String :=
  let fault := r.text? "exception"
  let failed := fault.isSome || ((r.fields.get? "exc_info").map Value.holds) = some true
  r.line ++
    (match r.text? "stack" with
     | some stack => "\n" ++ stack ++ (if failed then border else "")
     | none => "") ++
    (match fault with
     | some fault => "\n" ++ fault
     | none => "")

end Record
end Log
end Replatform
