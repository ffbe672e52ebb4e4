import Replatform.Git.Inspection

/-! # The journal of a run

What happens outside the plan while it is made: the events, the queries to a repository
and the processes that are started, in order, and the values that are bound to all
events for the time being.
-/
namespace Replatform
namespace Log

/-- Something that happened. -/
inductive Entry where
  | event (e : Event)
  | asked (query : Git.Query)
  /-- A process was to be started, with a time limit. -/
  | started (command : Git.Command) (seconds : Value)

/-- What happened so far, latest last, and what is bound. -/
structure Journal where
  context : Fields
  entries : List Entry

namespace Journal

/-- The journal before anything happened. -/
def empty : Journal := ⟨.empty, []⟩

instance : Inhabited Journal := ⟨empty⟩

def record (entry : Entry) (j : Journal) : Journal := { j with entries := j.entries ++ [entry] }

/-- Binds a value to the events to come. -/
def bind (name : String) (v : Value) (j : Journal) : Journal :=
  { j with context := j.context.insert name v }

/-- Drops bound values. -/
def unbind (names : List String) (j : Journal) : Journal :=
  { j with context := .ofList (j.context.entries.filter fun e => !names.contains e.1) }

/-- The events, each with what was bound. -/
def events (j : Journal) : List Event :=
  j.entries.filterMap fun
    | .event e => some e
    | _ => none

/-- The queries. -/
def queries (j : Journal) : List Git.Query :=
  j.entries.filterMap fun
    | .asked q => some q
    | _ => none

/-- The processes with their time limits. -/
def processes (j : Journal) : List (Git.Command × Value) :=
  j.entries.filterMap fun
    | .started command seconds => some (command, seconds)
    | _ => none

end Journal

/-- An activity that keeps a journal and may fail. -/
abbrev Activity (ε α : Type) := ExceptT ε (StateM Journal) α

/-- Records an event with what is bound. -/
def report {ε : Type} (level : Level) (message : String) (fields : List (String × Value)) :
    Activity ε Unit :=
  modify fun j => j.record (.event ((Event.mk level message (.ofList fields)).within j.context))

end Log
end Replatform
