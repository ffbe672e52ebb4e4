import Replatform.OrderedMap
import Replatform.Value

/-! # Log events

What a part of the program reports: a level, a message and fields.
-/
namespace Replatform
namespace Log

/-- How grave an event is. -/
inductive Level where
  | debug
  | info
  | warning
  | error
  | critical
  deriving DecidableEq, Repr

namespace Level

def all : List Level := [.debug, .info, .warning, .error, .critical]

/-- The name of a level. -/
def name : Level → String
  | .debug => "debug"
  | .info => "info"
  | .warning => "warning"
  | .error => "error"
  | .critical => "critical"

/-- The weight of a level. -/
def weight : Level → Nat
  | .debug => 10
  | .info => 20
  | .warning => 30
  | .error => 40
  | .critical => 50

end Level

/-- Named values; a name occurs once. -/
abbrev Fields := OrderedMap String Value

/-- An event. -/
structure Event where
  level : Level
  message : String
  fields : Fields

/-- The event in a context: the values that are bound there come first, and the event's own
values take precedence over them. -/
def Event.within (context : Fields) (e : Event) : Event :=
  { e with fields := .ofList (context.entries ++ e.fields.entries) }

end Log
end Replatform
