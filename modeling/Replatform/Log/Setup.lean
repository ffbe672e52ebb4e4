import Replatform.Log.Record
import Replatform.Text.Case

/-! # Setting up the log

Where logging is set up once, with a format and a threshold; later attempts have no
effect.  An event that reaches the threshold is written out.
-/
namespace Replatform
namespace Log

/-- The form of a line. -/
inductive Format where
  | json
  | console
  deriving DecidableEq, Repr

namespace Format

/-- The format of a name. -/
def ofName? (name : String) : Option Format :=
  if name = "json" then some .json else if name = "console" then some .console else none

/-- The environments in which objects are written unless a format is asked for. -/
def objectEnvironments : List String := ["qa", "staging", "prod", "production"]

/-- The format that is asked for by name, or else by the variable `LOG_FORMAT`, or else the one
that goes with the environment in `APP_ENV`.  An unknown name counts as none. -/
def select (env : List (String × String)) (name : Option String) : Format :=
  let asked := lowered (if name.getD "" = "" then (env.lookup "LOG_FORMAT").getD "" else name.getD "")
  match ofName? asked with
  | some format => format
  | none =>
    if objectEnvironments.contains (lowered ((env.lookup "APP_ENV").getD "local")) then .json else .console

end Format

/-- The thresholds by name; the first name of a threshold is the one that is shown. -/
def thresholds : List (String × Nat) := [
  ("CRITICAL", 50), ("ERROR", 40), ("WARNING", 30), ("INFO", 20), ("DEBUG", 10), ("NOTSET", 0),
  ("FATAL", 50), ("WARN", 30)]

/-- The threshold before logging is set up. -/
def initialThreshold : Nat := 30

/-- How events become lines. -/
structure Setup where
  format : Format
  threshold : Nat
  deriving DecidableEq, Repr

namespace Setup

/-- The name of the threshold. -/
def levelName (s : Setup) : String :=
  ((thresholds.find? fun t => t.2 = s.threshold).map Prod.fst).getD ("Level " ++ toString s.threshold)

/-- A level that is asked for has no threshold. -/
structure UnknownLevel where
  name : String
  deriving DecidableEq, Repr

/-- The wording of the fault. -/
def UnknownLevel.message (l : UnknownLevel) : String := "Unknown level: " ++ quoted l.name

/-- Sets logging up, unless it is; the level counts in whatever case.  With an unknown level the
threshold stays what it was. -/
def configure (env : List (String × String)) (format : Option String) (level : String)
    (current : Option Setup) : Setup × Option UnknownLevel :=
  match current with
  | some s => (s, none)
  | none =>
    let format := Format.select env format
    let name := uppered level
    match thresholds.lookup name with
    | some threshold => (⟨format, threshold⟩, none)
    | none => (⟨format, initialThreshold⟩, some ⟨name⟩)

end Setup

/-- The lines that an event in a context makes: none if it does not reach the threshold. -/
def Setup.lines (s : Setup) (time : String) (context : Fields) (e : Event) : List String :=
  if e.level.weight < s.threshold then []
  else
    let record := Record.ofEvent time context e
    writtenLines (match s.format with
      | .json => record.json
      | .console => record.console)

/-- The lines of a message of another library before logging is set up: the bare message, if it
reaches the threshold. -/
def bareLines (level : Level) (message : String) : List String :=
  if level.weight < initialThreshold then [] else writtenLines message

end Log
end Replatform
