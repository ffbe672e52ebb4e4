/-! # Developer tasks

Testing, checking and formatting the sources, each by one or two processes that are
announced before they start.
-/
namespace Replatform

/-- A task. -/
inductive DeveloperTask where
  | test
  | lint
  | format
  deriving DecidableEq, Repr

namespace DeveloperTask

/-- The directories that hold sources. -/
def sourceDirs : List String := ["src", "tests"]

/-- The commands of a task, in order.  Arguments are for the tests only. -/
def commands (arguments : List String) : DeveloperTask → List (List String)
  | .test => ["pytest" :: "tests" :: arguments]
  | .lint => ["ruff" :: "check" :: sourceDirs, "ruff" :: "format" :: "--check" :: sourceDirs]
  | .format => ["ruff" :: "format" :: sourceDirs]

/-- What a task has done: the commands that were started, what was announced, and the exit
code. -/
structure Outcome where
  calls : List (List String)
  announced : String
  exit : Int
  deriving DecidableEq, Repr

/-- The announcement of a command. -/
def announcement (command : List String) : String := "Running " ++ " ".intercalate command ++ "...\n"

/-- Runs commands that end with the given codes, up to the first that fails. -/
def runAll : List (List String) → List Int → Outcome
  | [], _ => ⟨[], "", 0⟩
  | command :: rest, codes =>
    let code := codes.headD 0
    let more : Outcome := if code = 0 then runAll rest codes.tail else ⟨[], "", code⟩
    ⟨command :: more.calls, announcement command ++ more.announced, more.exit⟩

/-- Runs a task whose processes end with the given codes. -/
def run (task : DeveloperTask) (arguments : List String) (codes : List Int) : Outcome :=
  runAll (task.commands arguments) codes

end DeveloperTask
end Replatform
