import Replatform.Log.Event
import Replatform.Path
import Replatform.Text.Native

/-! # Looking into a repository

The questions that are put to a repository, and why there may be no answer.
-/
namespace Replatform
namespace Git

/-- A question about the repository around a directory. -/
inductive Query where
  | remotes (dir : Path)
  | details (dir : Path) (remote : Option String)
  deriving DecidableEq, Repr

/-- The root and the branch of a repository and the URLs of one of its remotes.  The branch is
empty if none is checked out. -/
structure RepoDetails where
  root : String
  branch : String
  urls : List String
  deriving DecidableEq, Repr

/-- The words of a command. -/
abbrev Command := List String

/-- Why a repository could not be inspected. -/
inductive Inspection where
  | notFound (binary : String) (command : Command)
  | timedOut (seconds : Value) (command : Command)
  /-- The command ended with a code other than zero; `report` is what it said. -/
  | failed (report : String) (code : Int) (command : Command)
  /-- An inspector has no answer and says why. -/
  | reported (text : String)

/-- The wording of a failed inspection. -/
def Inspection.message : Inspection → String
  | .notFound binary _ => "git executable '" ++ binary ++ "' not found"
  | .timedOut seconds _ => "git timed out after " ++ seconds.inSentence ++ "s"
  | .failed report code _ => if report = "" then "git exited with " ++ toString code else report
  | .reported text => text

/-- The circumstances of a failed inspection. -/
def Inspection.context : Inspection → Log.Fields
  | .notFound _ command => .ofList [("command", words command)]
  | .timedOut _ command => .ofList [("command", words command)]
  | .failed _ code command => .ofList [("command", words command), ("returncode", .int code)]
  | .reported _ => .empty
where
  /-- A command as a value. -/
  words (command : Command) : Value := .list (command.map Value.text)

/-- Why a process says nothing about the repository.  None of this is a failed inspection. -/
inductive Breakdown where
  /-- The operating system does not let the program run; its error has a number and a wording. -/
  | refused (binary : String) (number : Nat) (wording : String)
  /-- A word of the command cannot be handed over. -/
  | unusable (why : Text.Unusable)
  /-- What the process wrote is no text. -/
  | undecodable (fault : Utf8.Fault)
  /-- The process cannot be waited for with its time limit. -/
  | unwaitable (message : String)
  deriving DecidableEq, Repr

/-- The wording of a breakdown. -/
def Breakdown.message : Breakdown → String
  | .refused binary number wording => Text.errno number wording ++ ": " ++ quoted binary
  | .unusable why => why.message
  | .undecodable fault => fault.message
  | .unwaitable message => message

/-- Why a query has no answer. -/
inductive Fault where
  | inspection (i : Inspection)
  | breakdown (b : Breakdown)

end Git
end Replatform
