import Replatform.Git.Inspector
import Replatform.Text.Blank

/-! # Answers from the command line

The command-line program as an inspector of repositories.  Every answer is the output of a
process.  A process that fails is a failed inspection if it is asked for the remotes or the root of
the repository; a missing branch or missing URLs are no fault.  A process that breaks down gives no
answer at all.
-/
namespace Replatform
namespace Git

/-- How a process ends. -/
inductive Outcome where
  /-- What the process wrote has been decoded, as far as it is text. -/
  | completed (stdout stderr : Except Utf8.Fault String) (code : Int)
  | notFound
  | timedOut
  /-- The operating system does not let the program run. -/
  | refused (number : Nat) (wording : String)
  /-- The operating system does not wait as long as the time limit says, and the process is ended. -/
  | unwaitable (message : String)

/-- The text that a process wrote, with line feeds for all line ends. -/
def decoded (output : List UInt8) : Except Utf8.Fault String :=
  (Utf8.decode output).map fun cs => String.ofList (Text.ofChars (Text.plainLines cs))

/-- The end of a process that wrote these bytes. -/
def Outcome.wrote (stdout stderr : List UInt8) (code : Int) : Outcome :=
  .completed (decoded stdout) (decoded stderr) code

/-- How the processes end; it may depend on all that happened before. -/
abbrev Shell := Log.Journal → Command → Outcome

/-- The command-line program and the time limit of a process in seconds. -/
structure Client where
  binary : String
  timeout : Value

namespace Client

/-- A text without the white space around it. -/
def trimmed (s : String) : String := String.ofList (Text.trim s.toList)

/-- The lines of an output that are not blank, trimmed. -/
def outputLines (output : String) : List String :=
  (Text.filledLines output.toList).map String.ofList

/-- What a process wrote, which breaks it down unless it is text. -/
def text (output : Except Utf8.Fault String) : Except Fault String :=
  output.mapError fun fault => .breakdown (.undecodable fault)

/-- What the end of a process says.  All that it wrote has to be text, whatever its code. -/
def answer (client : Client) (command : Command) : Outcome → Except Fault String
  | .completed stdout stderr code => do
    let output ← text stdout
    let report ← text stderr
    if code = 0 then return output
    else throw (.inspection (.failed (trimmed report) code command))
  | .notFound => .error (.inspection (.notFound client.binary command))
  | .timedOut => .error (.inspection (.timedOut client.timeout command))
  | .refused number wording => .error (.breakdown (.refused client.binary number wording))
  | .unwaitable message => .error (.breakdown (.unwaitable message))

/-- What comes of a command.  There is no process if a word of it cannot be handed over. -/
def ending (client : Client) (shell : Shell) (before : Log.Journal) (command : Command) :
    Except Fault String :=
  match command.findSome? Text.unusable? with
  | some why => .error (.breakdown (.unusable why))
  | none => client.answer command (shell before command)

/-- The words with which the program is run on a directory. -/
def command (client : Client) (dir : Path) (args : List String) : Command :=
  client.binary :: "-C" :: dir.text :: args

/-- Runs the program on a directory. -/
def run (client : Client) (shell : Shell) (dir : Path) (args : List String) :
    Log.Activity Fault String := do
  let command := client.command dir args
  let before ← get
  set (before.record (.started command client.timeout))
  match client.ending shell before command with
  | .ok output => return output
  | .error fault => throw fault

/-- The output of a process, or nothing after a failed inspection, which is reported. -/
def runOrElse (client : Client) (shell : Shell) (dir : Path) (args : List String) (message : String)
    (fields : List (String × Value)) : Log.Activity Fault (Option String) :=
  tryCatch (some <$> client.run shell dir args) fun
    | .inspection _ => do
      Log.report .debug message fields
      return none
    | fault => throw fault

/-- The names of the remotes. -/
def remotes (client : Client) (shell : Shell) (dir : Path) : Log.Activity Fault (List String) :=
  outputLines <$> client.run shell dir ["remote"]

/-- The branch that is checked out, or nothing. -/
def branch (client : Client) (shell : Shell) (dir : Path) : Log.Activity Fault String := do
  let output ← client.runOrElse shell dir ["symbolic-ref", "--short", "-q", "HEAD"]
    "HEAD is detached or unknown" [("path", .text dir.text)]
  return (output.map trimmed).getD ""

/-- The URLs of a remote, none without a name. -/
def urls (client : Client) (shell : Shell) (dir : Path) (remote : Option String) :
    Log.Activity Fault (List String) := do
  match remote with
  | none => return []
  | some name =>
    if name = "" then return []
    let output ← client.runOrElse shell dir ["remote", "get-url", "--all", name]
      "Remote has no URLs" [("path", .text dir.text), ("remote", .text name)]
    return (output.map outputLines).getD []

/-- The details of the repository. -/
def details (client : Client) (shell : Shell) (dir : Path) (remote : Option String) :
    Log.Activity Fault RepoDetails := do
  let root ← client.run shell dir ["rev-parse", "--show-toplevel"]
  let branch ← client.branch shell dir
  let urls ← client.urls shell dir remote
  return ⟨trimmed root, branch, urls⟩

/-- The program as an inspector. -/
def inspector (client : Client) (shell : Shell) : Inspector :=
  ⟨client.remotes shell, client.details shell⟩

end Client
end Git
end Replatform
