import Replatform.Proofs.Git.Breakdown
import Replatform.Proofs.Text.Listing
import Replatform.Proofs.Text.Utf8

/-! # What the command-line program answers

Three commands make up the details of a repository, and the process of each can end in several ways.
Without the root there are no details and no further command; a branch or URLs that cannot be had
are only reported.  A command that breaks down ends the details wherever it comes.  An output that
lists names is read as these names.
-/
namespace Replatform
namespace Git

open Log (Journal)

/-- The process has succeeded, and its output lists the names in order, with white space around each
and a line end between any two. -/
def Outcome.Lists (outcome : Outcome) (names : List String) : Prop :=
  ∃ first rows report,
    outcome = .wrote (Utf8.encode (Text.listing first rows)) (Utf8.encode report) 0 ∧
    Text.IsListing first rows ∧
    names = rows.map fun row => String.ofList (Text.ofChars row.1)

/-- Each word of the command can be handed over. -/
def Command.Usable (command : Command) : Prop := ∀ word ∈ command, Text.unusable? word = none

instance (command : Command) : Decidable command.Usable :=
  inferInstanceAs (Decidable (∀ word ∈ command, Text.unusable? word = none))

namespace Client

variable {client : Client} {shell : Shell}

/-! ## Outputs -/

theorem decoded_encode (cs : List Char) :
    decoded (Utf8.encode cs) = .ok (String.ofList (Text.ofChars (Text.plainLines cs))) := by
  rw [decoded, Utf8.decode_encode]
  rfl

theorem answer_wrote (client : Client) (command : Command) (output report : List Char) :
    client.answer command (.wrote (Utf8.encode output) (Utf8.encode report) 0) =
      .ok (String.ofList (Text.ofChars (Text.plainLines output))) := by
  rw [Outcome.wrote, decoded_encode, decoded_encode]
  rfl

theorem outputLines_decoded (cs : List Char) :
    outputLines (String.ofList (Text.ofChars (Text.plainLines cs))) =
      (Text.filledLines cs).map fun line => String.ofList (Text.ofChars line) := by
  rw [outputLines, String.toList_ofList, Text.filledLines_decoded, List.map_map]
  rfl

theorem ending_of_usable {command : Command} (h : command.Usable) (j : Journal) :
    client.ending shell j command = client.answer command (shell j command) := by
  rw [ending, List.findSome?_eq_none_iff.mpr h]

/-- Names that are listed are read as they are listed. -/
theorem exists_ending_of_lists (client : Client) {command : Command} (husable : command.Usable)
    {j : Journal} {names : List String} (h : (shell j command).Lists names) :
    ∃ output, client.ending shell j command = .ok output ∧ outputLines output = names := by
  obtain ⟨first, rows, report, houtcome, hlisting, rfl⟩ := h
  refine ⟨String.ofList (Text.ofChars (Text.plainLines (Text.listing first rows))), ?_, ?_⟩
  · rw [ending_of_usable husable, houtcome, answer_wrote]
  · rw [outputLines_decoded, Text.filledLines_listing hlisting, List.map_map]
    rfl

/-! ## Commands that may fail -/

/-- The output of a command that may fail: there is none after a failed inspection. -/
def output? (client : Client) (shell : Shell) (command : Command) (j : Journal) :
    Except Fault (Option String) :=
  match client.ending shell j command with
  | .ok output => .ok (some output)
  | .error (.inspection _) => .ok none
  | .error fault => .error fault

/-- The journal behind a command that may fail: a failed inspection is reported. -/
def after (client : Client) (shell : Shell) (command : Command) (message : String)
    (fields : List (String × Value)) (j : Journal) : Journal :=
  let ended := j.record (.started command client.timeout)
  match client.ending shell j command with
  | .error (.inspection _) =>
    ended.record (.event ((Log.Event.mk .debug message (.ofList fields)).within ended.context))
  | _ => ended

theorem outside_after (command : Command) (message : String) (fields : List (String × Value))
    (j : Journal) : (client.after shell command message fields j).outside =
      j.outside ++ [.started command client.timeout] := by
  unfold after
  dsimp only
  split
  · rw [Journal.outside_record_event, Journal.outside_record_started]
  · exact Journal.outside_record_started j command client.timeout

theorem run_runOrElse (dir : Path) (args : List String) (message : String)
    (fields : List (String × Value)) (j : Journal) :
    (client.runOrElse shell dir args message fields).run.run j =
      (client.output? shell (client.command dir args) j,
        client.after shell (client.command dir args) message fields j) := by
  unfold runOrElse
  rw [Log.Activity.run_tryCatch, map_eq_pure_bind, Log.Activity.run_bind, run_run]
  unfold after output?
  rcases client.ending shell j (client.command dir args) with (i | b) | output <;> rfl

/-! ## Details -/

/-- The words that ask for the root. -/
def rootCommand (client : Client) (dir : Path) : Command :=
  client.command dir ["rev-parse", "--show-toplevel"]

/-- The words that ask for the branch. -/
def branchCommand (client : Client) (dir : Path) : Command :=
  client.command dir ["symbolic-ref", "--short", "-q", "HEAD"]

/-- The words that ask for the URLs of a remote. -/
def urlsCommand (client : Client) (dir : Path) (name : String) : Command :=
  client.command dir ["remote", "get-url", "--all", name]

/-- The journal behind the command that asks for the branch. -/
def afterBranch (client : Client) (shell : Shell) (dir : Path) : Journal → Journal :=
  client.after shell (client.branchCommand dir) "HEAD is detached or unknown"
    [("path", .text dir.text)]

/-- The journal behind the command that asks for the URLs of a remote, if it is given. -/
def afterUrls (client : Client) (shell : Shell) (dir : Path) (asked : Option String)
    (j : Journal) : Journal :=
  asked.elim j fun name => client.after shell (client.urlsCommand dir name) "Remote has no URLs"
    [("path", .text dir.text), ("remote", .text name)] j

/-- The output of the command that asks for the URLs of a remote; none if it is not given. -/
def urlsOutput? (client : Client) (shell : Shell) (dir : Path) (asked : Option String)
    (j : Journal) : Except Fault (Option String) :=
  asked.elim (.ok none) fun name => client.output? shell (client.urlsCommand dir name) j

theorem outside_afterBranch (dir : Path) (j : Journal) :
    (client.afterBranch shell dir j).outside =
      j.outside ++ [.started (client.branchCommand dir) client.timeout] :=
  outside_after _ _ _ j

theorem outside_afterUrls (dir : Path) (asked : Option String) (j : Journal) :
    (client.afterUrls shell dir asked j).outside =
      j.outside ++
        asked.toList.map fun name => .started (client.urlsCommand dir name) client.timeout := by
  cases asked with
  | none => exact (List.append_nil _).symm
  | some name => exact outside_after _ _ _ j

theorem run_remotes (dir : Path) (j : Journal) :
    ((client.remotes shell dir).run.run j).1 =
      (client.ending shell j (client.command dir ["remote"])).map outputLines := by
  unfold remotes
  rw [map_eq_pure_bind, Log.Activity.run_bind, run_run]
  cases client.ending shell j (client.command dir ["remote"]) <;> rfl

theorem run_branch (dir : Path) (j : Journal) :
    (client.branch shell dir).run.run j =
      ((client.output? shell (client.branchCommand dir) j).map fun output =>
          (output.map trimmed).getD "",
        client.afterBranch shell dir j) := by
  unfold branch
  rw [Log.Activity.run_bind, run_runOrElse, ← branchCommand, ← afterBranch]
  cases client.output? shell (client.branchCommand dir) j <;> rfl

theorem run_urls (dir : Path) (remote : Option String) (j : Journal) :
    (client.urls shell dir remote).run.run j =
      ((client.urlsOutput? shell dir (remote.filter (· ≠ "")) j).map fun output =>
          (output.map outputLines).getD [],
        client.afterUrls shell dir (remote.filter (· ≠ "")) j) := by
  unfold urls
  cases remote with
  | none => rfl
  | some name =>
    by_cases hname : name = ""
    · subst hname
      rfl
    · have hasked : (some name).filter (· ≠ "") = some name := by simp [hname]
      rw [hasked]
      dsimp only
      rw [if_neg hname, Log.Activity.run_bind, run_runOrElse, ← urlsCommand]
      unfold urlsOutput? afterUrls
      dsimp only [Option.elim]
      cases client.output? shell (client.urlsCommand dir name) j <;> rfl

/-- Without the root no other command is given. -/
theorem run_details_of_no_root {dir : Path} {j : Journal} {fault : Fault}
    (h : client.ending shell j (client.rootCommand dir) = .error fault) (remote : Option String) :
    (client.details shell dir remote).run.run j =
      (.error fault, j.record (.started (client.rootCommand dir) client.timeout)) := by
  unfold details
  rw [Log.Activity.run_bind, run_run, ← rootCommand, h]

/-- With the root the branch is asked for, and then the URLs, unless a command breaks down. -/
theorem run_details_of_root {dir : Path} {j : Journal} {root : String}
    (h : client.ending shell j (client.rootCommand dir) = .ok root) (remote : Option String) :
    let afterRoot := j.record (.started (client.rootCommand dir) client.timeout)
    let afterBranch := client.afterBranch shell dir afterRoot
    let asked := remote.filter (· ≠ "")
    (∀ fault, client.output? shell (client.branchCommand dir) afterRoot = .error fault →
      (client.details shell dir remote).run.run j = (.error fault, afterBranch)) ∧
    ∀ branch, client.output? shell (client.branchCommand dir) afterRoot = .ok branch →
      (client.details shell dir remote).run.run j =
        ((client.urlsOutput? shell dir asked afterBranch).map fun output =>
            ⟨trimmed root, (branch.map trimmed).getD "", (output.map outputLines).getD []⟩,
          client.afterUrls shell dir asked afterBranch) := by
  intro afterRoot afterBranch asked
  unfold details
  rw [Log.Activity.run_bind, run_run, ← rootCommand, h]
  dsimp only
  rw [Log.Activity.run_bind, run_branch]
  constructor
  · intro fault hbranch
    rw [hbranch]
    rfl
  · intro branch hbranch
    rw [hbranch]
    dsimp only [Except.map]
    rw [Log.Activity.run_bind, run_urls]
    cases client.urlsOutput? shell dir asked afterBranch <;> rfl

/-- What is listed by a command that may fail is read as it is listed. -/
theorem outputLines_of_lists {command : Command} {j : Journal} {output : Option String}
    (houtput : client.output? shell command j = .ok output) {names : List String}
    (h : (shell j command).Lists names) : (output.map outputLines).getD [] = names := by
  by_cases husable : command.Usable
  · obtain ⟨text, hending, hnames⟩ := exists_ending_of_lists client husable h
    rw [output?, hending] at houtput
    rw [← Except.ok.inj houtput]
    exact hnames
  · rw [output?, ending] at houtput
    cases hwords : command.findSome? Text.unusable? with
    | none => exact absurd (List.findSome?_eq_none_iff.mp hwords) husable
    | some why =>
      rw [hwords] at houtput
      cases houtput

/-- Where a command may fail a failed inspection is no fault. -/
theorem output?_ne_inspection (command : Command) (j : Journal) (i : Inspection) :
    client.output? shell command j ≠ .error (.inspection i) := by
  unfold output?
  rcases client.ending shell j command with (i' | b) | output
  · exact fun h => by cases h
  · exact fun h => by cases h
  · exact fun h => by cases h

theorem urlsOutput?_ne_inspection (dir : Path) (asked : Option String) (j : Journal)
    (i : Inspection) : client.urlsOutput? shell dir asked j ≠ .error (.inspection i) := by
  cases asked with
  | none => exact fun h => by cases h
  | some name => exact output?_ne_inspection _ j i

/-- The details are a failed inspection exactly if the look for the root is. -/
theorem details_inspection_iff (dir : Path) (remote : Option String) (j : Journal) :
    (∃ i, ((client.details shell dir remote).run.run j).1 = .error (.inspection i)) ↔
      ∃ i, client.ending shell j (client.rootCommand dir) = .error (.inspection i) := by
  cases hroot : client.ending shell j (client.rootCommand dir) with
  | error fault =>
    simp only [run_details_of_no_root hroot, Except.error.injEq]
  | ok root =>
    refine iff_of_false ?_ fun ⟨i, h⟩ => by cases h
    rintro ⟨i, hfault⟩
    obtain ⟨hbroken, hwhole⟩ := run_details_of_root hroot remote
    cases hbranch : client.output? shell (client.branchCommand dir)
        (j.record (.started (client.rootCommand dir) client.timeout)) with
    | error fault =>
      rw [hbroken fault hbranch] at hfault
      obtain rfl := Except.error.inj hfault
      exact output?_ne_inspection _ _ i hbranch
    | ok branch =>
      rw [hwhole branch hbranch] at hfault
      revert hfault
      cases hurls : client.urlsOutput? shell dir (remote.filter (· ≠ "")) _ with
      | error fault =>
        intro hfault
        obtain rfl := Except.error.inj hfault
        exact urlsOutput?_ne_inspection dir _ _ i hurls
      | ok output => exact fun hfault => by cases hfault

theorem eq_ok_of_toOption {α : Type} {outcome : Except Fault α} {a : α}
    (h : outcome.toOption = some a) : outcome = .ok a := by
  cases outcome with
  | error fault => cases h
  | ok b => exact congrArg Except.ok (Option.some.inj h)

end Client
end Git
end Replatform
