import Replatform.FileTree
import Replatform.Git.Inspector
import Replatform.Service

/-! # The repository of a service

The look for the repository around a path.  A path that cannot be read is the fault of
the caller; that there is no repository, or none that can be inspected, is an answer.
-/
namespace Replatform
namespace Git

/-- The file tree that paths lead into and the working directory. -/
structure Host where
  tree : FileTree
  cwd : Path

/-- Why there is no answer. -/
inductive ResolveFault where
  | path (fault : FileTree.Fault)
  /-- The directory must not be read or searched. -/
  | denied (dir : String)
  | breakdown (b : Breakdown)

/-- The wording of a fault. -/
def ResolveFault.message : ResolveFault → String
  | .path ⟨.unusable why, _⟩ => why.message
  | .path fault => "Cannot read path '" ++ fault.path ++ "': " ++ fault.message
  | .denied dir => "Cannot read directory '" ++ dir ++ "'"
  | .breakdown b => b.message

namespace Resolver

/-- The remotes to ask for first. -/
def preferredRemotes : List String := ["upstream", "origin"]

/-- The remote to ask for: a preferred one, or else the first. -/
def pickRemote (names : List String) : Option String :=
  match preferredRemotes.find? names.contains with
  | some name => some name
  | none => names.head?

/-- The directory of a path: the path itself, or its parent if it leads to a file. -/
def directory (host : Host) (path : Path) : Log.Activity ResolveFault Path := do
  let shown := ("path", Value.text path.text)
  match host.tree.stat host.cwd path with
  | .error (.unusable why) => throw (.path ⟨.unusable why, path.text⟩)
  | .error refusal =>
    let fault : FileTree.Fault := ⟨refusal, path.text⟩
    Log.report .error "Failed to stat the path" [shown, ("error", .text fault.message)]
    throw (.path fault)
  | .ok node =>
    if !node.isDirectory then
      Log.report .debug "Path is not a directory, using its parent" [shown]
    let dir := if node.isDirectory then path else path.parent
    if !host.tree.isOpen host.cwd dir then
      Log.report .error "Directory is not readable" [("path", .text dir.text)]
      throw (.denied dir.text)
    return dir

/-- An answer, or nothing after a failed inspection, which is reported. -/
def inspect {α : Type} (query : Query) (answer : Log.Activity Fault α) (message : String)
    (shown : String × Value) : Log.Activity ResolveFault (Option α) := do
  modify (·.record (.asked query))
  let outcome ← (liftM answer.run : Log.Activity ResolveFault (Except Fault α))
  match outcome with
  | .ok a => return some a
  | .error (.inspection i) =>
    Log.report .debug message [shown, ("error", .text i.message)]
    return none
  | .error (.breakdown b) => throw (.breakdown b)

/-- The remote to ask for, if there is one. -/
def remote (inspector : Inspector) (dir : Path) : Log.Activity ResolveFault (Option String) := do
  let shown := ("path", Value.text dir.text)
  match ← inspect (.remotes dir) (inspector.remotes dir) "No remotes found" shown with
  | none => return none
  | some names =>
    if names = [] then Log.report .debug "No remotes found" [shown]
    return pickRemote names

/-- The repository around a path, if there is one. -/
def resolve (host : Host) (inspector : Inspector) (path : Path) :
    Log.Activity ResolveFault (Option RepoInfo) := do
  let dir ← directory host path
  let shown := ("path", Value.text dir.text)
  let remote ← remote inspector dir
  match ← inspect (.details dir remote) (inspector.details dir remote)
    "No git repository found" shown with
  | none => return none
  | some found =>
    if found.urls = [] then
      let name := match remote with
        | some name => Value.text name
        | none => Value.null
      Log.report .debug "Git repository has no remote URL" [shown, ("remote", name)]
    return some ⟨found.root, found.urls.headD "", found.branch, ""⟩

/-- The service with the repository around a path, or as it is if there is none; the mark says
whether there is. -/
def gather (host : Host) (inspector : Inspector) (s : Service) (path : Path) :
    Log.Activity ResolveFault (Bool × Service) := do
  match ← resolve host inspector path with
  | none => return (false, s)
  | some repo => return (true, s.withRepo repo)

end Resolver
end Git
end Replatform
