import Replatform.Log.Journal

/-! # Inspectors

An inspector is whatever answers questions about repositories.
-/
namespace Replatform
namespace Git

/-- What answers questions about repositories. -/
structure Inspector where
  /-- The names of the remotes of the repository around a directory. -/
  remotes : Path → Log.Activity Fault (List String)
  /-- The details of the repository around a directory, with the URLs of a remote. -/
  details : Path → Option String → Log.Activity Fault RepoDetails

/-- An inspector that has its answers ready; they may depend on all that happened before. -/
def Inspector.ready (remotes : Log.Journal → Path → Except Inspection (List String))
    (details : Log.Journal → Path → Option String → Except Inspection RepoDetails) : Inspector where
  remotes dir := do
    match remotes (← get) dir with
    | .ok names => return names
    | .error i => throw (.inspection i)
  details dir remote := do
    match details (← get) dir remote with
    | .ok found => return found
    | .error i => throw (.inspection i)

end Git
end Replatform
