import Replatform.Settings.Basic
import Replatform.Store
import Replatform.Workflow

/-! # The planner

All parts put together from the settings: logging, the look into repositories, the
planning run and its output layers.
-/
namespace Replatform

/-- A planner. -/
structure Planner where
  settings : Settings
  workflow : Workflow

namespace Planner

/-- The format and the level with which logging is set up. -/
def logging (s : Settings) : Option Log.Format × String := (s.logFormat, Settings.levelName s.logLevel)

/-- The planner with some analyzers on a file tree; which of the analyzers at work ends next is a
matter of `turn`. -/
def build (analyzers : List Analyzer) (turn : List Nat → Nat) (host : Git.Host) (shell : Git.Shell)
    (s : Settings) : Planner where
  settings := s
  workflow := {
    analyzers := analyzers
    repositories := some (host, s.client.inspector shell)
    planName := s.projectName
    clusterType := s.clusterType
    pool := ⟨s.analyzerWorkers.toNat, turn⟩ }

/-- The plan of a root.  The settings are the lowest of the output layers. -/
def plan (planner : Planner) (rootDir : String) (layers : List KubernetesOutput) :
    Log.Activity Workflow.Fault Plan :=
  planner.workflow.execute rootDir (planner.settings.output :: layers)

end Planner
end Replatform
