import Replatform.Git.Client
import Replatform.Log.Setup
import Replatform.Plan
import Replatform.Settings.Number
import Replatform.Settings.Sources

/-! # Settings

What can be set for a planning run, and what is checked of it.  A setting that no
source has is what it is by default.
-/
namespace Replatform

/-- The settings of a planning run. -/
structure Settings where
  projectName : String
  clusterType : String
  registryUrl : String
  registryNamespace : String
  ignoreUnsupportedKinds : Bool
  gitBinary : String
  /-- The time limit of a process in seconds. -/
  gitTimeout : Binary64
  analyzerWorkers : Int
  logFormat : Option Log.Format
  logLevel : Log.Level
  deriving DecidableEq

namespace Settings

open Schema

/-- The names of the settings in order. -/
def names : List String := [
  "project_name", "cluster_type", "registry_url", "registry_namespace", "ignore_unsupported_kinds",
  "git_binary", "git_timeout_seconds", "analyzer_workers", "log_format", "log_level"]

/-- A whole number above zero. -/
def readWorkers : Reader Int := fun v =>
  (Number.int v).bind fun n => if n < 1 then .fail .belowLeast else .ok n

/-- A number above zero. -/
def readSeconds : Reader Binary64 := fun v =>
  (Number.float v).bind fun x => if x.isPositive then .ok x else .fail .tooSmall

/-- The name of a log format, or nothing. -/
def readFormat : Reader (Option Log.Format) := fun v =>
  (Reader.text v).bind fun s =>
    let name := String.ofList (Text.lower (Text.trim s.toList))
    if name = "" then .ok none
    else
      match Log.Format.ofName? name with
      | some format => .ok (some format)
      | none => .fail (.rule ("Unsupported log format '" ++ name ++ "'. Use json or console."))

/-- The name of a level as it is set. -/
def levelName (l : Log.Level) : String := uppered l.name

/-- The name of a log level. -/
def readLevel : Reader Log.Level := fun v =>
  (Reader.text v).bind fun s =>
    let name := String.ofList (Text.upper (Text.trim s.toList))
    match Log.Level.all.find? fun l => levelName l = name with
    | some l => .ok l
    | none =>
      .fail (.rule ("Unsupported log level '" ++ name ++ "'. Use one of " ++
        ", ".intercalate (Log.Level.all.map levelName) ++ "."))

/-- The settings in the fields of a section. -/
def readFields (es : Entries) : Checked Settings :=
  let setting {α : Type} (name : String) (default : α) (read : Reader α) := optional default name name read es
  Settings.mk <$> setting "project_name" Plan.defaultName .text
    <*> setting "cluster_type" Plan.defaultClusterType .text
    <*> setting "registry_url" "" .text
    <*> setting "registry_namespace" "" .text
    <*> setting "ignore_unsupported_kinds" false .flag
    <*> setting "git_binary" "git" .text
    <*> setting "git_timeout_seconds" (.ofInt 10) readSeconds
    <*> setting "analyzer_workers" 1 readWorkers
    <*> setting "log_format" none readFormat
    <*> setting "log_level" .info readLevel

/-- The settings from given values, an environment and the bytes of a file of variables. -/
def read (given : Given) (env : List (String × String)) (file : Option (List UInt8)) :
    Except Text.Encoding.Fault (Checked Settings) :=
  (sources names given env file).map readFields

/-- The output layer that the settings are. -/
def output (s : Settings) : KubernetesOutput where
  registryUrl := s.registryUrl
  registryNamespace := s.registryNamespace
  cluster := ⟨s.clusterType, ""⟩
  ignoreUnsupportedKinds := s.ignoreUnsupportedKinds

/-- The command-line program that the settings name. -/
def client (s : Settings) : Git.Client := ⟨s.gitBinary, .float s.gitTimeout⟩

end Settings
end Replatform
