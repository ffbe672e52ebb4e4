import Replatform.Assembly
import Replatform.Git.Resolver
import Replatform.Pool

/-! # A planning run

All analyzers look for services below a root, several at a time.  The services get their
repositories and are submitted to a plan, analyzer by analyzer; then the output layers are
applied.  The first analyzer that fails, in the order of the list, ends the run before any
repository is asked for.
-/
namespace Replatform

/-- What an analyzer says when it fails: the kind of fault and its wording. -/
structure AnalyzerFault where
  kind : String
  message : String
  deriving DecidableEq, Repr

/-- Something that finds services below a root. -/
structure Analyzer where
  name : String
  discover : Path → Except AnalyzerFault (List Service)

/-- A planning run, but for the root and the output layers. -/
structure Workflow where
  analyzers : List Analyzer
  /-- The file tree and the inspector of repositories, if these are to be looked for. -/
  repositories : Option (Git.Host × Git.Inspector)
  planName : String
  clusterType : String
  /-- What the analyzers are run by. -/
  pool : Pool

namespace Workflow

/-- Why a run ends without a plan. -/
inductive Fault where
  | analyzer (name root : String) (fault : AnalyzerFault)
  | repository (fault : Git.ResolveFault)

/-- The wording of a fault. -/
def Fault.message : Fault → String
  | .analyzer name _ fault => "Analyzer " ++ name ++ " failed: " ++ fault.message
  | .repository fault => fault.message

/-- What the analyzers have found, in their order.  The first that has failed ends the run. -/
def collect (root : Path) : List (Analyzer × Except AnalyzerFault (List Service)) →
    Log.Activity Fault (List (String × List Service))
  | [] => return []
  | (a, .ok services) :: rest => do
    let more ← collect root rest
    return (a.name, services) :: more
  | (a, .error fault) :: _ => do
    Log.report .error "Analyzer failed"
      [("analyzer", .text a.name), ("error_type", .text fault.kind),
        ("error_details", .text fault.message)]
    throw (.analyzer a.name root.text fault)

/-- Runs all analyzers. -/
def discover (w : Workflow) (root : Path) : Log.Activity Fault (List (String × List Service)) :=
  collect root (w.analyzers.zip (w.pool.results (·.discover root) w.analyzers))

/-- The path whose repository is that of a service: its first source directory, or the root if
it has none. -/
def sourcePath (root : Path) (s : Service) : Path :=
  match s.sources.first? .sourceCode with
  | none => root
  | some dir => if dir = "" then root else root.join (.parse dir)

/-- A service with its repository, unless it has one already. -/
def enrich (w : Workflow) (root : Path) (s : Service) : Log.Activity Fault Service := do
  match w.repositories with
  | none => return s
  | some (host, inspector) =>
    if !s.repo.isEmpty then return s
    let (found, s) ← (Git.Resolver.gather host inspector s (sourcePath root s)).adapt Fault.repository
    if !found then
      Log.report .debug "Service has no git metadata" [("service_name", .text s.name)]
    return s

/-- The plan with what the analyzers found. -/
def mergeAll (w : Workflow) (root : Path) (p : Plan) :
    List (String × List Service) → Log.Activity Fault Plan
  | [] => return p
  | (name, services) :: rest => do
    let candidates ← services.mapM (w.enrich root)
    let (p, report) ← p.submit candidates
    Log.report .info "Analyzer results merged"
      [("analyzer", .text name), ("candidates", .int candidates.length),
        ("merged", .int report.merged), ("appended", .int report.appended)]
    mergeAll w root p rest

/-- The plan of a root, once the root is bound to all events. -/
def plan (w : Workflow) (root : Path) (layers : List KubernetesOutput) : Log.Activity Fault Plan := do
  Log.report .info "Planning started" [("analyzers", .int w.analyzers.length)]
  let start := { Plan.new w.planName w.clusterType with rootDir := root.text }
  let found ← w.discover root
  let p ← w.mergeAll root start found
  let p := p.applyLayers layers
  Log.report .info "Planning completed" [("services", .int p.serviceCount)]
  return p

/-- Runs an activity with the name of the plan and the root bound to its events, and drops
both however it ends. -/
def bound {α : Type} (w : Workflow) (root : Path) (act : Log.Activity Fault α) : Log.Activity Fault α := do
  modify fun j => (j.bind "plan_name" (.text w.planName)).bind "root_dir" (.text root.text)
  let outcome ← (liftM act.run : Log.Activity Fault (Except Fault α))
  modify fun j => j.unbind ["plan_name", "root_dir"]
  match outcome with
  | .ok a => return a
  | .error fault => throw fault

/-- The plan of a root with output layers, the lowest priority first. -/
def execute (w : Workflow) (rootDir : String) (layers : List KubernetesOutput) : Log.Activity Fault Plan :=
  let root := Path.parse rootDir
  w.bound root (w.plan root layers)

end Workflow
end Replatform
