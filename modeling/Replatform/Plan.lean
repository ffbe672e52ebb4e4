import Replatform.KubernetesOutput
import Replatform.Service

/-! # Plans

A plan is the merged view of all services that were found in a source tree, together
with what is to be generated from them.
-/
namespace Replatform

/-- The services of a plan: those that were found under a name, name by name. -/
abbrev Services := OrderedMap String (List Service)

/-- A plan. -/
structure Plan where
  name : String
  apiVersion : String
  kind : String
  /-- The source tree, or nothing. -/
  rootDir : String
  k8sFiles : List String
  services : Services
  targets : ArtifactMap TargetArtifact
  output : KubernetesOutput
  deriving DecidableEq

namespace Plan

/-- The kind that a plan file has to state. -/
def standardKind : String := "Plan"

def standardApiVersion : String := "move2kube.konveyor.io/v1alpha1"

def defaultName : String := "myproject"

def defaultClusterType : String := "Kubernetes"

/-- A plan without services. -/
def new (name clusterType : String) : Plan where
  name := name
  apiVersion := standardApiVersion
  kind := standardKind
  rootDir := ""
  k8sFiles := []
  services := .empty
  targets := .empty
  output := { KubernetesOutput.blank with cluster := ⟨clusterType, ""⟩ }

/-- All services, name by name. -/
def entries (p : Plan) : List Service := p.services.values.flatten

def serviceCount (p : Plan) : Nat := p.entries.length

/-- The output under layers, the lowest priority first. -/
def applyLayers (p : Plan) (layers : List KubernetesOutput) : Plan :=
  { p with output := layers.foldl KubernetesOutput.merge p.output }

/-- The two lists of services agree one by one, but for the order of artifact kinds. -/
def sameList : List Service → List Service → Bool
  | [], [] => true
  | s :: ss, t :: ts => s.same t && sameList ss ts
  | _, _ => false

/-- The two plans agree in everything but the order of names and artifact kinds. -/
def same (p q : Plan) : Bool :=
  { p with services := .empty, targets := .empty } = { q with services := .empty, targets := .empty } &&
    p.services.sameEntries sameList q.services && p.targets.same q.targets

end Plan
end Replatform
