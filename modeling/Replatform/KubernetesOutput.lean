/-! # The Kubernetes output of a plan

What is to be generated, as layers of opinions.  An empty text is no opinion; the flag
always is one, unless the whole layer is blank.
-/
namespace Replatform

/-- The cluster to generate for: a kind of cluster by name, or a path to its description. -/
structure TargetCluster where
  type : String
  path : String
  deriving DecidableEq, Repr

/-- A layer of opinions on the output. -/
structure KubernetesOutput where
  registryUrl : String
  registryNamespace : String
  cluster : TargetCluster
  ignoreUnsupportedKinds : Bool
  deriving DecidableEq, Repr

namespace KubernetesOutput

/-- The layer without an opinion. -/
def blank : KubernetesOutput := ⟨"", "", ⟨"", ""⟩, false⟩

def isBlank (o : KubernetesOutput) : Bool := o = blank

/-- The newer text, unless it is empty. -/
def prefer (old new : String) : String := if new = "" then old else new

/-- The output under a layer of higher priority.  The cluster is taken as a whole, and only
from a layer that names a type. -/
def merge (o layer : KubernetesOutput) : KubernetesOutput :=
  if layer.isBlank then o
  else
    { registryUrl := prefer o.registryUrl layer.registryUrl
      registryNamespace := prefer o.registryNamespace layer.registryNamespace
      cluster := if layer.cluster.type = "" then o.cluster else layer.cluster
      ignoreUnsupportedKinds := layer.ignoreUnsupportedKinds }

end KubernetesOutput
end Replatform
