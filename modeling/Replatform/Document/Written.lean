import Replatform.Document.Basic
import Replatform.Yaml.Tree

/-! # The written form of a document

A document as a tree of texts.  Sections and lists that say nothing are left out where
reading restores them.
-/
namespace Replatform
namespace Document

open Yaml

/-- The fields without those among `names` that say nothing. -/
def dropBlank (names : List String) (fields : List (String × Tree)) : List (String × Tree) :=
  fields.filter fun f => !(names.contains f.1 && f.2.isBlank)

/-- The fields without those that say nothing. -/
def dropAllBlank (fields : List (String × Tree)) : List (String × Tree) :=
  fields.filter fun f => !f.2.isBlank

/-- A list of texts. -/
def textsTree (ts : List String) : Tree := .list (ts.map .text)

/-- The paths of each kind of artifact. -/
def artifactsTree {κ : Type} [Term κ] (m : OrderedMap κ (List String)) : Tree :=
  .map (m.entries.map fun e => (Term.word e.1, textsTree e.2))

/-- The repository of a service. -/
def repoTree (r : RepoInfo) : Tree :=
  .map (dropAllBlank [("gitRepoDir", .text r.dir), ("gitRepoURL", .text r.url),
    ("gitRepoBranch", .text r.branch), ("targetPath", .text r.targetPath)])

/-- A service. -/
def serviceTree (s : ServiceDocument) : Tree :=
  .map (dropBlank ["serviceRelPath", "targetOptions", "buildArtifacts", "repoInfo"] [
    ("serviceName", .text s.name), ("serviceRelPath", .text s.relPath), ("image", .text s.image),
    ("translationType", .text (Term.word s.strategy)),
    ("containerBuildType", .text (Term.word s.build)),
    ("sourceType", textsTree (s.sourceKinds.map Term.word)),
    ("targetOptions", textsTree s.targetOptions),
    ("sourceArtifacts", artifactsTree s.sources), ("buildArtifacts", artifactsTree s.builds),
    ("updateContainerBuildPipeline", .flag s.updatesBuild),
    ("updateDeployPipeline", .flag s.updatesDeploy), ("repoInfo", repoTree s.repo)])

/-- The services name by name.  A name is written as a text of characters; of names that become
equal by this, the last counts. -/
def servicesTree (ss : OrderedMap String (List ServiceDocument)) : Tree :=
  .map (OrderedMap.ofList
    (ss.entries.map fun e => (Text.mended e.1, Tree.list (e.2.map serviceTree)))).entries

/-- The inputs. -/
def inputsTree (d : Document) : Tree :=
  .map (dropBlank ["kubernetesYamls", "targetInfoArtifacts"] [
    ("rootDir", .text d.rootDir), ("kubernetesYamls", textsTree d.k8sFiles),
    ("services", servicesTree d.services), ("targetInfoArtifacts", artifactsTree d.targets)])

/-- The Kubernetes output. -/
def outputTree (o : KubernetesOutput) : Tree :=
  .map (dropAllBlank [("registryURL", .text o.registryUrl),
    ("registryNamespace", .text o.registryNamespace),
    ("targetCluster", .map (dropAllBlank [("type", .text o.cluster.type), ("path", .text o.cluster.path)])),
    ("ignoreUnsupportedKinds", .flag o.ignoreUnsupportedKinds)])

/-- The document as a tree. -/
def tree (d : Document) : Tree :=
  .map [("apiVersion", .text d.apiVersion), ("kind", .text d.kind),
    ("metadata", .map [("name", .text d.name)]),
    ("spec", .map [("inputs", d.inputsTree),
      ("outputs", .map [("kubernetes", outputTree d.output)])])]

end Document
end Replatform
