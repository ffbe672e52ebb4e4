import Replatform.Document.Basic

/-! # Plans and documents

A plan as a document and a document as a plan.  Either way a conversion is applied to
everything that is a path: so paths can be made relative on the way to a file and
absolute on the way back.
-/
namespace Replatform

namespace Document

/-- The conversion of a path that may be missing; an empty text stays as it is. -/
def convertOptional (f : String → String) (path : String) : String := if path = "" then "" else f path

/-- The target options; they are paths for some build methods only. -/
def convertOptions (f : String → String) (build : BuildMethod) (options : List String) : List String :=
  if build.hasPathOptions then options.map f else options

/-- The repository with its paths converted. -/
def convertRepo (f : String → String) (r : RepoInfo) : RepoInfo :=
  { r with dir := convertOptional f r.dir, targetPath := convertOptional f r.targetPath }

/-- The output with its path converted. -/
def convertOutput (f : String → String) (o : KubernetesOutput) : KubernetesOutput :=
  { o with cluster := { o.cluster with path := convertOptional f o.cluster.path } }

/-- The paths of an artifact map, converted. -/
def convertArtifacts {κ : Type} (f : String → String) (m : ArtifactMap κ) :
    OrderedMap κ (List String) :=
  m.paths.map (·.map f)

/-- A service as a plan file holds it. -/
def ofService (f : String → String) (s : Service) : ServiceDocument where
  name := s.name
  relPath := s.relPath
  image := s.image
  strategy := s.strategy
  build := s.build
  sourceKinds := s.sourceKinds
  targetOptions := convertOptions f s.build s.targetOptions
  sources := convertArtifacts f s.sources
  builds := convertArtifacts f s.builds
  updatesBuild := s.updatesBuild
  updatesDeploy := s.updatesDeploy
  repo := convertRepo f s.repo

/-- The document of a plan, whatever its kind. -/
def ofPlan (f : String → String) (p : Plan) : Document where
  apiVersion := p.apiVersion
  kind := p.kind
  name := p.name
  rootDir := p.rootDir
  k8sFiles := p.k8sFiles.map f
  services := p.services.map (·.map (ofService f))
  targets := convertArtifacts f p.targets
  output := convertOutput f p.output

/-- The document of a plan of the right kind. -/
def ofPlan? (f : String → String) (p : Plan) : Schema.Checked Document :=
  ((checkKind p.kind).under (.key "kind")).map fun _ => ofPlan f p

/-- The paths of an artifact map in a plan file, converted; what is or becomes a repeat is
dropped. -/
def toArtifacts {κ : Type} [DecidableEq κ] (f : String → String) (m : OrderedMap κ (List String)) :
    ArtifactMap κ :=
  .ofList ((ArtifactMap.ofList m.entries).toList.map fun e => (e.1, e.2.map f))

/-- A service of a plan file.  Repeats in its lists are dropped. -/
def toService (f : String → String) (s : ServiceDocument) : Service where
  name := s.name
  relPath := s.relPath
  image := s.image
  strategy := s.strategy
  build := s.build
  sourceKinds := Discovery.distinct s.sourceKinds
  targetOptions := Discovery.distinct (convertOptions f s.build s.targetOptions)
  sources := toArtifacts f s.sources
  builds := toArtifacts f s.builds
  updatesBuild := s.updatesBuild
  updatesDeploy := s.updatesDeploy
  repo := convertRepo f s.repo

/-- The plan of a document. -/
def toPlan (f : String → String) (d : Document) : Plan where
  apiVersion := d.apiVersion
  kind := d.kind
  name := d.name
  rootDir := d.rootDir
  k8sFiles := d.k8sFiles.map f
  services := d.services.map (·.map (toService f))
  targets := toArtifacts f d.targets
  output := convertOutput f d.output

end Document
end Replatform
