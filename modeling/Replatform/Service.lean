import Replatform.ArtifactMap

/-! # Services

A service is one proposal of how a part of a source tree becomes a unit of deployment.
Two services are the same if name, image, strategy and build method agree, and the
build directories too where both name one; then the lists of one are added to those of
the other.
-/
namespace Replatform

/-- The repository of a service.  Nothing but empty texts means that none was found. -/
structure RepoInfo where
  dir : String
  url : String
  branch : String
  targetPath : String
  deriving DecidableEq, Repr

namespace RepoInfo

/-- No repository. -/
def none : RepoInfo := ⟨"", "", "", ""⟩

def isEmpty (r : RepoInfo) : Bool := r = none

end RepoInfo

/-- A service. -/
structure Service where
  name : String
  image : String
  strategy : Strategy
  build : BuildMethod
  relPath : String
  sourceKinds : List SourceKind
  /-- Names of images, or file paths if the build method has path options. -/
  targetOptions : List String
  sources : ArtifactMap SourceArtifact
  builds : ArtifactMap BuildArtifact
  updatesBuild : Bool
  updatesDeploy : Bool
  repo : RepoInfo
  deriving DecidableEq

namespace Service

/-- A service of a name with the image and the path that the name suggests. -/
def new (name : String) (strategy : Strategy) : Service where
  name := name
  image := name ++ ":latest"
  strategy := strategy
  build := .reuse
  relPath := "/" ++ name
  sourceKinds := []
  targetOptions := []
  sources := .empty
  builds := .empty
  updatesBuild := false
  updatesDeploy := false
  repo := .none

def addSourceKind (s : Service) (k : SourceKind) : Service :=
  { s with sourceKinds := Discovery.add s.sourceKinds k }

def addTargetOption (s : Service) (option : String) : Service :=
  { s with targetOptions := Discovery.add s.targetOptions option }

def addSource (s : Service) (k : SourceArtifact) (path : String) : Service :=
  { s with sources := s.sources.add k path }

def addBuild (s : Service) (k : BuildArtifact) (path : String) : Service :=
  { s with builds := s.builds.add k path }

/-- The directory that the image is built from. -/
def buildDir? (s : Service) : Option String := s.builds.first? .sourceCode

def withRepo (s : Service) (r : RepoInfo) : Service := { s with repo := r }

/-- The two services agree in everything but the order of artifact kinds. -/
def same (s t : Service) : Bool :=
  { s with sources := .empty, builds := .empty } = { t with sources := .empty, builds := .empty } &&
    s.sources.same t.sources && s.builds.same t.builds

/-- Both directories are missing, or one is, or they are equal. -/
def sameDir : Option String → Option String → Bool
  | some d, some e => d == e
  | _, _ => true

/-- The two are the same service. -/
def isSame (s t : Service) : Bool :=
  s.name == t.name && s.image == t.image && s.strategy == t.strategy && s.build == t.build &&
    sameDir s.buildDir? t.buildDir?

/-- The service with what another one adds to its flags, lists and maps. -/
def absorb (s t : Service) : Service :=
  { s with
    updatesBuild := s.updatesBuild || t.updatesBuild
    updatesDeploy := s.updatesDeploy || t.updatesDeploy
    sourceKinds := Discovery.union s.sourceKinds t.sourceKinds
    targetOptions := Discovery.union s.targetOptions t.targetOptions
    sources := s.sources.union t.sources
    builds := s.builds.union t.builds }

/-- The service with another one merged into it, if they are the same. -/
def merge? (s t : Service) : Option Service := if s.isSame t then some (s.absorb t) else none

end Service
end Replatform
