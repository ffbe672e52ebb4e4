import Replatform.Value

/-! # The vocabulary of plans

The closed sets of words that a plan may use.  Each set is a type of its own, and a
word belongs to one term of the set at most.
-/
namespace Replatform

/-- A closed set of words. -/
class Term (α : Type) where
  /-- What a term of the set is called. -/
  kind : String
  /-- The terms in their order. -/
  all : List α
  /-- The constant that names a term. -/
  label : α → String
  /-- The word that is written for a term. -/
  word : α → String
  mem_all : ∀ a, a ∈ all
  word_injective : ∀ a b, word a = word b → a = b

namespace Term

variable {α : Type} [Term α]

/-- The term of a word. -/
def ofWord? (w : String) : Option α := (all (α := α)).find? fun a => word a = w

theorem ofWord?_word (a : α) : ofWord? (word a) = some a := by
  have h : ((all (α := α)).find? fun b => word b = word a).isSome := by
    rw [List.find?_isSome]
    exact ⟨a, mem_all a, by simp⟩
  obtain ⟨b, hb⟩ := Option.isSome_iff_exists.1 h
  have hw := List.find?_some hb
  rw [ofWord?, hb, word_injective b a (by simpa using hw)]

theorem word_of_ofWord? {w : String} {a : α} (h : ofWord? w = some a) : word a = w := by
  simpa using List.find?_some h

/-- The wording of the fault that a value is no word of the set. -/
def unknown (α : Type) [Term α] (v : Value) : String := v.shown ++ " is not a valid " ++ kind α

end Term

/-- The source platform that drives the transformation of a service. -/
inductive Strategy where
  | compose
  | cfManifest
  | any
  | kubernetes
  | dockerfile
  deriving DecidableEq, Repr

instance : Term Strategy where
  kind := "TranslationType"
  all := [.compose, .cfManifest, .any, .kubernetes, .dockerfile]
  label
    | .compose => "COMPOSE"
    | .cfManifest => "CF_MANIFEST"
    | .any => "ANY"
    | .kubernetes => "KUBERNETES"
    | .dockerfile => "DOCKERFILE"
  word
    | .compose => "DockerCompose"
    | .cfManifest => "CloudFoundry"
    | .any => "Containerize"
    | .kubernetes => "Kubernetes"
    | .dockerfile => "Dockerfile"
  mem_all a := by cases a <;> simp
  word_injective a b := by cases a <;> cases b <;> simp

/-- The way in which the image of a service is made. -/
inductive BuildMethod where
  | newDockerfile
  | reuseDockerfile
  | reuse
  | cnb
  | manual
  | s2i
  deriving DecidableEq, Repr

instance : Term BuildMethod where
  kind := "ContainerBuildType"
  all := [.newDockerfile, .reuseDockerfile, .reuse, .cnb, .manual, .s2i]
  label
    | .newDockerfile => "NEW_DOCKERFILE"
    | .reuseDockerfile => "REUSE_DOCKERFILE"
    | .reuse => "REUSE"
    | .cnb => "CNB"
    | .manual => "MANUAL"
    | .s2i => "S2I"
  word
    | .newDockerfile => "NewDockerfile"
    | .reuseDockerfile => "ReuseDockerfile"
    | .reuse => "Reuse"
    | .cnb => "CNB"
    | .manual => "Manual"
    | .s2i => "S2I"
  mem_all a := by cases a <;> simp
  word_injective a b := by cases a <;> cases b <;> simp

/-- The target options of the method are file paths, not names of images. -/
def BuildMethod.hasPathOptions : BuildMethod → Bool
  | .newDockerfile => true
  | .reuseDockerfile => true
  | .s2i => true
  | _ => false

/-- The kind of source that a service was found in. -/
inductive SourceKind where
  | compose
  | directory
  | cfManifest
  | knative
  | kubernetes
  | dockerfile
  deriving DecidableEq, Repr

instance : Term SourceKind where
  kind := "SourceType"
  all := [.compose, .directory, .cfManifest, .knative, .kubernetes, .dockerfile]
  label
    | .compose => "COMPOSE"
    | .directory => "DIRECTORY"
    | .cfManifest => "CF_MANIFEST"
    | .knative => "KNATIVE"
    | .kubernetes => "KUBERNETES"
    | .dockerfile => "DOCKERFILE"
  word
    | .compose => "DockerCompose"
    | .directory => "Directory"
    | .cfManifest => "CfManifest"
    | .knative => "Knative"
    | .kubernetes => "Kubernetes"
    | .dockerfile => "Dockerfile"
  mem_all a := by cases a <;> simp
  word_injective a b := by cases a <;> cases b <;> simp

/-- The kind of file that a source path of a service leads to. -/
inductive SourceArtifact where
  | kubernetes
  | knative
  | compose
  | imageInfo
  | cfManifest
  | cfRunningManifest
  | sourceCode
  | dockerfile
  deriving DecidableEq, Repr

instance : Term SourceArtifact where
  kind := "SourceArtifactType"
  all := [.kubernetes, .knative, .compose, .imageInfo, .cfManifest, .cfRunningManifest, .sourceCode,
    .dockerfile]
  label
    | .kubernetes => "KUBERNETES"
    | .knative => "KNATIVE"
    | .compose => "COMPOSE"
    | .imageInfo => "IMAGE_INFO"
    | .cfManifest => "CF_MANIFEST"
    | .cfRunningManifest => "CF_RUNNING_MANIFEST"
    | .sourceCode => "SOURCE_CODE"
    | .dockerfile => "DOCKERFILE"
  word
    | .kubernetes => "Kubernetes"
    | .knative => "Knative"
    | .compose => "DockerCompose"
    | .imageInfo => "ImageInfo"
    | .cfManifest => "CfManifest"
    | .cfRunningManifest => "CfRunningManifest"
    | .sourceCode => "SourceCode"
    | .dockerfile => "Dockerfile"
  mem_all a := by cases a <;> simp
  word_injective a b := by cases a <;> cases b <;> simp

/-- The kind of file that a build path of a service leads to. -/
inductive BuildArtifact where
  | sourceCode
  deriving DecidableEq, Repr

instance : Term BuildArtifact where
  kind := "BuildArtifactType"
  all := [.sourceCode]
  label _ := "SOURCE_CODE"
  word _ := "SourceCode"
  mem_all a := by cases a; simp
  word_injective a b := by cases a; cases b; simp

/-- The kind of file that describes the target of a plan. -/
inductive TargetArtifact where
  | cluster
  deriving DecidableEq, Repr

instance : Term TargetArtifact where
  kind := "TargetInfoArtifactType"
  all := [.cluster]
  label _ := "K8S_CLUSTER"
  word _ := "KubernetesCluster"
  mem_all a := by cases a; simp
  word_injective a b := by cases a; cases b; simp

end Replatform
