import Replatform.Plan
import Replatform.Schema.Reader

/-! # Plan documents

A plan as a plan file holds it: sections with fields, lists that may hold repeats, and
maps from artifact kinds to paths.  A document is read from any plain value of the right
shape; a field that is missing has its default.
-/
namespace Replatform

/-- A service in a plan file. -/
structure ServiceDocument where
  name : String
  relPath : String
  image : String
  strategy : Strategy
  build : BuildMethod
  sourceKinds : List SourceKind
  targetOptions : List String
  sources : OrderedMap SourceArtifact (List String)
  builds : OrderedMap BuildArtifact (List String)
  updatesBuild : Bool
  updatesDeploy : Bool
  repo : RepoInfo
  deriving DecidableEq

/-- A plan file. -/
structure Document where
  apiVersion : String
  kind : String
  name : String
  rootDir : String
  k8sFiles : List String
  services : OrderedMap String (List ServiceDocument)
  targets : OrderedMap TargetArtifact (List String)
  output : KubernetesOutput
  deriving DecidableEq

namespace Document

open Schema

/-- The paths of each kind of artifact. -/
def readArtifacts {κ : Type} [DecidableEq κ] [Term κ] : Reader (OrderedMap κ (List String)) :=
  .mapOrNull .term (.listOrNull .text)

/-- The repository of a service. -/
def readRepo (es : Entries) : Checked RepoInfo :=
  RepoInfo.mk <$> optional "" "gitRepoDir" "git_repo_dir" .text es
    <*> optional "" "gitRepoURL" "git_repo_url" .text es
    <*> optional "" "gitRepoBranch" "git_repo_branch" .text es
    <*> optional "" "targetPath" "target_path" .text es

/-- A service.  Only its name, its strategy and its build method must not be missing. -/
def readService (es : Entries) : Checked ServiceDocument :=
  ServiceDocument.mk <$> required "serviceName" "service_name" .text es
    <*> optional "" "serviceRelPath" "service_rel_path" .text es
    <*> optional "" "image" "image" .text es
    <*> required "translationType" "translation_type" .term es
    <*> required "containerBuildType" "container_build_type" .term es
    <*> optional [] "sourceType" "source_types" (.listOrNull .term) es
    <*> optional [] "targetOptions" "target_options" (.listOrNull .text) es
    <*> optional .empty "sourceArtifacts" "source_artifacts" readArtifacts es
    <*> optional .empty "buildArtifacts" "build_artifacts" readArtifacts es
    <*> optional false "updateContainerBuildPipeline" "update_container_build_pipeline" .flag es
    <*> optional false "updateDeployPipeline" "update_deploy_pipeline" .flag es
    <*> optional .none "repoInfo" "repo_info" (.fields readRepo) es

/-- What is found in a source tree: its root, the files, the services and the artifacts of the
target. -/
structure Inputs where
  rootDir : String
  k8sFiles : List String
  services : OrderedMap String (List ServiceDocument)
  targets : OrderedMap TargetArtifact (List String)

namespace Inputs

def default : Inputs := ⟨"", [], .empty, .empty⟩

def read (es : Entries) : Checked Inputs :=
  Inputs.mk <$> optional "" "rootDir" "root_dir" .text es
    <*> optional [] "kubernetesYamls" "k8s_files" (.listOrNull .text) es
    <*> optional .empty "services" "services"
      (.mapOrNull .text (.listOrNull (.fields readService))) es
    <*> optional .empty "targetInfoArtifacts" "target_info_artifacts" readArtifacts es

end Inputs

/-- The cluster to generate for. -/
def readCluster (es : Entries) : Checked TargetCluster :=
  TargetCluster.mk <$> optional "" "type" "type" .text es <*> optional "" "path" "path" .text es

/-- The Kubernetes output. -/
def readOutput (es : Entries) : Checked KubernetesOutput :=
  KubernetesOutput.mk <$> optional "" "registryURL" "registry_url" .text es
    <*> optional "" "registryNamespace" "registry_namespace" .text es
    <*> optional ⟨"", ""⟩ "targetCluster" "target_cluster" (.fields readCluster) es
    <*> optional false "ignoreUnsupportedKinds" "ignore_unsupported_kinds" .flag es

/-- The section of all outputs. -/
def readOutputs (es : Entries) : Checked KubernetesOutput :=
  optional .blank "kubernetes" "kubernetes" (.fields readOutput) es

/-- What a plan is made of: its inputs and its output. -/
def readSpec (es : Entries) : Checked (Inputs × KubernetesOutput) :=
  Prod.mk <$> optional .default "inputs" "inputs" (.fields Inputs.read) es
    <*> optional .blank "outputs" "outputs" (.fields readOutputs) es

/-- The section that names the plan. -/
def readMetadata (es : Entries) : Checked String := optional "" "name" "name" .text es

/-- The rule that a document is of the right kind. -/
def checkKind (kind : String) : Checked String :=
  if kind = Plan.standardKind then .ok kind
  else .fail (.rule ("Expected kind '" ++ Plan.standardKind ++ "', got '" ++ kind ++ "'"))

/-- A document from its parts. -/
def ofParts (apiVersion kind name : String) (spec : Inputs × KubernetesOutput) : Document where
  apiVersion := apiVersion
  kind := kind
  name := name
  rootDir := spec.1.rootDir
  k8sFiles := spec.1.k8sFiles
  services := spec.1.services
  targets := spec.1.targets
  output := spec.2

/-- The document of a map's entries. -/
def readEntries (es : Entries) : Checked Document :=
  ofParts <$> optional Plan.standardApiVersion "apiVersion" "api_version" .text es
    <*> optional Plan.standardKind "kind" "kind" (fun v => (Reader.text v).bind checkKind) es
    <*> optional "" "metadata" "metadata" (.fields readMetadata) es
    <*> optional (.default, .blank) "spec" "spec" (.fields readSpec) es

/-- The document that a plain value describes. -/
def read : Reader Document := .fields readEntries

end Document
end Replatform
