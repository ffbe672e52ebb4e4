import Replatform.Document.Basic
import Replatform.Proofs.Schema.Nulls

/-! # Null in plan documents

Here is the shape of a plan document, section by section, and that each section is read as its shape
says.  It follows where null may stand in a document: in place of eleven kinds of lists and maps,
where it stands for an empty one, and nowhere else.
-/
namespace Replatform
namespace Document

open Schema
open Schema.Reader (text flag term)

/-! ## Values without parts -/

theorem follows_text : Follows .leaf text := .leaf nofun

theorem follows_flag : Follows .leaf flag := .leaf nofun

theorem follows_term {α : Type} [Term α] : Follows .leaf (term : Reader α) := .leaf nofun

theorem follows_kind : Follows .leaf fun v => (text v).bind checkKind := .leaf nofun

/-! ## Sections -/

/-- Lists of paths under kinds of artifacts. -/
def artifactsShape : Shape := .map (.list .leaf)

theorem follows_artifacts {κ : Type} [DecidableEq κ] [Term κ] :
    Follows artifactsShape (readArtifacts : Reader (OrderedMap κ (List String))) :=
  follows_text.list.map

def repoShape : Shape := .record [
  ⟨"gitRepoDir", "git_repo_dir", .leaf⟩,
  ⟨"gitRepoURL", "git_repo_url", .leaf⟩,
  ⟨"gitRepoBranch", "git_repo_branch", .leaf⟩,
  ⟨"targetPath", "target_path", .leaf⟩]

theorem follows_repo : Follows repoShape (.fields readRepo) := .record (by decide)
  ((FollowsFields.optional follows_text).map RepoInfo.mk
    |>.seq (.optional follows_text)
    |>.seq (.optional follows_text)
    |>.seq (.optional follows_text))

def serviceShape : Shape := .record [
  ⟨"serviceName", "service_name", .leaf⟩,
  ⟨"serviceRelPath", "service_rel_path", .leaf⟩,
  ⟨"image", "image", .leaf⟩,
  ⟨"translationType", "translation_type", .leaf⟩,
  ⟨"containerBuildType", "container_build_type", .leaf⟩,
  ⟨"sourceType", "source_types", .list .leaf⟩,
  ⟨"targetOptions", "target_options", .list .leaf⟩,
  ⟨"sourceArtifacts", "source_artifacts", artifactsShape⟩,
  ⟨"buildArtifacts", "build_artifacts", artifactsShape⟩,
  ⟨"updateContainerBuildPipeline", "update_container_build_pipeline", .leaf⟩,
  ⟨"updateDeployPipeline", "update_deploy_pipeline", .leaf⟩,
  ⟨"repoInfo", "repo_info", repoShape⟩]

theorem follows_service : Follows serviceShape (.fields readService) := .record (by decide)
  ((FollowsFields.required follows_text).map ServiceDocument.mk
    |>.seq (.optional follows_text)
    |>.seq (.optional follows_text)
    |>.seq (.required follows_term)
    |>.seq (.required follows_term)
    |>.seq (.optional follows_term.list)
    |>.seq (.optional follows_text.list)
    |>.seq (.optional follows_artifacts)
    |>.seq (.optional follows_artifacts)
    |>.seq (.optional follows_flag)
    |>.seq (.optional follows_flag)
    |>.seq (.optional follows_repo))

def inputsShape : Shape := .record [
  ⟨"rootDir", "root_dir", .leaf⟩,
  ⟨"kubernetesYamls", "k8s_files", .list .leaf⟩,
  ⟨"services", "services", .map (.list serviceShape)⟩,
  ⟨"targetInfoArtifacts", "target_info_artifacts", artifactsShape⟩]

theorem follows_inputs : Follows inputsShape (.fields Inputs.read) := .record (by decide)
  ((FollowsFields.optional follows_text).map Inputs.mk
    |>.seq (.optional follows_text.list)
    |>.seq (.optional follows_service.list.map)
    |>.seq (.optional follows_artifacts))

def clusterShape : Shape := .record [⟨"type", "type", .leaf⟩, ⟨"path", "path", .leaf⟩]

theorem follows_cluster : Follows clusterShape (.fields readCluster) := .record (by decide)
  ((FollowsFields.optional follows_text).map TargetCluster.mk
    |>.seq (.optional follows_text))

def outputShape : Shape := .record [
  ⟨"registryURL", "registry_url", .leaf⟩,
  ⟨"registryNamespace", "registry_namespace", .leaf⟩,
  ⟨"targetCluster", "target_cluster", clusterShape⟩,
  ⟨"ignoreUnsupportedKinds", "ignore_unsupported_kinds", .leaf⟩]

theorem follows_output : Follows outputShape (.fields readOutput) := .record (by decide)
  ((FollowsFields.optional follows_text).map KubernetesOutput.mk
    |>.seq (.optional follows_text)
    |>.seq (.optional follows_cluster)
    |>.seq (.optional follows_flag))

def outputsShape : Shape := .record [⟨"kubernetes", "kubernetes", outputShape⟩]

theorem follows_outputs : Follows outputsShape (.fields readOutputs) :=
  .record (by decide) (.optional follows_output)

def specShape : Shape := .record [
  ⟨"inputs", "inputs", inputsShape⟩,
  ⟨"outputs", "outputs", outputsShape⟩]

theorem follows_spec : Follows specShape (.fields readSpec) := .record (by decide)
  ((FollowsFields.optional follows_inputs).map Prod.mk
    |>.seq (.optional follows_outputs))

def metadataShape : Shape := .record [⟨"name", "name", .leaf⟩]

theorem follows_metadata : Follows metadataShape (.fields readMetadata) :=
  .record (by decide) (.optional follows_text)

/-- The shape of a plan document. -/
def shape : Shape := .record [
  ⟨"apiVersion", "api_version", .leaf⟩,
  ⟨"kind", "kind", .leaf⟩,
  ⟨"metadata", "metadata", metadataShape⟩,
  ⟨"spec", "spec", specShape⟩]

theorem follows_read : Follows shape Document.read := .record (by decide)
  ((FollowsFields.optional follows_text).map ofParts
    |>.seq (.optional follows_kind)
    |>.seq (.optional follows_metadata)
    |>.seq (.optional follows_spec))

/-! ## Where null may stand -/

/-- The names of the places at which null stands for an empty list or map. -/
def nullable : List (List (Option String)) :=
  let inputs := [some "spec", some "inputs"]
  let service := inputs ++ [some "services", none, none]
  [inputs ++ [some "kubernetesYamls"],
    inputs ++ [some "services"],
    inputs ++ [some "services", none],
    service ++ [some "sourceType"],
    service ++ [some "targetOptions"],
    service ++ [some "sourceArtifacts"],
    service ++ [some "sourceArtifacts", none],
    service ++ [some "buildArtifacts"],
    service ++ [some "buildArtifacts", none],
    inputs ++ [some "targetInfoArtifacts"],
    inputs ++ [some "targetInfoArtifacts", none]]

theorem collections_shape : shape.collections = nullable := by decide

/-- Of a value that describes a document, any set of places may be filled with null: those that
are marked and have no marked place above them.  The result describes a document exactly if each
null in it stands in place of one of the lists and maps that may be null, and the document is then
that of the value with those places emptied. -/
theorem null_means_empty {v : Value} {d : Document} (h : Document.read v = .ok d) (marks : Marks) :
    let nulled := shape.fill Shape.nothing marks v
    let emptied := shape.fill Shape.empty marks v
    ((∃ e, Document.read nulled = .ok e) ↔
      ∀ place t, shape.at? nulled place = some (t, .null) → place.map Part.name? ∈ nullable) ∧
    (∀ e, Document.read nulled = .ok e → Document.read emptied = .ok e) ∧
    (∀ place t, shape.at? nulled place = some (t, .null) ↔
      marks.ClearAbove place ∧ (marks place = true ∧ shape.slot? v place = some t ∨
        shape.at? v place = some (t, .null))) ∧
    ∀ place t, marks.ClearAbove place → marks place = true → shape.slot? v place = some t →
      shape.at? emptied place = some (t, t.empty) := by
  intro nulled emptied
  have hproper : shape.Proper := follows_read.proper
  refine ⟨?_, fun e he => ?_, fun place t => Shape.null_at_fill_iff hproper,
    fun place t => Shape.at?_fill_of_marked hproper⟩
  · rw [← collections_shape, ← Shape.nullsFit_iff_names hproper]
    constructor
    · rintro ⟨e, he⟩
      exact follows_read.nullsFit he
    · intro hfit
      obtain ⟨e, he, -⟩ := follows_read.fill marks h hfit
      exact ⟨e, he⟩
  · obtain ⟨e', he', hempty⟩ := follows_read.fill marks h (follows_read.nullsFit he)
    obtain rfl : e' = e := Checked.ok.inj (he'.symm.trans he)
    exact hempty

/-- The data of a plan with one service. -/
def webData : Value := .map [
  (.text "kind", .text "Plan"),
  (.text "spec", .map [(.text "inputs", .map [(.text "services", .map [(.text "web", .list [.map [
    (.text "serviceName", .text "web"),
    (.text "translationType", .text "Containerize"),
    (.text "containerBuildType", .text "Manual"),
    (.text "sourceArtifacts", .map [(.text "SourceCode", .list [.text "web/src"])])]])])])])]

/-- Nulls for the targets, which the data leaves out, and for the paths of an artifact read as empty
ones; a null for the metadata is an error. -/
theorem null_means_empty_of_web :
    let targets : Place := [.field "spec", .field "inputs", .field "targetInfoArtifacts"]
    let paths : Place := [.field "spec", .field "inputs", .field "services", .nth 0, .nth 0,
      .field "sourceArtifacts", .nth 0]
    let metadata : Place := [.field "metadata"]
    ∃ d, Document.read webData = .ok d ∧
      (∃ e, Document.read (shape.fill Shape.nothing (· ∈ [targets, paths]) webData) = .ok e ∧
        Document.read (shape.fill Shape.empty (· ∈ [targets, paths]) webData) = .ok e) ∧
      ¬ ∃ e, Document.read (shape.fill Shape.nothing (· ∈ [targets, metadata]) webData) = .ok e := by
  intro targets paths metadata
  have hweb : (Document.read webData).result?.isSome = true := by decide +kernel
  have hblank : (Document.read
      (shape.fill Shape.nothing (· ∈ [targets, paths]) webData)).result?.isSome = true := by
    decide +kernel
  obtain ⟨d, hd⟩ := Checked.isSome_result?.mp hweb
  obtain ⟨e, he⟩ := Checked.isSome_result?.mp hblank
  refine ⟨d, hd, ⟨e, he, (null_means_empty hd (· ∈ [targets, paths])).2.1 e he⟩, fun hread => ?_⟩
  obtain ⟨haccept, -, hnulls, -⟩ := null_means_empty hd (· ∈ [targets, metadata])
  have hclear : Marks.ClearAbove (· ∈ [targets, metadata]) metadata :=
    Marks.clearAbove_cons.mpr ⟨by decide, Marks.clearAbove_nil _⟩
  have hnull := (hnulls metadata metadataShape).mpr ⟨hclear, .inl ⟨by decide, rfl⟩⟩
  exact absurd (haccept.mp hread metadata metadataShape hnull) (by decide)

end Document
end Replatform
