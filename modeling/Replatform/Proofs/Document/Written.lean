import Replatform.Document.Written
import Replatform.Proofs.Schema.Reader
import Replatform.Proofs.Text.Surrogate

/-! # Written documents are read back

Reading the written form of a document gives the document, section by section.  What is left out
of a section says nothing, and nothing is what reading puts in its place.  The document has to
be of the right kind, and its names have to be texts of characters, since they are written so:
names with surrogates are **mended**, and some that were different may become equal.
-/
namespace Replatform
namespace Document

open Schema
open Yaml (Tree)

/-! ## What says nothing -/

theorem isBlank_text {s : String} (h : (Tree.text s).isBlank = true) : "" = s :=
  (of_decide_eq_true h).symm

theorem isBlank_flag {b : Bool} (h : (Tree.flag b).isBlank = true) : false = b :=
  (Bool.not_eq_true' b).mp h |>.symm

theorem isBlank_texts {ts : List String} (h : (textsTree ts).isBlank = true) : [] = ts :=
  (List.map_eq_nil_iff.mp (List.isEmpty_iff.mp h)).symm

theorem isBlank_artifacts {κ : Type} [Term κ] {m : OrderedMap κ (List String)}
    (h : (artifactsTree m).isBlank = true) : .empty = m := by
  have hnil : m.entries = [] := by simpa [artifactsTree, Tree.isBlank] using h
  exact OrderedMap.ext hnil.symm

/-- A section is left out when all its fields are. -/
theorem isBlank_of_dropAllBlank {fields : List (String × Tree)}
    (h : (Yaml.Tree.map (dropAllBlank fields)).isBlank = true) :
    ∀ f ∈ fields, f.2.isBlank = true := by
  have hnil : dropAllBlank fields = [] := List.isEmpty_iff.mp h
  intro f hf
  simpa using List.filter_eq_nil_iff.mp hnil f hf

theorem isBlank_repo {r : RepoInfo} (h : (repoTree r).isBlank = true) : RepoInfo.none = r := by
  have hfields := isBlank_of_dropAllBlank h
  obtain ⟨dir, url, branch, targetPath⟩ := r
  obtain rfl := isBlank_text (hfields ("gitRepoDir", .text dir) (by simp))
  obtain rfl := isBlank_text (hfields ("gitRepoURL", .text url) (by simp))
  obtain rfl := isBlank_text (hfields ("gitRepoBranch", .text branch) (by simp))
  obtain rfl := isBlank_text (hfields ("targetPath", .text targetPath) (by simp))
  rfl

/-! ## Fields of sections -/

theorem optional_dropAllBlank {α : Type} {default a : α} {name plainName : String}
    {read : Reader α} {t : Tree} {fields : List (String × Tree)}
    (hfields : (fields.map Prod.fst).Nodup) (ht : (name, t) ∈ fields)
    (hplain : plainName = name ∨ plainName ∉ fields.map Prod.fst)
    (hblank : t.isBlank = true → default = a) (hread : read t.toValue = .ok a) :
    optional default name plainName read (Tree.toEntries (dropAllBlank fields)) = .ok a :=
  optional_of_mem hfields ht hplain (fun hkeep => hblank (by simpa using hkeep)) hread

theorem optional_dropBlank {α : Type} {default a : α} {names : List String}
    {name plainName : String} {read : Reader α} {t : Tree} {fields : List (String × Tree)}
    (hfields : (fields.map Prod.fst).Nodup) (ht : (name, t) ∈ fields)
    (hplain : plainName = name ∨ plainName ∉ fields.map Prod.fst)
    (hblank : t.isBlank = true → default = a) (hread : read t.toValue = .ok a) :
    optional default name plainName read (Tree.toEntries (dropBlank names fields)) = .ok a := by
  refine optional_of_mem hfields ht hplain (fun hkeep => hblank ?_) hread
  rw [Bool.not_eq_false', Bool.and_eq_true] at hkeep
  exact hkeep.2

theorem required_dropBlank {α : Type} {a : α} {names : List String} {name plainName : String}
    {read : Reader α} {t : Tree} {fields : List (String × Tree)}
    (hfields : (fields.map Prod.fst).Nodup) (ht : (name, t) ∈ fields)
    (hname : names.contains name = false) (hread : read t.toValue = .ok a) :
    required name plainName read (Tree.toEntries (dropBlank names fields)) = .ok a :=
  required_of_mem hfields ht (by simp only [hname, Bool.false_and, Bool.not_false]) hread

/-! ## Sections -/

theorem read_texts (ts : List String) :
    Reader.listOrNull Reader.text (textsTree ts).toValue = .ok ts :=
  Reader.listOrNull_toValue fun _ _ => rfl

theorem read_artifacts {κ : Type} [DecidableEq κ] [Term κ] [Term.Spelled κ]
    (m : OrderedMap κ (List String)) : readArtifacts (artifactsTree m).toValue = .ok m :=
  Reader.mapOrNull_toValue (fun e _ => Reader.term_word e.1) fun e _ => read_texts e.2

theorem read_sourceKinds (ks : List SourceKind) :
    Reader.listOrNull Reader.term (textsTree (ks.map Term.word)).toValue = .ok ks := by
  rw [textsTree, List.map_map]
  exact Reader.listOrNull_toValue fun k _ => Reader.term_word k

theorem read_repo (r : RepoInfo) : Reader.fields readRepo (repoTree r).toValue = .ok r := by
  let fields := [("gitRepoDir", Tree.text r.dir), ("gitRepoURL", .text r.url),
    ("gitRepoBranch", .text r.branch), ("targetPath", .text r.targetPath)]
  let es := Tree.toEntries (dropAllBlank fields)
  have hfields : (fields.map Prod.fst).Nodup := by simp [fields]
  have hdir : optional "" "gitRepoDir" "git_repo_dir" .text es = .ok r.dir :=
    optional_dropAllBlank hfields (by simp [fields]) (by simp [fields]) isBlank_text rfl
  have hurl : optional "" "gitRepoURL" "git_repo_url" .text es = .ok r.url :=
    optional_dropAllBlank hfields (by simp [fields]) (by simp [fields]) isBlank_text rfl
  have hbranch : optional "" "gitRepoBranch" "git_repo_branch" .text es = .ok r.branch :=
    optional_dropAllBlank hfields (by simp [fields]) (by simp [fields]) isBlank_text rfl
  have htarget : optional "" "targetPath" "target_path" .text es = .ok r.targetPath :=
    optional_dropAllBlank hfields (by simp [fields]) (by simp [fields]) isBlank_text rfl
  show readRepo es = .ok r
  rw [readRepo, hdir, hurl, hbranch, htarget]
  rfl

theorem read_service (s : ServiceDocument) :
    Reader.fields readService (serviceTree s).toValue = .ok s := by
  let names := ["serviceRelPath", "targetOptions", "buildArtifacts", "repoInfo"]
  let fields := [
    ("serviceName", Tree.text s.name), ("serviceRelPath", .text s.relPath),
    ("image", .text s.image),
    ("translationType", .text (Term.word s.strategy)),
    ("containerBuildType", .text (Term.word s.build)),
    ("sourceType", textsTree (s.sourceKinds.map Term.word)),
    ("targetOptions", textsTree s.targetOptions),
    ("sourceArtifacts", artifactsTree s.sources), ("buildArtifacts", artifactsTree s.builds),
    ("updateContainerBuildPipeline", .flag s.updatesBuild),
    ("updateDeployPipeline", .flag s.updatesDeploy), ("repoInfo", repoTree s.repo)]
  let es := Tree.toEntries (dropBlank names fields)
  have hfields : (fields.map Prod.fst).Nodup := by simp [fields]
  have hname : required "serviceName" "service_name" .text es = .ok s.name :=
    required_dropBlank (t := .text s.name) hfields (by simp [fields]) (by decide) rfl
  have hrelPath : optional "" "serviceRelPath" "service_rel_path" .text es = .ok s.relPath :=
    optional_dropBlank hfields (by simp [fields]) (by simp [fields]) isBlank_text rfl
  have himage : optional "" "image" "image" .text es = .ok s.image :=
    optional_dropBlank hfields (by simp [fields]) (by simp) isBlank_text rfl
  have hstrategy : required "translationType" "translation_type" .term es = .ok s.strategy :=
    required_dropBlank (t := .text (Term.word s.strategy)) hfields (by simp [fields]) (by decide)
      (Reader.term_word s.strategy)
  have hbuild : required "containerBuildType" "container_build_type" .term es = .ok s.build :=
    required_dropBlank (t := .text (Term.word s.build)) hfields (by simp [fields]) (by decide)
      (Reader.term_word s.build)
  have hkinds : optional [] "sourceType" "source_types" (.listOrNull .term) es =
      .ok s.sourceKinds :=
    optional_dropBlank hfields (by simp [fields]) (by simp [fields])
      (fun h => (List.map_eq_nil_iff.mp (isBlank_texts h).symm).symm)
      (read_sourceKinds s.sourceKinds)
  have hoptions : optional [] "targetOptions" "target_options" (.listOrNull .text) es =
      .ok s.targetOptions :=
    optional_dropBlank hfields (by simp [fields]) (by simp [fields]) isBlank_texts
      (read_texts s.targetOptions)
  have hsources : optional .empty "sourceArtifacts" "source_artifacts" readArtifacts es =
      .ok s.sources :=
    optional_dropBlank hfields (by simp [fields]) (by simp [fields]) isBlank_artifacts
      (read_artifacts s.sources)
  have hbuilds : optional .empty "buildArtifacts" "build_artifacts" readArtifacts es =
      .ok s.builds :=
    optional_dropBlank hfields (by simp [fields]) (by simp [fields]) isBlank_artifacts
      (read_artifacts s.builds)
  have hupdatesBuild : optional false "updateContainerBuildPipeline"
      "update_container_build_pipeline" .flag es = .ok s.updatesBuild :=
    optional_dropBlank hfields (by simp [fields]) (by simp [fields]) isBlank_flag rfl
  have hupdatesDeploy : optional false "updateDeployPipeline" "update_deploy_pipeline" .flag es =
      .ok s.updatesDeploy :=
    optional_dropBlank hfields (by simp [fields]) (by simp [fields]) isBlank_flag rfl
  have hrepo : optional .none "repoInfo" "repo_info" (.fields readRepo) es = .ok s.repo :=
    optional_dropBlank hfields (by simp [fields]) (by simp [fields]) isBlank_repo (read_repo s.repo)
  show readService es = .ok s
  rw [readService, hname, hrelPath, himage, hstrategy, hbuild, hkinds, hoptions, hsources, hbuilds,
    hupdatesBuild, hupdatesDeploy, hrepo]
  rfl

/-- If the names are texts of characters, the services are written under their names. -/
theorem servicesTree_eq {ss : OrderedMap String (List ServiceDocument)}
    (hnames : ∀ name ∈ ss.keys, Text.mended name = name) :
    servicesTree ss = .map (ss.entries.map fun e => (id e.1, .list (e.2.map serviceTree))) := by
  let form (entries : List ServiceDocument) : Tree := .list (entries.map serviceTree)
  have hmended : (ss.entries.map fun e => (Text.mended e.1, form e.2)) =
      ss.entries.map fun e => (id e.1, form e.2) :=
    List.map_congr_left fun e he =>
      congrArg (·, form e.2) (hnames e.1 (List.mem_map_of_mem he))
  have hkeys : (ss.entries.map fun e => (id e.1, form e.2)).map Prod.fst = ss.keys := by
    rw [List.map_map]
    rfl
  have hnodup : ((ss.entries.map fun e => (id e.1, form e.2)).map Prod.fst).Nodup := by
    rw [hkeys]
    exact ss.keys_nodup
  show Yaml.Tree.map
    (OrderedMap.ofList (ss.entries.map fun e => (Text.mended e.1, form e.2))).entries = _
  rw [hmended, OrderedMap.entries_ofList hnodup]

theorem isBlank_services {ss : OrderedMap String (List ServiceDocument)}
    (hnames : ∀ name ∈ ss.keys, Text.mended name = name)
    (h : (servicesTree ss).isBlank = true) : .empty = ss := by
  rw [servicesTree_eq hnames] at h
  have hnil : ss.entries = [] := List.map_eq_nil_iff.mp (List.isEmpty_iff.mp h)
  exact OrderedMap.ext hnil.symm

theorem read_services {ss : OrderedMap String (List ServiceDocument)}
    (hnames : ∀ name ∈ ss.keys, Text.mended name = name) :
    Reader.mapOrNull .text (.listOrNull (.fields readService)) (servicesTree ss).toValue =
      .ok ss := by
  rw [servicesTree_eq hnames]
  refine @Reader.mapOrNull_toValue _ _ _ Reader.text _ id
    (fun entries => .list (entries.map serviceTree)) ss (fun _ _ => rfl) fun e _ => ?_
  exact Reader.listOrNull_toValue fun s _ => read_service s

theorem read_inputs {d : Document} (hnames : ∀ name ∈ d.services.keys, Text.mended name = name) :
    Reader.fields Inputs.read d.inputsTree.toValue =
      .ok ⟨d.rootDir, d.k8sFiles, d.services, d.targets⟩ := by
  let names := ["kubernetesYamls", "targetInfoArtifacts"]
  let fields := [("rootDir", Tree.text d.rootDir), ("kubernetesYamls", textsTree d.k8sFiles),
    ("services", servicesTree d.services), ("targetInfoArtifacts", artifactsTree d.targets)]
  let es := Tree.toEntries (dropBlank names fields)
  have hfields : (fields.map Prod.fst).Nodup := by simp [fields]
  have hroot : optional "" "rootDir" "root_dir" .text es = .ok d.rootDir :=
    optional_dropBlank hfields (by simp [fields]) (by simp [fields]) isBlank_text rfl
  have hfiles : optional [] "kubernetesYamls" "k8s_files" (.listOrNull .text) es =
      .ok d.k8sFiles :=
    optional_dropBlank hfields (by simp [fields]) (by simp [fields]) isBlank_texts
      (read_texts d.k8sFiles)
  have hservices : optional .empty "services" "services"
      (.mapOrNull .text (.listOrNull (.fields readService))) es = .ok d.services :=
    optional_dropBlank hfields (by simp [fields]) (by simp) (isBlank_services hnames)
      (read_services hnames)
  have htargets : optional .empty "targetInfoArtifacts" "target_info_artifacts" readArtifacts es =
      .ok d.targets :=
    optional_dropBlank hfields (by simp [fields]) (by simp [fields]) isBlank_artifacts
      (read_artifacts d.targets)
  show Inputs.read es = _
  rw [Inputs.read, hroot, hfiles, hservices, htargets]
  rfl

theorem isBlank_cluster {c : TargetCluster} (h : (Yaml.Tree.map (dropAllBlank
    [("type", .text c.type), ("path", .text c.path)])).isBlank = true) :
    (⟨"", ""⟩ : TargetCluster) = c := by
  have hfields := isBlank_of_dropAllBlank h
  obtain ⟨type, path⟩ := c
  obtain rfl := isBlank_text (hfields ("type", .text type) (by simp))
  obtain rfl := isBlank_text (hfields ("path", .text path) (by simp))
  rfl

theorem read_cluster (c : TargetCluster) :
    Reader.fields readCluster (Yaml.Tree.map (dropAllBlank
      [("type", .text c.type), ("path", .text c.path)])).toValue = .ok c := by
  let fields := [("type", Tree.text c.type), ("path", .text c.path)]
  let es := Tree.toEntries (dropAllBlank fields)
  have hfields : (fields.map Prod.fst).Nodup := by simp [fields]
  have htype : optional "" "type" "type" .text es = .ok c.type :=
    optional_dropAllBlank hfields (by simp [fields]) (by simp) isBlank_text rfl
  have hpath : optional "" "path" "path" .text es = .ok c.path :=
    optional_dropAllBlank hfields (by simp [fields]) (by simp) isBlank_text rfl
  show readCluster es = .ok c
  rw [readCluster, htype, hpath]
  rfl

theorem read_output (o : KubernetesOutput) :
    Reader.fields readOutput (outputTree o).toValue = .ok o := by
  let fields := [("registryURL", Tree.text o.registryUrl),
    ("registryNamespace", .text o.registryNamespace),
    ("targetCluster", .map (dropAllBlank
      [("type", .text o.cluster.type), ("path", .text o.cluster.path)])),
    ("ignoreUnsupportedKinds", .flag o.ignoreUnsupportedKinds)]
  let es := Tree.toEntries (dropAllBlank fields)
  have hfields : (fields.map Prod.fst).Nodup := by simp [fields]
  have hurl : optional "" "registryURL" "registry_url" .text es = .ok o.registryUrl :=
    optional_dropAllBlank hfields (by simp [fields]) (by simp [fields]) isBlank_text rfl
  have hnamespace : optional "" "registryNamespace" "registry_namespace" .text es =
      .ok o.registryNamespace :=
    optional_dropAllBlank hfields (by simp [fields]) (by simp [fields]) isBlank_text rfl
  have hcluster : optional ⟨"", ""⟩ "targetCluster" "target_cluster" (.fields readCluster) es =
      .ok o.cluster :=
    optional_dropAllBlank hfields (by simp [fields]) (by simp [fields]) isBlank_cluster
      (read_cluster o.cluster)
  have hignore : optional false "ignoreUnsupportedKinds" "ignore_unsupported_kinds" .flag es =
      .ok o.ignoreUnsupportedKinds :=
    optional_dropAllBlank hfields (by simp [fields]) (by simp [fields]) isBlank_flag rfl
  show readOutput es = .ok o
  rw [readOutput, hurl, hnamespace, hcluster, hignore]
  rfl

theorem read_outputs (o : KubernetesOutput) :
    Reader.fields readOutputs (Yaml.Tree.map [("kubernetes", outputTree o)]).toValue = .ok o := by
  let fields := [("kubernetes", outputTree o)]
  have hkubernetes : optional .blank "kubernetes" "kubernetes" (.fields readOutput)
      (Tree.toEntries fields) = .ok o :=
    optional_of_field (by simp [fields]) (by simp [fields]) (read_output o)
  exact hkubernetes

theorem read_spec {d : Document} (hnames : ∀ name ∈ d.services.keys, Text.mended name = name) :
    Reader.fields readSpec (Yaml.Tree.map [("inputs", d.inputsTree),
      ("outputs", .map [("kubernetes", outputTree d.output)])]).toValue =
        .ok (⟨d.rootDir, d.k8sFiles, d.services, d.targets⟩, d.output) := by
  let fields := [("inputs", d.inputsTree),
    ("outputs", Yaml.Tree.map [("kubernetes", outputTree d.output)])]
  let es := Tree.toEntries fields
  have hfields : (fields.map Prod.fst).Nodup := by simp [fields]
  have hinputs : optional .default "inputs" "inputs" (.fields Inputs.read) es =
      .ok ⟨d.rootDir, d.k8sFiles, d.services, d.targets⟩ :=
    optional_of_field hfields (by simp [fields]) (read_inputs hnames)
  have houtputs : optional .blank "outputs" "outputs" (.fields readOutputs) es = .ok d.output :=
    optional_of_field hfields (by simp [fields]) (read_outputs d.output)
  show readSpec es = _
  rw [readSpec, hinputs, houtputs]
  rfl

/-- **A written document is read back**, if it is of the right kind and its names are texts of
characters. -/
theorem read_toValue_tree {d : Document} (hkind : d.kind = Plan.standardKind)
    (hnames : ∀ name ∈ d.services.keys, Text.mended name = name) :
    Document.read d.tree.toValue = .ok d := by
  let fields := [("apiVersion", Tree.text d.apiVersion), ("kind", .text d.kind),
    ("metadata", .map [("name", .text d.name)]),
    ("spec", .map [("inputs", d.inputsTree),
      ("outputs", .map [("kubernetes", outputTree d.output)])])]
  let es := Tree.toEntries fields
  have hfields : (fields.map Prod.fst).Nodup := by simp [fields]
  have hversion : optional Plan.standardApiVersion "apiVersion" "api_version" .text es =
      .ok d.apiVersion :=
    optional_of_field (t := .text d.apiVersion) hfields (by simp [fields]) rfl
  have hright : (Reader.text (.text d.kind)).bind checkKind = .ok d.kind := if_pos hkind
  have hstated : optional Plan.standardKind "kind" "kind"
      (fun v => (Reader.text v).bind checkKind) es = .ok d.kind :=
    optional_of_field (t := .text d.kind) hfields (by simp [fields]) hright
  have hmetadata : optional "" "metadata" "metadata" (.fields readMetadata) es = .ok d.name :=
    optional_of_field (t := .map [("name", .text d.name)]) hfields (by simp [fields]) rfl
  have hspec : optional (.default, .blank) "spec" "spec" (.fields readSpec) es =
      .ok (⟨d.rootDir, d.k8sFiles, d.services, d.targets⟩, d.output) :=
    optional_of_field hfields (by simp [fields]) (read_spec hnames)
  show readEntries es = .ok d
  rw [readEntries, hversion, hstated, hmetadata, hspec]
  rfl

/-! ## Names that are mended -/

section

variable {α β : Type}

/-- The map with its names mended; of names that become equal, the last counts. -/
def mendNames (m : OrderedMap String α) : OrderedMap String α :=
  .ofList (m.entries.map fun e => (Text.mended e.1, e.2))

theorem mem_of_get?_mendNames {m : OrderedMap String α} {name : String} {a : α}
    (h : (mendNames m).get? name = some a) : ∃ name', (name', a) ∈ m.entries ∧
      Text.mended name' = name := by
  obtain ⟨e, he, hmended⟩ := List.mem_map.mp (OrderedMap.mem_of_get?_ofList h)
  obtain ⟨rfl, rfl⟩ := Prod.mk.inj hmended
  exact ⟨e.1, he, rfl⟩

theorem mended_of_mem_mendNames {m : OrderedMap String α} {name : String}
    (h : name ∈ (mendNames m).keys) : Text.mended name = name := by
  obtain ⟨a, ha⟩ := Option.ne_none_iff_exists'.mp fun hnone =>
    OrderedMap.get?_eq_none.mp hnone h
  obtain ⟨name', -, rfl⟩ := mem_of_get?_mendNames ha
  exact Text.mended_mended name'

/-- Names without anything to mend stay. -/
theorem mendNames_eq {m : OrderedMap String α} (h : ∀ name ∈ m.keys, Text.mended name = name) :
    mendNames m = m := by
  have hentries : (m.entries.map fun e => (Text.mended e.1, e.2)) = m.entries := by
    refine (List.map_congr_left fun e he => ?_).trans (List.map_id _)
    exact Prod.ext (h e.1 (List.mem_map_of_mem he)) rfl
  rw [mendNames, hentries, OrderedMap.ofList_entries]

theorem mendNames_eq_self_iff {m : OrderedMap String α} :
    mendNames m = m ↔ ∀ name ∈ m.keys, Text.IsOfChars name := by
  constructor
  · intro h name hname
    rw [← h] at hname
    exact Text.mended_eq_self_iff.mp (mended_of_mem_mendNames hname)
  · exact fun h => mendNames_eq fun name hname => (h name hname).mended

/-- Of the names that are written like this one, the last: that is the one whose value is kept. -/
def lasting (m : OrderedMap String α) (name : String) : String :=
  ((m.entries.reverse.find? fun e => Text.mended e.1 = Text.mended name).map Prod.fst).getD name

theorem get?_mendNames (m : OrderedMap String α) (name : String) :
    (mendNames m).get? (Text.mended name) = m.get? (lasting m name) := by
  rw [mendNames, OrderedMap.get?_ofList, OrderedMap.find?_eq, ← List.map_reverse, List.find?_map]
  show (Option.map _ (m.entries.reverse.find? fun e => Text.mended e.1 = Text.mended name)).map _ = _
  unfold lasting
  cases hfind : m.entries.reverse.find? fun e => Text.mended e.1 = Text.mended name with
  | none =>
    refine (OrderedMap.get?_eq_none.mpr fun hname => ?_).symm
    obtain ⟨e, he, rfl⟩ := List.mem_map.mp hname
    exact List.find?_eq_none.mp hfind e (List.mem_reverse.mpr he) (decide_eq_true rfl)
  | some e =>
    have he := List.mem_reverse.mp (List.mem_of_find?_eq_some hfind)
    exact (OrderedMap.find?_of_mem m.keys_nodup he).symm

theorem lasting_map (f : α → β) (m : OrderedMap String α) (name : String) :
    lasting (m.map f) name = lasting m name := by
  unfold lasting
  rw [OrderedMap.entries_map, ← List.map_reverse, List.find?_map, Option.map_map]
  rfl

/-- A text of characters is written like no other one. -/
theorem lasting_eq {m : OrderedMap String α} (h : ∀ name ∈ m.keys, Text.IsOfChars name)
    {name : String} (hname : name ∈ m.keys) : lasting m name = name := by
  unfold lasting
  cases hfind : m.entries.reverse.find? fun e => Text.mended e.1 = Text.mended name with
  | none => rfl
  | some e =>
    have he := List.mem_reverse.mp (List.mem_of_find?_eq_some hfind)
    have hwritten := List.find?_some hfind
    have hsame : Text.mended e.1 = Text.mended name := of_decide_eq_true hwritten
    rwa [(h _ (List.mem_map_of_mem he)).mended, (h name hname).mended] at hsame

theorem map_mendNames (f : α → β) (m : OrderedMap String α) :
    (mendNames m).map f = mendNames (m.map f) := by
  rw [mendNames, OrderedMap.map_ofList, mendNames, OrderedMap.entries_map, List.map_map,
    List.map_map]
  rfl

end

/-- The document with the names under which its services are written. -/
def mend (d : Document) : Document := { d with services := mendNames d.services }

theorem mend_eq_self_iff {d : Document} :
    d.mend = d ↔ ∀ name ∈ d.services.keys, Text.IsOfChars name := by
  rw [← mendNames_eq_self_iff]
  exact ⟨congrArg services, fun h => by rw [mend, h]⟩

theorem tree_mend (d : Document) : d.mend.tree = d.tree := by
  let form (entries : List ServiceDocument) : Tree := .list (entries.map serviceTree)
  have hform : mendNames (d.services.map form) =
      .ofList (d.services.entries.map fun e => (Text.mended e.1, form e.2)) := by
    rw [mendNames, OrderedMap.entries_map, List.map_map]
    rfl
  have hservices : servicesTree (mendNames d.services) = servicesTree d.services := by
    rw [servicesTree_eq fun _ => mended_of_mem_mendNames]
    exact congrArg (fun m => Yaml.Tree.map m.entries)
      ((map_mendNames form d.services).trans hform)
  rw [tree, tree, inputsTree, inputsTree]
  dsimp only [mend]
  rw [hservices]

/-- What is read of a written document of the right kind is the document with mended names. -/
theorem read_toValue_tree_mend {d : Document} (hkind : d.kind = Plan.standardKind) :
    Document.read d.tree.toValue = .ok d.mend := by
  rw [← tree_mend]
  exact read_toValue_tree hkind fun _ => mended_of_mem_mendNames

/-- **What is left out says nothing.**  A written document is read in any case, as the document
with mended names; so it is read as it was exactly if its names are texts of characters, and two
documents have the same written form exactly if mending makes them equal. -/
theorem read_written_iff {d : Document} (hkind : d.kind = Plan.standardKind) :
    Document.read d.tree.toValue = .ok d.mend ∧
    (Document.read d.tree.toValue = .ok d ↔ ∀ name ∈ d.services.keys, Text.IsOfChars name) ∧
    ∀ d' : Document, d'.kind = Plan.standardKind →
      (d.tree.toValue = d'.tree.toValue ↔ d.mend = d'.mend) := by
  have hread := read_toValue_tree_mend hkind
  refine ⟨hread, ?_, fun d' hkind' => ⟨fun h => ?_, fun h => ?_⟩⟩
  · rw [hread, Checked.ok.injEq]
    exact mend_eq_self_iff
  · have hread' := read_toValue_tree_mend hkind'
    rw [← h, hread] at hread'
    exact Checked.ok.inj hread'
  · rw [← tree_mend d, h, tree_mend d']

/-- A document with sections that say nothing, at each place where they may be left out, beside
some that say something. -/
theorem read_written_iff_of_empty_sections :
    let web : ServiceDocument := {
      name := "web", relPath := "", image := "", strategy := .any, build := .s2i
      sourceKinds := [], targetOptions := ["b", "a", "b"]
      sources := .ofList [(.compose, [])], builds := .empty
      updatesBuild := false, updatesDeploy := true, repo := ⟨"", "", "main", ""⟩ }
    let d : Document := {
      apiVersion := "", kind := Plan.standardKind, name := "", rootDir := ""
      k8sFiles := [], services := .ofList [("web", [{ web with repo := .none }, web]), ("", [])]
      targets := .empty, output := ⟨"", "", ⟨"", "cluster"⟩, false⟩ }
    d.kind = Plan.standardKind ∧ Document.read d.tree.toValue = .ok d := by
  intro web d
  have hnames : ∀ name ∈ d.services.keys, Text.guard ∉ name.toList := by decide +kernel
  refine ⟨rfl, (read_written_iff rfl).2.1.mpr fun name hname => ?_⟩
  exact Text.isOfChars_of_notMem (hnames name hname)

/-- Of two documents with a single name, which is half of a pair, neither is read back, and both
have the same written form. -/
theorem written_names_collapse :
    let d (code : Nat) : Document := {
      apiVersion := "", kind := Plan.standardKind, name := "", rootDir := "", k8sFiles := []
      services := .ofList [(String.ofList (Text.ofCodes [code]), [])]
      targets := .empty, output := .blank }
    (∀ code, (d code).kind = Plan.standardKind) ∧
      Document.read (d 0xD83D).tree.toValue ≠ .ok (d 0xD83D) ∧
      Document.read (d 0xDE00).tree.toValue ≠ .ok (d 0xDE00) ∧
      d 0xD83D ≠ d 0xDE00 ∧ (d 0xD83D).tree.toValue = (d 0xDE00).tree.toValue := by
  intro d
  have hmend : (d 0xD83D).mend = (d 0xDE00).mend := by decide +kernel
  refine ⟨fun _ => rfl, ?_, ?_, by decide +kernel, ?_⟩
  · rw [read_toValue_tree_mend rfl, Ne, Checked.ok.injEq]
    decide +kernel
  · rw [read_toValue_tree_mend rfl, Ne, Checked.ok.injEq]
    decide +kernel
  · rw [← tree_mend (d 0xD83D), hmend, tree_mend (d 0xDE00)]

end Document
end Replatform
