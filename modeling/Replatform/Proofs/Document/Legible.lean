import Mathlib.Data.List.Basic
import Replatform.Proofs.Document.Written
import Replatform.Proofs.Yaml.Reading

/-! # Which documents can be read

The fields of each section and the kinds of artifacts are short words, and no more than eight
collections of a document are inside one another.  So whether the written form of a document can
be read depends on the names of its services alone: each has to fit in front of its colon.  What
is read is the document with its texts in canonical form.
-/
namespace Replatform

open Yaml (IsWord)

/-- The words of the set are short. -/
class Term.Short (α : Type) [Term α] : Prop where
  isWord : ∀ a : α, IsWord (Term.word a)

instance : Term.Short Strategy := ⟨by intro a; cases a <;> decide⟩

instance : Term.Short BuildMethod := ⟨by intro a; cases a <;> decide⟩

instance : Term.Short SourceKind := ⟨by intro a; cases a <;> decide⟩

instance : Term.Short SourceArtifact := ⟨by intro a; cases a <;> decide⟩

instance : Term.Short BuildArtifact := ⟨by intro a; cases a; decide⟩

instance : Term.Short TargetArtifact := ⟨by intro a; cases a; decide⟩

namespace Document

open Yaml (Tree keyFits)
open Yaml.Tree (fits Legible legible_text legible_flag)

/-! ## Sections -/

/-- Names for the fields of a section. -/
def AreNames (names : List String) : Prop := names.Nodup ∧ ∀ name ∈ names, IsWord name

instance (names : List String) : Decidable (AreNames names) := inferInstanceAs (Decidable (_ ∧ _))

section

variable {room : Nat} {names : List String} {fields : List (String × Tree)}
  {keep : String × Tree → Bool}

theorem AreNames.isWord (h : AreNames names) (hfields : fields.map Prod.fst = names) :
    ∀ f ∈ fields, IsWord f.1 := fun _ hf => h.2 _ (hfields ▸ List.mem_map_of_mem hf)

/-- Some fields of a section. -/
theorem legible_section (h : AreNames names) (hfields : fields.map Prod.fst = names)
    (hlegible : ∀ f ∈ fields, Legible room f.2) :
    Legible (room + 1) (.map (fields.filter keep)) := by
  have hcanonical : (fields.map fun f => Text.canonical f.1) = names := by
    rw [← hfields]
    exact List.map_congr_left fun f hf => (h.isWord hfields f hf).canonical
  have hnodup : ((fields.filter keep).map fun f => Text.canonical f.1).Nodup :=
    (List.filter_sublist.map _).nodup (hcanonical ▸ h.1)
  exact Yaml.Tree.legible_map.mpr ⟨hnodup, fun f hf => hlegible f (List.mem_filter.mp hf).1⟩

theorem fits_section (h : AreNames names) (hfields : fields.map Prod.fst = names) :
    fits (.map (fields.filter keep)) = true ↔ ∀ f ∈ fields, keep f = true → fits f.2 = true := by
  rw [Yaml.Tree.fits_map]
  constructor
  · exact fun hall f hf hkeep => (hall f (List.mem_filter.mpr ⟨hf, hkeep⟩)).2
  · intro hall f hf
    obtain ⟨hf, hkeep⟩ := List.mem_filter.mp hf
    exact ⟨(h.isWord hfields f hf).keyFits, hall f hf hkeep⟩

/-- A section in canonical form: its fields are, and the same ones are there. -/
theorem canonical_section (h : AreNames names) (hfields : fields.map Prod.fst = names)
    (hkeep : ∀ f ∈ fields, keep (f.1, f.2.canonical) = keep f) :
    (Yaml.Tree.map (fields.filter keep)).canonical =
      .map ((fields.map fun f => (f.1, f.2.canonical)).filter keep) := by
  have hfilter : (fields.map fun f => (f.1, f.2.canonical)).filter keep =
      (fields.filter keep).map fun f => (f.1, f.2.canonical) := by
    rw [List.filter_map]
    exact congrArg _ (List.filter_congr hkeep)
  rw [Yaml.Tree.canonical_map, hfilter]
  exact congrArg _ (List.map_congr_left fun f hf => by
    rw [(h.isWord hfields f (List.mem_filter.mp hf).1).canonical])

theorem canonical_dropBlank (h : AreNames names) (hfields : fields.map Prod.fst = names)
    (dropped : List String) : (Yaml.Tree.map (dropBlank dropped fields)).canonical =
      .map (dropBlank dropped (fields.map fun f => (f.1, f.2.canonical))) :=
  canonical_section h hfields fun f _ => by rw [Yaml.Tree.isBlank_canonical]

theorem canonical_dropAllBlank (h : AreNames names) (hfields : fields.map Prod.fst = names) :
    (Yaml.Tree.map (dropAllBlank fields)).canonical =
      .map (dropAllBlank (fields.map fun f => (f.1, f.2.canonical))) :=
  canonical_section h hfields fun f _ => by rw [Yaml.Tree.isBlank_canonical]

/-! A section with all its fields. -/

theorem legible_fields (h : AreNames names) (hfields : fields.map Prod.fst = names)
    (hlegible : ∀ f ∈ fields, Legible room f.2) : Legible (room + 1) (.map fields) := by
  have hsection := @legible_section room names fields (fun _ => true) h hfields hlegible
  rwa [List.filter_true] at hsection

theorem fits_fields (h : AreNames names) (hfields : fields.map Prod.fst = names) :
    fits (.map fields) = true ↔ ∀ f ∈ fields, fits f.2 = true := by
  have hsection := @fits_section names fields (fun _ => true) h hfields
  rw [List.filter_true] at hsection
  exact hsection.trans ⟨fun hall f hf => hall f hf rfl, fun hall f hf _ => hall f hf⟩

theorem canonical_fields (h : AreNames names) (hfields : fields.map Prod.fst = names) :
    (Yaml.Tree.map fields).canonical = .map (fields.map fun f => (f.1, f.2.canonical)) := by
  have hsection := @canonical_section names fields (fun _ => true) h hfields fun _ _ => rfl
  rwa [List.filter_true, List.filter_true] at hsection

end

/-! ## Texts and artifacts -/

variable {room : Nat}

theorem legible_texts (ts : List String) : Legible (room + 1) (textsTree ts) :=
  Yaml.Tree.legible_list.mpr fun t ht => by
    obtain ⟨s, -, rfl⟩ := List.mem_map.mp ht
    exact legible_text s

theorem fits_text (s : String) : fits (.text s) = true := by rw [fits]

theorem fits_flag (b : Bool) : fits (.flag b) = true := by rw [fits]

theorem fits_texts (ts : List String) : fits (textsTree ts) = true :=
  Yaml.Tree.fits_list.mpr fun t ht => by
    obtain ⟨s, -, rfl⟩ := List.mem_map.mp ht
    exact fits_text s

theorem canonical_texts (ts : List String) :
    (textsTree ts).canonical = textsTree (ts.map Text.canonical) := by
  rw [textsTree, Yaml.Tree.canonical_list, textsTree, List.map_map, List.map_map]
  exact congrArg _ (List.map_congr_left fun s _ => Yaml.Tree.canonical_text s)

variable {κ : Type} [Term κ] [Term.Short κ]

theorem canonical_word (k : κ) : Text.canonical (Term.word k) = Term.word k := (Term.Short.isWord k).canonical

theorem map_canonical_words (ks : List κ) :
    (ks.map Term.word).map Text.canonical = ks.map Term.word := by
  rw [List.map_map]
  exact List.map_congr_left fun k _ => canonical_word k

theorem legible_artifacts (m : OrderedMap κ (List String)) : Legible (room + 2) (artifactsTree m) := by
  have hkeys : ((m.entries.map fun e => (Term.word e.1, textsTree e.2)).map fun e =>
      Text.canonical e.1) = m.keys.map Term.word := by
    rw [List.map_map, OrderedMap.keys, List.map_map]
    exact List.map_congr_left fun e _ => canonical_word e.1
  refine Yaml.Tree.legible_map.mpr ⟨?_, fun e he => ?_⟩
  · rw [hkeys]
    exact List.Pairwise.map _ (fun a b hne h => hne (Term.word_injective a b h)) m.keys_nodup
  · obtain ⟨e, -, rfl⟩ := List.mem_map.mp he
    exact legible_texts e.2

theorem fits_artifacts (m : OrderedMap κ (List String)) : fits (artifactsTree m) = true :=
  Yaml.Tree.fits_map.mpr fun e he => by
    obtain ⟨e, -, rfl⟩ := List.mem_map.mp he
    exact ⟨(Term.Short.isWord e.1).keyFits, fits_texts e.2⟩

theorem canonical_artifacts (m : OrderedMap κ (List String)) :
    (artifactsTree m).canonical = artifactsTree (m.map (·.map Text.canonical)) := by
  rw [artifactsTree, Yaml.Tree.canonical_map, artifactsTree, OrderedMap.entries_map, List.map_map,
    List.map_map]
  exact congrArg _ (List.map_congr_left fun e _ =>
    Prod.ext (canonical_word e.1) (canonical_texts e.2))

/-! ## Services -/

/-- The repository with its texts in canonical form. -/
def canonicalRepo (r : RepoInfo) : RepoInfo where
  dir := Text.canonical r.dir
  url := Text.canonical r.url
  branch := Text.canonical r.branch
  targetPath := Text.canonical r.targetPath

theorem repoNames : AreNames ["gitRepoDir", "gitRepoURL", "gitRepoBranch", "targetPath"] := by decide

theorem legible_repo (r : RepoInfo) : Legible (room + 1) (repoTree r) :=
  legible_section repoNames rfl (by simp only [List.forall_mem_cons, legible_text]; simp)

theorem fits_repo (r : RepoInfo) : fits (repoTree r) = true :=
  (fits_section repoNames rfl).mpr (by simp only [List.forall_mem_cons, fits_text]; simp)

theorem canonical_repo (r : RepoInfo) : (repoTree r).canonical = repoTree (canonicalRepo r) := by
  rw [repoTree, canonical_dropAllBlank repoNames rfl]
  simp only [List.map_cons, List.map_nil, Yaml.Tree.canonical_text]
  rfl

/-- The service with its texts in canonical form. -/
def canonicalService (s : ServiceDocument) : ServiceDocument :=
  { s with
    name := Text.canonical s.name
    relPath := Text.canonical s.relPath
    image := Text.canonical s.image
    targetOptions := s.targetOptions.map Text.canonical
    sources := s.sources.map (·.map Text.canonical)
    builds := s.builds.map (·.map Text.canonical)
    repo := canonicalRepo s.repo }

theorem serviceNames : AreNames ["serviceName", "serviceRelPath", "image", "translationType",
    "containerBuildType", "sourceType", "targetOptions", "sourceArtifacts", "buildArtifacts",
    "updateContainerBuildPipeline", "updateDeployPipeline", "repoInfo"] := by decide

theorem legible_service (s : ServiceDocument) : Legible (room + 3) (serviceTree s) :=
  legible_section serviceNames rfl (by
    simp only [List.forall_mem_cons, legible_text, legible_flag, legible_texts, legible_artifacts,
      legible_repo]
    simp)

theorem fits_service (s : ServiceDocument) : fits (serviceTree s) = true :=
  (fits_section serviceNames rfl).mpr (by
    simp only [List.forall_mem_cons, fits_text, fits_flag, fits_texts, fits_artifacts, fits_repo]
    simp)

theorem canonical_service (s : ServiceDocument) :
    (serviceTree s).canonical = serviceTree (canonicalService s) := by
  rw [serviceTree, canonical_dropBlank serviceNames rfl]
  simp only [List.map_cons, List.map_nil, Yaml.Tree.canonical_text, Yaml.Tree.canonical_flag,
    canonical_word, map_canonical_words, canonical_texts, canonical_artifacts, canonical_repo]
  rfl

/-! ## Names of services -/

variable {ss : OrderedMap String (List ServiceDocument)}

theorem canonical_eq_of_mended {name : String} (h : Text.mended name = name) :
    Text.canonical name = name :=
  h ▸ (Text.isOfChars_mended name).canonical

theorem legible_services (hnames : ∀ name ∈ ss.keys, Text.mended name = name) :
    Legible (room + 5) (servicesTree ss) := by
  rw [servicesTree_eq hnames]
  have hkeys : ((ss.entries.map fun e => (id e.1, Yaml.Tree.list (e.2.map serviceTree))).map
      fun e => Text.canonical e.1) = ss.keys := by
    rw [List.map_map, OrderedMap.keys]
    exact List.map_congr_left fun e he =>
      canonical_eq_of_mended (hnames e.1 (List.mem_map_of_mem he))
  refine Yaml.Tree.legible_map.mpr ⟨hkeys ▸ ss.keys_nodup, fun e he => ?_⟩
  obtain ⟨e, -, rfl⟩ := List.mem_map.mp he
  refine Yaml.Tree.legible_list.mpr fun t ht => ?_
  obtain ⟨s, -, rfl⟩ := List.mem_map.mp ht
  exact legible_service s

theorem fits_services (hnames : ∀ name ∈ ss.keys, Text.mended name = name) :
    fits (servicesTree ss) = true ↔ ∀ name ∈ ss.keys, keyFits name = true := by
  have hservices : ∀ services : List ServiceDocument, fits (.list (services.map serviceTree)) = true :=
    fun services => Yaml.Tree.fits_list.mpr fun t ht => by
      obtain ⟨s, -, rfl⟩ := List.mem_map.mp ht
      exact fits_service s
  rw [servicesTree_eq hnames, Yaml.Tree.fits_map, OrderedMap.keys, List.forall_mem_map,
    List.forall_mem_map]
  simp only [hservices, and_true, id_eq]

theorem canonical_services (hnames : ∀ name ∈ ss.keys, Text.mended name = name) :
    (servicesTree ss).canonical = servicesTree (ss.map (·.map canonicalService)) := by
  have hkeys : ∀ name ∈ (ss.map (·.map canonicalService)).keys, Text.mended name = name := by
    rw [OrderedMap.keys_map]
    exact hnames
  rw [servicesTree_eq hnames, servicesTree_eq hkeys, Yaml.Tree.canonical_map, OrderedMap.entries_map,
    List.map_map, List.map_map]
  refine congrArg _ (List.map_congr_left fun e he => Prod.ext ?_ ?_)
  · exact canonical_eq_of_mended (hnames e.1 (List.mem_map_of_mem he))
  · show (Yaml.Tree.list _).canonical = .list ((e.2.map canonicalService).map serviceTree)
    rw [Yaml.Tree.canonical_list, List.map_map, List.map_map]
    exact congrArg _ (List.map_congr_left fun s _ => canonical_service s)

/-! ## Outputs -/

/-- The output with its texts in canonical form. -/
def canonicalOutput (o : KubernetesOutput) : KubernetesOutput :=
  { o with
    registryUrl := Text.canonical o.registryUrl
    registryNamespace := Text.canonical o.registryNamespace
    cluster := ⟨Text.canonical o.cluster.type, Text.canonical o.cluster.path⟩ }

theorem clusterNames : AreNames ["type", "path"] := by decide

theorem outputNames : AreNames ["registryURL", "registryNamespace", "targetCluster",
    "ignoreUnsupportedKinds"] := by decide

theorem legible_cluster (c : TargetCluster) : Legible (room + 1) (.map (dropAllBlank
    [("type", .text c.type), ("path", .text c.path)])) :=
  legible_section clusterNames rfl (by simp only [List.forall_mem_cons, legible_text]; simp)

theorem fits_cluster (c : TargetCluster) : fits (.map (dropAllBlank
    [("type", .text c.type), ("path", .text c.path)])) = true :=
  (fits_section clusterNames rfl).mpr (by simp only [List.forall_mem_cons, fits_text]; simp)

theorem canonical_cluster (c : TargetCluster) : (Yaml.Tree.map (dropAllBlank
    [("type", .text c.type), ("path", .text c.path)])).canonical = .map (dropAllBlank
      [("type", .text (Text.canonical c.type)), ("path", .text (Text.canonical c.path))]) := by
  rw [canonical_dropAllBlank clusterNames rfl]
  simp only [List.map_cons, List.map_nil, Yaml.Tree.canonical_text]

theorem legible_output (o : KubernetesOutput) : Legible (room + 2) (outputTree o) :=
  legible_section outputNames rfl (by
    simp only [List.forall_mem_cons, legible_text, legible_flag, legible_cluster]
    simp)

theorem fits_output (o : KubernetesOutput) : fits (outputTree o) = true :=
  (fits_section outputNames rfl).mpr (by
    simp only [List.forall_mem_cons, fits_text, fits_flag, fits_cluster]
    simp)

theorem canonical_output (o : KubernetesOutput) :
    (outputTree o).canonical = outputTree (canonicalOutput o) := by
  rw [outputTree, canonical_dropAllBlank outputNames rfl]
  simp only [List.map_cons, List.map_nil, Yaml.Tree.canonical_text, Yaml.Tree.canonical_flag,
    canonical_cluster]
  rfl

/-! ## Documents -/

/-- The document with its texts in canonical form. -/
def canonical (d : Document) : Document where
  apiVersion := Text.canonical d.apiVersion
  kind := Text.canonical d.kind
  name := Text.canonical d.name
  rootDir := Text.canonical d.rootDir
  k8sFiles := d.k8sFiles.map Text.canonical
  services := d.services.map (·.map canonicalService)
  targets := d.targets.map (·.map Text.canonical)
  output := canonicalOutput d.output

theorem inputsNames : AreNames ["rootDir", "kubernetesYamls", "services", "targetInfoArtifacts"] := by
  decide

theorem documentNames : AreNames ["apiVersion", "kind", "metadata", "spec"] := by decide

variable {loader : Yaml.Loader} {d : Document}

theorem legible_inputs (hnames : ∀ name ∈ d.services.keys, Text.mended name = name) :
    Legible (room + 6) d.inputsTree :=
  legible_section inputsNames rfl (by
    simp only [List.forall_mem_cons, legible_text, legible_texts, legible_services hnames,
      legible_artifacts]
    simp)

theorem fits_inputs (hnames : ∀ name ∈ d.services.keys, Text.mended name = name) :
    fits d.inputsTree = true ↔ ∀ name ∈ d.services.keys, keyFits name = true := by
  rw [inputsTree, dropBlank, fits_section inputsNames rfl, ← fits_services hnames]
  simp only [List.forall_mem_cons, fits_text, fits_texts, fits_artifacts]
  simp

theorem canonical_inputs (hnames : ∀ name ∈ d.services.keys, Text.mended name = name) :
    d.inputsTree.canonical = d.canonical.inputsTree := by
  rw [inputsTree, canonical_dropBlank inputsNames rfl]
  simp only [List.map_cons, List.map_nil, Yaml.Tree.canonical_text, canonical_texts,
    canonical_services hnames, canonical_artifacts]
  rfl

theorem metadataNames : AreNames ["name"] := by decide

theorem specNames : AreNames ["inputs", "outputs"] := by decide

theorem outputsNames : AreNames ["kubernetes"] := by decide

/-- No more than eight collections are inside one another. -/
theorem legible_tree (hnames : ∀ name ∈ d.services.keys, Text.mended name = name) :
    Legible 8 d.tree := by
  have hmetadata : Legible 7 (.map [("name", .text d.name)]) :=
    legible_fields metadataNames rfl (by simp only [List.forall_mem_singleton, legible_text])
  have houtputs : Legible 6 (.map [("kubernetes", outputTree d.output)]) :=
    legible_fields outputsNames rfl (by simp only [List.forall_mem_singleton, legible_output])
  have hspec : Legible 7 (.map [("inputs", d.inputsTree),
      ("outputs", .map [("kubernetes", outputTree d.output)])]) :=
    legible_fields specNames rfl (by
      simp only [List.forall_mem_cons, legible_inputs hnames, houtputs]
      simp)
  exact legible_fields documentNames rfl (by
    simp only [List.forall_mem_cons, legible_text, hmetadata, hspec]
    simp)

/-- **The keys of a document fit if the names of its services do.** -/
theorem fits_tree (hnames : ∀ name ∈ d.services.keys, Text.mended name = name) :
    fits d.tree = true ↔ ∀ name ∈ d.services.keys, keyFits name = true := by
  have hmetadata : fits (.map [("name", .text d.name)]) = true :=
    (fits_fields metadataNames rfl).mpr (by simp only [List.forall_mem_singleton, fits_text])
  have houtputs : fits (.map [("kubernetes", outputTree d.output)]) = true :=
    (fits_fields outputsNames rfl).mpr (by simp only [List.forall_mem_singleton, fits_output])
  have hspec : fits (.map [("inputs", d.inputsTree),
      ("outputs", .map [("kubernetes", outputTree d.output)])]) = true ↔ fits d.inputsTree = true := by
    rw [fits_fields specNames rfl]
    simp only [List.forall_mem_cons, houtputs]
    simp
  rw [← fits_inputs hnames, ← hspec, tree, fits_fields documentNames rfl]
  simp only [List.forall_mem_cons, fits_text, hmetadata]
  simp

theorem canonical_tree (hnames : ∀ name ∈ d.services.keys, Text.mended name = name) :
    d.tree.canonical = d.canonical.tree := by
  have hmetadata : (Yaml.Tree.map [("name", .text d.name)]).canonical =
      .map [("name", .text (Text.canonical d.name))] := by
    rw [canonical_fields metadataNames rfl, List.map_singleton, Yaml.Tree.canonical_text]
  have houtputs : (Yaml.Tree.map [("kubernetes", outputTree d.output)]).canonical =
      .map [("kubernetes", outputTree (canonicalOutput d.output))] := by
    rw [canonical_fields outputsNames rfl, List.map_singleton, canonical_output]
  have hspec : (Yaml.Tree.map [("inputs", d.inputsTree),
      ("outputs", .map [("kubernetes", outputTree d.output)])]).canonical =
        .map [("inputs", d.canonical.inputsTree),
          ("outputs", .map [("kubernetes", outputTree (canonicalOutput d.output))])] := by
    rw [canonical_fields specNames rfl, List.map_cons, List.map_singleton, canonical_inputs hnames,
      houtputs]
  rw [tree, canonical_fields documentNames rfl]
  simp only [List.map_cons, List.map_nil, Yaml.Tree.canonical_text, hmetadata, hspec]
  rfl

/-! ## Reading -/

/-- The names under which the services of a document are written. -/
theorem forall_mem_keys_mend {P : String → Prop} :
    (∀ name ∈ d.mend.services.keys, P name) ↔ ∀ name ∈ d.services.keys, P (Text.mended name) := by
  have hkeys : (d.services.entries.map fun e => (Text.mended e.1, e.2)).map Prod.fst =
      d.services.keys.map Text.mended := by
    rw [OrderedMap.keys, List.map_map, List.map_map]
    rfl
  have hmem : ∀ name, name ∈ d.mend.services.keys ↔ name ∈ d.services.keys.map Text.mended := fun name =>
    OrderedMap.mem_keys_ofList.trans (by rw [hkeys])
  simp only [hmem, List.forall_mem_map]

/-- What is written for a document whose names fit is read as what its canonical form has. -/
theorem read_write_canonical (hfits : ∀ name ∈ d.services.keys, keyFits (Text.mended name) = true) :
    Yaml.read loader d.tree.write = .ok d.mend.canonical.tree.toValue := by
  have hnames : ∀ name ∈ d.mend.services.keys, Text.mended name = name := fun _ =>
    mended_of_mem_mendNames
  -- what is written is the tree of the mended document already
  rw [← tree_mend, ← canonical_tree hnames]
  exact @Yaml.Tree.read_write_of_fits loader 8 _ _ (legible_tree hnames)
    ((fits_tree hnames).mpr (forall_mem_keys_mend.mpr hfits)) (by decide)

/-- If all its texts are canonical, it is read as what the document has. -/
theorem read_write_of_canonical
    (hfits : ∀ name ∈ d.services.keys, keyFits (Text.mended name) = true)
    (hcanonical : d.mend.canonical = d.mend) : Yaml.read loader d.tree.write = .ok d.tree.toValue := by
  rw [read_write_canonical hfits, hcanonical, tree_mend]

/-- **What is written for a document whose names fit is read as the document.** -/
theorem read_write_of_fits (hkind : d.kind = Plan.standardKind)
    (hfits : ∀ name ∈ d.services.keys, keyFits (Text.mended name) = true) :
    ∃ es, Yaml.read loader d.tree.write = .ok (.map es) ∧ readEntries es = .ok d.mend.canonical := by
  have hnames : ∀ name ∈ d.mend.canonical.services.keys, Text.mended name = name := by
    show ∀ name ∈ (d.mend.services.map _).keys, _
    rw [OrderedMap.keys_map]
    exact fun _ => mended_of_mem_mendNames
  have hkind' : d.mend.canonical.kind = Plan.standardKind := by
    show Text.canonical d.kind = _
    rw [hkind]
    decide
  exact ⟨_, read_write_canonical hfits, read_toValue_tree hkind' hnames⟩

/-- **Where a name does not fit, what is written for a document cannot be read.** -/
theorem read_write_error (hfits : ¬∀ name ∈ d.services.keys, keyFits (Text.mended name) = true) :
    ∃ fault, Yaml.read loader d.tree.write = .error fault := by
  have hnames : ∀ name ∈ d.mend.services.keys, Text.mended name = name := fun _ =>
    mended_of_mem_mendNames
  have hnot : fits d.mend.tree = false := Bool.eq_false_iff.mpr fun h =>
    hfits (forall_mem_keys_mend.mp ((fits_tree hnames).mp h))
  rw [← tree_mend]
  exact Yaml.Tree.read_write_error (legible_tree hnames) hnot (by decide)

end Document
end Replatform
