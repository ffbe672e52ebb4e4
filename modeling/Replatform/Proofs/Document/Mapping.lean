import Replatform.Document.Mapping
import Replatform.Proofs.Service

/-! # Plans through documents

A plan that becomes a document under one conversion of paths, and a plan again under another,
is the plan with its paths converted by both and without the repeats in its lists.  Where a
path may be missing, the first conversion must not make a path one that is missing.  If no path
is converted, the plan stays exactly if it is **tidy**, that is, if its lists had no repeats.
-/
namespace Replatform

/-! ## The paths of a plan -/

/-- The map with its paths converted, without later repeats. -/
def ArtifactMap.mapPaths {κ : Type} (f : String → String) (m : ArtifactMap κ) : ArtifactMap κ where
  paths := m.paths.map fun ps => Discovery.distinct (ps.map f)
  nodup_paths e he := by
    obtain ⟨e', -, rfl⟩ := List.mem_map.mp he
    exact Discovery.nodup_distinct _

theorem ArtifactMap.paths_mapPaths {κ : Type} (f : String → String) (m : ArtifactMap κ) :
    (m.mapPaths f).paths = m.paths.map fun ps => Discovery.distinct (ps.map f) := rfl

theorem ArtifactMap.get_mapPaths {κ : Type} [DecidableEq κ] (f : String → String)
    (m : ArtifactMap κ) (k : κ) : (m.mapPaths f).get k = Discovery.distinct ((m.get k).map f) := by
  rw [get, get, paths_mapPaths, OrderedMap.get?_map]
  cases m.paths.get? k with
  | none => rfl
  | some ps => rfl

theorem ArtifactMap.first?_mapPaths {κ : Type} [DecidableEq κ] (f : String → String)
    (m : ArtifactMap κ) (k : κ) : (m.mapPaths f).first? k = (m.first? k).map f := by
  rw [first?, get_mapPaths, Discovery.head?_distinct, List.head?_map]
  rfl

theorem ArtifactMap.mapPaths_mapPaths {κ : Type} (f g : String → String) (m : ArtifactMap κ) :
    (m.mapPaths f).mapPaths g = m.mapPaths fun v => g (f v) := by
  refine ArtifactMap.ext ?_
  rw [paths_mapPaths, paths_mapPaths, paths_mapPaths, OrderedMap.map_map]
  refine OrderedMap.map_congr fun ps _ => ?_
  rw [Discovery.distinct_map_distinct, List.map_map]
  rfl

/-- All paths of the map. -/
def ArtifactMap.allPaths {κ : Type} (m : ArtifactMap κ) : List String := m.paths.values.flatten

namespace Service

/-- The service with its paths converted, without later repeats in its lists.  The target options
are paths for some build methods, and the paths of a repository may be missing. -/
def mapPaths (f : String → String) (s : Service) : Service :=
  { s with
    sourceKinds := Discovery.distinct s.sourceKinds
    targetOptions :=
      Discovery.distinct (if s.build.hasPathOptions then s.targetOptions.map f else s.targetOptions)
    sources := s.sources.mapPaths f
    builds := s.builds.mapPaths f
    repo := { s.repo with
      dir := if s.repo.dir = "" then "" else f s.repo.dir
      targetPath := if s.repo.targetPath = "" then "" else f s.repo.targetPath } }

/-- The values of a service that are paths. -/
def pathValues (s : Service) : List String :=
  (if s.build.hasPathOptions then s.targetOptions else []) ++ s.sources.allPaths ++
    s.builds.allPaths ++ [s.repo.dir, s.repo.targetPath]

end Service

namespace Plan

/-- The plan with its paths converted, without later repeats in the lists that are to have
none. -/
def mapPaths (f : String → String) (p : Plan) : Plan :=
  { p with
    k8sFiles := p.k8sFiles.map f
    services := p.services.map (·.map (·.mapPaths f))
    targets := p.targets.mapPaths f
    output := { p.output with cluster := { p.output.cluster with
      path := if p.output.cluster.path = "" then "" else f p.output.cluster.path } } }

/-- The values of a plan that are paths, but for its root. -/
def pathValues (p : Plan) : List String :=
  p.k8sFiles ++ p.targets.allPaths ++ p.entries.flatMap Service.pathValues ++
    [p.output.cluster.path]

end Plan

/-! ## Conversions that agree -/

theorem ArtifactMap.mapPaths_congr {κ : Type} {f g : String → String} {m : ArtifactMap κ}
    (h : ∀ v ∈ m.allPaths, f v = g v) : m.mapPaths f = m.mapPaths g := by
  refine ArtifactMap.ext ?_
  rw [paths_mapPaths, paths_mapPaths]
  refine OrderedMap.map_congr fun ps hps => ?_
  have hmap : ps.map f = ps.map g := List.map_congr_left fun v hv =>
    h v (List.mem_flatten.mpr ⟨ps, hps, hv⟩)
  rw [hmap]

theorem Service.mapPaths_congr {f g : String → String} {s : Service}
    (h : ∀ v ∈ s.pathValues, f v = g v) : s.mapPaths f = s.mapPaths g := by
  simp only [Service.pathValues, List.forall_mem_append, List.forall_mem_cons] at h
  obtain ⟨⟨⟨hoptions, hsources⟩, hbuilds⟩, hdir, htarget, -⟩ := h
  have hmap : (if s.build.hasPathOptions then s.targetOptions.map f else s.targetOptions) =
      if s.build.hasPathOptions then s.targetOptions.map g else s.targetOptions := by
    split
    · rename_i hpath
      rw [if_pos hpath] at hoptions
      exact List.map_congr_left hoptions
    · rfl
  rw [Service.mapPaths, Service.mapPaths, hmap, ArtifactMap.mapPaths_congr hsources,
    ArtifactMap.mapPaths_congr hbuilds, hdir, htarget]

theorem Plan.mapPaths_congr {f g : String → String} {p : Plan}
    (h : ∀ v ∈ p.pathValues, f v = g v) : p.mapPaths f = p.mapPaths g := by
  simp only [Plan.pathValues, List.forall_mem_append, List.forall_mem_cons] at h
  obtain ⟨⟨⟨hfiles, htargets⟩, hservices⟩, hcluster, -⟩ := h
  have hentries : p.services.map (·.map (·.mapPaths f)) =
      p.services.map (·.map (·.mapPaths g)) := by
    refine OrderedMap.map_congr fun entries hentries => List.map_congr_left fun s hs => ?_
    refine Service.mapPaths_congr fun v hv => hservices v ?_
    exact List.mem_flatMap.mpr ⟨s, List.mem_flatten.mpr ⟨entries, hentries, hs⟩, hv⟩
  rw [Plan.mapPaths, Plan.mapPaths, List.map_congr_left hfiles, hentries,
    ArtifactMap.mapPaths_congr htargets, hcluster]

/-! ## There and back -/

namespace Document

theorem convertOptional_comp {f : String → String} (hf : ∀ v, v ≠ "" → f v ≠ "")
    (g : String → String) (v : String) :
    convertOptional g (convertOptional f v) = if v = "" then "" else g (f v) := by
  unfold convertOptional
  by_cases hv : v = ""
  · simp [hv]
  · simp [hv, hf v hv]

theorem convertRepo_comp {f : String → String} (hf : ∀ v, v ≠ "" → f v ≠ "") (g : String → String)
    (r : RepoInfo) : convertRepo g (convertRepo f r) = convertRepo (fun v => g (f v)) r := by
  simp only [convertRepo, convertOptional_comp hf]
  rfl

theorem convertOutput_comp {f : String → String} (hf : ∀ v, v ≠ "" → f v ≠ "")
    (g : String → String) (o : KubernetesOutput) :
    convertOutput g (convertOutput f o) = convertOutput (fun v => g (f v)) o := by
  simp only [convertOutput, convertOptional_comp hf]
  rfl

theorem convertOptions_comp (f g : String → String) (build : BuildMethod) (options : List String) :
    convertOptions g build (convertOptions f build options) =
      if build.hasPathOptions then options.map fun v => g (f v) else options := by
  unfold convertOptions
  split
  · rw [List.map_map]
    rfl
  · rfl

theorem toArtifacts_eq {κ : Type} [DecidableEq κ] (f : String → String)
    (m : OrderedMap κ (List String)) :
    toArtifacts f m = (ArtifactMap.ofList m.entries).mapPaths f := by
  refine ArtifactMap.ext (OrderedMap.ext ?_)
  rw [toArtifacts, ArtifactMap.entries_ofList]
  · rw [ArtifactMap.paths_mapPaths, OrderedMap.entries_map, List.map_map]
    rfl
  · rw [List.map_map]
    exact (ArtifactMap.ofList m.entries).paths.keys_nodup

/-- The repeats that both steps drop are those of the converted paths. -/
theorem toArtifacts_convertArtifacts {κ : Type} [DecidableEq κ] (f g : String → String)
    (m : ArtifactMap κ) :
    toArtifacts g (convertArtifacts f m) = m.mapPaths fun v => g (f v) := by
  have hkeys : ((m.paths.map (·.map f)).entries.map Prod.fst).Nodup :=
    (m.paths.map (·.map f)).keys_nodup
  have hfirst : ArtifactMap.ofList (convertArtifacts f m).entries = m.mapPaths f := by
    refine ArtifactMap.ext (OrderedMap.ext ((ArtifactMap.entries_ofList hkeys).trans ?_))
    rw [OrderedMap.entries_map, List.map_map]
    rfl
  rw [toArtifacts_eq, hfirst, ArtifactMap.mapPaths_mapPaths]

theorem toService_ofService {f : String → String} (hf : ∀ v, v ≠ "" → f v ≠ "")
    (g : String → String) (s : Service) :
    toService g (ofService f s) = s.mapPaths fun v => g (f v) := by
  simp only [toService, ofService, Service.mapPaths, convertRepo, convertOptions_comp,
    convertOptional_comp hf, toArtifacts_convertArtifacts]

/-- **A plan comes back from its document** with its paths converted there and back, and without
the repeats in its lists. -/
theorem toPlan_ofPlan {f : String → String} (hf : ∀ v, v ≠ "" → f v ≠ "") (g : String → String)
    (p : Plan) : toPlan g (ofPlan f p) = p.mapPaths fun v => g (f v) := by
  have hservices : (p.services.map (·.map (ofService f))).map (·.map (toService g)) =
      p.services.map (·.map (·.mapPaths fun v => g (f v))) := by
    rw [OrderedMap.map_map]
    refine OrderedMap.map_congr fun entries _ => ?_
    rw [List.map_map]
    exact List.map_congr_left fun s _ => toService_ofService hf g s
  simp only [toPlan, ofPlan, Plan.mapPaths, convertOutput, convertOptional_comp hf, hservices,
    toArtifacts_convertArtifacts, List.map_map]
  rfl

end Document

/-! ## Conversions one after the other -/

theorem Service.mapPaths_mapPaths {f : String → String} (hf : ∀ v, v ≠ "" → f v ≠ "")
    (g : String → String) (s : Service) :
    (s.mapPaths f).mapPaths g = s.mapPaths fun v => g (f v) := by
  unfold mapPaths
  congr 1
  · exact Discovery.distinct_of_nodup (Discovery.nodup_distinct _)
  · dsimp only
    split
    · rw [Discovery.distinct_map_distinct, List.map_map]
      rfl
    · exact Discovery.distinct_of_nodup (Discovery.nodup_distinct _)
  · exact ArtifactMap.mapPaths_mapPaths f g s.sources
  · exact ArtifactMap.mapPaths_mapPaths f g s.builds
  · exact Document.convertRepo_comp hf g s.repo

/-- One conversion after another is one conversion, if the first makes no path one that is
missing. -/
theorem Plan.mapPaths_mapPaths {f : String → String} (hf : ∀ v, v ≠ "" → f v ≠ "")
    (g : String → String) (p : Plan) : (p.mapPaths f).mapPaths g = p.mapPaths fun v => g (f v) := by
  unfold mapPaths
  congr 1
  · exact List.map_map
  · rw [OrderedMap.map_map]
    refine OrderedMap.map_congr fun entries _ => ?_
    rw [List.map_map]
    exact List.map_congr_left fun s _ => Service.mapPaths_mapPaths hf g s
  · exact ArtifactMap.mapPaths_mapPaths f g p.targets
  · exact Document.convertOutput_comp hf g p.output

/-! ## Nothing to convert -/

namespace Document

theorem convertOptional_id (v : String) : convertOptional id v = v := by
  unfold convertOptional
  split
  · rename_i h
    exact h.symm
  · rfl

theorem convertRepo_id (r : RepoInfo) : convertRepo id r = r := by
  rw [convertRepo, convertOptional_id, convertOptional_id]

theorem convertOutput_id (o : KubernetesOutput) : convertOutput id o = o := by
  rw [convertOutput, convertOptional_id]

end Document

theorem ArtifactMap.mapPaths_id {κ : Type} (m : ArtifactMap κ) : m.mapPaths id = m := by
  apply ArtifactMap.ext
  rw [paths_mapPaths, OrderedMap.map_eq_self_iff]
  intro ps hps
  obtain ⟨e, he, rfl⟩ := List.mem_map.mp hps
  rw [List.map_id]
  exact Discovery.distinct_of_nodup (m.nodup_paths e he)

/-- What is left to do for a service if no path is converted. -/
theorem Service.mapPaths_id (s : Service) :
    s.mapPaths id = { s with
      sourceKinds := Discovery.distinct s.sourceKinds
      targetOptions := Discovery.distinct s.targetOptions } := by
  have hrepo := Document.convertRepo_id s.repo
  rw [Document.convertRepo, Document.convertOptional, Document.convertOptional] at hrepo
  rw [mapPaths, List.map_id, ite_self, ArtifactMap.mapPaths_id, ArtifactMap.mapPaths_id, hrepo]

/-- If no path is converted, a service stays exactly if it is tidy. -/
theorem Service.mapPaths_id_iff {s : Service} : s.mapPaths id = s ↔ s.Tidy := by
  rw [mapPaths_id]
  constructor
  · intro h
    have hkinds : Discovery.distinct s.sourceKinds = s.sourceKinds :=
      congrArg Service.sourceKinds h
    have hoptions : Discovery.distinct s.targetOptions = s.targetOptions :=
      congrArg Service.targetOptions h
    exact ⟨Discovery.distinct_eq_self_iff.mp hkinds, Discovery.distinct_eq_self_iff.mp hoptions⟩
  · intro h
    rw [Discovery.distinct_of_nodup h.sourceKinds, Discovery.distinct_of_nodup h.targetOptions]

/-- Every entry of the plan is tidy. -/
def Plan.Tidy (p : Plan) : Prop := ∀ s ∈ p.entries, s.Tidy

instance (p : Plan) : Decidable p.Tidy := inferInstanceAs (Decidable (∀ s ∈ p.entries, s.Tidy))

/-- If no path is converted, a plan stays exactly if it is tidy. -/
theorem Plan.mapPaths_id_iff {p : Plan} : p.mapPaths id = p ↔ p.Tidy := by
  -- all but the services stays in any case
  have houtput := Document.convertOutput_id p.output
  rw [Document.convertOutput, Document.convertOptional] at houtput
  have hplan : p.mapPaths id = { p with services := p.services.map (·.map (·.mapPaths id)) } := by
    rw [mapPaths, List.map_id, ArtifactMap.mapPaths_id, houtput]
  have hservices : p.mapPaths id = p ↔ p.services.map (·.map (·.mapPaths id)) = p.services := by
    rw [hplan]
    exact ⟨congrArg Plan.services, fun h => by rw [h]⟩
  rw [hservices, OrderedMap.map_eq_self_iff]
  constructor
  · intro h s hs
    obtain ⟨entries, hentries, hmem⟩ := List.mem_flatten.mp hs
    have hmap := (h entries hentries).trans (List.map_id entries).symm
    exact Service.mapPaths_id_iff.mp (List.map_inj_left.mp hmap s hmem)
  · intro h entries hentries
    refine (List.map_congr_left fun s hs => ?_).trans (List.map_id entries)
    exact Service.mapPaths_id_iff.mpr (h s (List.mem_flatten.mpr ⟨entries, hentries, hs⟩))

/-! ## Both directions -/

namespace Document

/-- A plan of the right kind becomes a document. -/
theorem ofPlan?_of_kind {p : Plan} (h : p.kind = Plan.standardKind) (f : String → String) :
    ofPlan? f p = .ok (ofPlan f p) := by
  unfold ofPlan? checkKind
  rw [if_pos h]
  rfl

/-- **Both directions convert the same fields.**  A plan of the right kind becomes a document and
a plan again; its paths have then been converted by `f` and by `g`, its lists have lost their
repeats, and all else is as it was.  With nothing to convert it is the same plan exactly if no
list had repeats. -/
theorem directions_convert_alike {p : Plan} (hkind : p.kind = Plan.standardKind) :
    (∀ f g : String → String, (∀ v, v ≠ "" → f v ≠ "") →
      (ofPlan? f p).map (toPlan g) = .ok (p.mapPaths fun v => g (f v))) ∧
    ((ofPlan? id p).map (toPlan id) = .ok p ↔ p.Tidy) := by
  have hthere : ∀ f g : String → String, (∀ v, v ≠ "" → f v ≠ "") →
      (ofPlan? f p).map (toPlan g) = .ok (p.mapPaths fun v => g (f v)) := by
    intro f g hf
    rw [ofPlan?_of_kind hkind]
    exact congrArg Schema.Checked.ok (toPlan_ofPlan hf g p)
  refine ⟨hthere, ?_⟩
  rw [hthere id id fun _ hv => hv, Schema.Checked.ok.injEq]
  exact Plan.mapPaths_id_iff

/-- Two conversions of which the first makes all paths equal, and a plan in which one service has
paths as its target options and the other has not. -/
theorem directions_convert_alike_of_two_builds :
    let f : String → String := fun v => if v = "" then "" else "in"
    let g : String → String := fun v => if v = "in" then "out" else v
    let web := { Service.new "web" .any with
      build := .s2i
      targetOptions := ["a", "", "b"]
      sources := .ofList [(.compose, ["a", "b"]), (.knative, [])]
      repo := ⟨"a", "a", "a", ""⟩ }
    let db := { Service.new "db" .any with build := .cnb, targetOptions := ["a", "b", "a"] }
    let p := { Plan.new "shop" "Kubernetes" with
      k8sFiles := ["b", "a"]
      services := OrderedMap.ofList [("web", [web, web]), ("db", [db]), ("none", [])] }
    let q := { Plan.new "shop" "Kubernetes" with
      k8sFiles := ["out", "out"]
      services := OrderedMap.ofList [
        ("web", List.replicate 2 { web with
          targetOptions := ["out", ""]
          sources := .ofList [(.compose, ["out"]), (.knative, [])]
          repo := ⟨"out", "a", "a", ""⟩ }),
        ("db", [{ db with targetOptions := ["a", "b"] }]), ("none", [])] }
    p.kind = Plan.standardKind ∧ (∀ v, v ≠ "" → f v ≠ "") ∧
      (ofPlan? f p).map (toPlan g) = .ok q ∧ (ofPlan? id p).map (toPlan id) ≠ .ok p ∧
      (ofPlan? id q).map (toPlan id) = .ok q := by
  intro f g web db p q
  have hf : ∀ v, v ≠ "" → f v ≠ "" := by
    intro v hv
    show (if v = "" then "" else "in") ≠ ""
    rw [if_neg hv]
    decide
  obtain ⟨hthere, hsame⟩ := directions_convert_alike (p := p) rfl
  have hmapped : p.mapPaths (fun v => g (f v)) = q := by decide +kernel
  refine ⟨rfl, hf, ?_, ?_, ?_⟩
  · rw [hthere f g hf, hmapped]
  · rw [Ne, hsame]
    decide +kernel
  · exact (directions_convert_alike (p := q) rfl).2.mpr (by decide +kernel)

end Document

/-! ## What all paths are like -/

/-- All paths of the service satisfy `P`; those of its repository may be missing. -/
structure Service.PathsAre (P : String → Prop) (s : Service) : Prop where
  options : s.build.hasPathOptions = true → ∀ v ∈ s.targetOptions, P v
  sources : ∀ k, ∀ v ∈ s.sources.get k, P v
  builds : ∀ k, ∀ v ∈ s.builds.get k, P v
  repoDir : s.repo.dir ≠ "" → P s.repo.dir
  targetPath : s.repo.targetPath ≠ "" → P s.repo.targetPath

/-- All paths of the plan but for its root satisfy `P`; that of its cluster may be missing. -/
structure Plan.PathsAre (P : String → Prop) (p : Plan) : Prop where
  k8sFiles : ∀ v ∈ p.k8sFiles, P v
  services : ∀ s ∈ p.entries, s.PathsAre P
  targets : ∀ k, ∀ v ∈ p.targets.get k, P v
  clusterPath : p.output.cluster.path ≠ "" → P p.output.cluster.path

namespace Document

section

variable {P : String → Prop} {f : String → String}

theorem forall_mem_get_toArtifacts {κ : Type} [DecidableEq κ] (h : ∀ v, P (f v))
    (m : OrderedMap κ (List String)) (k : κ) : ∀ v ∈ (toArtifacts f m).get k, P v := by
  intro v hv
  rw [toArtifacts_eq, ArtifactMap.get_mapPaths, Discovery.mem_distinct] at hv
  obtain ⟨u, -, rfl⟩ := List.mem_map.mp hv
  exact h u

theorem convertOptional_of_ne {v : String} (h : ∀ v, P (f v)) (hv : convertOptional f v ≠ "") :
    P (convertOptional f v) := by
  unfold convertOptional at hv ⊢
  split
  · rename_i hempty
    rw [if_pos hempty] at hv
    exact absurd rfl hv
  · exact h v

theorem pathsAre_toService (h : ∀ v, P (f v)) (s : ServiceDocument) :
    (toService f s).PathsAre P where
  options hpath v hv := by
    have hconverted : convertOptions f s.build s.targetOptions = s.targetOptions.map f :=
      if_pos hpath
    rw [toService, hconverted, Discovery.mem_distinct] at hv
    obtain ⟨u, -, rfl⟩ := List.mem_map.mp hv
    exact h u
  sources := forall_mem_get_toArtifacts h s.sources
  builds := forall_mem_get_toArtifacts h s.builds
  repoDir := convertOptional_of_ne h
  targetPath := convertOptional_of_ne h

/-- The entries of the plan of a document are services of the document. -/
theorem exists_of_mem_entries_toPlan {d : Document} {s : Service} (h : s ∈ (toPlan f d).entries) :
    ∃ sd, toService f sd = s := by
  obtain ⟨es, hes, hmem⟩ := List.mem_flatten.mp h
  obtain ⟨e, he, rfl⟩ := List.mem_map.mp hes
  obtain ⟨⟨name, ds⟩, -, rfl⟩ := List.mem_map.mp he
  obtain ⟨sd, -, hsd⟩ := List.mem_map.mp hmem
  exact ⟨sd, hsd⟩

/-- All paths of the plan of a document are what the conversion makes. -/
theorem pathsAre_toPlan (h : ∀ v, P (f v)) (d : Document) : (toPlan f d).PathsAre P where
  k8sFiles v hv := by
    obtain ⟨u, -, rfl⟩ := List.mem_map.mp hv
    exact h u
  services s hs := by
    obtain ⟨sd, rfl⟩ := exists_of_mem_entries_toPlan hs
    exact pathsAre_toService h sd
  targets := forall_mem_get_toArtifacts h d.targets
  clusterPath := convertOptional_of_ne h

end

/-! ## What is loaded has no repeats -/

/-- A document may hold repeats, and its paths may be converted in any way. -/
theorem tidy_toService (f : String → String) (s : ServiceDocument) : (toService f s).Tidy :=
  ⟨Discovery.nodup_distinct s.sourceKinds, Discovery.nodup_distinct _⟩

/-- Every entry of a plan that is loaded is tidy, whatever the document holds and however its
paths are converted. -/
theorem tidy_toPlan (f : String → String) (d : Document) : (toPlan f d).Tidy := by
  intro s hs
  obtain ⟨sd, rfl⟩ := exists_of_mem_entries_toPlan hs
  exact tidy_toService f sd

end Document
end Replatform
