import Replatform.Proofs.Store.RoundTrip

/-! # Paths that a file holds

A plan with a root is written without any absolute path below it.  A path that was absolute is
written as the way from the root: up as far as needed, then down, in normal form, and as a dot if
it is the root itself.  From the way and the root the path can be told again, so two paths are
written alike exactly if they are the same in normal form.  A relative root is itself written as
the way from the directory of the file.
-/
namespace Replatform

/-! ## The paths of a document -/

/-- The values of a service in a file that are paths. -/
def ServiceDocument.pathValues (s : ServiceDocument) : List String :=
  (if s.build.hasPathOptions then s.targetOptions else []) ++ s.sources.values.flatten ++
    s.builds.values.flatten ++ [s.repo.dir, s.repo.targetPath]

namespace Document

/-- The values of a document that are paths, but for its root. -/
def pathValues (d : Document) : List String :=
  d.k8sFiles ++ d.targets.values.flatten ++
    d.services.values.flatten.flatMap ServiceDocument.pathValues ++ [d.output.cluster.path]

section

variable {f : String → String}

theorem flatten_values_convertArtifacts {κ : Type} (m : ArtifactMap κ) :
    (convertArtifacts f m).values.flatten = m.allPaths.map f := by
  rw [ArtifactMap.allPaths, List.map_flatten]
  unfold convertArtifacts OrderedMap.values
  rw [OrderedMap.entries_map, List.map_map, List.map_map]
  rfl

theorem convertOptional_of_empty (hf : f "" = "") (v : String) : convertOptional f v = f v := by
  unfold convertOptional
  split
  · rename_i hv
    rw [hv, hf]
  · rfl

theorem pathValues_ofService (hf : f "" = "") (s : Service) :
    (ofService f s).pathValues = s.pathValues.map f := by
  have hoptions : (if s.build.hasPathOptions then convertOptions f s.build s.targetOptions else []) =
      (if s.build.hasPathOptions then s.targetOptions else []).map f := by
    split
    · rename_i hpath
      exact if_pos hpath
    · rfl
  simp only [ServiceDocument.pathValues, Service.pathValues, ofService, convertRepo,
    convertOptional_of_empty hf, flatten_values_convertArtifacts, List.map_append, List.map_cons,
    List.map_nil, ← hoptions]

/-- The paths of the document of a plan are the paths of the plan, each of them converted, if a
path that is missing stays so. -/
theorem pathValues_ofPlan (hf : f "" = "") (p : Plan) :
    (ofPlan f p).pathValues = p.pathValues.map f := by
  have hservices : (ofPlan f p).services.values.flatten = p.entries.map (ofService f) := by
    rw [Plan.entries, List.map_flatten]
    unfold ofPlan OrderedMap.values
    rw [OrderedMap.entries_map, List.map_map, List.map_map]
    rfl
  have hentries : (p.entries.map (ofService f)).flatMap ServiceDocument.pathValues =
      (p.entries.flatMap Service.pathValues).map f := by
    rw [List.flatMap_map, List.map_flatMap]
    exact congrArg (p.entries.flatMap ·) (funext (pathValues_ofService hf))
  rw [pathValues, hservices, hentries, Plan.pathValues, List.map_append, List.map_append,
    List.map_append, ← flatten_values_convertArtifacts, List.map_singleton,
    ← convertOptional_of_empty hf]
  rfl

end

end Document

namespace Store

/-! ## How a way is written -/

/-- The text is that of a relative path in normal form, which goes up before it goes down. -/
structure IsWay (s : String) : Prop where
  relative : isAbsolute s = false
  nonempty : s ≠ ""
  normal : (Path.parse s).normal.text = s
  climbsFirst : (Path.parse s).ClimbsFirst

theorem isWay_relativeTo {dir target : Path} (hdir : dir.Proper) (habs : dir.isAbsolute = true)
    (htarget : target.Proper) (base : Path) : IsWay (dir.relativeTo target base).text := by
  have hproper := Path.proper_relativeTo hdir htarget base
  have hclimbs := Path.climbsFirst_relativeTo habs target base
  have hparse := Path.parse_text hproper
  refine ⟨?_, Path.text_ne_empty hproper, ?_, ?_⟩
  · rw [isAbsolute, hparse]
    rfl
  · rw [hparse, hclimbs.normal_eq rfl]
  · rw [hparse]
    exact hclimbs

section

variable {cwd root : Path} {v w : String}

theorem isAbsolute_toRelative (hcwd : cwd.Proper) (habs : cwd.isAbsolute = true) (root : Path)
    (v : String) : isAbsolute (toRelative cwd (some root) v) = false := by
  cases hv : isAbsolute v with
  | true =>
    rw [toRelative_of_absolute hv]
    exact (isWay_relativeTo hcwd habs (Path.proper_parse v) root).relative
  | false => rw [toRelative_of_relative hv, hv]

/-- From the root, the way to an absolute path leads there. -/
theorem resolve_toRelative (hcwd : cwd.Proper) (hslash : cwd.root = .slash)
    (hroot : root.IsCanonical) (hrootSlash : root.root = .slash) (hv : isAbsolute v = true)
    (hsingle : (Path.parse v).SingleSlash) :
    root.resolve (.parse (toRelative cwd (some root) v)) = (Path.parse v).normal := by
  have habs : cwd.isAbsolute = true := Path.isAbsolute_of_slash hslash
  have hproper := Path.proper_relativeTo hcwd (Path.proper_parse v) root
  have hthere := @Path.resolve_relativeTo_of_parts cwd root (.parse v) root hroot
    (by rw [hroot.resolve_eq]) (Path.isCanonical_resolve habs (.parse v))
  have hsame : root.root = (cwd.resolve (.parse v)).root := by
    rw [Path.root_resolve hslash hsingle, hrootSlash]
  rw [toRelative_of_absolute hv, Path.parse_text hproper, hthere, hsame,
    Path.resolve_of_isAbsolute hv]

/-- Two absolute paths are written alike exactly if they are the same in normal form. -/
theorem toRelative_eq_iff (hcwd : cwd.Proper) (hslash : cwd.root = .slash)
    (hroot : root.IsCanonical) (hrootSlash : root.root = .slash) (hv : isAbsolute v = true)
    (hw : isAbsolute w = true) (hsingle : (Path.parse v).SingleSlash)
    (hsingle' : (Path.parse w).SingleSlash) :
    toRelative cwd (some root) v = toRelative cwd (some root) w ↔
      (Path.parse v).normal = (Path.parse w).normal := by
  constructor
  · intro h
    rw [← resolve_toRelative hcwd hslash hroot hrootSlash hv hsingle, h,
      resolve_toRelative hcwd hslash hroot hrootSlash hw hsingle']
  · intro h
    rw [toRelative_of_absolute hv, toRelative_of_absolute hw, Path.relativeTo, Path.relativeTo,
      Path.resolve_of_isAbsolute hv, Path.resolve_of_isAbsolute hw, h]

/-- The dot is written for the root itself. -/
theorem toRelative_eq_dot_iff (hcwd : cwd.Proper) (hslash : cwd.root = .slash)
    (hroot : root.IsCanonical) (hrootSlash : root.root = .slash) (hv : isAbsolute v = true)
    (hsingle : (Path.parse v).SingleSlash) :
    toRelative cwd (some root) v = "." ↔ (Path.parse v).normal = root := by
  constructor
  · intro h
    have hdot : Path.parse "." = Path.parse "" := by decide
    rw [← resolve_toRelative hcwd hslash hroot hrootSlash hv hsingle, h, hdot,
      hroot.resolve_parse_empty]
  · intro h
    rw [toRelative_of_absolute hv, Path.relativeTo, Path.resolve_of_isAbsolute hv, h,
      hroot.resolve_eq, Path.steps_self]
    rfl

end

theorem isWay_storedRoot {cwd : Path} (hcwd : cwd.Proper) (habs : cwd.isAbsolute = true)
    (base : Path) {root : String} (hne : root ≠ "") (hrel : isAbsolute root = false) :
    IsWay (storedRoot cwd base root) := by
  rw [storedRoot_of_relative hrel hne]
  exact isWay_relativeTo hcwd habs (hcwd.resolve (Path.proper_parse root)) _

/-! ## Plans with a root -/

/-- **No absolute path is written below a root.**  The document of a plan with a root holds the
paths of the plan, each as it is written under the root, and none of them is absolute.  An absolute
one is written as a way, which is a dot exactly if it is the root; from the root the way leads to
the normal form of the path, and two are written alike exactly if these are the same.  A relative
root is written as a way as well, from whatever directory the file is in.  Such a document is what
is made for any path, and what the file then holds. -/
theorem paths_are_portable {cwd : Path} {p : Plan} (hcwd : cwd.Proper)
    (hslash : cwd.root = .slash) (hkind : p.kind = Plan.standardKind) (hroot : p.rootDir ≠ "")
    (hrootSingle : (Path.parse p.rootDir).SingleSlash)
    (hsingle : ∀ v ∈ p.pathValues, (Path.parse v).SingleSlash) :
    let root := cwd.resolve (.parse p.rootDir)
    let stored := toRelative cwd (some root)
    (∀ base, ∃ d, document cwd base p = .ok d ∧ d.pathValues = p.pathValues.map stored ∧
      (∀ v ∈ d.pathValues, isAbsolute v = false) ∧
      (∀ v ∈ p.pathValues, isAbsolute v = true →
        IsWay (stored v) ∧ (stored v = "." ↔ (Path.parse v).normal = root) ∧
          (root.resolve (.parse (stored v))).text = (Path.parse v).normal.text ∧
          ∀ w ∈ p.pathValues, isAbsolute w = true →
            (stored v = stored w ↔ (Path.parse v).normal = (Path.parse w).normal)) ∧
      (isAbsolute p.rootDir = false → IsWay d.rootDir)) ∧
      (∀ t path d, draft t cwd path p = .ok d → ∃ base, document cwd base p = .ok d) ∧
      ∀ t path j, t.Grounded → t.IsWorkingDirectory cwd →
        ((write t cwd path p).2.run.run j).1 = .ok () →
          ∃ d, draft t cwd path p = .ok d ∧
            (write t cwd path p).1.contentAt cwd path = .ok (Utf8.encode d.tree.write) := by
  intro root stored
  have habs : cwd.isAbsolute = true := Path.isAbsolute_of_slash hslash
  have hcanonical : root.IsCanonical := Path.isCanonical_resolve habs _
  have hrootSlash : root.root = .slash := Path.root_resolve hslash hrootSingle
  have hvalues : (Document.ofPlan (toRelative cwd (rootOf cwd p.rootDir)) p).pathValues =
      p.pathValues.map stored := by
    rw [rootOf_of_ne cwd hroot]
    exact Document.pathValues_ofPlan (toRelative_of_relative rfl cwd root) p
  refine ⟨fun base => ⟨_, document_of_kind hkind cwd base, hvalues, ?_,
    fun v hv habsolute => ⟨?_, ?_, ?_, ?_⟩, ?_⟩, ?_, ?_⟩
  · intro v hv
    obtain ⟨u, -, rfl⟩ := List.mem_map.mp (hvalues ▸ hv)
    exact isAbsolute_toRelative hcwd habs root u
  · show IsWay (toRelative cwd (some root) v)
    rw [toRelative_of_absolute habsolute]
    exact isWay_relativeTo hcwd habs (Path.proper_parse v) root
  · exact toRelative_eq_dot_iff hcwd hslash hcanonical hrootSlash habsolute (hsingle v hv)
  · rw [resolve_toRelative hcwd hslash hcanonical hrootSlash habsolute (hsingle v hv)]
  · intro w hw habsolute'
    exact toRelative_eq_iff hcwd hslash hcanonical hrootSlash habsolute habsolute' (hsingle v hv)
      (hsingle w hw)
  · exact isWay_storedRoot hcwd habs base hroot
  · intro t path d hdraft
    obtain ⟨base, -, hd⟩ := draft_eq_ok.mp hdraft
    exact ⟨base, hd⟩
  · intro t path j ht hworking hwrite
    obtain ⟨d, base, here, hsaved⟩ := saved_of_save ht hworking (save_of_write rfl hwrite)
    exact ⟨d, hsaved.draft, hsaved.content⟩

/-- Under a root that is given with a detour, a file next to it, a path below the root that is given
relative to it, the root itself, an option and a cluster with superfluous dots are all written as
ways, and the root as seen from the directory of the file. -/
theorem paths_are_portable_under_relative_root :
    let cwd : Path := ⟨.slash, ["work"]⟩
    let base : Path := ⟨.slash, ["work", "plans"]⟩
    let web := { Service.new "web" .any with
      build := .s2i
      targetOptions := ["/work/shop/./opt"] }
    let p := { Plan.new "shop" "Kubernetes" with
      rootDir := "shop/src/.."
      k8sFiles := ["/work/web.yaml", "deploy.yaml", "/work/shop"]
      services := OrderedMap.empty.insert "web" [web]
      output := { KubernetesOutput.blank with cluster := ⟨"", "/srv/../clusters/a.yaml"⟩ } }
    ∃ d, document cwd base p = .ok d ∧
      d.pathValues = ["../web.yaml", "deploy.yaml", ".", "opt", "", "", "../../clusters/a.yaml"] ∧
      (∀ v ∈ d.pathValues, isAbsolute v = false) ∧ IsWay d.rootDir ∧ d.rootDir = "../shop" := by
  intro cwd base web p
  have hcwd : cwd.Proper := fun part hpart => by
    rw [List.mem_singleton.mp hpart]
    decide
  obtain ⟨hdocument, -, -⟩ :=
    @paths_are_portable cwd p hcwd rfl rfl (by decide) (by decide) (by decide +kernel)
  obtain ⟨d, hd, hvalues, hrelative, -, hway⟩ := hdocument base
  refine ⟨d, hd, ?_, hrelative, hway (by decide +kernel), ?_⟩
  · rw [hvalues]
    decide +kernel
  · obtain ⟨-, rfl⟩ := document_ok hd
    decide +kernel

end Store
end Replatform
