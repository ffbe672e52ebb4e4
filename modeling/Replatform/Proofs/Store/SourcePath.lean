import Replatform.Proofs.Assembly.Offer
import Replatform.Proofs.Document.Legible
import Replatform.Proofs.Store.RoundTrip
import Replatform.Workflow

/-! # Where a service lives

A planning run looks for the repository of a service around its first source directory as seen
from the root, or around the root itself.  The store never asks where a service lives: it converts
the root and the directory separately, and each of them there and back.  Still the two agree.
What is read of the first source directory, or of the root for a service without one, is the place
where the run has looked, whatever is relative and however the two are spelled.
-/
namespace Replatform

namespace Workflow

/-- An empty source directory is the root, as is a missing one. -/
theorem sourcePath_eq (root : Path) (s : Service) :
    sourcePath root s = root.join (.parse ((s.sources.first? .sourceCode).getD "")) := by
  unfold sourcePath
  cases s.sources.first? .sourceCode with
  | none => exact (Path.join_parse_empty root).symm
  | some dir =>
    by_cases hdir : dir = ""
    · subst hdir
      exact (Path.join_parse_empty root).symm
    · exact if_neg hdir

/-- The source path in normal form is the directory as seen from the normal form of the root. -/
theorem resolve_sourcePath {cwd root : Path} (hcwd : cwd.isAbsolute = true) (s : Service) :
    cwd.resolve (sourcePath root s) =
      (cwd.resolve root).resolve (.parse ((s.sources.first? .sourceCode).getD "")) := by
  rw [sourcePath_eq, Path.resolve_resolve hcwd]

theorem proper_sourcePath {root : Path} (h : root.Proper) (s : Service) :
    (sourcePath root s).Proper := by
  rw [sourcePath_eq]
  exact h.join (Path.proper_parse _)

end Workflow

namespace Store

open Workflow (sourcePath)

/-- The service as it is read of the file of a plan with a root. -/
theorem services_restored_of_root {cwd root : Path} {p : Plan}
    (h : rootOf cwd p.rootDir = some root) : (restored cwd p).rootDir = root.text ∧
      (restored cwd p).services =
        p.services.map (·.map (·.mapPaths fun v => (located root v).text)) := by
  rw [restored, h]
  exact ⟨rfl, rfl⟩

/-- Under the name of a service, as it is written, are the entries of the last name that is written
like this. -/
theorem under_mend_restored {cwd root : Path} {p : Plan} (h : rootOf cwd p.rootDir = some root)
    (name : String) : Services.under (restored cwd p).mend.services (Text.mended name) =
      (restored cwd p).services.under (Document.lasting p.services name) := by
  have hlasting : Document.lasting (restored cwd p).services name =
      Document.lasting p.services name := by
    rw [(services_restored_of_root h).2, Document.lasting_map]
  unfold Services.under
  rw [← hlasting]
  exact congrArg (Option.getD · []) (Document.get?_mendNames _ name)

/-- **A file says where its services live.**  Let a plan whose root is the path of a run be
written and read back.  Under the name of a service, as it is written, are the entries of the last
name that is written like this.  If that is the name itself, then the service is there, and its first
source directory, or the root that is read if it has none, is the path around which the run looks
for its repository.  Of texts of characters, no two are written alike. -/
theorem sourcePath_agrees {loader : Yaml.Loader} {t t' : FileTree} {cwd cwd' path path' : Path}
    {root : String} {p : Plan} {name : String} {i : Nat} {s : Service} {j j' : Log.Journal}
    (ht : t.Grounded) (hcwd : t.IsWorkingDirectory cwd) (hcwd' : t'.IsWorkingDirectory cwd')
    (hyaml : ∀ d, draft t cwd path p = .ok d →
      Yaml.read loader d.tree.write = .ok d.tree.toValue)
    (hroot : p.rootDir = (Path.parse root).text) (hs : (p.services.under name)[i]? = some s)
    (hslash : (Path.parse root).SingleSlash)
    (hdir : ∀ dir, s.sources.first? .sourceCode = some dir → (Path.parse dir).SingleSlash)
    (ht' : (write t cwd path p).1 = t') (hwrite : ((write t cwd path p).2.run.run j).1 = .ok ())
    (hsame : t'.SameFile cwd path cwd' path') :
    let last := Document.lasting p.services name
    ∃ q, ((read loader t' cwd' path').run.run j').1 = .ok q ∧
      q.services.under (Text.mended name) = (restored cwd p).services.under last ∧
      (last = name → ∃ s', (q.services.under (Text.mended name))[i]? = some s' ∧
        (s'.sources.first? .sourceCode).isSome = (s.sources.first? .sourceCode).isSome ∧
        (s'.sources.first? .sourceCode).getD q.rootDir =
          (cwd.resolve (.parse (sourcePath (.parse root) s).text)).text) ∧
      ((∀ name ∈ p.services.keys, Text.IsOfChars name) → last = name ∧ Text.mended name = name) := by
  intro last
  have hread := run_read_of_write ht hcwd hcwd' hyaml ht' hwrite hsame j'
  -- the root that is read is the root of the run
  have hrootOf : rootOf cwd p.rootDir = some (cwd.resolve (.parse root)) := by
    have hne : p.rootDir ≠ "" := hroot ▸ Path.text_ne_empty (Path.proper_parse root)
    rw [rootOf_of_ne cwd hne, hroot, Path.parse_text (Path.proper_parse root)]
  obtain ⟨hrootDir, hservices⟩ := services_restored_of_root hrootOf
  have hcanonical := Path.isCanonical_resolve hcwd.absolute (.parse root)
  have hrootSlash := Path.root_resolve hcwd.root hslash
  let convert (v : String) : String := (located (cwd.resolve (.parse root)) v).text
  have hunder : Services.under (restored cwd p).mend.services (Text.mended name) =
      (restored cwd p).services.under last := under_mend_restored hrootOf name
  refine ⟨_, hread, hunder, fun hlast => ?_, fun hnames => ?_⟩
  · have hentry : ((restored cwd p).services.under name)[i]? = some (s.mapPaths convert) := by
      rw [hservices, Services.under_map _ _ rfl, List.getElem?_map, hs]
      rfl
    have hfirst : (s.mapPaths convert).sources.first? .sourceCode =
        (s.sources.first? .sourceCode).map convert := ArtifactMap.first?_mapPaths ..
    refine ⟨s.mapPaths convert, by rw [hunder, hlast, hentry], ?_, ?_⟩
    · rw [hfirst, Option.isSome_map]
    · show ((s.mapPaths convert).sources.first? .sourceCode).getD (restored cwd p).rootDir = _
      rw [Path.parse_text (Workflow.proper_sourcePath (Path.proper_parse root) s),
        Workflow.resolve_sourcePath hcwd.absolute, hfirst, hrootDir]
      cases hsome : s.sources.first? .sourceCode with
      | none =>
        rw [Option.map_none, Option.getD_none, Option.getD_none, hcanonical.resolve_parse_empty]
      | some dir => exact congrArg Path.text (located_of_singleSlash hrootSlash (hdir dir hsome))
  · have hname : name ∈ p.services.keys := by
      refine Classical.byContradiction fun hnot => ?_
      rw [Services.under, OrderedMap.get?_eq_none.mpr hnot] at hs
      cases hs
    exact ⟨Document.lasting_eq hnames hname, (hnames name hname).mended⟩

/-- A relative root that climbs, and a directory below it that goes back a step. -/
theorem sourcePath_agrees_of_climbing_root :
    let cwd : Path := ⟨.slash, ["work"]⟩
    let t := FileTree.empty.set ["work"] (.directory .all)
    let web := (Service.new "web" .any).addSource .sourceCode "src/../lib"
    let p := { Plan.new "shop" "Kubernetes" with
      rootDir := "../shop"
      services := OrderedMap.empty.insert "web" [web] }
    let path := Path.parse "plans/shop.yaml"
    let path' := Path.parse "work/plans/shop.yaml"
    let t' := (write t cwd path p).1
    ((write t cwd path p).2.run.run .empty).1 = .ok () ∧
      t'.SameFile cwd path ⟨.slash, []⟩ path' ∧
      (sourcePath (.parse "../shop") web).text = "../shop/src/../lib" ∧
      ∃ q s', ((read .standard t' ⟨.slash, []⟩ path').run.run .empty).1 = .ok q ∧
        (q.services.under "web")[0]? = some s' ∧
        (s'.sources.first? .sourceCode).getD q.rootDir = "/shop/lib" := by
  intro cwd t web p path path' t'
  have hcwd : t.IsWorkingDirectory cwd :=
    FileTree.isWorkingDirectory_directory (by decide) (by decide)
  have hdraft := @draft_of_realPath t cwd path ⟨.slash, ["work", "plans"]⟩ p rfl
    (FileTree.realPath_of_place FileTree.grounded_directory hcwd (by rfl))
  have hyaml := read_draft .standard hdraft (by decide +kernel) (by decide +kernel)
  have hparents : t.makeParents cwd path = (t.set ["work", "plans"] (.directory .all), none) := by
    rfl
  obtain ⟨ht', hwrite⟩ := write_of_save
    (@save_of_openFile _ _ _ _ _ _ ["work", "plans", "shop.yaml"] hdraft hparents (by rfl) (by rfl))
  have hsame : t'.SameFile cwd path ⟨.slash, []⟩ path' := by
    rw [show t' = _ from ht']
    exact ⟨by rfl, by rfl⟩
  have hdir : ∀ dir, web.sources.first? .sourceCode = some dir →
      (Path.parse dir).SingleSlash := by
    intro dir hdir
    obtain rfl : "src/../lib" = dir := Option.some.inj hdir
    decide
  have hnames : ∀ name ∈ p.services.keys, Text.IsOfChars name := by
    intro name hname
    obtain rfl : name = "web" := List.mem_singleton.mp hname
    exact ⟨"web".toList, by decide⟩
  have hroot : p.rootDir = (Path.parse "../shop").text := by decide
  have hs : (p.services.under "web")[0]? = some web := rfl
  obtain ⟨q, hq, -, hagrees, hlast⟩ := sourcePath_agrees FileTree.grounded_directory hcwd
    (FileTree.isWorkingDirectory_root t') hyaml hroot hs (by decide) hdir rfl (hwrite .empty) hsame
  obtain ⟨hname, hmended⟩ := hlast hnames
  obtain ⟨s', hs', -, hplace⟩ := hagrees hname
  rw [hmended] at hs'
  exact ⟨hwrite .empty, hsame, by decide, q, s', hq, hs', hplace.trans (by decide +kernel)⟩

/-- Of two services whose names are halves of a pair the first is in the loaded plan under no name. -/
theorem sourcePath_lost_of_half_pairs :
    let api := (Service.new "api" .any).addSource .sourceCode "/shop/api"
    let web := (Service.new "web" .any).addSource .sourceCode "/shop/web"
    let p := { Plan.new "shop" "Kubernetes" with
      rootDir := "/shop"
      services := (OrderedMap.empty.insert (String.ofList (Text.ofCodes [0xD83D])) [api]).insert
        (String.ofList (Text.ofCodes [0xDE00])) [web] }
    let path := Path.parse "plan.yaml"
    let t := (write .empty ⟨.slash, []⟩ path p).1
    (∀ d, draft .empty ⟨.slash, []⟩ path p = .ok d →
        Yaml.read .standard d.tree.write = .ok d.tree.toValue) ∧
      ((write .empty ⟨.slash, []⟩ path p).2.run.run .empty).1 = .ok () ∧
      ∃ q, ((read .standard t ⟨.slash, []⟩ path).run.run .empty).1 = .ok q ∧
        ∀ entry ∈ q.services.entries, ∀ s ∈ entry.2,
          (s.sources.first? .sourceCode).getD q.rootDir ≠ (sourcePath (.parse "/shop") api).text := by
  intro api web p path t
  have hcwd := FileTree.isWorkingDirectory_root .empty
  have hdraft := @draft_of_realPath .empty ⟨.slash, []⟩ path ⟨.slash, []⟩ p rfl (by rfl)
  have hyaml := read_draft .standard hdraft (by decide +kernel) (by decide +kernel)
  obtain ⟨-, hwrite⟩ := write_of_save
    (@save_of_openFile _ .empty _ _ _ _ ["plan.yaml"] hdraft (by rfl) (by rfl) (by rfl))
  have hread := run_read_of_write FileTree.grounded_empty hcwd
    ((grown_of_write FileTree.grounded_empty hcwd (hwrite .empty)).workingDirectory hcwd) hyaml rfl
    (hwrite .empty) ⟨rfl, rfl⟩ .empty
  exact ⟨hyaml, hwrite .empty, _, hread, by decide +kernel⟩

end Store
end Replatform
