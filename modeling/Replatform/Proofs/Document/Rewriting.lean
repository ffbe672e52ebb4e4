import Replatform.Proofs.Document.Mapping
import Replatform.Proofs.Document.Written

/-! # Plan files that are written anew

A plan file that was written by hand may state its fields under their plain names, state what
goes without saying, hold fields that nobody reads, and repeat itself in its lists.  When it is
read as a plan and the plan is written, the outcome is a file with none of this: reading and
writing it again gives the same file.  The plan is the same each time, except that the names of
its services are **mended** by the first writing.
-/
namespace Replatform

/-! ## Plans with mended names -/

/-- The plan with the names under which its services are written. -/
def Plan.mend (p : Plan) : Plan := { p with services := Document.mendNames p.services }

namespace Plan

theorem mend_eq_self_iff {p : Plan} :
    p.mend = p ↔ ∀ name ∈ p.services.keys, Text.IsOfChars name := by
  rw [← Document.mendNames_eq_self_iff]
  exact ⟨congrArg services, fun h => by rw [mend, h]⟩

theorem mapPaths_mend (f : String → String) (p : Plan) : p.mend.mapPaths f = (p.mapPaths f).mend := by
  have hservices := Document.map_mendNames (fun es => es.map (Service.mapPaths f)) p.services
  unfold mapPaths mend
  rw [hservices]

theorem mend_mend (p : Plan) : p.mend.mend = p.mend := by
  have hservices : Document.mendNames (Document.mendNames p.services) =
      Document.mendNames p.services :=
    Document.mendNames_eq fun _ => Document.mended_of_mem_mendNames
  rw [mend, mend, hservices]

end Plan

namespace Document

open Schema

theorem toPlan_mend (f : String → String) (d : Document) : toPlan f d.mend = (toPlan f d).mend := by
  have hservices : (toPlan f d.mend).services = mendNames (toPlan f d).services :=
    map_mendNames _ d.services
  rw [Plan.mend, ← hservices]
  rfl

theorem ofPlan_mend (f : String → String) (p : Plan) : ofPlan f p.mend = (ofPlan f p).mend := by
  have hservices : (ofPlan f p.mend).services = mendNames (ofPlan f p).services :=
    map_mendNames _ p.services
  rw [mend, ← hservices]
  rfl

/-! ## The kind of what is read -/

theorem kind_of_checkKind {kind kind' : String} (h : checkKind kind = .ok kind') :
    kind' = Plan.standardKind := by
  unfold checkKind at h
  split at h
  · rename_i hkind
    exact (Checked.ok.inj h).symm.trans hkind
  · cases h

/-- Whatever is accepted as a document is of the right kind, whether it states one or not. -/
theorem kind_of_read {v : Value} {d : Document} (h : Document.read v = .ok d) :
    d.kind = Plan.standardKind := by
  cases v with
  | map es =>
    have hentries : readEntries es = .ok d := h
    obtain ⟨_, spec, hmetadata, -, rfl⟩ := Checked.seq_eq_ok.mp hentries
    obtain ⟨_, name, hstated, -, rfl⟩ := Checked.seq_eq_ok.mp hmetadata
    obtain ⟨_, kind, hversion, hkind, rfl⟩ := Checked.seq_eq_ok.mp hstated
    obtain ⟨apiVersion, -, rfl⟩ := Checked.map_eq_ok.mp hversion
    show kind = Plan.standardKind
    rcases optional_eq_ok hkind with rfl | ⟨v, hv⟩
    · rfl
    · obtain ⟨stated, -, hcheck⟩ := Checked.bind_eq_ok.mp hv
      exact kind_of_checkKind hcheck
  | _ => cases h

/-! ## Rewriting -/

/-- The written form of the plan that a value is read as. -/
def rewritten (v : Value) : Checked Value :=
  (Document.read v).bind fun d => (ofPlan? id (toPlan id d)).map fun e => e.tree.toValue

theorem rewritten_of_read {v : Value} {d : Document} (h : Document.read v = .ok d) :
    rewritten v = .ok (ofPlan id (toPlan id d)).tree.toValue := by
  rw [rewritten, h]
  show (ofPlan? id (toPlan id d)).map _ = _
  rw [ofPlan?_of_kind (kind_of_read h)]
  rfl

/-- A plan without repeats is the plan of its document. -/
theorem toPlan_ofPlan_of_tidy {p : Plan} (h : p.Tidy) : toPlan id (ofPlan id p) = p :=
  (toPlan_ofPlan (fun _ hv => hv) id p).trans (Plan.mapPaths_id_iff.mpr h)

/-- What was rewritten is read as the document of the plan, under mended names, and that one is
the plan again. -/
theorem toPlan_mend_ofPlan_toPlan (d : Document) :
    toPlan id (ofPlan id (toPlan id d)).mend = (toPlan id d).mend := by
  rw [toPlan_mend, toPlan_ofPlan_of_tidy (tidy_toPlan id d)]

/-- **Rewriting settles a file.**  What is rewritten is accepted, and rewriting it gives the same;
the plan that it holds is the one of the first file with mended names, which is the same plan
exactly if all names are texts of characters. -/
theorem rewriting_settles {v : Value} {d : Document} (h : Document.read v = .ok d) :
    ∃ w e, rewritten v = .ok w ∧ Document.read w = .ok e ∧ rewritten w = .ok w ∧
      toPlan id e = (toPlan id d).mend ∧
      (toPlan id e = toPlan id d ↔ ∀ name ∈ d.services.keys, Text.IsOfChars name) := by
  have hkind : d.kind = Plan.standardKind := kind_of_read h
  have hread := read_toValue_tree_mend (d := ofPlan id (toPlan id d)) hkind
  have hplan := toPlan_mend_ofPlan_toPlan d
  refine ⟨_, _, rewritten_of_read h, hread, ?_, hplan, ?_⟩
  · rw [rewritten_of_read hread, hplan, ofPlan_mend, tree_mend]
  · have hnames : (toPlan id d).services.keys = d.services.keys := OrderedMap.keys_map _ _
    rw [hplan, Plan.mend_eq_self_iff, hnames]

/-- A file with plain names of fields, with nothing in the place of lists and maps, with repeats,
with a field that nobody reads and without most sections. -/
theorem rewriting_settles_of_plain_names :
    let web : Value := .map [
      (.text "service_name", .text "web"), (.text "translation_type", .text "Containerize"),
      (.text "containerBuildType", .text "S2I"), (.text "build_artifacts", .null),
      (.text "source_types", .list [.text "Directory", .text "Directory"]),
      (.text "targetOptions", .list [.text "b", .text "a", .text "b"]),
      (.text "sourceArtifacts", .map [(.text "Dockerfile", .list [.text "d", .text "d"]),
        (.text "SourceCode", .null)])]
    let v : Value := .map [(.text "note", .int 1), (.text "api_version", .text "v2"),
      (.text "spec", .map [(.text "inputs", .map [(.text "k8s_files", .null),
        (.text "services", .map [(.text "web", .list [web]), (.text "db", .null)])])])]
    let written : ServiceDocument := {
      name := "web", relPath := "", image := "", strategy := .any, build := .s2i
      sourceKinds := [.directory], targetOptions := ["b", "a"]
      sources := .ofList [(.dockerfile, ["d"]), (.sourceCode, [])], builds := .empty
      updatesBuild := false, updatesDeploy := false, repo := .none }
    let e : Document := {
      apiVersion := "v2", kind := "Plan", name := "", rootDir := "", k8sFiles := []
      services := .ofList [("web", [written]), ("db", [])], targets := .empty, output := .blank }
    ∃ d, Document.read v = .ok d ∧ d ≠ e ∧ rewritten v = .ok e.tree.toValue ∧
      rewritten e.tree.toValue = .ok e.tree.toValue ∧
      Document.read e.tree.toValue = .ok e ∧ toPlan id e = toPlan id d := by
  intro web v written e
  let read : ServiceDocument := { written with
    sourceKinds := [.directory, .directory], targetOptions := ["b", "a", "b"]
    sources := .ofList [(.dockerfile, ["d", "d"]), (.sourceCode, [])] }
  let d : Document := { e with services := .ofList [("web", [read]), ("db", [])] }
  have hread : Document.read v = .ok d := by rfl
  have hdocument : ofPlan id (toPlan id d) = e := by decide +kernel
  have hnames : ∀ name ∈ d.services.keys, Text.guard ∉ name.toList := by decide +kernel
  obtain ⟨w, e', hw, hagain, hw', -, hsame⟩ := rewriting_settles hread
  have hfirst := rewritten_of_read hread
  rw [hdocument] at hfirst
  obtain rfl : w = e.tree.toValue := Checked.ok.inj (hw.symm.trans hfirst)
  obtain rfl : e' = e := by
    have hmended : e.mend = e := by decide +kernel
    rw [read_toValue_tree_mend rfl, hmended] at hagain
    exact (Checked.ok.inj hagain).symm
  exact ⟨d, hread, by decide +kernel, hw, hw', hagain, hsame.mpr fun name hname =>
    Text.isOfChars_of_notMem (hnames name hname)⟩

/-- A file with a service under a name that holds both halves of a pair: rewriting gives it another
name. -/
theorem rewriting_changes_name :
    let name := String.ofList (Text.ofCodes [0xD83D, 0xDE00])
    let v : Value := .map [(.text "spec", .map [(.text "inputs", .map [
      (.text "services", .map [(.text name, .list [])])])])]
    ∃ w d e, Document.read v = .ok d ∧ rewritten v = .ok w ∧ Document.read w = .ok e ∧
      (toPlan id d).services.keys = [name] ∧
      (toPlan id e).services.keys = [String.ofList (List.replicate 6 '\ufffd')] ∧
      toPlan id e ≠ toPlan id d := by
  intro name v
  let d : Document := {
    apiVersion := Plan.standardApiVersion, kind := Plan.standardKind, name := "", rootDir := ""
    k8sFiles := [], services := .ofList [(name, [])], targets := .empty, output := .blank }
  have hread : Document.read v = .ok d := by rfl
  have hagain := read_toValue_tree_mend (d := ofPlan id (toPlan id d)) rfl
  exact ⟨_, d, _, hread, rewritten_of_read hread, hagain, by decide +kernel, by decide +kernel,
    by decide +kernel⟩

end Document
end Replatform
