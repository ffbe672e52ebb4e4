import Replatform.Proofs.Document.Legible
import Replatform.Proofs.Store.Outcome
import Replatform.Proofs.Store.RoundTrip

/-! # Which written plans can be read

A plan that has been written can be read again, whatever its texts are, if the names of its
services fit as keys; if one does not, the file is no YAML any more.  The printer counts the
characters of a name before it escapes them, and the reader those that it finds in the file: a
name of 103 characters may be written as a key and be too long for one.
-/
namespace Replatform
namespace Store

open Yaml (keyFits)

variable {loader : Yaml.Loader}

/-! ## Files -/

theorem readEntries_write {d : Document} (path : String) {es : Schema.Entries}
    (h : Yaml.read loader d.tree.write = .ok (.map es)) :
    readEntries loader path (Utf8.encode d.tree.write) = .ok es := by
  simp only [readEntries, Utf8.decode_encode, Yaml.Tree.plainLines_write, h]

/-- A document whose names fit is read from its file, with its texts in canonical form. -/
theorem readDocument_of_fits {path : String} {d : Document} (hkind : d.kind = Plan.standardKind)
    (hfits : ∀ name ∈ d.services.keys, keyFits (Text.mended name) = true) :
    readDocument loader path (Utf8.encode d.tree.write) = .ok d.mend.canonical := by
  obtain ⟨es, hyaml, hdocument⟩ := @Document.read_write_of_fits loader d hkind hfits
  simp only [readDocument, readEntries_write path hyaml, bind, Except.bind, hdocument]
  rfl

theorem readDocument_error {path : String} {d : Document}
    (hfits : ¬∀ name ∈ d.services.keys, keyFits (Text.mended name) = true) :
    ∃ fault, readDocument loader path (Utf8.encode d.tree.write) = .error fault := by
  obtain ⟨fault, hyaml⟩ := @Document.read_write_error loader d hfits
  have hentries : ∃ fault, readEntries loader path (Utf8.encode d.tree.write) = .error fault := by
    simp only [readEntries, Utf8.decode_encode, Yaml.Tree.plainLines_write, hyaml]
    cases fault <;> exact ⟨_, rfl⟩
  obtain ⟨fault, hentries⟩ := hentries
  exact ⟨fault, by simp only [readDocument, hentries, bind, Except.bind]⟩

/-! ## Plans -/

section

variable {t t' : FileTree} {cwd cwd' path path' : Path} {p : Plan} {j : Log.Journal}

/-- What is in the file of a plan that has been written. -/
theorem load_of_write (loader : Yaml.Loader) (ht : t.Grounded) (hcwd : t.IsWorkingDirectory cwd)
    (ht' : (write t cwd path p).1 = t') (hwrite : ((write t cwd path p).2.run.run j).1 = .ok ())
    (hsame : t'.place cwd' path' = t'.place cwd path) :
    ∃ d base, draft t cwd path p = .ok d ∧ d.kind = Plan.standardKind ∧
      d.services.keys = p.services.keys ∧ t'.realPath cwd' path'.parent = .ok base ∧
      load loader t' cwd' path' =
        (readDocument loader path'.text (Utf8.encode d.tree.write)).map (planOf base) := by
  obtain ⟨d, _, here, hsaved⟩ := saved_of_save ht hcwd (save_of_write ht' hwrite)
  have hplace := hsame.trans hsaved.place
  obtain ⟨base, hbase⟩ := FileTree.exists_realPath_parent hsaved.grown.grounded hplace
  obtain ⟨hkind, hkeys⟩ := kind_and_names_of_document hsaved.document
  exact ⟨d, base, hsaved.draft, hkind, hkeys, hbase,
    load_of_content (FileTree.contentAt_of_file hplace hsaved.file) hbase⟩

/-- If the name of a service does not fit, the plan that has been written cannot be read. -/
theorem load_error_of_write (loader : Yaml.Loader) (ht : t.Grounded) (hcwd : t.IsWorkingDirectory cwd)
    (ht' : (write t cwd path p).1 = t') (hwrite : ((write t cwd path p).2.run.run j).1 = .ok ())
    (hsame : t'.place cwd' path' = t'.place cwd path)
    (hfits : ¬∀ name ∈ p.services.keys, keyFits (Text.mended name) = true) :
    ∃ fault, load loader t' cwd' path' = .error fault := by
  obtain ⟨d, base, -, -, hkeys, -, hload⟩ :=
    load_of_write loader ht hcwd ht' hwrite hsame
  rw [← hkeys] at hfits
  obtain ⟨fault, hdocument⟩ := @readDocument_error loader path'.text d hfits
  exact ⟨fault, by rw [hload, hdocument]; rfl⟩

/-- **A plan that has been written can be read exactly if the names of its services fit as keys.**
It is read by whatever path leads to the file from whatever working directory, and what is read
is the plan of the document that was written, with its texts in canonical form, for the directory
to which the parent of the path is resolved. -/
theorem read_ok_iff_names_fit (ht : t.Grounded) (hcwd : t.IsWorkingDirectory cwd)
    (ht' : (write t cwd path p).1 = t') (hwrite : ((write t cwd path p).2.run.run j).1 = .ok ())
    (hsame : t'.place cwd' path' = t'.place cwd path) (loader : Yaml.Loader) (j' : Log.Journal) :
    let outcome := ((read loader t' cwd' path').run.run j').1
    ((∃ q, outcome = .ok q) ↔ ∀ name ∈ p.services.keys, keyFits (Text.mended name) = true) ∧
      ∀ q, outcome = .ok q → ∃ d base, draft t cwd path p = .ok d ∧
        t'.realPath cwd' path'.parent = .ok base ∧ q = planOf base d.mend.canonical := by
  dsimp only
  rw [run_read_eq]
  by_cases hfits : ∀ name ∈ p.services.keys, keyFits (Text.mended name) = true
  · obtain ⟨d, base, hd, hkind, hkeys, hbase, hload⟩ :=
      load_of_write loader ht hcwd ht' hwrite hsame
    have hread : load loader t' cwd' path' = .ok (planOf base d.mend.canonical) := by
      rw [hload, readDocument_of_fits hkind (hkeys ▸ hfits)]
      rfl
    rw [hread]
    refine ⟨⟨fun _ => hfits, fun _ => ⟨_, rfl⟩⟩, fun q hq => ⟨d, base, hd, hbase, ?_⟩⟩
    exact (Except.ok.inj hq).symm
  · obtain ⟨fault, hload⟩ := load_error_of_write loader ht hcwd ht' hwrite hsame hfits
    rw [hload]
    refine ⟨⟨?_, fun h => absurd h hfits⟩, ?_⟩
    · rintro ⟨q, hq⟩
      cases hq
    · intro q hq
      cases hq

end

/-- A name of characters beyond the first plane. -/
theorem keyFits_mended_of_wide {n : Nat} (hn : 0 < n) {name : String}
    (hname : name.toList = List.replicate n '😀') :
    keyFits (Text.mended name) = true ↔ n ≤ 102 ∨ Yaml.Tree.longKey ≤ n := by
  have hwide : ∀ c ∈ name.toList, 0x10000 ≤ c.toNat ∧ c ≠ Text.guard := by
    intro c hc
    rw [hname] at hc
    rw [List.eq_of_mem_replicate hc]
    decide
  have hmended := (Text.isOfChars_of_notMem fun hmem => (hwide _ hmem).2 rfl).mended
  have hne : name.toList ≠ [] := by
    rw [hname]
    exact fun h => Nat.ne_of_gt hn (List.replicate_eq_nil_iff _ |>.mp h)
  rw [hmended, Yaml.keyFits_iff_of_wide hne hwide, hname, List.length_replicate]

/-- A service whose name has 102 characters, each of which is written with ten, in a plan that is
written below the working directory and read from the top of the tree. -/
theorem read_ok_of_name_that_fits :
    let name := String.ofList (List.replicate 102 '😀')
    let cwd : Path := ⟨.slash, ["work"]⟩
    let t := FileTree.empty.set ["work"] (.directory .all)
    let p := { Plan.new "shop" "Kubernetes" with
      services := OrderedMap.empty.insert name [Service.new "web" .any] }
    let t' := (write t cwd (.parse "plan.yaml") p).1
    ((write t cwd (.parse "plan.yaml") p).2.run.run .empty).1 = .ok () ∧
      ∃ q, ((read .standard t' ⟨.slash, []⟩ (.parse "work/plan.yaml")).run.run .empty).1 =
        .ok q := by
  intro name cwd t p t'
  have hcwd : t.IsWorkingDirectory cwd :=
    FileTree.isWorkingDirectory_directory (by decide) (by decide)
  have hdraft := @draft_of_realPath t cwd (.parse "plan.yaml") ⟨.slash, ["work"]⟩ p rfl
    (FileTree.realPath_of_place FileTree.grounded_directory hcwd (by rfl))
  obtain ⟨ht', hwrite⟩ := write_of_save
    (@save_of_openFile _ t _ _ _ _ ["work", "plan.yaml"] hdraft (by rfl) (by rfl) (by rfl))
  have hsame : t'.place ⟨.slash, []⟩ (.parse "work/plan.yaml") = t'.place cwd (.parse "plan.yaml") := by
    rw [show t' = _ from ht']
    rfl
  have hfits : ∀ name ∈ p.services.keys, keyFits (Text.mended name) = true := by
    intro name' hname
    obtain rfl : name' = name := List.mem_singleton.mp hname
    exact (keyFits_mended_of_wide (by decide) String.toList_ofList).mpr (.inl (Nat.le_refl 102))
  obtain ⟨hok, -⟩ := read_ok_iff_names_fit FileTree.grounded_directory hcwd rfl (hwrite .empty)
    hsame .standard .empty
  exact ⟨hwrite .empty, hok.mpr hfits⟩

/-- With one character more the plan is written all the same, and cannot be read. -/
theorem read_error_of_name_too_long :
    let name := String.ofList (List.replicate 103 '😀')
    let p := { Plan.new "shop" "Kubernetes" with
      services := OrderedMap.empty.insert name [Service.new "web" .any] }
    let t' := (write .empty ⟨.slash, []⟩ (.parse "plan.yaml") p).1
    ((write .empty ⟨.slash, []⟩ (.parse "plan.yaml") p).2.run.run .empty).1 = .ok () ∧
      ¬∃ q, ((read .standard t' ⟨.slash, []⟩ (.parse "plan.yaml")).run.run .empty).1 = .ok q := by
  intro name p t'
  have hdraft := @draft_of_realPath .empty ⟨.slash, []⟩ (.parse "plan.yaml") ⟨.slash, []⟩ p rfl
    (by rfl)
  obtain ⟨-, hwrite⟩ := write_of_save
    (@save_of_openFile _ .empty _ _ _ _ ["plan.yaml"] hdraft (by rfl) (by rfl) (by rfl))
  have hnot : ¬∀ name ∈ p.services.keys, keyFits (Text.mended name) = true := by
    intro h
    have hlength := (keyFits_mended_of_wide (by decide) String.toList_ofList).mp
      (h name List.mem_cons_self)
    exact absurd hlength (by decide)
  obtain ⟨fault, hload⟩ := load_error_of_write .standard FileTree.grounded_empty
    (FileTree.isWorkingDirectory_root .empty) rfl (hwrite .empty) rfl hnot
  refine ⟨hwrite .empty, ?_⟩
  rw [run_read_eq, hload]
  rintro ⟨q, hq⟩
  cases hq

end Store
end Replatform
