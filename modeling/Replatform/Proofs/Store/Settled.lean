import Replatform.Proofs.Store.RoundTrip

/-! # Plans that are saved again

On the way through a file a plan may change: paths become absolute and get a normal form, what is
repeated is dropped, names are mended, and a path that began with two slashes may begin with one.
All this happens once.  The root of a plan that was read is absolute and in normal form, or there
is none, and its paths begin as the root does.  A conversion of such a root and such paths leads
back to where it began, so the plan is written and read as it is from then on, and the file with
it.
-/
namespace Replatform

namespace Store

/-! ## Plans that stay as they are -/

theorem rootOf_text {root : Path} (h : root.IsCanonical) (hproper : root.Proper) (cwd : Path) :
    rootOf cwd root.text = some root := by
  rw [rootOf_of_ne cwd (Path.text_ne_empty hproper), Path.parse_text hproper, h.resolve_eq]

/-- The place of a path is its own place. -/
theorem located_text {root : Path} (h : root.IsCanonical) (hproper : root.Proper) (v : String) :
    located root (located root v).text = located root v := by
  have hplace : (located root v).Proper := hproper.resolve (Path.proper_parse v)
  have hcanonical : (located root v).IsCanonical :=
    ⟨h.absolute, (Path.isCanonical_resolve h.absolute (.parse v)).direct⟩
  rw [located, Path.parse_text hplace, hcanonical.resolve_eq]
  rfl

theorem restored_mend (cwd : Path) (p : Plan) : restored cwd p.mend = (restored cwd p).mend := by
  have hroot : p.mend.rootDir = p.rootDir := rfl
  unfold restored
  rw [hroot]
  cases rootOf cwd p.rootDir with
  | none => exact Plan.mapPaths_mend id p
  | some root =>
    dsimp only
    rw [Plan.mapPaths_mend]
    rfl

/-- What has been restored stays as it is, from whatever directory it is written again. -/
theorem restored_restored {cwd : Path} (hcwd : cwd.Proper) (habs : cwd.isAbsolute = true)
    (cwd' : Path) (p : Plan) : restored cwd' (restored cwd p) = restored cwd p := by
  by_cases hempty : p.rootDir = ""
  · have hnone : ∀ cwd, rootOf cwd p.rootDir = none := fun _ => if_pos hempty
    have hrestored : restored cwd p = p.mapPaths id := by rw [restored, hnone]
    have hroot : (p.mapPaths id).rootDir = p.rootDir := rfl
    rw [hrestored, restored, hroot, hnone]
    exact Plan.mapPaths_mapPaths (fun _ hv => hv) id p
  · have hcanonical := Path.isCanonical_resolve habs (.parse p.rootDir)
    have hproper : (cwd.resolve (.parse p.rootDir)).Proper :=
      hcwd.resolve (Path.proper_parse p.rootDir)
    have hsome := rootOf_of_ne cwd hempty
    generalize cwd.resolve (.parse p.rootDir) = root at hcanonical hproper hsome
    let convert (v : String) : String := (located root v).text
    have hrestored : restored cwd p = { p.mapPaths convert with rootDir := root.text } := by
      rw [restored, hsome]
    have hne : ∀ v, v ≠ "" → convert v ≠ "" := fun v _ =>
      Path.text_ne_empty (hproper.resolve (Path.proper_parse v))
    have htwice : ∀ v, convert (convert v) = convert v := fun v =>
      congrArg Path.text (located_text hcanonical hproper v)
    rw [hrestored, restored, rootOf_text hcanonical hproper]
    show { (p.mapPaths convert).mapPaths convert with rootDir := root.text } = _
    rw [Plan.mapPaths_mapPaths hne, funext htwice]

/-! ## Files -/

/-- The plan `p` is written to a file of the tree `t`, which is `t'` then, and `q` is read of it. -/
structure RoundTrip (loader : Yaml.Loader) (cwd path : Path) (t : FileTree) (p : Plan)
    (t' : FileTree) (q : Plan) : Prop where
  written : ∀ j, ((write t cwd path p).2.run.run j).1 = .ok ()
  tree : (write t cwd path p).1 = t'
  read : ∀ j, ((read loader t' cwd path).run.run j).1 = .ok q

section

variable {loader : Yaml.Loader} {cwd path : Path} {t : FileTree} {p : Plan}

/-- The tree and the plan at the end of a round trip depend on those at its start alone. -/
theorem RoundTrip.unique {t₁ t₂ : FileTree} {q₁ q₂ : Plan}
    (h₁ : RoundTrip loader cwd path t p t₁ q₁) (h₂ : RoundTrip loader cwd path t p t₂ q₂) :
    t₁ = t₂ ∧ q₁ = q₂ := by
  obtain rfl : t₁ = t₂ := h₁.tree.symm.trans h₂.tree
  exact ⟨rfl, Except.ok.inj ((h₁.read .empty).symm.trans (h₂.read .empty))⟩

/-- A plan that has been saved is read as it is restored. -/
theorem roundTrip_of_save {t' : FileTree} (ht : t.Grounded) (hcwd : t.IsWorkingDirectory cwd)
    (hyaml : ∀ d, draft t cwd path p = .ok d →
      Yaml.read loader d.tree.write = .ok d.tree.toValue)
    (hsave : save t cwd path p = (t', .ok ())) :
    RoundTrip loader cwd path t p t' (restored cwd p).mend := by
  obtain ⟨htree, hwritten⟩ := write_of_save hsave
  have hcwd' := (grown_of_write ht hcwd (hwritten .empty)).workingDirectory hcwd
  rw [htree] at hcwd'
  exact ⟨hwritten, htree,
    run_read_of_write ht hcwd hcwd' hyaml htree (hwritten .empty) ⟨rfl, rfl⟩⟩

/-- Where a plan has been saved, another one is saved in its place, if the device takes it. -/
theorem save_again {t' : FileTree} {d : Document} {base : Path} {here : List String}
    (h : Saved t t' cwd path p d base here) (hcwd : t.IsWorkingDirectory cwd) {q : Plan}
    {e : Document} (he : draft t' cwd path q = .ok e)
    (hdevice : t'.device here (Utf8.encode e.tree.write) = none) :
    save t' cwd path q = (t'.set here (.file .write (Utf8.encode e.tree.write)), .ok ()) :=
  save_of_openFile he (FileTree.makeParents_of_place h.grown.grounded (h.workingDirectory hcwd)
    h.place h.notDirectory) (FileTree.openFile_of_file h.place h.file) hdevice

/-- **One round trip is enough.**  If a plan has been written and what is read of the file is
written to it again, then the same plan is read again, provided that the device takes the file; and
from then on the writing of this plan leaves the whole tree as it is.  Nothing is asked of the root
and the paths of the plan, nor of the path of the file. -/
theorem read_write_settles {j : Log.Journal} (ht : t.Grounded) (hcwd : t.IsWorkingDirectory cwd)
    (hyaml : ∀ d, draft t cwd path p = .ok d →
      Yaml.read loader d.tree.write = .ok d.tree.toValue)
    (hwrite : ((write t cwd path p).2.run.run j).1 = .ok ()) :
    ∃ t₁ q, RoundTrip loader cwd path t p t₁ q ∧
      ((∀ e, draft t₁ cwd path q = .ok e →
        Yaml.read loader e.tree.write = .ok e.tree.toValue ∧
          ∀ here, t₁.place cwd path = .ok here →
            t₁.device here (Utf8.encode e.tree.write) = none) →
        ∃ t₂, RoundTrip loader cwd path t₁ q t₂ q ∧ RoundTrip loader cwd path t₂ q t₂ q) := by
  have hsave := save_of_write rfl hwrite
  obtain ⟨d, base, here, hsaved⟩ := saved_of_save ht hcwd hsave
  refine ⟨_, _, roundTrip_of_save ht hcwd hyaml hsave, fun hagain => ?_⟩
  have hkind : (restored cwd p).mend.kind = Plan.standardKind := by
    have hp := (document_ok hsaved.document).1
    unfold restored
    cases rootOf cwd p.rootDir <;> exact hp
  have hsettled : (restored cwd (restored cwd p).mend).mend = (restored cwd p).mend := by
    rw [restored_mend, restored_restored hcwd.proper hcwd.absolute, Plan.mend_mend]
  have hcwd₁ := hsaved.workingDirectory hcwd
  -- the file that stands there is written again
  have he := draft_of_realPath hkind hsaved.base
  obtain ⟨-, hdevice⟩ := hagain _ he
  have hsave₁ := save_again hsaved hcwd he (hdevice here hsaved.place)
  have hsecond := roundTrip_of_save hsaved.grown.grounded hcwd₁ (fun e he => (hagain e he).1) hsave₁
  rw [hsettled] at hsecond
  -- and once more, with the content that it has by now
  obtain ⟨e, base', here', hsaved₁⟩ := saved_of_save hsaved.grown.grounded hcwd₁ hsave₁
  obtain rfl := Except.ok.inj (he.symm.trans hsaved₁.draft)
  obtain rfl : here' = here := by
    have hplace := FileTree.place_of_extends hsaved₁.grown.extended hsaved.place
    exact Except.ok.inj (hsaved₁.place.symm.trans hplace)
  obtain rfl : base' = base := by
    have hbase := FileTree.realPath_of_extends hsaved.grown.grounded hsaved₁.grown.extended hcwd₁
      hsaved.base
    exact Except.ok.inj (hsaved₁.base.symm.trans hbase)
  have he' := draft_of_realPath hkind hsaved₁.base
  have hsave₂ := save_again hsaved₁ hcwd₁ he' (hdevice here' hsaved.place)
  rw [FileTree.set_of_node? (FileTree.ne_nil_of_not_directoryAt hsaved₁.notDirectory)
    hsaved₁.file] at hsave₂
  have hthird := roundTrip_of_save hsaved₁.grown.grounded (hsaved₁.workingDirectory hcwd₁)
    (fun e he₂ => (hagain e (he.trans (he'.symm.trans he₂))).1) hsave₂
  rw [hsettled] at hthird
  exact ⟨_, hsecond, hthird⟩

end

/-- A file whose path begins with two slashes, a relative root, a path that begins with two slashes,
one that leads out of the root, and one that is spelled in two ways. -/
theorem read_write_settles_of_two_slashes :
    let cwd : Path := ⟨.slash, ["work"]⟩
    let t := FileTree.empty.set ["work"] (.directory .all)
    let web := { Service.new "web" .any with
      build := .s2i
      targetOptions := ["//srv/image", "../out", "a/./b", "a//b", ""] }
    let p := { Plan.new "shop" "Kubernetes" with
      rootDir := "./shop/."
      services := OrderedMap.empty.insert "web" [web] }
    let path := Path.parse "//work/plans/shop.yaml"
    ((write t cwd path p).2.run.run .empty).1 = .ok () ∧
      ∃ t₁ t₂ q, RoundTrip .standard cwd path t p t₁ q ∧ RoundTrip .standard cwd path t₁ q t₂ q ∧
        RoundTrip .standard cwd path t₂ q t₂ q ∧ q.rootDir = "/work/shop" ∧
        q.entries.map (·.targetOptions) =
          [["/srv/image", "/work/out", "/work/shop/a/b", "/work/shop"]] := by
  intro cwd t web p path
  have hcwd : t.IsWorkingDirectory cwd :=
    FileTree.isWorkingDirectory_directory (by decide) (by decide)
  have hdraft := @draft_of_realPath t cwd path ⟨.slash, ["work", "plans"]⟩ p rfl
    (FileTree.realPath_of_place FileTree.grounded_directory hcwd (by rfl))
  have hyaml := read_draft .standard hdraft (by decide +kernel) (by decide +kernel)
  have hparents : t.makeParents cwd path = (t.set ["work", "plans"] (.directory .all), none) := by
    rfl
  have hsave := @save_of_openFile _ _ _ _ _ _ ["work", "plans", "shop.yaml"] hdraft hparents
    (by rfl) (by rfl)
  obtain ⟨htree, hwrite⟩ := write_of_save hsave
  obtain ⟨t₁, q, hfirst, hagain⟩ :=
    read_write_settles FileTree.grounded_directory hcwd hyaml (hwrite .empty)
  obtain ⟨rfl, rfl⟩ :=
    hfirst.unique (roundTrip_of_save FileTree.grounded_directory hcwd hyaml hsave)
  obtain ⟨t₂, hsecond, hthird⟩ := hagain fun e he => by
    obtain ⟨base, -, he⟩ := draft_eq_ok.mp he
    -- the root is absolute by now
    rw [document_of_not_relative (by decide +kernel) cwd base cwd] at he
    obtain ⟨-, rfl⟩ := document_ok he
    exact ⟨Document.read_write_of_canonical (by decide +kernel) (by decide +kernel),
      fun _ _ => rfl⟩
  exact ⟨hwrite .empty, _, t₂, _, hfirst, hsecond, hthird, by decide +kernel, by decide +kernel⟩

end Store
end Replatform
