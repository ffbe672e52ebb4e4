import Mathlib.Data.List.Induction
import Replatform.FileTree
import Replatform.Proofs.OrderedMap
import Replatform.Proofs.Path

/-! # Walks in a file tree

A file tree is **grounded** if a directory stands above everything that stands in it.  A walk that
gets through is a derivation (`Leads`): each of its steps goes up or down from a directory, or
goes on at the target of a link.  It can be cut in two anywhere, it ends at no link, and it leads
to the same place in each tree that **extends** the first one: that has all its directories with
the rights there, and exactly its links.
-/
namespace Replatform

theorem Path.Usable.parent {p : Path} (h : p.Usable) : p.parent.Usable :=
  fun part hpart => h part (List.dropLast_subset _ hpart)

namespace FileTree

/-! ## What stands after a change -/

/-- A directory stands at the place. -/
def DirectoryAt (t : FileTree) (place : List String) : Prop :=
  ∃ rights, t.node? place = some (.directory rights)

/-- A link stands at the place. -/
def LinkAt (t : FileTree) (place : List String) : Prop :=
  ∃ target, t.node? place = some (.link target)

theorem node?_root (t : FileTree) : t.node? [] = some (.directory t.top) := if_pos rfl

theorem directoryAt_root (t : FileTree) : t.DirectoryAt [] := ⟨t.top, t.node?_root⟩

theorem node?_set_self (t : FileTree) {here : List String} (h : here ≠ []) (n : Node) :
    (t.set here n).node? here = some n := by
  rw [node?, if_neg h]
  exact OrderedMap.get?_alter_self t.nodes here fun _ => n

theorem node?_set_ne (t : FileTree) {here other : List String} (h : here ≠ other) (n : Node) :
    (t.set here n).node? other = t.node? other := by
  unfold node? set
  split
  · rfl
  · exact OrderedMap.get?_alter_ne t.nodes (fun _ => n) h

theorem DirectoryAt.node?_ne_none {t : FileTree} {place : List String} (h : t.DirectoryAt place) :
    t.node? place ≠ none := by
  obtain ⟨rights, hplace⟩ := h
  rw [hplace]
  exact Option.some_ne_none _

theorem not_directoryAt_of_none {t : FileTree} {here : List String} (h : t.node? here = none) :
    ¬t.DirectoryAt here :=
  fun hdir => hdir.node?_ne_none h

theorem not_directoryAt_of_file {t : FileTree} {here : List String} {access : Access}
    {content : List UInt8} (h : t.node? here = some (.file access content)) :
    ¬t.DirectoryAt here := by
  rintro ⟨rights, hdir⟩
  rw [h] at hdir
  cases hdir

theorem not_linkAt_of_none {t : FileTree} {here : List String} (h : t.node? here = none) :
    ¬t.LinkAt here := by
  rintro ⟨target, hlink⟩
  rw [h] at hlink
  cases hlink

theorem not_linkAt_of_file {t : FileTree} {here : List String} {access : Access}
    {content : List UInt8} (h : t.node? here = some (.file access content)) : ¬t.LinkAt here := by
  rintro ⟨target, hlink⟩
  rw [h] at hlink
  cases hlink

theorem DirectoryAt.not_linkAt {t : FileTree} {here : List String} (h : t.DirectoryAt here) :
    ¬t.LinkAt here := by
  rintro ⟨target, hlink⟩
  obtain ⟨rights, hdir⟩ := h
  rw [hdir] at hlink
  cases hlink

theorem ne_nil_of_not_directoryAt {t : FileTree} {here : List String} (h : ¬t.DirectoryAt here) :
    here ≠ [] := by
  rintro rfl
  exact h t.directoryAt_root

/-! ## Grounded trees -/

/-- A directory stands above everything. -/
def Grounded (t : FileTree) : Prop :=
  ∀ place, t.node? place ≠ none → t.DirectoryAt place.dropLast

theorem grounded_empty : Grounded empty := by
  intro place h
  by_cases hplace : place = []
  · subst hplace
    exact directoryAt_root empty
  · rw [node?, if_neg hplace] at h
    exact absurd rfl h

theorem Grounded.above_directory {t : FileTree} (h : t.Grounded) {dir : List String}
    (hdir : t.DirectoryAt dir) : t.DirectoryAt dir.dropLast :=
  h dir hdir.node?_ne_none

/-- A directory stands at every place above one at which something stands. -/
theorem Grounded.above {t : FileTree} (h : t.Grounded) {place : List String}
    (hplace : t.node? place ≠ none) {n : Nat} (hn : n < place.length) :
    t.DirectoryAt (place.take n) := by
  induction place using List.reverseRecOn generalizing n with
  | nil => cases hn
  | append_singleton init last ih =>
    have hinit := h _ hplace
    rw [List.dropLast_concat] at hinit
    rw [List.length_append, List.length_singleton] at hn
    rcases Nat.lt_or_eq_of_le (Nat.le_of_lt_succ hn) with hlt | rfl
    · rw [List.take_append_of_le_length (Nat.le_of_lt hlt)]
      exact ih hinit.node?_ne_none hlt
    · rw [List.take_left]
      exact hinit

/-! ## Trees that extend others -/

/-- The second tree has all directories of the first with the rights there, and exactly its
links. -/
structure Extends (t t' : FileTree) : Prop where
  directories : ∀ place rights, t.node? place = some (.directory rights) →
    t'.node? place = some (.directory rights)
  links : ∀ place target, t'.node? place = some (.link target) ↔ t.node? place = some (.link target)
  size : t.nodes.size ≤ t'.nodes.size

theorem extends_refl (t : FileTree) : t.Extends t :=
  ⟨fun _ _ h => h, fun _ _ => Iff.rfl, Nat.le_refl _⟩

theorem Extends.trans {t t' t'' : FileTree} (h : t.Extends t') (h' : t'.Extends t'') :
    t.Extends t'' where
  directories place rights hdir := h'.directories place rights (h.directories place rights hdir)
  links place target := (h'.links place target).trans (h.links place target)
  size := Nat.le_trans h.size h'.size

theorem Extends.directoryAt {t t' : FileTree} (h : t.Extends t') {place : List String}
    (hdir : t.DirectoryAt place) : t'.DirectoryAt place := by
  obtain ⟨rights, hrights⟩ := hdir
  exact ⟨rights, h.directories place rights hrights⟩

theorem Extends.linkAt_iff {t t' : FileTree} (h : t.Extends t') (place : List String) :
    t'.LinkAt place ↔ t.LinkAt place :=
  exists_congr fun target => h.links place target

/-- What is no link extends a tree where neither a directory nor a link stands. -/
theorem extends_set {t : FileTree} {here : List String} (hdir : ¬t.DirectoryAt here)
    (hlink : ¬t.LinkAt here) {n : Node} (hn : ∀ target, n ≠ .link target) :
    t.Extends (t.set here n) where
  directories place rights hplace := by
    have hne : here ≠ place := by
      rintro rfl
      exact hdir ⟨rights, hplace⟩
    rw [node?_set_ne t hne, hplace]
  links place target := by
    by_cases hne : here = place
    · subst hne
      rw [node?_set_self t (ne_nil_of_not_directoryAt hdir)]
      exact ⟨fun h => absurd (Option.some.inj h) (hn target), fun h => absurd ⟨target, h⟩ hlink⟩
    · rw [node?_set_ne t hne]
  size := OrderedMap.size_le_insert ..

theorem Grounded.set {t : FileTree} (h : t.Grounded) {here : List String}
    (hhere : ¬t.DirectoryAt here) (habove : t.DirectoryAt here.dropLast) (n : Node) :
    (t.set here n).Grounded := by
  have hkeeps : ∀ place, t.DirectoryAt place → (t.set here n).DirectoryAt place := by
    rintro place ⟨rights, hplace⟩
    have hne : here ≠ place := by
      rintro rfl
      exact hhere ⟨rights, hplace⟩
    exact ⟨rights, (node?_set_ne t hne n).trans hplace⟩
  intro place hplace
  by_cases hne : here = place
  · subst hne
    exact hkeeps _ habove
  · rw [node?_set_ne t hne] at hplace
    exact hkeeps _ (h place hplace)

/-! ## Single steps -/

theorem step_ok {t : FileTree} {dir place : List String} {part : String}
    (h : t.step dir part = .ok place) :
    t.DirectoryAt dir ∧
      (part = ".." ∧ place = dir.dropLast ∨ part ≠ ".." ∧ place = dir ++ [part]) := by
  unfold step at h
  split at h
  · cases h
  · rename_i rights hdir
    refine ⟨⟨rights, hdir⟩, ?_⟩
    split at h
    · cases h
    · split at h
      · rename_i hpart
        exact Or.inl ⟨hpart, (Except.ok.inj h).symm⟩
      · rename_i hpart
        split at h
        · cases h
        · exact Or.inr ⟨hpart, (Except.ok.inj h).symm⟩
  · cases h

/-- A step depends on what stands where it starts. -/
theorem step_congr {t t' : FileTree} {dir : List String} (h : t'.node? dir = t.node? dir)
    (part : String) : t'.step dir part = t.step dir part := by
  rw [step, step, h]

theorem step_of_extends {t t' : FileTree} (h : t.Extends t') {dir place : List String}
    {part : String} (hstep : t.step dir part = .ok place) : t'.step dir part = .ok place := by
  obtain ⟨⟨rights, hdir⟩, -⟩ := step_ok hstep
  rw [← hstep]
  exact step_congr ((h.directories dir rights hdir).trans hdir.symm) part

/-- The place to which a step leads stands below a directory. -/
theorem above_of_step {t : FileTree} (ht : t.Grounded) {dir place : List String} {part : String}
    (h : t.step dir part = .ok place) : t.DirectoryAt place.dropLast := by
  obtain ⟨hdir, ⟨-, rfl⟩ | ⟨-, rfl⟩⟩ := step_ok h
  · exact ht.above_directory (ht.above_directory hdir)
  · rw [List.dropLast_concat]
    exact hdir

/-- A step up leads to a directory. -/
theorem directoryAt_of_step_dots {t : FileTree} (ht : t.Grounded) {dir place : List String}
    (h : t.step dir ".." = .ok place) : t.DirectoryAt place := by
  obtain ⟨hdir, ⟨-, rfl⟩ | ⟨hne, -⟩⟩ := step_ok h
  · exact ht.above_directory hdir
  · exact absurd rfl hne

/-! ## Walks -/

/-- Where a walk goes on at a link in the directory `dir`. -/
def Target.start (target : Target) (dir : List String) : List String :=
  if target.path.isAbsolute then [] else dir

/-- The parts lead from the first place to the second one, along so many links at most. -/
inductive Leads (t : FileTree) : Nat → List String → List String → List String → Prop where
  | done (links : Nat) (dir : List String) : Leads t links dir [] dir
  | plain {links : Nat} {dir here place rest : List String} {part : String}
      (hstep : t.step dir part = .ok here) (hlink : ¬t.LinkAt here)
      (hrest : Leads t links here rest place) : Leads t links dir (part :: rest) place
  | link {links : Nat} {dir here place rest : List String} {part : String} {target : Target}
      (hstep : t.step dir part = .ok here) (hlink : t.node? here = some (.link target))
      (hrest : Leads t links (target.start dir) (target.path.parts ++ rest) place) :
      Leads t (links + 1) dir (part :: rest) place

/-- A walk goes on behind what is no link. -/
theorem walkOn_plain {t : FileTree}
    (follow : List String → List String → Except Refusal (List String))
    {dir here : List String} {part : String} (rest : List String)
    (hstep : t.step dir part = .ok here) (hlink : ¬t.LinkAt here) :
    t.walkOn follow dir (part :: rest) = t.walkOn follow here rest := by
  simp only [walkOn, hstep, bind, Except.bind]
  split
  · rename_i target husable htarget
    exact absurd ⟨⟨target, husable⟩, htarget⟩ hlink
  · rfl

/-- At a link a walk goes on with the target. -/
theorem walkOn_link {t : FileTree}
    (follow : List String → List String → Except Refusal (List String))
    {dir here : List String} {part : String} {target : Target} (rest : List String)
    (hstep : t.step dir part = .ok here) (hlink : t.node? here = some (.link target)) :
    t.walkOn follow dir (part :: rest) = follow (target.start dir) (target.path.parts ++ rest) := by
  simp only [walkOn, hstep, bind, Except.bind, hlink]
  rfl

theorem walkOn_cons_error {t : FileTree}
    (follow : List String → List String → Except Refusal (List String)) {dir : List String}
    {part : String} {refusal : Refusal} (rest : List String)
    (hstep : t.step dir part = .error refusal) :
    t.walkOn follow dir (part :: rest) = .error refusal := by
  simp only [walkOn, hstep, bind, Except.bind]

theorem leads_of_walkOn {t : FileTree} {links : Nat}
    {follow : List String → List String → Except Refusal (List String)}
    {place : List String}
    (hfollow : ∀ dir parts, follow dir parts = .ok place →
      ∃ links', links = links' + 1 ∧ t.Leads links' dir parts place)
    {dir parts : List String} (h : t.walkOn follow dir parts = .ok place) :
    t.Leads links dir parts place := by
  induction parts generalizing dir with
  | nil =>
    obtain rfl : dir = place := Except.ok.inj h
    exact .done links dir
  | cons part rest ih =>
    cases hstep : t.step dir part with
    | error refusal =>
      rw [walkOn_cons_error follow rest hstep] at h
      cases h
    | ok here =>
      by_cases hlink : t.LinkAt here
      · obtain ⟨target, htarget⟩ := hlink
        rw [walkOn_link follow rest hstep htarget] at h
        obtain ⟨links', rfl, hleads⟩ := hfollow _ _ h
        exact .link hstep htarget hleads
      · rw [walkOn_plain follow rest hstep hlink] at h
        exact .plain hstep hlink (ih h)

theorem leads_of_walk {t : FileTree} {links : Nat} {dir parts place : List String}
    (h : t.walk links dir parts = .ok place) : t.Leads links dir parts place := by
  induction links generalizing dir parts with
  | zero => exact leads_of_walkOn (fun _ _ hfollow => by cases hfollow) h
  | succ links ih => exact leads_of_walkOn (fun _ _ hfollow => ⟨links, rfl, ih hfollow⟩) h

/-- A walk gets through exactly where the parts lead. -/
theorem walk_eq_ok {t : FileTree} {links : Nat} {dir parts place : List String} :
    t.walk links dir parts = .ok place ↔ t.Leads links dir parts place := by
  refine ⟨leads_of_walk, fun h => ?_⟩
  induction h with
  | done links dir => cases links <;> rfl
  | @plain links _ _ _ rest _ hstep hlink _ ih =>
    cases links <;> exact (walkOn_plain _ rest hstep hlink).trans ih
  | link hstep hlink _ ih => exact (walkOn_link _ _ hstep hlink).trans ih

section

variable {t : FileTree} {links : Nat} {dir parts place : List String}

theorem Leads.mono (h : t.Leads links dir parts place) {links' : Nat} (hle : links ≤ links') :
    t.Leads links' dir parts place := by
  induction h generalizing links' with
  | done links dir => exact .done links' dir
  | plain hstep hlink _ ih => exact .plain hstep hlink (ih hle)
  | link hstep hlink _ ih =>
    obtain ⟨more, rfl⟩ := Nat.exists_eq_add_of_le hle
    rw [Nat.add_right_comm]
    exact .link hstep hlink (ih (Nat.le_add_right _ more))

theorem Leads.of_extends {t' : FileTree} (ht : t.Extends t') (h : t.Leads links dir parts place) :
    t'.Leads links dir parts place := by
  induction h with
  | done links dir => exact .done links dir
  | plain hstep hlink _ ih =>
    exact .plain (step_of_extends ht hstep) (fun h => hlink ((ht.linkAt_iff _).mp h)) ih
  | link hstep hlink _ ih =>
    exact .link (step_of_extends ht hstep) ((ht.links _ _).mpr hlink) ih

/-- A walk can be cut in two. -/
theorem Leads.append {init tail : List String} (h : t.Leads links dir (init ++ tail) place) :
    ∃ mid, t.Leads links dir init mid ∧ t.Leads links mid tail place := by
  generalize hparts : init ++ tail = parts at h
  induction h generalizing init with
  | done links dir =>
    obtain ⟨rfl, rfl⟩ := List.append_eq_nil_iff.mp hparts
    exact ⟨dir, .done links dir, .done links dir⟩
  | @plain links dir here place rest part hstep hlink hrest ih =>
    cases init with
    | nil =>
      obtain rfl : tail = part :: rest := hparts
      exact ⟨dir, .done links dir, .plain hstep hlink hrest⟩
    | cons first init =>
      obtain ⟨rfl, hrest'⟩ := List.cons.inj hparts
      obtain ⟨mid, hinit, htail⟩ := ih hrest'
      exact ⟨mid, .plain hstep hlink hinit, htail⟩
  | @link links dir here place rest part target hstep hlink hrest ih =>
    cases init with
    | nil =>
      obtain rfl : tail = part :: rest := hparts
      exact ⟨dir, .done (links + 1) dir, .link hstep hlink hrest⟩
    | cons first init =>
      obtain ⟨rfl, hrest'⟩ := List.cons.inj hparts
      have htarget : (target.path.parts ++ init) ++ tail = target.path.parts ++ rest :=
        (List.append_assoc ..).trans (congrArg (target.path.parts ++ ·) hrest')
      obtain ⟨mid, hinit, htail⟩ := ih htarget
      exact ⟨mid, .link hstep hlink hinit, htail.mono (Nat.le_succ links)⟩

/-- A walk along a single part takes a step, and ends there unless this is a link. -/
theorem Leads.single {part : String} (h : t.Leads links dir [part] place) :
    ∃ here, t.step dir part = .ok here ∧ (¬t.LinkAt here → place = here) := by
  cases h with
  | plain hstep _ hrest =>
    cases hrest
    exact ⟨_, hstep, fun _ => rfl⟩
  | link hstep hlink _ => exact ⟨_, hstep, fun hnot => absurd ⟨_, hlink⟩ hnot⟩

theorem Target.directoryAt_start (target : Target) (hdir : t.DirectoryAt dir) :
    t.DirectoryAt (target.start dir) := by
  unfold Target.start
  split
  · exact t.directoryAt_root
  · exact hdir

/-- The place to which a walk leads stands below a directory. -/
theorem Leads.above (h : t.Leads links dir parts place) (ht : t.Grounded)
    (hdir : t.DirectoryAt dir.dropLast) : t.DirectoryAt place.dropLast := by
  induction h with
  | done links dir => exact hdir
  | plain hstep _ _ ih => exact ih (above_of_step ht hstep)
  | @link _ _ _ _ _ _ target hstep _ _ ih =>
    exact ih (ht.above_directory (target.directoryAt_start (step_ok hstep).1))

end

/-! ## Paths -/

theorem usable_iff {p : Path} : p.Usable ↔ accept p = .ok () := by
  unfold accept Path.Usable
  cases h : p.parts.findSome? Text.unusable? with
  | none => exact ⟨fun _ => rfl, fun _ => List.findSome?_eq_none_iff.mp h⟩
  | some why =>
    refine ⟨fun husable => ?_, fun herror => by cases herror⟩
    rw [List.findSome?_eq_none_iff.mpr husable] at h
    cases h

theorem accept_error {p : Path} {refusal : Refusal} (h : accept p = .error refusal) :
    ∃ why, refusal = .unusable why := by
  unfold accept at h
  split at h
  · cases h
  · exact ⟨_, (Except.error.inj h).symm⟩

/-- A path leads to a place if it reaches the operating system and its parts lead there. -/
theorem place_ok {t : FileTree} {cwd p : Path} {place : List String} :
    t.place cwd p = .ok place ↔
      p.Usable ∧ t.Leads linkLimit (start cwd p) p.parts place := by
  unfold FileTree.place
  rw [usable_iff, ← walk_eq_ok]
  cases accept p with
  | error refusal => exact ⟨fun h => (by cases h), fun h => (by cases h.1)⟩
  | ok => exact ⟨fun h => ⟨rfl, h⟩, fun h => h.2⟩

/-- The entry of a path without parts is where walks start; that of another one is a step from
where its parent leads. -/
theorem entry_ok {t : FileTree} {cwd p : Path} {here : List String} :
    t.entry cwd p = .ok here ↔ p.Usable ∧
      (p.parts = [] ∧ here = start cwd p ∨ ∃ init last dir, p.parts = init ++ [last] ∧
        t.Leads linkLimit (start cwd p) init dir ∧ t.step dir last = .ok here) := by
  unfold entry
  rw [usable_iff]
  cases accept p with
  | error refusal => exact ⟨fun h => (by cases h), fun h => (by cases h.1)⟩
  | ok =>
    rcases List.eq_nil_or_concat p.parts with hnil | ⟨init, last, hparts⟩
    · simp only [hnil, List.getLast?_nil, bind, Except.bind, pure, Except.pure, true_and,
        Except.ok.injEq]
      refine ⟨fun h => Or.inl h.symm, ?_⟩
      rintro (h | ⟨init, last, dir, hparts, -⟩)
      · exact h.symm
      · cases init <;> cases hparts
    · rw [List.concat_eq_append] at hparts
      simp only [hparts, List.getLast?_concat, List.dropLast_concat, bind, Except.bind, true_and,
        List.append_eq_nil_iff, List.cons_ne_nil, and_false, false_and, false_or]
      constructor
      · intro h
        cases hwalk : t.walk linkLimit (start cwd p) init with
        | error refusal =>
          rw [hwalk] at h
          cases h
        | ok dir =>
          rw [hwalk] at h
          exact ⟨init, last, dir, rfl, walk_eq_ok.mp hwalk, h⟩
      · rintro ⟨init', last', dir, heq, hleads, hstep⟩
        obtain ⟨rfl, hlast⟩ := List.append_inj' heq rfl
        obtain rfl := List.singleton_inj.mp hlast
        rw [walk_eq_ok.mpr hleads]
        exact hstep

/-- The path is that of a directory in the tree, as a process has it for its working directory:
absolute with one slash, in normal form. -/
structure IsWorkingDirectory (t : FileTree) (cwd : Path) : Prop where
  root : cwd.root = .slash
  proper : cwd.Proper
  direct : ".." ∉ cwd.parts
  stands : t.DirectoryAt cwd.parts

theorem IsWorkingDirectory.absolute {t : FileTree} {cwd : Path} (h : t.IsWorkingDirectory cwd) :
    cwd.isAbsolute = true :=
  Path.isAbsolute_of_slash h.root

theorem IsWorkingDirectory.canonical {t : FileTree} {cwd : Path}
    (h : t.IsWorkingDirectory cwd) : cwd.IsCanonical :=
  ⟨h.absolute, h.direct⟩

theorem IsWorkingDirectory.real {t : FileTree} {cwd : Path} (h : t.IsWorkingDirectory cwd) :
    cwd.IsReal :=
  ⟨h.root, h.direct⟩

theorem IsWorkingDirectory.of_extends {t t' : FileTree} (ht : t.Extends t') {cwd : Path}
    (h : t.IsWorkingDirectory cwd) : t'.IsWorkingDirectory cwd :=
  ⟨h.root, h.proper, h.direct, ht.directoryAt h.stands⟩

theorem IsWorkingDirectory.start {t : FileTree} {cwd : Path} (h : t.IsWorkingDirectory cwd)
    (p : Path) : t.DirectoryAt (start cwd p) := by
  unfold FileTree.start
  split
  · exact t.directoryAt_root
  · exact h.stands

/-- The root of a file tree, as a working directory. -/
theorem isWorkingDirectory_root (t : FileTree) : t.IsWorkingDirectory ⟨.slash, []⟩ where
  root := rfl
  proper _ hpart := absurd hpart List.not_mem_nil
  direct := List.not_mem_nil
  stands := t.directoryAt_root

section

variable {t : FileTree} {cwd p : Path} {place : List String}

/-- What extends a tree disturbs no walk. -/
theorem place_of_extends {t' : FileTree} (ht : t.Extends t') (h : t.place cwd p = .ok place) :
    t'.place cwd p = .ok place :=
  place_ok.mpr ⟨(place_ok.mp h).1, (place_ok.mp h).2.of_extends ht⟩

theorem entry_of_extends {t' : FileTree} (ht : t.Extends t') (h : t.entry cwd p = .ok place) :
    t'.entry cwd p = .ok place := by
  obtain ⟨husable, hnil | ⟨init, last, dir, hparts, hleads, hstep⟩⟩ := entry_ok.mp h
  · exact entry_ok.mpr ⟨husable, Or.inl hnil⟩
  · exact entry_ok.mpr ⟨husable, Or.inr ⟨init, last, dir, hparts, hleads.of_extends ht,
      step_of_extends ht hstep⟩⟩

/-- The place to which a path leads stands below a directory. -/
theorem above_of_place (ht : t.Grounded) (hcwd : t.IsWorkingDirectory cwd)
    (h : t.place cwd p = .ok place) : t.DirectoryAt place.dropLast :=
  (place_ok.mp h).2.above ht (ht.above_directory (hcwd.start p))

theorem exists_place_parent (h : t.place cwd p = .ok place) :
    ∃ dir, t.place cwd p.parent = .ok dir := by
  obtain ⟨husable, hleads⟩ := place_ok.mp h
  obtain ⟨last, hparts⟩ := p.parts.dropLast_prefix
  rw [← hparts] at hleads
  obtain ⟨dir, hinit, -⟩ := hleads.append
  exact ⟨dir, place_ok.mpr ⟨husable.parent, hinit⟩⟩

/-- A path that leads to no directory has a name in the directory to which its parent leads; it
leads there, unless the name is that of a link. -/
theorem entry_of_place (ht : t.Grounded) (hcwd : t.IsWorkingDirectory cwd)
    (h : t.place cwd p = .ok place) (hplace : ¬t.DirectoryAt place) :
    ∃ dir name, t.place cwd p.parent = .ok dir ∧ t.DirectoryAt dir ∧
      t.entry cwd p = .ok (dir ++ [name]) ∧ (¬t.LinkAt (dir ++ [name]) → place = dir ++ [name]) := by
  obtain ⟨husable, hleads⟩ := place_ok.mp h
  rcases List.eq_nil_or_concat p.parts with hnil | ⟨init, last, hparts⟩
  · -- a path without parts leads to the root or to the working directory
    rw [hnil] at hleads
    cases hleads
    exact absurd (hcwd.start p) hplace
  · rw [List.concat_eq_append] at hparts
    rw [hparts] at hleads
    obtain ⟨dir, hinit, hlast⟩ := hleads.append
    obtain ⟨here, hstep, hhere⟩ := hlast.single
    have hparent : p.parent.parts = init := by simp [Path.parent, hparts]
    have hdir : t.place cwd p.parent = .ok dir :=
      place_ok.mpr ⟨husable.parent, by rw [hparent]; exact hinit⟩
    obtain ⟨hdirectory, ⟨rfl, -⟩ | ⟨-, rfl⟩⟩ := step_ok hstep
    · -- a double dot leads to the directory above one
      have habove := directoryAt_of_step_dots ht hstep
      exact absurd (hhere habove.not_linkAt ▸ habove) hplace
    · exact ⟨dir, last, hdir, hdirectory,
        entry_ok.mpr ⟨husable, Or.inr ⟨init, last, dir, hparts, hinit, hstep⟩⟩, hhere⟩

end

end FileTree
end Replatform
