import Replatform.Proofs.FileTree.Change

/-! # Paths without links

Links are followed in two ways: the operating system walks through the tree, and a path is
resolved by its text, link by link, into one without links.  Where a walk gets through, both agree
(`realPath_of_place`): the path that is resolved is that of the place.  And a path is resolved
alike before and after the tree has grown (`realPath_of_extends`), since only what it has no link
for can be new.

The path that is being resolved **is straight**: it goes up before it goes down.  It leads through
directories without any link, so a step of the walk is one of the path as well.
-/
namespace Replatform

namespace Path

/-- The path is absolute with one slash and has no double dots, or it is relative and goes up
before it goes down. -/
def IsStraight (p : Path) : Prop :=
  p.root = .slash ∧ ".." ∉ p.parts ∨ p.root = .relative ∧ p.ClimbsFirst

theorem isStraight_slash : IsStraight ⟨.slash, []⟩ := Or.inl ⟨rfl, List.not_mem_nil⟩

theorem isStraight_relative : IsStraight ⟨.relative, []⟩ :=
  Or.inr ⟨rfl, 0, [], rfl, List.not_mem_nil⟩

theorem IsStraight.singleSlash {p : Path} (h : p.IsStraight) : p.SingleSlash := by
  intro hdouble
  obtain ⟨hroot, -⟩ | ⟨hroot, -⟩ := h <;> rw [hdouble] at hroot <;> cases hroot

theorem IsStraight.below {p : Path} (h : p.IsStraight) {part : String} (hpart : part ≠ "..") :
    (p.below part).IsStraight := by
  have hdirect : ∀ {parts : List String}, ".." ∉ parts → ".." ∉ parts ++ [part] := by
    intro parts hparts hmem
    rcases List.mem_append.mp hmem with hmem | hmem
    · exact hparts hmem
    · exact hpart (List.mem_singleton.mp hmem).symm
  rcases h with ⟨hroot, hnot⟩ | ⟨hroot, up, down, hparts, hdown⟩
  · exact Or.inl ⟨hroot, hdirect hnot⟩
  · refine Or.inr ⟨hroot, up, down ++ [part], ?_, hdirect hdown⟩
    rw [Path.below, hparts, List.append_assoc]

/-- One part further up, a straight path has lost its last part, or it is at the root, or it is
relative and goes up once more. -/
theorem IsStraight.up_cases {p : Path} (h : p.IsStraight) :
    (∃ init last, last ≠ ".." ∧ p.parts = init ++ [last] ∧ p.up = ⟨p.root, init⟩) ∨
      (p = ⟨.slash, []⟩ ∧ p.up = p) ∨
      ∃ n, p = ⟨.relative, List.replicate n ".."⟩ ∧
        p.up = ⟨.relative, List.replicate n ".." ++ [".."]⟩ := by
  obtain ⟨root, parts⟩ := p
  rcases List.eq_nil_or_concat parts with rfl | ⟨init, last, rfl⟩
  · rcases h with ⟨rfl, -⟩ | ⟨rfl, -⟩
    · exact Or.inr (Or.inl ⟨rfl, rfl⟩)
    · exact Or.inr (Or.inr ⟨0, rfl, rfl⟩)
  · rw [List.concat_eq_append] at h ⊢
    by_cases hlast : last = ".."
    · subst hlast
      obtain ⟨-, hnot⟩ | ⟨rfl, n, down, hparts, hdown⟩ := h
      · exact absurd (List.mem_append_right init (List.mem_singleton_self "..")) hnot
      · obtain rfl : down = [] := by
          rcases List.eq_nil_or_concat down with hnil | ⟨down', last', rfl⟩
          · exact hnil
          · rw [List.concat_eq_append] at hparts hdown
            dsimp only at hparts
            rw [← List.append_assoc] at hparts
            have hdots := List.singleton_inj.mp (List.append_inj' hparts rfl).2
            exact absurd (List.mem_append_right down' (hdots ▸ List.mem_singleton_self last')) hdown
        rw [List.append_nil] at hparts
        dsimp only at hparts
        refine Or.inr (Or.inr ⟨n, by rw [hparts], ?_⟩)
        have hrev : (init ++ [".."]).reverse = ".." :: init.reverse := by simp
        rw [up, hrev, ← hparts]
        show (⟨.relative, (".." :: ".." :: init.reverse).reverse⟩ : Path) = _
        simp
    · refine Or.inl ⟨init, last, hlast, rfl, ?_⟩
      have hrev : (init ++ [last]).reverse = last :: init.reverse := by simp
      rw [up, hrev, ascend_dots_cons hlast, List.reverse_reverse]

theorem IsStraight.up {p : Path} (h : p.IsStraight) : p.up.IsStraight := by
  obtain ⟨init, last, hlast, hparts, hup⟩ | ⟨-, hup⟩ | ⟨n, -, hup⟩ := h.up_cases
  · rw [hup]
    rcases h with ⟨hroot, hnot⟩ | ⟨hroot, n, down, hdown, hdirect⟩
    · refine Or.inl ⟨hroot, fun hmem => hnot ?_⟩
      rw [hparts]
      exact List.mem_append_left [last] hmem
    · rcases List.eq_nil_or_concat down with rfl | ⟨down', last', rfl⟩
      · rw [hparts, List.append_nil] at hdown
        have hmem : last ∈ List.replicate n ".." := hdown ▸ List.mem_append_right init
          (List.mem_singleton_self last)
        exact absurd (List.eq_of_mem_replicate hmem) hlast
      · rw [hparts, List.concat_eq_append, ← List.append_assoc] at hdown
        rw [List.concat_eq_append] at hdirect
        exact Or.inr ⟨hroot, n, down', (List.append_inj' hdown rfl).1,
          fun hmem => hdirect (List.mem_append_left _ hmem)⟩
  · rw [hup]
    exact h
  · rw [hup]
    exact Or.inr ⟨rfl, n + 1, [], by rw [List.append_nil, List.replicate_succ'], List.not_mem_nil⟩

theorem Usable.below {p : Path} (h : p.Usable) {part : String}
    (hpart : Text.unusable? part = none) : (p.below part).Usable := by
  intro part' hmem
  rcases List.mem_append.mp hmem with hmem | hmem
  · exact h part' hmem
  · rw [List.mem_singleton.mp hmem]
    exact hpart

theorem Usable.up {p : Path} (h : p.Usable) : p.up.Usable := by
  intro part hmem
  rcases mem_ascend (List.mem_reverse.mp hmem) with hmem | rfl
  · exact h part (List.mem_reverse.mp hmem)
  · rfl

end Path

namespace FileTree

/-! ## Walks without links -/

/-- A step is what the normal form makes of a part. -/
theorem step_eq_ascend {t : FileTree} {dir place : List String} {part : String}
    (hdir : ".." ∉ dir) (h : t.step dir part = .ok place) :
    place.reverse = Path.ascend true dir.reverse part := by
  obtain ⟨-, ⟨rfl, rfl⟩ | ⟨hpart, rfl⟩⟩ := step_ok h
  · rcases List.eq_nil_or_concat dir with rfl | ⟨init, last, rfl⟩
    · rfl
    · have hlast : last ≠ ".." := by
        rintro rfl
        exact hdir (by simp)
      rw [List.concat_eq_append, List.dropLast_concat, List.reverse_append, List.reverse_singleton,
        List.singleton_append, Path.ascend_dots_cons hlast]
  · rw [Path.ascend_name hpart]
    simp

theorem foldlM_step_cons {t : FileTree} {dir place : List String} {part : String}
    {rest : List String} (h : (part :: rest).foldlM t.step dir = .ok place) :
    ∃ next, t.step dir part = .ok next ∧ rest.foldlM t.step next = .ok place := by
  rw [List.foldlM_cons] at h
  cases hstep : t.step dir part with
  | error refusal =>
    rw [hstep] at h
    cases h
  | ok next =>
    rw [hstep] at h
    exact ⟨next, rfl, h⟩

theorem foldlM_step_concat {t : FileTree} {dir place : List String} {parts : List String}
    {part : String} : (parts ++ [part]).foldlM t.step dir = .ok place ↔
      ∃ last, parts.foldlM t.step dir = .ok last ∧ t.step last part = .ok place := by
  rw [List.foldlM_append]
  cases hinit : parts.foldlM t.step dir with
  | error refusal => simp [bind, Except.bind]
  | ok last =>
    simp only [bind, Except.bind, List.foldlM_cons, List.foldlM_nil, Except.ok.injEq]
    cases hstep : t.step last part <;> simp [hstep, pure, Except.pure]

/-- A walk goes through the places of the normal forms. -/
theorem foldlM_step_eq_foldl {t : FileTree} {dir place parts : List String} (hdir : ".." ∉ dir)
    (h : parts.foldlM t.step dir = .ok place) :
    place.reverse = parts.foldl (Path.ascend true) dir.reverse := by
  induction parts generalizing dir with
  | nil => rw [Except.ok.inj h, List.foldl_nil]
  | cons part rest ih =>
    obtain ⟨next, hstep, hrest⟩ := foldlM_step_cons h
    have hnext := step_eq_ascend hdir hstep
    have hdirect : ".." ∉ next := by
      rw [← List.mem_reverse, hnext]
      have habove : ".." ∉ dir.reverse := fun hmem => hdir (List.mem_reverse.mp hmem)
      exact Path.dots_notMem_foldl_ascend habove [part]
    rw [ih hdirect hrest, hnext, List.foldl_cons]

/-- A path on which there is no link leads where its normal form says. -/
theorem resolve_of_foldlM_step {t : FileTree} {cwd p : Path} (hcwd : cwd.IsCanonical)
    {place : List String} (h : p.parts.foldlM t.step (start cwd p) = .ok place) :
    (cwd.resolve p).parts = place := by
  have hdirect : ".." ∉ start cwd p := by
    unfold start
    split
    · exact List.not_mem_nil
    · exact hcwd.direct
  rw [← List.reverse_inj, foldlM_step_eq_foldl hdirect h]
  by_cases hp : p.isAbsolute = true
  · rw [Path.resolve_of_isAbsolute hp, Path.normal, List.reverse_reverse, start, if_pos hp, hp]
    rfl
  · have hrel : p.isAbsolute = false := by simpa using hp
    have habs : (⟨cwd.root, cwd.parts ++ p.parts⟩ : Path).isAbsolute = true := hcwd.absolute
    rw [Path.resolve, Path.join_of_relative hrel, Path.normal, habs, List.reverse_reverse,
      List.foldl_append, Path.foldl_ascend_names hcwd.direct, List.append_nil, start, if_neg hp]

theorem foldlM_step_of_extends {t t' : FileTree} (ht : t.Extends t') {dir place parts : List String}
    (h : parts.foldlM t.step dir = .ok place) : parts.foldlM t'.step dir = .ok place := by
  induction parts generalizing dir with
  | nil => exact h
  | cons part rest ih =>
    obtain ⟨next, hstep, hrest⟩ := foldlM_step_cons h
    rw [List.foldlM_cons, step_of_extends ht hstep]
    exact ih hrest

/-! ## One link at a time -/

/-- What a path names through which no link leads. -/
theorem lstat_of_foldlM_step {t : FileTree} {cwd p : Path} (husable : p.Usable)
    {place : List String} (h : p.parts.foldlM t.step (start cwd p) = .ok place) :
    t.lstat cwd p = (t.node? place).elim (.error .notFound) .ok := by
  simp only [lstat, usable_iff.mp husable, h, bind, Except.bind]
  cases t.node? place with
  | none => rfl
  | some n => rfl

theorem lstat_eq_link {t : FileTree} {cwd p : Path} {target : Target} :
    t.lstat cwd p = .ok (.link target) ↔ p.Usable ∧ ∃ place,
      p.parts.foldlM t.step (start cwd p) = .ok place ∧ t.node? place = some (.link target) := by
  constructor
  · intro h
    have husable : p.Usable := by
      rw [usable_iff]
      cases haccept : accept p with
      | error refusal =>
        rw [lstat, haccept] at h
        cases h
      | ok => rfl
    refine ⟨husable, ?_⟩
    cases hwalk : p.parts.foldlM t.step (start cwd p) with
    | error refusal =>
      simp only [lstat, usable_iff.mp husable, hwalk, bind, Except.bind] at h
      cases h
    | ok place =>
      rw [lstat_of_foldlM_step husable hwalk] at h
      cases hnode : t.node? place with
      | none =>
        rw [hnode] at h
        cases h
      | some n =>
        rw [hnode] at h
        exact ⟨place, rfl, by rw [hnode, Except.ok.inj h]⟩
  · rintro ⟨husable, place, hwalk, hlink⟩
    rw [lstat_of_foldlM_step husable hwalk, hlink]
    rfl

theorem foldlM_step_ne_unusable (t : FileTree) (dir parts : List String) (why : Text.Unusable) :
    parts.foldlM t.step dir ≠ .error (.unusable why) := by
  induction parts generalizing dir with
  | nil => exact fun h => by cases h
  | cons part rest ih =>
    rw [List.foldlM_cons]
    cases hstep : t.step dir part with
    | error refusal =>
      intro h
      obtain rfl := Except.error.inj h
      exact t.step_ne_unusable dir part why hstep
    | ok next => exact ih next

theorem lstat_eq_unusable {t : FileTree} {cwd p : Path} {why : Text.Unusable} :
    t.lstat cwd p = .error (.unusable why) ↔ accept p = .error (.unusable why) := by
  unfold lstat
  cases haccept : accept p with
  | error refusal => simp only [bind, Except.bind, Except.error.injEq]
  | ok =>
    simp only [bind, Except.bind]
    refine ⟨fun h => ?_, fun h => by cases h⟩
    cases hwalk : p.parts.foldlM t.step (start cwd p) with
    | error refusal =>
      rw [hwalk] at h
      obtain rfl := Except.error.inj h
      exact absurd hwalk (t.foldlM_step_ne_unusable _ _ why)
    | ok here =>
      rw [hwalk] at h
      dsimp only at h
      split at h <;> cases h

section

variable {t : FileTree} {cwd : Path} (inner : Path → List String → Except Refusal Path)
  {here : Path} {part : String}

theorem realOn_dots (rest : List String) :
    t.realOn cwd inner here (".." :: rest) = t.realOn cwd inner here.up rest := by
  rw [realOn, if_pos rfl]

theorem realOn_link (hpart : part ≠ "..") {target : Target}
    (hlink : t.lstat cwd (here.below part) = .ok (.link target)) (rest : List String) :
    t.realOn cwd inner here (part :: rest) =
      (inner (if target.path.isAbsolute then ⟨.slash, []⟩ else here) target.path.parts).bind
        fun real => t.realOn cwd inner real rest := by
  rw [realOn, if_neg hpart]
  simp only [hlink]
  rfl

theorem realOn_unusable (hpart : part ≠ "..") {why : Text.Unusable}
    (h : t.lstat cwd (here.below part) = .error (.unusable why)) (rest : List String) :
    t.realOn cwd inner here (part :: rest) = .error (.unusable why) := by
  rw [realOn, if_neg hpart]
  simp only [h]

theorem realOn_name (hpart : part ≠ "..")
    (hlink : ∀ target, t.lstat cwd (here.below part) ≠ .ok (.link target))
    (husable : ∀ why, t.lstat cwd (here.below part) ≠ .error (.unusable why)) (rest : List String) :
    t.realOn cwd inner here (part :: rest) = t.realOn cwd inner (here.below part) rest := by
  rw [realOn, if_neg hpart]
  dsimp only
  split
  · rename_i target usable htarget
    exact absurd htarget (hlink ⟨target, usable⟩)
  · rename_i why hwhy
    exact absurd hwhy (husable why)
  · rfl

theorem realFrom_dots (depth : Nat) (rest : List String) :
    t.realFrom cwd depth here (".." :: rest) = t.realFrom cwd depth here.up rest := by
  cases depth <;> exact realOn_dots _ rest

theorem realFrom_name (hpart : part ≠ "..")
    (hlink : ∀ target, t.lstat cwd (here.below part) ≠ .ok (.link target))
    (husable : ∀ why, t.lstat cwd (here.below part) ≠ .error (.unusable why)) (depth : Nat)
    (rest : List String) :
    t.realFrom cwd depth here (part :: rest) = t.realFrom cwd depth (here.below part) rest := by
  cases depth <;> exact realOn_name _ hpart hlink husable rest

end

/-! ## A path that is being resolved -/

/-- The path is straight, and it leads to the place without any link. -/
structure Stands (t : FileTree) (cwd here : Path) (dir : List String) : Prop where
  straight : here.IsStraight
  usable : here.Usable
  walk : here.parts.foldlM t.step (start cwd here) = .ok dir

section

variable {t : FileTree} {cwd here : Path} {dir place : List String}

theorem stands_slash : t.Stands cwd ⟨.slash, []⟩ [] :=
  ⟨Path.isStraight_slash, fun _ hpart => absurd hpart List.not_mem_nil, rfl⟩

theorem stands_relative : t.Stands cwd ⟨.relative, []⟩ cwd.parts :=
  ⟨Path.isStraight_relative, fun _ hpart => absurd hpart List.not_mem_nil, rfl⟩

theorem Stands.below (h : t.Stands cwd here dir) {part : String} (hpart : part ≠ "..")
    (husable : Text.unusable? part = none) (hstep : t.step dir part = .ok place) :
    t.Stands cwd (here.below part) place where
  straight := h.straight.below hpart
  usable := h.usable.below husable
  walk := foldlM_step_concat.mpr ⟨dir, h.walk, hstep⟩

theorem Stands.up (h : t.Stands cwd here dir) (hstep : t.step dir ".." = .ok place) :
    t.Stands cwd here.up place := by
  refine ⟨h.straight.up, h.usable.up, ?_⟩
  obtain ⟨-, ⟨-, rfl⟩ | ⟨hne, -⟩⟩ := step_ok hstep
  · obtain ⟨init, last, hlast, hparts, hup⟩ | ⟨hhere, hup⟩ | ⟨n, hhere, hup⟩ := h.straight.up_cases
    · have hwalk := h.walk
      rw [hparts] at hwalk
      obtain ⟨mid, hinit, hstep'⟩ := foldlM_step_concat.mp hwalk
      obtain ⟨-, ⟨hdots, -⟩ | ⟨-, rfl⟩⟩ := step_ok hstep'
      · exact absurd hdots hlast
      · rw [hup, List.dropLast_concat]
        exact hinit
    · rw [hup]
      have hwalk := h.walk
      rw [hhere] at hwalk ⊢
      obtain rfl : [] = dir := Except.ok.inj hwalk
      rfl
    · have hwalk := h.walk
      rw [hhere] at hwalk
      rw [hup]
      exact foldlM_step_concat.mpr ⟨dir, hwalk, hstep⟩
  · exact absurd rfl hne

/-- Where a straight path leads is where its normal form says. -/
theorem Stands.resolve_eq (h : t.Stands cwd here dir) (hcwd : t.IsWorkingDirectory cwd) :
    cwd.resolve here = ⟨.slash, dir⟩ := by
  have hroot := Path.root_resolve hcwd.root h.straight.singleSlash
  have hparts := resolve_of_foldlM_step hcwd.canonical h.walk
  rw [← hroot, ← hparts]

end

/-- Where a walk gets through, the path is resolved to where it leads. -/
theorem realFrom_of_leads {t : FileTree} (ht : t.Grounded) {cwd : Path} {links : Nat}
    {dir parts place : List String} (h : t.Leads links dir parts place) {depth : Nat}
    (hdepth : links ≤ depth) {here : Path} (hhere : t.Stands cwd here dir)
    (husable : ∀ part ∈ parts, Text.unusable? part = none) :
    ∃ real, t.realFrom cwd depth here parts = .ok real ∧ t.Stands cwd real place := by
  -- a link takes one off the links for all that is behind it, and one off the depth for its target
  induction links using Nat.strongRecOn generalizing dir parts place depth here with
  | _ links ihLinks =>
  induction parts generalizing dir here with
  | nil =>
    cases h
    exact ⟨here, by cases depth <;> rfl, hhere⟩
  | cons part rest ih =>
    obtain ⟨hpart, hrest⟩ := List.forall_mem_cons.mp husable
    by_cases hdots : part = ".."
    · subst hdots
      rw [realFrom_dots]
      cases h with
      | plain hstep hlink hleads => exact ih hleads (hhere.up hstep) hrest
      | link hstep hlink hleads =>
        exact absurd ⟨_, hlink⟩ (directoryAt_of_step_dots ht hstep).not_linkAt
    · cases h with
      | @plain _ _ next _ _ _ hstep hlink hleads =>
        have hnext := hhere.below hdots hpart hstep
        rw [realFrom_name hdots]
        · exact ih hleads hnext hrest
        · intro target htarget
          obtain ⟨-, place', hwalk, hnode⟩ := lstat_eq_link.mp htarget
          obtain rfl := Except.ok.inj (hwalk.symm.trans hnext.walk)
          exact hlink ⟨target, hnode⟩
        · intro why hwhy
          rw [lstat_eq_unusable, usable_iff.mp hnext.usable] at hwhy
          cases hwhy
      | @link links _ next _ _ _ target hstep hlink hleads =>
        have hnext := hhere.below hdots hpart hstep
        obtain ⟨mid, htarget, hbehind⟩ := hleads.append
        have hstart : t.Stands cwd (if target.path.isAbsolute then ⟨.slash, []⟩ else here)
            (target.start dir) := by
          unfold Target.start
          split
          · exact stands_slash
          · exact hhere
        obtain ⟨depth, rfl⟩ := Nat.exists_eq_add_of_le' hdepth
        obtain ⟨real, hreal, hmid⟩ := ihLinks links (Nat.lt_succ_self links) htarget
          (Nat.le_add_left links depth) hstart target.usable
        obtain ⟨real', hreal', hplace⟩ := ihLinks links (Nat.lt_succ_self links) hbehind
          (Nat.le_trans (Nat.le_succ links) hdepth) hmid hrest
        refine ⟨real', ?_, hplace⟩
        rw [← Nat.add_assoc] at hreal' ⊢
        refine (realOn_link _ hdots (lstat_eq_link.mpr ⟨hnext.usable, next, hnext.walk, hlink⟩)
          rest).trans ?_
        rw [hreal]
        exact hreal'

theorem exists_realPath {t : FileTree} (ht : t.Grounded) {cwd p : Path} {place : List String}
    (h : t.place cwd p = .ok place) :
    ∃ real, t.realPath cwd p = .ok (cwd.resolve real) ∧ t.Stands cwd real place := by
  obtain ⟨husable, hleads⟩ := place_ok.mp h
  have htop : t.Stands cwd (if p.isAbsolute then ⟨.slash, []⟩ else ⟨.relative, []⟩)
      (start cwd p) := by
    unfold start
    split
    · exact stands_slash
    · exact stands_relative
  obtain ⟨real, hreal, hplace⟩ := realFrom_of_leads ht hleads
    (Nat.le_add_left linkLimit t.nodes.size) htop husable
  refine ⟨real, ?_, hplace⟩
  simp only [realPath, linkDepth, hreal, bind, Except.bind, pure, Except.pure]

/-- **Where a path leads, there it is resolved to.** -/
theorem realPath_of_place {t : FileTree} (ht : t.Grounded) {cwd p : Path}
    (hcwd : t.IsWorkingDirectory cwd) {place : List String} (h : t.place cwd p = .ok place) :
    t.realPath cwd p = .ok ⟨.slash, place⟩ := by
  obtain ⟨real, hreal, hplace⟩ := exists_realPath ht h
  rw [hreal, hplace.resolve_eq hcwd]

/-- Where a path leads somewhere, its parent is resolved. -/
theorem exists_realPath_parent {t : FileTree} (ht : t.Grounded) {cwd p : Path}
    {place : List String} (h : t.place cwd p = .ok place) :
    ∃ base, t.realPath cwd p.parent = .ok base := by
  obtain ⟨dir, hparent⟩ := exists_place_parent h
  obtain ⟨real, hreal, -⟩ := exists_realPath ht hparent
  exact ⟨_, hreal⟩

/-- The parent of a path that leads to no directory is resolved to the directory in which the path
has its name. -/
theorem realPath_parent {t : FileTree} (ht : t.Grounded) {cwd p : Path}
    (hcwd : t.IsWorkingDirectory cwd) {place : List String} (h : t.place cwd p = .ok place)
    (hplace : ¬t.DirectoryAt place) :
    ∃ dir name, t.realPath cwd p.parent = .ok ⟨.slash, dir⟩ ∧
      t.entry cwd p = .ok (dir ++ [name]) := by
  obtain ⟨dir, name, hparent, -, hentry, -⟩ := entry_of_place ht hcwd h hplace
  exact ⟨dir, name, realPath_of_place ht hcwd hparent, hentry⟩

theorem realPath_parent_of_entry {t : FileTree} (ht : t.Grounded) {cwd p : Path}
    (hcwd : t.IsWorkingDirectory cwd) {place : List String} (h : t.place cwd p = .ok place)
    (hplace : ¬t.DirectoryAt place) {dir : List String} {name : String}
    (hentry : t.entry cwd p = .ok (dir ++ [name])) :
    t.realPath cwd p.parent = .ok ⟨.slash, dir⟩ := by
  obtain ⟨dir', name', hreal, hentry'⟩ := realPath_parent ht hcwd h hplace
  rw [hreal, (List.append_inj' (Except.ok.inj (hentry'.symm.trans hentry)) rfl).1]

/-- Two paths, each with the working directory that it is followed from, name one entry of a
directory and lead to one place. -/
structure SameFile (t : FileTree) (cwd path cwd' path' : Path) : Prop where
  place : t.place cwd' path' = t.place cwd path
  entry : t.entry cwd' path' = t.entry cwd path

/-- A file is in one directory, by whatever path it is reached. -/
theorem SameFile.realPath_parent {t : FileTree} {cwd path cwd' path' : Path}
    (h : t.SameFile cwd path cwd' path') (ht : t.Grounded) (hcwd : t.IsWorkingDirectory cwd)
    (hcwd' : t.IsWorkingDirectory cwd') {here : List String} (hhere : t.place cwd path = .ok here)
    (hfile : ¬t.DirectoryAt here) :
    t.realPath cwd' path'.parent = t.realPath cwd path.parent := by
  obtain ⟨dir, name, hreal, hentry⟩ := FileTree.realPath_parent ht hcwd hhere hfile
  rw [hreal]
  exact realPath_parent_of_entry ht hcwd' (h.place.trans hhere) hfile (h.entry.trans hentry)

/-! ## Trees that have grown -/

/-- Going up from a directory leads to one. -/
theorem directoryAt_of_climb {t t' : FileTree} (ht : t.Grounded) {dir place : List String}
    (hdir : t.DirectoryAt dir) {n : Nat}
    (h : (List.replicate n "..").foldlM t'.step dir = .ok place) : t.DirectoryAt place := by
  induction n generalizing dir with
  | zero =>
    obtain rfl := Except.ok.inj h
    exact hdir
  | succ n ih =>
    rw [List.replicate_succ] at h
    obtain ⟨next, hstep, hrest⟩ := foldlM_step_cons h
    obtain ⟨-, ⟨-, rfl⟩ | ⟨hne, -⟩⟩ := step_ok hstep
    · exact ih (ht.above_directory hdir) hrest
    · exact absurd rfl hne

/-- A straight path that leads somewhere in the tree that has grown has led there before, if
something stood there. -/
theorem foldlM_step_back {t t' : FileTree} (ht : t.Grounded) (hgrown : t.Extends t')
    {dir place : List String} (hdir : t.DirectoryAt dir) {n : Nat} {names : List String}
    (hnames : ".." ∉ names)
    (h : (List.replicate n ".." ++ names).foldlM t'.step dir = .ok place)
    (hplace : t.node? place ≠ none) :
    (List.replicate n ".." ++ names).foldlM t.step dir = .ok place := by
  have hback : ∀ {mid here : List String} {part : String}, t.DirectoryAt mid →
      t'.step mid part = .ok here → t.step mid part = .ok here := by
    rintro mid here part ⟨rights, hrights⟩ hstep
    rw [← hstep]
    exact step_congr (hrights.trans (hgrown.directories mid rights hrights).symm) part
  induction names using List.reverseRecOn generalizing place with
  | nil =>
    rw [List.append_nil] at h ⊢
    clear hplace
    induction n generalizing place with
    | zero => exact h
    | succ n ih =>
      rw [List.replicate_succ'] at h ⊢
      obtain ⟨mid, hinit, hstep⟩ := foldlM_step_concat.mp h
      exact foldlM_step_concat.mpr
        ⟨mid, ih hinit, hback (directoryAt_of_climb ht hdir hinit) hstep⟩
  | append_singleton init last ih =>
    rw [← List.append_assoc] at h ⊢
    obtain ⟨mid, hinit, hstep⟩ := foldlM_step_concat.mp h
    have hmid : t.DirectoryAt mid := by
      obtain ⟨-, ⟨rfl, -⟩ | ⟨-, rfl⟩⟩ := step_ok hstep
      · exact absurd (List.mem_append_right init (List.mem_singleton_self _)) hnames
      · have habove := ht _ hplace
        rwa [List.dropLast_concat] at habove
    refine foldlM_step_concat.mpr ⟨mid, ih ?_ hinit hmid.node?_ne_none, hback hmid hstep⟩
    exact fun hmem => hnames (List.mem_append_left [last] hmem)

/-- A straight path names the same links in the tree that has grown. -/
theorem lstat_eq_link_of_extends {t t' : FileTree} (ht : t.Grounded) (hgrown : t.Extends t')
    {cwd p : Path} (hcwd : t.IsWorkingDirectory cwd) (hp : p.IsStraight) (target : Target) :
    t'.lstat cwd p = .ok (.link target) ↔ t.lstat cwd p = .ok (.link target) := by
  rw [lstat_eq_link, lstat_eq_link]
  refine and_congr_right fun _ => ⟨?_, ?_⟩
  · rintro ⟨place, hwalk, hlink⟩
    have hlink' := (hgrown.links place target).mp hlink
    have hplace : t.node? place ≠ none := by
      rw [hlink']
      exact Option.some_ne_none _
    refine ⟨place, ?_, hlink'⟩
    obtain ⟨n, names, hparts, hnames⟩ : p.ClimbsFirst := by
      obtain ⟨-, hnot⟩ | ⟨-, hclimbs⟩ := hp
      · exact ⟨0, p.parts, rfl, hnot⟩
      · exact hclimbs
    rw [hparts] at hwalk ⊢
    exact foldlM_step_back ht hgrown (hcwd.start p) hnames hwalk hplace
  · rintro ⟨place, hwalk, hlink⟩
    exact ⟨place, foldlM_step_of_extends hgrown hwalk, (hgrown.links place target).mpr hlink⟩

theorem realOn_of_extends {t t' : FileTree} (ht : t.Grounded) (hgrown : t.Extends t') {cwd : Path}
    (hcwd : t.IsWorkingDirectory cwd) {inner inner' : Path → List String → Except Refusal Path}
    (hinner : ∀ here parts real, here.IsStraight → inner here parts = .ok real →
      inner' here parts = .ok real ∧ real.IsStraight) {here : Path} {parts : List String}
    {real : Path} (hhere : here.IsStraight) (h : t.realOn cwd inner here parts = .ok real) :
    t'.realOn cwd inner' here parts = .ok real ∧ real.IsStraight := by
  induction parts generalizing here with
  | nil =>
    obtain rfl := Except.ok.inj h
    exact ⟨rfl, hhere⟩
  | cons part rest ih =>
    by_cases hdots : part = ".."
    · subst hdots
      rw [realOn_dots] at h ⊢
      exact ih hhere.up h
    · have hnext := hhere.below hdots
      by_cases hlink : ∃ target, t.lstat cwd (here.below part) = .ok (.link target)
      · obtain ⟨target, htarget⟩ := hlink
        rw [realOn_link _ hdots htarget] at h
        rw [realOn_link _ hdots ((lstat_eq_link_of_extends ht hgrown hcwd hnext target).mpr htarget)]
        have hstart : (if target.path.isAbsolute then (⟨.slash, []⟩ : Path) else here).IsStraight := by
          split
          · exact Path.isStraight_slash
          · exact hhere
        cases hreal : inner (if target.path.isAbsolute then ⟨.slash, []⟩ else here)
            target.path.parts with
        | error refusal =>
          rw [hreal] at h
          cases h
        | ok mid =>
          rw [hreal] at h
          obtain ⟨hreal', hmid⟩ := hinner _ _ _ hstart hreal
          rw [hreal']
          exact ih hmid h
      · by_cases husable : ∃ why, t.lstat cwd (here.below part) = .error (.unusable why)
        · obtain ⟨why, hwhy⟩ := husable
          rw [realOn_unusable _ hdots hwhy] at h
          cases h
        · rw [realOn_name _ hdots (not_exists.mp hlink) (not_exists.mp husable)] at h
          rw [realOn_name _ hdots]
          · exact ih hnext h
          · exact fun target htarget =>
              hlink ⟨target, (lstat_eq_link_of_extends ht hgrown hcwd hnext target).mp htarget⟩
          · exact fun why hwhy =>
              husable ⟨why, lstat_eq_unusable.mpr (lstat_eq_unusable.mp hwhy)⟩

theorem realFrom_of_extends {t t' : FileTree} (ht : t.Grounded) (hgrown : t.Extends t') {cwd : Path}
    (hcwd : t.IsWorkingDirectory cwd) {depth depth' : Nat} (hdepth : depth ≤ depth') {here : Path}
    {parts : List String} {real : Path} (hhere : here.IsStraight)
    (h : t.realFrom cwd depth here parts = .ok real) :
    t'.realFrom cwd depth' here parts = .ok real ∧ real.IsStraight := by
  induction depth generalizing depth' here parts real with
  | zero =>
    have hnone : ∀ {inner : Path → List String → Except Refusal Path},
        t'.realOn cwd inner here parts = .ok real ∧ real.IsStraight := fun {_} =>
      realOn_of_extends ht hgrown hcwd (fun _ _ _ _ hinner => by cases hinner) hhere h
    cases depth' <;> exact hnone
  | succ depth ih =>
    obtain ⟨depth', rfl⟩ := Nat.exists_eq_add_of_le' (Nat.le_trans (Nat.le_add_left 1 depth) hdepth)
    exact realOn_of_extends ht hgrown hcwd
      (fun _ _ _ hstraight hinner => ih (Nat.le_of_succ_le_succ hdepth) hstraight hinner) hhere h

theorem isStraight_top (p : Path) :
    (if p.isAbsolute then (⟨.slash, []⟩ : Path) else ⟨.relative, []⟩).IsStraight := by
  split
  · exact Path.isStraight_slash
  · exact Path.isStraight_relative

theorem realPath_eq_ok {t : FileTree} {cwd p real : Path} :
    t.realPath cwd p = .ok real ↔ ∃ mid, t.realFrom cwd t.linkDepth
      (if p.isAbsolute then ⟨.slash, []⟩ else ⟨.relative, []⟩) p.parts = .ok mid ∧
        cwd.resolve mid = real := by
  cases hreal : t.realFrom cwd t.linkDepth
      (if p.isAbsolute then ⟨.slash, []⟩ else ⟨.relative, []⟩) p.parts <;>
    simp [realPath, hreal, bind, Except.bind, pure, Except.pure]

/-- **A path is resolved alike when the tree has grown.** -/
theorem realPath_of_extends {t t' : FileTree} (ht : t.Grounded) (hgrown : t.Extends t')
    {cwd p real : Path} (hcwd : t.IsWorkingDirectory cwd) (h : t.realPath cwd p = .ok real) :
    t'.realPath cwd p = .ok real := by
  obtain ⟨mid, hreal, hmid⟩ := realPath_eq_ok.mp h
  obtain ⟨hreal', -⟩ := realFrom_of_extends ht hgrown hcwd
    (Nat.add_le_add_right hgrown.size linkLimit) (isStraight_top p) hreal
  exact realPath_eq_ok.mpr ⟨mid, hreal', hmid⟩

/-- What a path is resolved to is absolute with one slash, and in normal form. -/
theorem isReal_of_realPath {t : FileTree} (ht : t.Grounded) {cwd p real : Path}
    (hcwd : t.IsWorkingDirectory cwd) (h : t.realPath cwd p = .ok real) : real.IsReal := by
  obtain ⟨mid, hreal, rfl⟩ := realPath_eq_ok.mp h
  obtain ⟨-, hstraight⟩ := realFrom_of_extends ht t.extends_refl hcwd (Nat.le_refl _)
    (isStraight_top p) hreal
  exact ⟨Path.root_resolve hcwd.root hstraight.singleSlash,
    (Path.isCanonical_resolve hcwd.absolute mid).direct⟩

end FileTree
end Replatform
