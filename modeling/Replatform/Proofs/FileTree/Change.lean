import Replatform.Proofs.FileTree.Walk

/-! # Operations on a file tree

What makes directories or opens a file leaves a tree that **has grown**: it is grounded, and it
extends the one before, so all walks lead where they did.  A file is opened where a path leads to
no directory, and from then on its old content is gone; whether the new one is there depends on
the device.  From wherever an absolute path is followed, the same happens.
-/
namespace Replatform
namespace FileTree

/-- The second tree is grounded and extends the first, on the same device. -/
structure Grown (t t' : FileTree) : Prop where
  grounded : t'.Grounded
  extended : t.Extends t'
  device : t'.device = t.device

theorem Grounded.grown {t : FileTree} (h : t.Grounded) : Grown t t := ⟨h, t.extends_refl, rfl⟩

theorem Grown.trans {t t' t'' : FileTree} (h : Grown t t') (h' : Grown t' t'') : Grown t t'' :=
  ⟨h'.grounded, h.extended.trans h'.extended, h'.device.trans h.device⟩

theorem Grown.workingDirectory {t t' : FileTree} (h : Grown t t') {cwd : Path}
    (hcwd : t.IsWorkingDirectory cwd) : t'.IsWorkingDirectory cwd :=
  hcwd.of_extends h.extended

theorem Grounded.grown_set {t : FileTree} (ht : t.Grounded) {here : List String}
    (hdir : ¬t.DirectoryAt here) (hlink : ¬t.LinkAt here) (habove : t.DirectoryAt here.dropLast)
    {n : Node} (hn : ∀ target, n ≠ .link target) : Grown t (t.set here n) :=
  ⟨ht.set hdir habove n, extends_set hdir hlink hn, rfl⟩

theorem grounded_directory {name : String} : (empty.set [name] (.directory .all)).Grounded :=
  @Grounded.set empty grounded_empty [name] (not_directoryAt_of_none rfl) (directoryAt_root empty) _

/-- A directory below the root of a file tree, as a working directory. -/
theorem isWorkingDirectory_directory {name : String} (h : Path.IsName name) (hdots : name ≠ "..") :
    (empty.set [name] (.directory .all)).IsWorkingDirectory ⟨.slash, [name]⟩ where
  root := rfl
  proper _ hpart := List.mem_singleton.mp hpart ▸ h
  direct hmem := hdots (List.mem_singleton.mp hmem).symm
  stands := ⟨.all, node?_set_self empty (List.cons_ne_nil name []) _⟩

/-! ## Directories -/

/-- A directory is made as the entry of its path, where nothing stands. -/
theorem makeDirectory_ok {t t' : FileTree} {cwd p : Path} (h : t.makeDirectory cwd p = .ok t') :
    ∃ here, t.entry cwd p = .ok here ∧ t.node? here = none ∧ t' = t.set here (.directory .all) := by
  unfold makeDirectory at h
  cases hentry : t.entry cwd p with
  | error refusal =>
    rw [hentry] at h
    cases h
  | ok here =>
    simp only [hentry, bind, Except.bind] at h
    split at h
    · cases h
    · rename_i hnone
      split at h
      · exact ⟨here, rfl, hnone, (Except.ok.inj h).symm⟩
      · cases h

/-- The entry of a path stands below a directory, unless it is the root. -/
theorem above_of_entry {t : FileTree} (ht : t.Grounded) {cwd p : Path}
    (hcwd : t.IsWorkingDirectory cwd) {here : List String} (h : t.entry cwd p = .ok here) :
    t.DirectoryAt here.dropLast := by
  obtain ⟨-, ⟨-, rfl⟩ | ⟨init, last, dir, -, -, hstep⟩⟩ := entry_ok.mp h
  · exact ht.above_directory (hcwd.start p)
  · exact above_of_step ht hstep

theorem grown_makeDirectory {t t' : FileTree} (ht : t.Grounded) {cwd p : Path}
    (hcwd : t.IsWorkingDirectory cwd) (h : t.makeDirectory cwd p = .ok t') : Grown t t' := by
  obtain ⟨here, hentry, hnone, rfl⟩ := makeDirectory_ok h
  exact ht.grown_set (not_directoryAt_of_none hnone) (not_linkAt_of_none hnone)
    (above_of_entry ht hcwd hentry) fun _ hlink => by cases hlink

theorem grown_makeDirectories {t : FileTree} (ht : t.Grounded) {cwd : Path}
    (hcwd : t.IsWorkingDirectory cwd) (depth : Nat) (p : Path) :
    Grown t (t.makeDirectories cwd depth p).1 := by
  induction depth generalizing p with
  | zero =>
    unfold makeDirectories
    split
    · rename_i hmade
      exact grown_makeDirectory ht hcwd hmade
    · exact ht.grown
    · exact ht.grown
  | succ depth ih =>
    unfold makeDirectories
    split
    · rename_i hmade
      exact grown_makeDirectory ht hcwd hmade
    · have habove := ih p.parent
      dsimp only
      split
      · rename_i hup
        rw [hup] at habove
        exact habove
      · rename_i t' hup
        rw [hup] at habove
        split
        · rename_i hmade
          exact habove.trans
            (grown_makeDirectory habove.grounded (habove.workingDirectory hcwd) hmade)
        · exact habove
    · exact ht.grown

theorem grown_makeParents {t : FileTree} (ht : t.Grounded) {cwd : Path}
    (hcwd : t.IsWorkingDirectory cwd) (p : Path) : Grown t (t.makeParents cwd p).1 :=
  grown_makeDirectories ht hcwd _ p.parent

/-! ## Files -/

/-- A file is opened where its path leads, and neither a directory nor a link stands there. -/
theorem openFile_ok {t : FileTree} {cwd p : Path} {here : List String}
    (h : t.openFile cwd p = .ok here) :
    t.place cwd p = .ok here ∧ ¬t.DirectoryAt here ∧ ¬t.LinkAt here := by
  unfold openFile at h
  cases hplace : t.place cwd p with
  | error refusal =>
    rw [hplace] at h
    cases h
  | ok here' =>
    simp only [hplace, bind, Except.bind] at h
    split at h
    · cases h
    · cases h
    · rename_i hfile
      split at h
      · obtain rfl := Except.ok.inj h
        exact ⟨rfl, not_directoryAt_of_file hfile, not_linkAt_of_file hfile⟩
      · cases h
    · rename_i hnone
      split at h
      · obtain rfl := Except.ok.inj h
        exact ⟨rfl, not_directoryAt_of_none hnone, not_linkAt_of_none hnone⟩
      · cases h

/-- A file that may be written is opened. -/
theorem openFile_of_file {t : FileTree} {cwd p : Path} {here : List String} {content : List UInt8}
    (h : t.place cwd p = .ok here) (hfile : t.node? here = some (.file .write content)) :
    t.openFile cwd p = .ok here := by
  simp only [openFile, h, bind, Except.bind, hfile, if_true]

/-- A file has been written if it was opened and the device has taken the content. -/
theorem storeFile_none {t t' : FileTree} {cwd p : Path} {content : List UInt8}
    (h : t.storeFile cwd p content = (t', none)) :
    ∃ here, t.openFile cwd p = .ok here ∧ t.device here content = none ∧
      t' = t.set here (.file .write content) := by
  unfold storeFile at h
  split at h
  · cases h
  · rename_i here hopen
    split at h
    · rename_i hdevice
      exact ⟨here, hopen, hdevice, (congrArg Prod.fst h).symm⟩
    · cases h

/-- Writing a file is refused before it is opened, or the device breaks it off. -/
theorem storeFile_some {t t' : FileTree} {cwd p : Path} {content : List UInt8} {refusal : Refusal}
    (h : t.storeFile cwd p content = (t', some refusal)) :
    t' = t ∨ ∃ here b, t.openFile cwd p = .ok here ∧ t.device here content = some b ∧
      t' = t.set here (.file .write (content.take b.taken)) := by
  unfold storeFile at h
  split at h
  · exact Or.inl (congrArg Prod.fst h).symm
  · rename_i here hopen
    split at h
    · cases h
    · rename_i b hdevice
      exact Or.inr ⟨here, b, hopen, hdevice, (congrArg Prod.fst h).symm⟩

theorem storeFile_of_openFile {t : FileTree} {cwd p : Path} {here : List String}
    {content : List UInt8} (h : t.openFile cwd p = .ok here)
    (hdevice : t.device here content = none) :
    t.storeFile cwd p content = (t.set here (.file .write content), none) := by
  simp only [storeFile, h, hdevice]

/-- The path leads to the file that was put where it was opened. -/
theorem place_of_openFile {t : FileTree} {cwd p : Path} {here : List String}
    (h : t.openFile cwd p = .ok here) (content : List UInt8) :
    (t.set here (.file .write content)).place cwd p = .ok here := by
  obtain ⟨hplace, hdir, hlink⟩ := openFile_ok h
  exact place_of_extends (extends_set hdir hlink fun _ => Node.noConfusion) hplace

/-- What is put where a file was opened lets the tree grow. -/
theorem grown_openFile {t : FileTree} (ht : t.Grounded) {cwd p : Path}
    (hcwd : t.IsWorkingDirectory cwd) {here : List String} (h : t.openFile cwd p = .ok here)
    (content : List UInt8) : Grown t (t.set here (.file .write content)) := by
  obtain ⟨hplace, hdir, hlink⟩ := openFile_ok h
  exact ht.grown_set hdir hlink (above_of_place ht hcwd hplace) fun _ hn => by cases hn

theorem stat_eq_ok {t : FileTree} {cwd p : Path} {n : Node} :
    t.stat cwd p = .ok n ↔ ∃ here, t.place cwd p = .ok here ∧ t.node? here = some n := by
  unfold stat
  cases hplace : t.place cwd p with
  | error refusal => simp only [bind, Except.bind, reduceCtorEq, false_and, exists_false]
  | ok here =>
    simp only [bind, Except.bind, Except.ok.injEq, exists_eq_left']
    cases t.node? here with
    | none => simp only [reduceCtorEq]
    | some n' => simp only [Except.ok.injEq, Option.some.injEq]

/-- What can be seen has been handed over. -/
theorem usable_of_stat {t : FileTree} {cwd p : Path} {n : Node} (h : t.stat cwd p = .ok n) :
    p.Usable := by
  obtain ⟨here, hplace, -⟩ := stat_eq_ok.mp h
  exact (place_ok.mp hplace).1

/-- Content is read exactly where the path leads to a file that may be read. -/
theorem contentAt_eq_ok {t : FileTree} {cwd p : Path} {content : List UInt8} :
    t.contentAt cwd p = .ok content ↔ ∃ here access, t.place cwd p = .ok here ∧
      t.node? here = some (.file access content) ∧ access ≠ .none := by
  constructor
  · intro h
    unfold contentAt at h
    cases hstat : t.stat cwd p with
    | error refusal =>
      rw [hstat] at h
      cases h
    | ok n =>
      obtain ⟨here, hplace, hnode⟩ := stat_eq_ok.mp hstat
      simp only [hstat, bind, Except.bind] at h
      cases n with
      | directory => cases h
      | link => cases h
      | file access content' =>
        dsimp only at h
        split at h
        · cases h
        · rename_i haccess
          exact ⟨here, access, hplace, by rw [hnode, Except.ok.inj h], haccess⟩
  · rintro ⟨here, access, hplace, hfile, haccess⟩
    simp only [contentAt, stat_eq_ok.mpr ⟨here, hplace, hfile⟩, bind, Except.bind, if_neg haccess]

/-- The content that is read is that of the file to which the path leads. -/
theorem contentAt_of_file {t : FileTree} {cwd p : Path} {here : List String}
    {content : List UInt8} (h : t.place cwd p = .ok here)
    (hfile : t.node? here = some (.file .write content)) : t.contentAt cwd p = .ok content :=
  contentAt_eq_ok.mpr ⟨here, .write, h, hfile, Access.noConfusion⟩

/-! ## Files that are written again -/

/-- What stands at a place may be put there in vain. -/
theorem set_of_node? {t : FileTree} {here : List String} {n : Node} (hne : here ≠ [])
    (h : t.node? here = some n) : t.set here n = t := by
  rw [node?, if_neg hne] at h
  exact congrArg (FileTree.mk · t.top t.device) (OrderedMap.insert_of_get? h)

/-- What a path names that leads to a directory is there: the directory or a link. -/
theorem exists_node?_entry {t : FileTree} {cwd p : Path}
    (hcwd : t.IsWorkingDirectory cwd) {dir : List String} (h : t.place cwd p = .ok dir)
    (hdir : t.DirectoryAt dir) : ∃ here n, t.entry cwd p = .ok here ∧ t.node? here = some n := by
  suffices hentry : ∃ here, t.entry cwd p = .ok here ∧ (t.DirectoryAt here ∨ t.LinkAt here) by
    obtain ⟨here, hhere, ⟨rights, hnode⟩ | ⟨target, hnode⟩⟩ := hentry
    · exact ⟨here, _, hhere, hnode⟩
    · exact ⟨here, _, hhere, hnode⟩
  obtain ⟨husable, hleads⟩ := place_ok.mp h
  rcases List.eq_nil_or_concat p.parts with hnil | ⟨init, last, hparts⟩
  · exact ⟨_, entry_ok.mpr ⟨husable, Or.inl ⟨hnil, rfl⟩⟩, Or.inl (hcwd.start p)⟩
  · rw [List.concat_eq_append] at hparts
    rw [hparts] at hleads
    obtain ⟨mid, hinit, hlast⟩ := hleads.append
    obtain ⟨here, hstep, hhere⟩ := hlast.single
    refine ⟨here, entry_ok.mpr ⟨husable, Or.inr ⟨init, last, mid, hparts, hinit, hstep⟩⟩, ?_⟩
    by_cases hlink : t.LinkAt here
    · exact Or.inr hlink
    · exact Or.inl (hhere hlink ▸ hdir)

/-- A directory that stands already is not made. -/
theorem makeDirectories_of_directory {t : FileTree} {cwd p : Path}
    (hcwd : t.IsWorkingDirectory cwd) {dir : List String} (h : t.place cwd p = .ok dir)
    (hdir : t.DirectoryAt dir) (depth : Nat) : t.makeDirectories cwd depth p = (t, none) := by
  obtain ⟨here, n, hentry, hnode⟩ := exists_node?_entry hcwd h hdir
  obtain ⟨rights, hrights⟩ := hdir
  have hmade : t.makeDirectory cwd p = .error .fileExists := by
    simp only [makeDirectory, hentry, bind, Except.bind, hnode]
  have hsettled : t.settled cwd p .fileExists = none := by
    simp only [settled, stat, h, bind, Except.bind, hrights]
  cases depth <;> simp only [makeDirectories, hmade, hsettled]

/-- Above a path that leads somewhere else than to a directory nothing has to be made. -/
theorem makeParents_of_place {t : FileTree} (ht : t.Grounded) {cwd p : Path}
    (hcwd : t.IsWorkingDirectory cwd) {here : List String} (h : t.place cwd p = .ok here)
    (hhere : ¬t.DirectoryAt here) : t.makeParents cwd p = (t, none) := by
  obtain ⟨dir, -, hparent, hdir, -, -⟩ := entry_of_place ht hcwd h hhere
  exact makeDirectories_of_directory hcwd hparent hdir _

/-! ## Absolute paths

From wherever an absolute path is followed, it leads to the same place, and so the same happens
there. -/

section

variable {p : Path} (h : p.isAbsolute = true) (t : FileTree) (cwd cwd' : Path)

include h

theorem start_of_isAbsolute : start cwd p = start cwd' p := by
  rw [start, start, if_pos h, if_pos h]

theorem place_of_isAbsolute : t.place cwd p = t.place cwd' p := by
  rw [place, place, start_of_isAbsolute h cwd cwd']

theorem entry_of_isAbsolute : t.entry cwd p = t.entry cwd' p := by
  rw [entry, entry, start_of_isAbsolute h cwd cwd']

theorem stat_of_isAbsolute : t.stat cwd p = t.stat cwd' p := by
  rw [stat, stat, place_of_isAbsolute h t cwd cwd']

theorem makeDirectory_of_isAbsolute : t.makeDirectory cwd p = t.makeDirectory cwd' p := by
  rw [makeDirectory, makeDirectory, entry_of_isAbsolute h t cwd cwd']

theorem settled_of_isAbsolute (refusal : Refusal) :
    t.settled cwd p refusal = t.settled cwd' p refusal := by
  rw [settled, settled, stat_of_isAbsolute h t cwd cwd']

theorem storeFile_of_isAbsolute (content : List UInt8) :
    t.storeFile cwd p content = t.storeFile cwd' p content := by
  rw [storeFile, storeFile, openFile, openFile, place_of_isAbsolute h t cwd cwd']

theorem makeDirectories_of_isAbsolute (depth : Nat) :
    t.makeDirectories cwd depth p = t.makeDirectories cwd' depth p := by
  induction depth generalizing p with
  | zero =>
    simp only [makeDirectories, makeDirectory_of_isAbsolute h t cwd cwd',
      settled_of_isAbsolute h t cwd cwd']
  | succ depth ih =>
    have hmade : ∀ t : FileTree, t.makeDirectory cwd p = t.makeDirectory cwd' p := fun t =>
      makeDirectory_of_isAbsolute h t cwd cwd'
    have hsettled : ∀ (t : FileTree) (refusal : Refusal),
        t.settled cwd p refusal = t.settled cwd' p refusal := fun t refusal =>
      settled_of_isAbsolute h t cwd cwd' refusal
    have habove : t.makeDirectories cwd depth p.parent = t.makeDirectories cwd' depth p.parent :=
      ih h
    simp only [makeDirectories, hmade, hsettled, habove]

theorem makeParents_of_isAbsolute : t.makeParents cwd p = t.makeParents cwd' p :=
  makeDirectories_of_isAbsolute (p := p.parent) h t cwd cwd' p.parent.parts.length

end

/-! ## Paths that never reach the operating system -/

theorem step_ne_unusable (t : FileTree) (dir : List String) (part : String) (why : Text.Unusable) :
    t.step dir part ≠ .error (.unusable why) := by
  unfold step
  split
  · exact fun h => by cases h
  · split
    · exact fun h => by cases h
    · split
      · exact fun h => by cases h
      · split <;> exact fun h => by cases h
  · exact fun h => by cases h

theorem walkOn_ne_unusable (t : FileTree) (why : Text.Unusable)
    {follow : List String → List String → Except Refusal (List String)}
    (hfollow : ∀ dir parts, follow dir parts ≠ .error (.unusable why)) (dir parts : List String) :
    t.walkOn follow dir parts ≠ .error (.unusable why) := by
  induction parts generalizing dir with
  | nil => exact fun h => by cases h
  | cons part rest ih =>
    cases hstep : t.step dir part with
    | error refusal =>
      rw [walkOn_cons_error follow rest hstep]
      intro h
      obtain rfl := Except.error.inj h
      exact t.step_ne_unusable dir part why hstep
    | ok here =>
      by_cases hlink : t.LinkAt here
      · obtain ⟨target, htarget⟩ := hlink
        rw [walkOn_link follow rest hstep htarget]
        exact hfollow _ _
      · rw [walkOn_plain follow rest hstep hlink]
        exact ih here

theorem walk_ne_unusable (t : FileTree) (links : Nat) (dir parts : List String)
    (why : Text.Unusable) : t.walk links dir parts ≠ .error (.unusable why) := by
  induction links generalizing dir parts with
  | zero => exact t.walkOn_ne_unusable why (fun _ _ h => by cases h) dir parts
  | succ links ih => exact t.walkOn_ne_unusable why ih dir parts

/-- A path that leads nowhere does so in the tree, unless it never reaches the operating system. -/
theorem stat_eq_unusable {t : FileTree} {cwd p : Path} {why : Text.Unusable} :
    t.stat cwd p = .error (.unusable why) ↔ accept p = .error (.unusable why) := by
  unfold stat place
  cases haccept : accept p with
  | error refusal => simp only [bind, Except.bind, Except.error.injEq]
  | ok =>
    simp only [bind, Except.bind]
    refine ⟨fun h => ?_, fun h => by cases h⟩
    cases hwalk : t.walk linkLimit (start cwd p) p.parts with
    | error refusal =>
      rw [hwalk] at h
      obtain rfl := Except.error.inj h
      exact absurd hwalk (t.walk_ne_unusable _ _ _ why)
    | ok here =>
      rw [hwalk] at h
      dsimp only at h
      split at h <;> cases h

theorem contentAt_eq_unusable {t : FileTree} {cwd p : Path} {why : Text.Unusable} :
    t.contentAt cwd p = .error (.unusable why) ↔ accept p = .error (.unusable why) := by
  rw [← @stat_eq_unusable t cwd p why]
  unfold contentAt
  cases hstat : t.stat cwd p with
  | error refusal => simp only [bind, Except.bind, Except.error.injEq]
  | ok n =>
    simp only [bind, Except.bind]
    refine ⟨fun h => ?_, fun h => by cases h⟩
    split at h
    · split at h <;> cases h
    · obtain hrefusal := Except.error.inj h
      split at hrefusal <;> cases hrefusal
    · cases h

end FileTree
end Replatform
