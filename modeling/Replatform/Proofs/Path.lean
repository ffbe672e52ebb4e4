import Replatform.Path

/-! # Normal forms and relative paths

A path is **proper** if each of its parts is what a text can have between slashes; parsing its
text then gives the path back.  A path is **canonical** if it is absolute and in normal form.
The relative path from a canonical directory to a canonical target climbs as far as the two
have nothing in common and goes down from there, so taking it at the directory leads to the
parts of the target again, wherever the two are.
-/
namespace Replatform

namespace Text

theorem notMem_of_mem_splitAt {sep : Char} {cs piece : List Char} (h : piece ∈ splitAt sep cs) :
    sep ∉ piece := by
  induction cs generalizing piece with
  | nil =>
    rw [List.mem_singleton.mp h]
    exact List.not_mem_nil
  | cons c rest ih =>
    by_cases hc : c = sep
    · rw [splitAt, if_pos hc] at h
      rcases List.mem_cons.mp h with rfl | h
      · exact List.not_mem_nil
      · exact ih h
    · rw [splitAt, if_neg hc] at h
      have hne : sep ≠ c := fun e => hc e.symm
      rcases hs : splitAt sep rest with _ | ⟨first, others⟩
      · rw [hs] at h
        rw [List.mem_singleton.mp h]
        exact List.not_mem_cons_of_ne_of_not_mem hne List.not_mem_nil
      · rw [hs] at h ih
        rcases List.mem_cons.mp h with rfl | h
        · exact List.not_mem_cons_of_ne_of_not_mem hne (ih List.mem_cons_self)
        · exact ih (List.mem_cons_of_mem first h)

theorem splitAt_of_notMem {sep : Char} {piece : List Char} (h : sep ∉ piece) :
    splitAt sep piece = [piece] := by
  induction piece with
  | nil => rfl
  | cons c rest ih =>
    obtain ⟨hc, hrest⟩ := List.ne_and_not_mem_of_not_mem_cons h
    rw [splitAt, if_neg fun e => hc e.symm, ih hrest]

theorem splitAt_append_cons {sep : Char} {piece : List Char} (h : sep ∉ piece) (rest : List Char) :
    splitAt sep (piece ++ sep :: rest) = piece :: splitAt sep rest := by
  induction piece with
  | nil => rw [List.nil_append, splitAt, if_pos rfl]
  | cons c piece ih =>
    obtain ⟨hc, hpiece⟩ := List.ne_and_not_mem_of_not_mem_cons h
    rw [List.cons_append, splitAt, if_neg fun e => hc e.symm, ih hpiece]

/-- Cutting at the separators gives the pieces back that were joined. -/
theorem splitAt_joinWith {sep : Char} {pieces : List (List Char)}
    (h : ∀ piece ∈ pieces, sep ∉ piece) (hne : pieces ≠ []) :
    splitAt sep (joinWith sep pieces) = pieces := by
  induction pieces with
  | nil => exact absurd rfl hne
  | cons piece pieces ih =>
    have hpiece : sep ∉ piece := h piece List.mem_cons_self
    cases pieces with
    | nil => exact splitAt_of_notMem hpiece
    | cons next more =>
      rw [joinWith, splitAt_append_cons hpiece,
        ih (fun p hp => h p (List.mem_cons_of_mem _ hp)) (List.cons_ne_nil next more)]
      exact List.cons_ne_nil next more

end Text

namespace Path

/-! ## Proper paths -/

/-- The text can stand between two slashes of a path. -/
def IsName (part : String) : Prop := isPart part.toList = true ∧ '/' ∉ part.toList

instance (part : String) : Decidable (IsName part) := inferInstanceAs (Decidable (_ ∧ _))

/-- All parts can stand between slashes. -/
def Proper (p : Path) : Prop := ∀ part ∈ p.parts, IsName part

instance (p : Path) : Decidable p.Proper :=
  inferInstanceAs (Decidable (∀ part ∈ p.parts, IsName part))

theorem isName_dots : IsName ".." := by decide

theorem IsName.toList_ne_nil {part : String} (h : IsName part) : part.toList ≠ [] := by
  intro hnil
  have hpart := h.1
  rw [hnil] at hpart
  exact absurd hpart (by decide)

theorem proper_parse (s : String) : (parse s).Proper := by
  intro part hpart
  obtain ⟨piece, hpiece, rfl⟩ := List.mem_map.mp hpart
  obtain ⟨hsplit, hname⟩ := List.mem_filter.mp hpiece
  rw [IsName, String.toList_ofList]
  exact ⟨hname, Text.notMem_of_mem_splitAt hsplit⟩

/-- What stands behind the root of a path starts with no slash. -/
theorem joinWith_eq_cons {parts : List String} (h : ∀ part ∈ parts, IsName part)
    (hne : parts ≠ []) :
    ∃ c cs, Text.joinWith '/' (parts.map String.toList) = c :: cs ∧ c ≠ '/' := by
  obtain ⟨part, rest, rfl⟩ := List.exists_cons_of_ne_nil hne
  have hpart : IsName part := h part List.mem_cons_self
  obtain ⟨c, cs, hcs⟩ := List.exists_cons_of_ne_nil hpart.toList_ne_nil
  have hc : c ≠ '/' := by
    rintro rfl
    exact hpart.2 (hcs ▸ List.mem_cons_self)
  cases rest with
  | nil => exact ⟨c, cs, hcs, hc⟩
  | cons next more =>
    rw [List.map_cons, List.map_cons, Text.joinWith, hcs, List.cons_append]
    · exact ⟨c, _, rfl, hc⟩
    · exact List.cons_ne_nil _ _

theorem rootOf_text (root : Root) {cs : List Char} (h : ∀ rest, cs ≠ '/' :: rest) :
    rootOf (root.text ++ cs) = root := by
  cases cs with
  | nil => cases root <;> rfl
  | cons c rest =>
    have hc : c ≠ '/' := fun e => h rest (e ▸ rfl)
    cases root <;> simp [Root.text, rootOf, hc]

theorem filter_splitAt_text (root : Root) (cs : List Char) :
    (Text.splitAt '/' (root.text ++ cs)).filter isPart = (Text.splitAt '/' cs).filter isPart := by
  cases root <;> rfl

/-- Parsing the text of a proper path gives the path back. -/
theorem parse_text {p : Path} (h : p.Proper) : parse p.text = p := by
  by_cases hdot : p.root = .relative ∧ p.parts = []
  · rw [text, if_pos hdot]
    obtain ⟨root, parts⟩ := p
    obtain ⟨rfl, rfl⟩ := hdot
    decide
  · -- the root is read off the slashes in front, since no part begins with one
    rw [text, if_neg hdot, parse, String.toList_ofList, filter_splitAt_text]
    by_cases hne : p.parts = []
    · rw [rootOf_text]
      · obtain ⟨root, parts⟩ := p
        obtain rfl : parts = [] := hne
        rfl
      · simp [hne, Text.joinWith]
    · obtain ⟨c, cs, hjoin, hc⟩ := joinWith_eq_cons h hne
      have hslash : ∀ rest, Text.joinWith '/' (p.parts.map String.toList) ≠ '/' :: rest := by
        intro rest e
        rw [hjoin] at e
        exact hc (List.cons.inj e).1
      have hpieces : ∀ piece ∈ p.parts.map String.toList, '/' ∉ piece := by
        intro piece hpiece
        obtain ⟨part, hpart, rfl⟩ := List.mem_map.mp hpiece
        exact (h part hpart).2
      have hkept : (p.parts.map String.toList).filter isPart = p.parts.map String.toList := by
        refine List.filter_eq_self.mpr fun piece hpiece => ?_
        obtain ⟨part, hpart, rfl⟩ := List.mem_map.mp hpiece
        exact (h part hpart).1
      rw [rootOf_text _ hslash, Text.splitAt_joinWith hpieces (by simpa using hne), hkept,
        List.map_map]
      have hid : (String.ofList ∘ String.toList) = id := funext fun s => String.ofList_toList
      rw [hid, List.map_id]

/-- Proper paths with one text are one path. -/
theorem text_injective {p q : Path} (hp : p.Proper) (hq : q.Proper) (h : p.text = q.text) :
    p = q := by
  rw [← parse_text hp, h, parse_text hq]

/-- The text of a proper path is not empty. -/
theorem text_ne_empty {p : Path} (h : p.Proper) : p.text ≠ "" := by
  by_cases hdot : p.root = .relative ∧ p.parts = []
  · rw [text, if_pos hdot]
    decide
  · intro he
    rw [text, if_neg hdot] at he
    have hnil := congrArg String.toList he
    rw [String.toList_ofList] at hnil
    obtain ⟨hroot, hjoin⟩ := List.append_eq_nil_iff.mp hnil
    have hrel : p.root = .relative := by
      cases hp : p.root with
      | relative => rfl
      | slash => rw [hp] at hroot; cases hroot
      | doubleSlash => rw [hp] at hroot; cases hroot
    have hne : p.parts ≠ [] := fun hparts => hdot ⟨hrel, hparts⟩
    obtain ⟨c, cs, hcons, -⟩ := joinWith_eq_cons h hne
    rw [hcons] at hjoin
    cases hjoin

theorem Proper.join {p q : Path} (hp : p.Proper) (hq : q.Proper) : (p.join q).Proper := by
  unfold Path.join
  split
  · exact hq
  · intro part hpart
    rcases List.mem_append.mp hpart with hpart | hpart
    · exact hp part hpart
    · exact hq part hpart

/-! ## Normal forms -/

theorem ascend_dots_nil : ascend true [] ".." = [] := rfl

theorem ascend_dots_cons {absolute : Bool} {last : String} (h : last ≠ "..") (rest : List String) :
    ascend absolute (last :: rest) ".." = rest := by
  simp [ascend, h]

theorem ascend_name {absolute : Bool} {part : String} (h : part ≠ "..") (above : List String) :
    ascend absolute above part = part :: above := by
  simp [ascend, h]

/-- Going down adds the parts. -/
theorem foldl_ascend_names {absolute : Bool} {parts : List String} (h : ".." ∉ parts)
    (above : List String) : parts.foldl (ascend absolute) above = parts.reverse ++ above := by
  induction parts generalizing above with
  | nil => rfl
  | cons part rest ih =>
    obtain ⟨hpart, hrest⟩ := List.ne_and_not_mem_of_not_mem_cons h
    rw [List.foldl_cons, ascend_name fun e => hpart e.symm, ih hrest]
    simp

/-- Climbing drops parts, and stops at the root. -/
theorem foldl_ascend_dots {above : List String} (h : ".." ∉ above) (k : Nat) :
    (List.replicate k "..").foldl (ascend true) above = above.drop k := by
  induction k generalizing above with
  | zero => rfl
  | succ k ih =>
    rw [List.replicate_succ, List.foldl_cons]
    cases above with
    | nil =>
      rw [ascend_dots_nil, ih List.not_mem_nil]
      simp
    | cons last rest =>
      obtain ⟨hlast, hrest⟩ := List.ne_and_not_mem_of_not_mem_cons h
      rw [ascend_dots_cons fun e => hlast e.symm, ih hrest, List.drop_succ_cons]

theorem mem_ascend {absolute : Bool} {above : List String} {part x : String}
    (h : x ∈ ascend absolute above part) : x ∈ above ∨ x = part := by
  by_cases hpart : part = ".."
  · subst hpart
    cases above with
    | nil =>
      cases absolute with
      | true => cases h
      | false => exact Or.inr (List.mem_singleton.mp h)
    | cons last rest =>
      by_cases hlast : last = ".."
      · subst hlast
        simp only [ascend, if_true] at h
        exact (List.mem_cons.mp h).symm
      · rw [ascend_dots_cons hlast] at h
        exact Or.inl (List.mem_cons_of_mem last h)
  · rw [ascend_name hpart] at h
    exact (List.mem_cons.mp h).symm

theorem mem_foldl_ascend {absolute : Bool} {above parts : List String} {x : String}
    (h : x ∈ parts.foldl (ascend absolute) above) : x ∈ above ∨ x ∈ parts := by
  induction parts generalizing above with
  | nil => exact Or.inl h
  | cons part rest ih =>
    rcases ih h with h | h
    · rcases mem_ascend h with h | rfl
      · exact Or.inl h
      · exact Or.inr List.mem_cons_self
    · exact Or.inr (List.mem_cons_of_mem part h)

theorem dots_notMem_foldl_ascend {above : List String} (h : ".." ∉ above) (parts : List String) :
    ".." ∉ parts.foldl (ascend true) above := by
  induction parts generalizing above with
  | nil => exact h
  | cons part rest ih =>
    refine ih ?_
    by_cases hpart : part = ".."
    · subst hpart
      cases above with
      | nil => exact List.not_mem_nil
      | cons last rest =>
        obtain ⟨hlast, hrest⟩ := List.ne_and_not_mem_of_not_mem_cons h
        rw [ascend_dots_cons fun e => hlast e.symm]
        exact hrest
    · rw [ascend_name hpart]
      exact List.not_mem_cons_of_ne_of_not_mem (fun e => hpart e.symm) h

theorem Proper.normal {p : Path} (h : p.Proper) : p.normal.Proper := by
  intro part hpart
  rcases mem_foldl_ascend (List.mem_reverse.mp hpart) with hpart | hpart
  · cases hpart
  · exact h part hpart

theorem Proper.resolve {dir p : Path} (hdir : dir.Proper) (hp : p.Proper) :
    (dir.resolve p).Proper :=
  (hdir.join hp).normal

/-- The path is absolute and in normal form. -/
structure IsCanonical (p : Path) : Prop where
  absolute : p.isAbsolute = true
  direct : ".." ∉ p.parts

theorem isCanonical_normal {p : Path} (h : p.isAbsolute = true) : p.normal.IsCanonical where
  absolute := h
  direct := by
    rw [normal, h, List.mem_reverse]
    exact dots_notMem_foldl_ascend List.not_mem_nil p.parts

theorem IsCanonical.normal_eq {p : Path} (h : p.IsCanonical) : p.normal = p := by
  rw [normal, foldl_ascend_names h.direct, List.append_nil, List.reverse_reverse]

theorem isAbsolute_iff {p : Path} : p.isAbsolute = true ↔ p.root ≠ .relative := by
  simp [isAbsolute]

theorem rootOf_ne_relative (cs : List Char) : rootOf ('/' :: cs) ≠ .relative := by
  unfold rootOf
  split <;> simp_all

/-- The text of an absolute path begins with a slash, whatever its parts are. -/
theorem isAbsolute_parse_text {p : Path} (h : p.isAbsolute = true) :
    (parse p.text).isAbsolute = true := by
  have hroot : p.root ≠ .relative := isAbsolute_iff.mp h
  obtain ⟨cs, hcs⟩ : ∃ cs, p.text.toList = '/' :: cs := by
    rw [text, if_neg fun hdot => hroot hdot.1, String.toList_ofList]
    cases hp : p.root with
    | relative => exact absurd hp hroot
    | slash => exact ⟨_, rfl⟩
    | doubleSlash => exact ⟨_, rfl⟩
  rw [isAbsolute_iff, parse, hcs]
  exact rootOf_ne_relative cs

theorem isAbsolute_of_slash {p : Path} (h : p.root = .slash) : p.isAbsolute = true := by
  rw [isAbsolute, h]
  rfl

theorem join_of_isAbsolute {q : Path} (h : q.isAbsolute = true) (p : Path) : p.join q = q :=
  if_pos h

theorem join_of_relative {q : Path} (h : q.isAbsolute = false) (p : Path) :
    p.join q = ⟨p.root, p.parts ++ q.parts⟩ := by
  simp [join, h]

/-- The empty text is the path that leads nowhere. -/
theorem join_parse_empty (p : Path) : p.join (.parse "") = p := by
  rw [join_of_relative rfl]
  exact congrArg (Path.mk p.root) (List.append_nil p.parts)

theorem isAbsolute_join {p : Path} (h : p.isAbsolute = true) (q : Path) :
    (p.join q).isAbsolute = true := by
  unfold join
  split
  · assumption
  · exact h

/-- What is seen from an absolute directory is canonical. -/
theorem isCanonical_resolve {dir : Path} (h : dir.isAbsolute = true) (p : Path) :
    (dir.resolve p).IsCanonical :=
  isCanonical_normal (isAbsolute_join h p)

/-- An absolute path looks the same from all directories. -/
theorem resolve_of_isAbsolute {p : Path} (h : p.isAbsolute = true) (dir : Path) :
    dir.resolve p = p.normal := by
  rw [resolve, join_of_isAbsolute h]

theorem IsCanonical.resolve_eq {p : Path} (h : p.IsCanonical) (dir : Path) : dir.resolve p = p := by
  rw [resolve_of_isAbsolute h.absolute, h.normal_eq]

theorem IsCanonical.resolve_parse_empty {p : Path} (h : p.IsCanonical) :
    p.resolve (.parse "") = p := by
  rw [resolve, join_parse_empty, h.normal_eq]

theorem root_resolve_of_relative {p : Path} (h : p.isAbsolute = false) (dir : Path) :
    (dir.resolve p).root = dir.root := by
  rw [resolve, join_of_relative h]
  rfl

theorem join_assoc (p q r : Path) : (p.join q).join r = p.join (q.join r) := by
  by_cases hr : r.isAbsolute = true
  · rw [join_of_isAbsolute hr, join_of_isAbsolute hr, join_of_isAbsolute hr]
  · have hr : r.isAbsolute = false := Bool.eq_false_iff.mpr hr
    by_cases hq : q.isAbsolute = true
    · rw [join_of_isAbsolute hq, join_of_isAbsolute (isAbsolute_join hq r)]
    · have hq : q.isAbsolute = false := Bool.eq_false_iff.mpr hq
      have hqr : (⟨q.root, q.parts ++ r.parts⟩ : Path).isAbsolute = false := hq
      rw [join_of_relative hr, join_of_relative hq, join_of_relative hr, join_of_relative hqr,
        List.append_assoc]

/-- The path is as that of a place in a file tree: in normal form behind one slash. -/
structure IsReal (p : Path) : Prop where
  root : p.root = .slash
  direct : ".." ∉ p.parts

theorem IsReal.canonical {p : Path} (h : p.IsReal) : p.IsCanonical :=
  ⟨isAbsolute_of_slash h.root, h.direct⟩

/-- It does not matter whether a directory is taken as it is or in normal form. -/
theorem normal_join {p : Path} (h : p.isAbsolute = true) (q : Path) :
    (p.normal.join q).normal = (p.join q).normal := by
  by_cases hq : q.isAbsolute = true
  · rw [join_of_isAbsolute hq, join_of_isAbsolute hq]
  · have hq : q.isAbsolute = false := Bool.eq_false_iff.mpr hq
    have hparts : p.normal.parts.foldl (ascend true) [] = p.parts.foldl (ascend true) [] := by
      rw [foldl_ascend_names (isCanonical_normal h).direct, List.append_nil, normal, h,
        List.reverse_reverse]
    have hjoin : ∀ p' : Path, p'.isAbsolute = true → (p'.join q).normal =
        ⟨p'.root, (q.parts.foldl (ascend true) (p'.parts.foldl (ascend true) [])).reverse⟩ := by
      intro p' h'
      rw [normal, isAbsolute_join h', join_of_relative hq, List.foldl_append]
    rw [hjoin p.normal h, hjoin p h, hparts]
    rfl

/-- What is seen from one directory and then from another is seen from the first at once. -/
theorem resolve_resolve {dir : Path} (h : dir.isAbsolute = true) (p q : Path) :
    (dir.resolve p).resolve q = dir.resolve (p.join q) := by
  rw [resolve, resolve, normal_join (isAbsolute_join h p), join_assoc, resolve]

/-- The path does not begin with exactly two slashes, which are a root of their own. -/
def SingleSlash (p : Path) : Prop := p.root ≠ .doubleSlash

instance (p : Path) : Decidable p.SingleSlash := inferInstanceAs (Decidable (_ ≠ _))

theorem root_resolve {dir p : Path} (hdir : dir.root = .slash) (hp : p.SingleSlash) :
    (dir.resolve p).root = .slash := by
  by_cases habs : p.isAbsolute = true
  · rw [resolve_of_isAbsolute habs]
    show p.root = .slash
    cases hroot : p.root with
    | relative => exact absurd hroot (isAbsolute_iff.mp habs)
    | slash => rfl
    | doubleSlash => exact absurd hroot hp
  · rw [root_resolve_of_relative (by simpa using habs), hdir]

/-! ## Relative paths -/

/-- The steps from some parts lead to the others, whatever both stand behind. -/
theorem foldl_ascend_steps {base target above : List String} (hbase : ".." ∉ base)
    (htarget : ".." ∉ target) (habove : ".." ∉ above) :
    (steps base target).foldl (ascend true) (base.reverse ++ above) = target.reverse ++ above := by
  induction base generalizing target above with
  | nil =>
    have hsteps : steps [] target = target := by simp [steps]
    rw [hsteps, foldl_ascend_names htarget]
    rfl
  | cons b base ih =>
    -- the induction drops the parts that both share; here they differ, and all of `base` is climbed
    have hclimb : ∀ k, (List.replicate (base.length + 1) "..").foldl (ascend true)
        ((b :: base).reverse ++ above) = k → k = above := by
      rintro k rfl
      have hboth : ".." ∉ (b :: base).reverse ++ above := by
        rw [List.mem_append, List.mem_reverse]
        exact fun h => h.elim hbase habove
      have hlength : ((b :: base).reverse).length = base.length + 1 := by simp
      rw [foldl_ascend_dots hboth, ← hlength, List.drop_left]
    cases target with
    | nil =>
      have hsteps : steps (b :: base) [] = List.replicate (base.length + 1) ".." := by simp [steps]
      rw [hsteps]
      exact hclimb _ rfl
    | cons t target =>
      by_cases hbt : b = t
      · subst hbt
        have hsteps : steps (b :: base) (b :: target) = steps base target := by simp [steps]
        obtain ⟨hb, hbase'⟩ := List.ne_and_not_mem_of_not_mem_cons hbase
        have hnext := ih hbase' (List.not_mem_of_not_mem_cons htarget)
          (List.not_mem_cons_of_ne_of_not_mem hb habove)
        rw [hsteps]
        simpa using hnext
      · have hsteps : steps (b :: base) (t :: target) =
            List.replicate (base.length + 1) ".." ++ t :: target := by simp [steps, hbt]
        rw [hsteps, List.foldl_append, hclimb _ rfl, foldl_ascend_names htarget]

theorem mem_steps {base target : List String} {part : String} (h : part ∈ steps base target) :
    part = ".." ∨ part ∈ target := by
  induction base generalizing target with
  | nil => exact Or.inr (by simpa [steps] using h)
  | cons b base ih =>
    cases target with
    | nil =>
      have hdots : part ∈ List.replicate (b :: base).length ".." := by simpa [steps] using h
      exact Or.inl (List.eq_of_mem_replicate hdots)
    | cons t target =>
      by_cases hbt : b = t
      · rw [steps, if_pos hbt] at h
        exact (ih h).imp_right (List.mem_cons_of_mem t)
      · rw [steps, if_neg hbt] at h
        exact (List.mem_append.mp h).imp_left List.eq_of_mem_replicate

theorem proper_relativeTo {dir target : Path} (hdir : dir.Proper) (htarget : target.Proper)
    (base : Path) : (dir.relativeTo target base).Proper := by
  intro part hpart
  rcases mem_steps hpart with rfl | hpart
  · exact isName_dots
  · exact hdir.resolve htarget part hpart

/-- The way from one absolute path to another is the same from everywhere. -/
theorem relativeTo_of_isAbsolute {target base : Path} (htarget : target.isAbsolute = true)
    (hbase : base.isAbsolute = true) (dir dir' : Path) :
    dir.relativeTo target base = dir'.relativeTo target base := by
  rw [relativeTo, relativeTo, resolve_of_isAbsolute htarget, resolve_of_isAbsolute htarget,
    resolve_of_isAbsolute hbase, resolve_of_isAbsolute hbase]

/-- The steps between two places do not see what the places have in common. -/
theorem steps_append_left (common base target : List String) :
    steps (common ++ base) (common ++ target) = steps base target := by
  induction common with
  | nil => rfl
  | cons c rest ih => rw [List.cons_append, List.cons_append, steps, if_pos rfl, ih]

/-- The relative path from one place to another leads the same way wherever the two stand: with
what they have in common replaced, it leads to the second place there. -/
theorem resolve_relativeTo_of_common {dir base target here : Path}
    {common common' start stop : List String} (hhere : here.IsCanonical)
    (hparts : here.parts = common' ++ start) (hbase : (dir.resolve base).parts = common ++ start)
    (htarget : (dir.resolve target).parts = common ++ stop) (hto : ".." ∉ stop) :
    here.resolve (dir.relativeTo target base) = ⟨here.root, common' ++ stop⟩ := by
  have hrel : (dir.relativeTo target base).isAbsolute = false := rfl
  have hdirect := hhere.direct
  rw [hparts, List.mem_append, not_or] at hdirect
  have hcommon : ".." ∉ common'.reverse := fun h => hdirect.1 (List.mem_reverse.mp h)
  have habs : (⟨here.root, here.parts ++ steps start stop⟩ : Path).isAbsolute = true :=
    hhere.absolute
  rw [resolve, join_of_relative hrel, normal, relativeTo, hbase, htarget, steps_append_left]
  dsimp only
  rw [habs, List.foldl_append, foldl_ascend_names hhere.direct, List.append_nil, hparts,
    List.reverse_append, foldl_ascend_steps hdirect.2 hto hcommon, List.reverse_append,
    List.reverse_reverse, List.reverse_reverse]

/-- **The relative path to a target leads there**: from any path with the parts of the directory
that it starts from, it leads to the parts of the target. -/
theorem resolve_relativeTo_of_parts {dir base target here : Path} (hhere : here.IsCanonical)
    (hparts : here.parts = (dir.resolve base).parts) (htarget : (dir.resolve target).IsCanonical) :
    here.resolve (dir.relativeTo target base) = ⟨here.root, (dir.resolve target).parts⟩ :=
  @resolve_relativeTo_of_common dir base target here [] [] _ _ hhere hparts rfl rfl htarget.direct

/-! ## Ways up and down -/

/-- The path goes up before it goes down. -/
def ClimbsFirst (p : Path) : Prop :=
  ∃ up down, p.parts = List.replicate up ".." ++ down ∧ ".." ∉ down

theorem foldl_ascend_climbing (above up : Nat) :
    (List.replicate up "..").foldl (ascend false) (List.replicate above "..") =
      List.replicate (above + up) ".." := by
  induction up generalizing above with
  | zero => rfl
  | succ up ih =>
    have hstep : ascend false (List.replicate above "..") ".." =
        List.replicate (above + 1) ".." := by
      cases above <;> rfl
    rw [List.replicate_succ, List.foldl_cons, hstep, ih, Nat.add_right_comm, Nat.add_assoc]

/-- A relative path that goes up before it goes down is in normal form. -/
theorem ClimbsFirst.normal_eq {p : Path} (h : p.ClimbsFirst) (hrel : p.isAbsolute = false) :
    p.normal = p := by
  obtain ⟨up, down, hparts, hdown⟩ := h
  have hclimb := foldl_ascend_climbing 0 up
  rw [Nat.zero_add] at hclimb
  rw [normal, hrel, hparts, List.foldl_append, ← List.replicate_zero, hclimb,
    foldl_ascend_names hdown, List.reverse_append, List.reverse_reverse, List.reverse_replicate,
    ← hparts]

theorem steps_climb_first {base target : List String} (h : ".." ∉ target) :
    ∃ up down, steps base target = List.replicate up ".." ++ down ∧ ".." ∉ down := by
  induction base generalizing target with
  | nil => exact ⟨0, target, by simp [steps], h⟩
  | cons b base ih =>
    cases target with
    | nil => exact ⟨(b :: base).length, [], by simp [steps], List.not_mem_nil⟩
    | cons t target =>
      by_cases hbt : b = t
      · rw [steps, if_pos hbt]
        exact ih (List.not_mem_of_not_mem_cons h)
      · exact ⟨base.length + 1, t :: target, by rw [steps, if_neg hbt], h⟩

theorem climbsFirst_relativeTo {dir : Path} (h : dir.isAbsolute = true) (target base : Path) :
    (dir.relativeTo target base).ClimbsFirst :=
  steps_climb_first (isCanonical_resolve h target).direct

/-- There is no way to go from a place to itself. -/
theorem steps_self (parts : List String) : steps parts parts = [] := by
  have h := steps_append_left parts [] []
  rwa [List.append_nil] at h

end Path
end Replatform
