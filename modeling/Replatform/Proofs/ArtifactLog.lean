import Mathlib.Data.List.Induction
import Mathlib.Logic.Function.Basic
import Replatform.Proofs.Memory

/-! # Artifact maps and their logs

The log of an artifact map lists the mentions of kinds and paths from which the map was made, oldest
first.  Adding to a map adds to its log; a union continues the log of its first operand by what
the second one holds; a copy has the log of what it was copied from.  However maps are made from
each other by name, each of them holds at every moment what its log tells: the kinds in the order
of first mention, and under each kind the paths in the order in which they were first seen.

A statement makes a new map in memory or changes one in place.  In a **sound** scope no two names
stand for the same map, and no two maps share a list; so what becomes of a union or a copy is never
seen in the maps of which it was made.
-/
namespace Replatform

/-! ## Logs -/

/-- A kind is mentioned, by itself or with a path under it. -/
structure Mention (κ : Type) where
  kind : κ
  path? : Option String
  deriving DecidableEq, Repr

/-- The mentions of a map, oldest first. -/
abbrev ArtifactLog (κ : Type) := List (Mention κ)

namespace ArtifactLog

variable {κ : Type}

/-- The mentions in an entry: the kind, then each path under it. -/
def ofEntry (k : κ) (ps : List String) : ArtifactLog κ := ⟨k, none⟩ :: ps.map fun p => ⟨k, some p⟩

/-- The mentions in entries, one entry after the other. -/
def ofEntries (es : List (κ × List String)) : ArtifactLog κ := es.flatMap fun e => ofEntry e.1 e.2

variable [DecidableEq κ]

/-- The kinds in the order of first mention. -/
def kinds (log : ArtifactLog κ) : List κ := Discovery.distinct (log.map Mention.kind)

/-- The paths under a kind in the order in which they were first seen. -/
def paths (log : ArtifactLog κ) (k : κ) : List String :=
  Discovery.distinct (log.filterMap fun mention => if mention.kind = k then mention.path? else none)

/-- The kinds with their paths. -/
def items (log : ArtifactLog κ) : List (κ × List String) :=
  (kinds log).map fun k => (k, paths log k)

theorem kinds_append_ofEntry (log : ArtifactLog κ) (k : κ) (ps : List String) :
    kinds (log ++ ofEntry k ps) = Discovery.add (kinds log) k := by
  have hagain : ∀ l ∈ ps.map fun _ => k, l ∈ Discovery.add (kinds log) k := by
    intro l hl
    obtain ⟨-, -, rfl⟩ := List.mem_map.mp hl
    exact Discovery.mem_add.mpr (Or.inr rfl)
  have hmap : (ofEntry k ps).map Mention.kind = k :: ps.map fun _ => k := by
    rw [ofEntry, List.map_cons, List.map_map]
    rfl
  rw [kinds, List.map_append, hmap, ← Discovery.union_distinct, Discovery.union_cons]
  exact Discovery.union_of_subset hagain

theorem paths_append_ofEntry_self (log : ArtifactLog κ) (k : κ) (ps : List String) :
    paths (log ++ ofEntry k ps) k = Discovery.union (paths log k) ps := by
  have hpaths : (ofEntry k ps).filterMap
      (fun mention => if mention.kind = k then mention.path? else none) = ps := by
    simp only [ofEntry, List.filterMap_cons, List.filterMap_map, Function.comp_def, if_true,
      List.filterMap_some]
  rw [paths, List.filterMap_append, hpaths, ← Discovery.union_distinct]
  rfl

theorem paths_append_ofEntry_ne (log : ArtifactLog κ) {k l : κ} (h : k ≠ l) (ps : List String) :
    paths (log ++ ofEntry k ps) l = paths log l := by
  have hpaths : (ofEntry k ps).filterMap
      (fun mention => if mention.kind = l then mention.path? else none) = [] := by
    simp only [ofEntry, List.filterMap_cons, List.filterMap_map, Function.comp_def, if_neg h]
    exact List.filterMap_eq_nil_iff.mpr fun p _ => rfl
  rw [paths, List.filterMap_append, hpaths, List.append_nil]
  rfl

end ArtifactLog

/-! ## Maps that follow a log -/

namespace ArtifactMap

variable {κ : Type} [DecidableEq κ]

/-- The map holds what the log tells. -/
structure Follows (m : ArtifactMap κ) (log : ArtifactLog κ) : Prop where
  kinds : m.kinds = ArtifactLog.kinds log
  get : ∀ k, m.get k = ArtifactLog.paths log k

theorem follows_empty : (empty : ArtifactMap κ).Follows [] := ⟨rfl, fun _ => rfl⟩

/-- Adding paths under a kind mentions the kind, then each path. -/
theorem Follows.extend {m : ArtifactMap κ} {log : ArtifactLog κ} (h : m.Follows log) (k : κ)
    (ps : List String) : (m.extend k ps).Follows (log ++ ArtifactLog.ofEntry k ps) where
  kinds := by rw [kinds_extend, h.kinds, ArtifactLog.kinds_append_ofEntry]
  get l := by
    by_cases hkl : k = l
    · subst hkl
      rw [get_extend_self, h.get, ArtifactLog.paths_append_ofEntry_self]
    · rw [get_extend_ne m ps hkl, h.get, ArtifactLog.paths_append_ofEntry_ne log hkl]

theorem Follows.extendAll {m : ArtifactMap κ} {log : ArtifactLog κ} (h : m.Follows log)
    (es : List (κ × List String)) :
    (m.extendAll es).Follows (log ++ ArtifactLog.ofEntries es) := by
  induction es generalizing m log with
  | nil => exact (List.append_nil log).symm ▸ h
  | cons e rest ih =>
    have hlog : log ++ ArtifactLog.ofEntries (e :: rest) =
        log ++ ArtifactLog.ofEntry e.1 e.2 ++ ArtifactLog.ofEntries rest := by
      rw [List.append_assoc]
      rfl
    rw [hlog]
    exact ih (h.extend e.1 e.2)

theorem follows_ofList (es : List (κ × List String)) :
    (ofList es).Follows (ArtifactLog.ofEntries es) :=
  follows_empty.extendAll es

theorem Follows.toList {m : ArtifactMap κ} {log : ArtifactLog κ} (h : m.Follows log) :
    m.toList = ArtifactLog.items log := by
  rw [toList_eq, h.kinds, funext h.get]
  rfl

theorem Follows.union {m n : ArtifactMap κ} {log log' : ArtifactLog κ} (h : m.Follows log)
    (h' : n.Follows log') :
    (m.union n).Follows (log ++ ArtifactLog.ofEntries (ArtifactLog.items log')) := by
  rw [← h'.toList]
  exact h.extendAll n.toList

/-! ## Maps by name -/

namespace Statement

variable {ν : Type}

/-- The name of the map that is made or changed. -/
def into : Statement ν κ → ν
  | construct into _ => into
  | add into _ _ => into
  | extend into _ _ => into
  | union into _ _ => into
  | copy into _ => into

/-- The names of the maps that have to be there. -/
def uses : Statement ν κ → List ν
  | construct _ _ => []
  | add into _ _ => [into]
  | extend into _ _ => [into]
  | union _ left right => [left, right]
  | copy _ source => [source]

/-- Each name that is used has been given before. -/
def Scoped (statements : List (Statement ν κ)) : Prop :=
  ∀ before s after, statements = before ++ s :: after →
    ∀ name ∈ s.uses, ∃ s' ∈ before, s'.into = name

omit [DecidableEq κ] in
theorem scoped_concat {statements : List (Statement ν κ)} {st : Statement ν κ} :
    Scoped (statements ++ [st]) ↔
      Scoped statements ∧ ∀ name ∈ st.uses, ∃ st' ∈ statements, st'.into = name := by
  constructor
  · intro h
    refine ⟨fun before s after hs => h before s (after ++ [st]) (by simp [hs]), ?_⟩
    exact h statements st [] rfl
  · rintro ⟨hscoped, hst⟩ before s after hs
    rcases List.eq_nil_or_concat after with rfl | ⟨after, last, rfl⟩
    · obtain ⟨rfl, hlast⟩ := List.append_inj' hs rfl
      obtain rfl : st = s := List.head_eq_of_cons_eq hlast
      exact hst
    · rw [List.concat_eq_append, ← List.cons_append, ← List.append_assoc] at hs
      exact hscoped before s after (List.append_inj' hs rfl).1

/-- The log of the map that the statement makes or changes. -/
def logged (logs : ν → ArtifactLog κ) : Statement ν κ → ArtifactLog κ
  | construct _ entries => ArtifactLog.ofEntries entries
  | add into k p => logs into ++ ArtifactLog.ofEntry k [p]
  | extend into k ps => logs into ++ ArtifactLog.ofEntry k ps
  | union _ left right => logs left ++ ArtifactLog.ofEntries (ArtifactLog.items (logs right))
  | copy _ source => logs source

/-- The name stands for the same map as before, which is kept. -/
structure Stays (s s' : Scope ν κ) (name : ν) : Prop where
  names : s'.names name = s.names name
  keeps : ∀ m, s.names name = some m → Memory.Keeps s.memory s'.memory m

theorem stays_refl (s : Scope ν κ) (name : ν) : Stays s s name :=
  ⟨rfl, fun m _ => Memory.keeps_refl s.memory m⟩

theorem Stays.trans {s s' s'' : Scope ν κ} {name : ν} (h : Stays s s' name)
    (h' : Stays s' s'' name) : Stays s s'' name where
  names := h'.names.trans h.names
  keeps m hm := (h.keeps m hm).trans (h'.keeps m (h.names.trans hm))

/-- Names stand for maps that share nothing, and each of these holds what the log under the name
tells. -/
structure Sound (s : Scope ν κ) (logs : ν → ArtifactLog κ) : Prop where
  separate : s.memory.Separate
  bound : ∀ name m, s.names name = some m → m < s.memory.maps.size
  distinct : ∀ name name' m, s.names name = some m → s.names name' = some m → name = name'
  follows : ∀ name m, s.names name = some m →
    ∃ v, s.memory.Holds m v ∧ v.Follows (logs name)

theorem sound_empty : Sound (Scope.empty : Scope ν κ) fun _ => [] where
  separate := Memory.separate_empty
  bound _ _ hm := by cases hm
  distinct _ _ _ hm := by cases hm
  follows _ _ hm := by cases hm

variable [DecidableEq ν]

/-- The logs after statements. -/
def logs (statements : List (Statement ν κ)) : ν → ArtifactLog κ :=
  statements.foldl (fun logs s => Function.update logs s.into (s.logged logs)) fun _ => []

theorem logs_concat (statements : List (Statement ν κ)) (s : Statement ν κ) :
    logs (statements ++ [s]) =
      Function.update (logs statements) s.into (s.logged (logs statements)) :=
  List.foldl_append

theorem run_concat (statements : List (Statement ν κ)) (st : Statement ν κ) :
    run (statements ++ [st]) = (run statements).bind fun s => st.exec s := by
  rw [run, List.foldlM_append, ← run]
  cases run statements with
  | none => rfl
  | some s =>
    show [st].foldlM exec s = st.exec s
    rw [List.foldlM_cons]
    exact bind_pure _

/-! ### Steps -/

variable {s s' : Scope ν κ} {logs' : ν → ArtifactLog κ} {name : ν} {log : ArtifactLog κ}
  {h : Memory κ} {m : Nat} {v : ArtifactMap κ}

/-- A map is changed in place. -/
theorem Sound.becomes (hs : Sound s logs') (hm : s.names name = some m)
    (hv : Memory.Becomes s.memory h m v) (hlog : v.Follows log) :
    Sound ⟨h, s.names⟩ (Function.update logs' name log) ∧
      ∀ name', name' ≠ name → Stays s ⟨h, s.names⟩ name' := by
  have hother : ∀ name' m', name' ≠ name → s.names name' = some m' →
      Memory.Keeps s.memory h m' := by
    intro name' m' hne hm'
    refine hv.others m' ?_
    rintro rfl
    exact hne (hs.distinct name' name m' hm' hm)
  refine ⟨⟨hv.separate, fun name' m' hm' => ?_, hs.distinct, fun name' m' hm' => ?_⟩,
    fun name' hne => ⟨rfl, fun m' hm' => hother name' m' hne hm'⟩⟩
  · exact hv.size ▸ hs.bound name' m' hm'
  · by_cases hne : name' = name
    · subst hne
      obtain rfl : m = m' := Option.some.inj (hm.symm.trans hm')
      rw [Function.update_self]
      exact ⟨v, hv.holds, hlog⟩
    · obtain ⟨w, hw, hfollows⟩ := hs.follows name' m' hm'
      rw [Function.update_of_ne hne]
      exact ⟨w, (hother name' m' hne hm').holds hw, hfollows⟩

omit [DecidableEq κ] in
theorem names_bind_cases {made : Memory κ × Nat} {name' : ν} {m' : Nat}
    (hm' : (s.bind name made).names name' = some m') :
    (name' = name ∧ m' = made.2) ∨ (name' ≠ name ∧ s.names name' = some m') := by
  by_cases hne : name' = name
  · exact .inl ⟨hne, (Option.some.inj ((if_pos hne).symm.trans hm')).symm⟩
  · exact .inr ⟨hne, (if_neg hne).symm.trans hm'⟩

omit [DecidableEq ν] in
/-- A map that is made had no name before. -/
theorem Sound.unnamed (hs : Sound s logs') (hv : Memory.Makes s.memory h m v) (name : ν) :
    s.names name ≠ some m := by
  intro hm
  have hlt := hs.bound name m hm
  rw [hv.fresh] at hlt
  exact Nat.lt_irrefl _ hlt

/-- A new map gets the name. -/
theorem Sound.makes (hs : Sound s logs') (name : ν) (hv : Memory.Makes s.memory h m v)
    (hlog : v.Follows log) :
    Sound (s.bind name (h, m)) (Function.update logs' name log) ∧
      ∀ name', name' ≠ name → Stays s (s.bind name (h, m)) name' := by
  refine ⟨⟨hv.separate, fun name' m' hm' => ?_, fun name₁ name₂ m' h₁ h₂ => ?_,
    fun name' m' hm' => ?_⟩, fun name' hne => ⟨if_neg hne, fun m' hm' => ?_⟩⟩
  · obtain ⟨-, rfl⟩ | ⟨-, hm'⟩ := names_bind_cases hm'
    · exact hv.lt
    · exact hv.lt_of_lt (hs.bound name' m' hm')
  · obtain ⟨rfl, rfl⟩ | ⟨-, hold₁⟩ := names_bind_cases h₁
    · obtain ⟨rfl, -⟩ | ⟨-, hold₂⟩ := names_bind_cases h₂
      · rfl
      · exact absurd hold₂ (hs.unnamed hv name₂)
    · obtain ⟨-, rfl⟩ | ⟨-, hold₂⟩ := names_bind_cases h₂
      · exact absurd hold₁ (hs.unnamed hv name₁)
      · exact hs.distinct name₁ name₂ m' hold₁ hold₂
  · obtain ⟨rfl, rfl⟩ | ⟨hne, hm'⟩ := names_bind_cases hm'
    · rw [Function.update_self]
      exact ⟨v, hv.holds, hlog⟩
    · obtain ⟨w, hw, hfollows⟩ := hs.follows name' m' hm'
      rw [Function.update_of_ne hne]
      exact ⟨w, (hv.others m' (hs.bound name' m' hm')).holds hw, hfollows⟩
  · exact hv.others m' (hs.bound name' m' hm')

/-- What a statement makes or changes follows its log, and everything else stays. -/
theorem exec_spec (hs : Sound s logs') {st : Statement ν κ} (hrun : st.exec s = some s') :
    Sound s' (Function.update logs' st.into (st.logged logs')) ∧
      ∀ name, name ≠ st.into → Stays s s' name := by
  cases st with
  | construct into entries =>
    obtain rfl := Option.some.inj hrun
    exact hs.makes into (Memory.makes_construct hs.separate entries) (follows_ofList entries)
  | add into k p =>
    obtain ⟨m, hm, hrun⟩ := Option.bind_eq_some_iff.mp hrun
    obtain rfl := Option.some.inj hrun
    obtain ⟨v, hv, hfollows⟩ := hs.follows into m hm
    exact hs.becomes hm (Memory.becomes_add hs.separate (hs.bound into m hm) hv k p)
      (hfollows.extend k [p])
  | extend into k ps =>
    obtain ⟨m, hm, hrun⟩ := Option.bind_eq_some_iff.mp hrun
    obtain rfl := Option.some.inj hrun
    obtain ⟨v, hv, hfollows⟩ := hs.follows into m hm
    exact hs.becomes hm (Memory.becomes_extend hs.separate (hs.bound into m hm) hv k ps)
      (hfollows.extend k ps)
  | union into left right =>
    obtain ⟨l, hl, hrun⟩ := Option.bind_eq_some_iff.mp hrun
    obtain ⟨r, hr, hrun⟩ := Option.bind_eq_some_iff.mp hrun
    obtain rfl := Option.some.inj hrun
    obtain ⟨v, hv, hfollows⟩ := hs.follows left l hl
    obtain ⟨w, hw, hfollows'⟩ := hs.follows right r hr
    exact hs.makes into (Memory.makes_union hs.separate (hs.bound left l hl)
      (hs.bound right r hr) hv hw) (hfollows.union hfollows')
  | copy into source =>
    obtain ⟨m, hm, hrun⟩ := Option.bind_eq_some_iff.mp hrun
    obtain rfl := Option.some.inj hrun
    obtain ⟨v, hv, hfollows⟩ := hs.follows source m hm
    exact hs.makes into (Memory.makes_copy hs.separate (hs.bound source m hm) hv) hfollows

/-! ### Runs -/

theorem sound_run {statements : List (Statement ν κ)} (hrun : run statements = some s) :
    Sound s (logs statements) := by
  induction statements using List.reverseRecOn generalizing s with
  | nil =>
    obtain rfl := Option.some.inj hrun
    exact sound_empty
  | append_singleton statements st ih =>
    rw [run_concat] at hrun
    obtain ⟨s₀, hs₀, hexec⟩ := Option.bind_eq_some_iff.mp hrun
    rw [logs_concat]
    exact (exec_spec (ih hs₀) hexec).1

/-- A map stays as it is while other names are worked on. -/
theorem stays_run {statements later : List (Statement ν κ)} (hrun : run statements = some s)
    (hrun' : run (statements ++ later) = some s') (hlater : ∀ st ∈ later, st.into ≠ name) :
    Stays s s' name := by
  induction later using List.reverseRecOn generalizing s' with
  | nil =>
    rw [List.append_nil, hrun] at hrun'
    obtain rfl := Option.some.inj hrun'
    exact stays_refl s name
  | append_singleton later st ih =>
    rw [← List.append_assoc, run_concat] at hrun'
    obtain ⟨s₀, hs₀, hexec⟩ := Option.bind_eq_some_iff.mp hrun'
    have hbefore := ih hs₀ fun st' hst' => hlater st' (List.mem_append_left [st] hst')
    have hne : name ≠ st.into := fun e => hlater st (by simp) e.symm
    exact hbefore.trans ((exec_spec (sound_run hs₀) hexec).2 name hne)

/-- A statement can be executed exactly if the names that it uses stand for maps. -/
theorem isSome_exec (st : Statement ν κ) (s : Scope ν κ) :
    (st.exec s).isSome = true ↔ ∀ name ∈ st.uses, (s.names name).isSome = true := by
  cases st with
  | construct into entries => simp [exec, uses]
  | add into k p => cases h : s.names into <;> simp [exec, uses, h]
  | extend into k ps => cases h : s.names into <;> simp [exec, uses, h]
  | union into left right =>
    cases h : s.names left <;> cases h' : s.names right <;> simp [exec, uses, h, h']
  | copy into source => cases h : s.names source <;> simp [exec, uses, h]

/-- What a statement works on has its name. -/
theorem isSome_names_into {st : Statement ν κ} (hrun : st.exec s = some s') :
    (s'.names st.into).isSome = true := by
  have hbind : ∀ name made, ((s.bind name made).names name).isSome = true := fun name made => by
    rw [show (s.bind name made).names name = some made.2 from if_pos rfl, Option.isSome_some]
  cases st with
  | construct into entries =>
    obtain rfl := Option.some.inj hrun
    exact hbind into _
  | add into k p =>
    obtain ⟨m, hm, hrun⟩ := Option.bind_eq_some_iff.mp hrun
    obtain rfl := Option.some.inj hrun
    exact Option.isSome_of_eq_some hm
  | extend into k ps =>
    obtain ⟨m, hm, hrun⟩ := Option.bind_eq_some_iff.mp hrun
    obtain rfl := Option.some.inj hrun
    exact Option.isSome_of_eq_some hm
  | union into left right =>
    obtain ⟨l, -, hrun⟩ := Option.bind_eq_some_iff.mp hrun
    obtain ⟨r, -, hrun⟩ := Option.bind_eq_some_iff.mp hrun
    obtain rfl := Option.some.inj hrun
    exact hbind into _
  | copy into source =>
    obtain ⟨m, -, hrun⟩ := Option.bind_eq_some_iff.mp hrun
    obtain rfl := Option.some.inj hrun
    exact hbind into _

/-- After a run exactly the names that have been given stand for maps. -/
theorem isSome_names {statements : List (Statement ν κ)} (hrun : run statements = some s)
    (name : ν) : (s.names name).isSome = true ↔ ∃ st ∈ statements, st.into = name := by
  induction statements using List.reverseRecOn generalizing s with
  | nil =>
    obtain rfl := Option.some.inj hrun
    simp [Scope.empty]
  | append_singleton statements st ih =>
    rw [run_concat] at hrun
    obtain ⟨s₀, hs₀, hexec⟩ := Option.bind_eq_some_iff.mp hrun
    by_cases hne : name = st.into
    · subst hne
      exact iff_of_true (isSome_names_into hexec) ⟨st, by simp, rfl⟩
    · have hstays := (exec_spec (sound_run hs₀) hexec).2 name hne
      rw [hstays.names, ih hs₀]
      simp [Ne.symm hne]

/-- Statements can be run exactly if each name that is used has been given before. -/
theorem isSome_run (statements : List (Statement ν κ)) :
    (run statements).isSome = true ↔ Scoped statements := by
  induction statements using List.reverseRecOn with
  | nil => exact iff_of_true rfl fun before s after hs => by simp at hs
  | append_singleton statements st ih =>
    rw [run_concat, scoped_concat, ← ih]
    cases hrun : run statements with
    | none => simp
    | some s =>
      rw [Option.bind_some, isSome_exec]
      simp only [isSome_names hrun, Option.isSome_some, true_and]

/-! ### All that is known of a run -/

/-- **Maps are what their logs tell.**  Statements can be run if each name that is used has been
given before.  Then each map has the kinds of its log in the order of first mention, under each kind
the paths of the log in the order in which they were first seen, and the first of these as its
first path.  A map stays as it is until its own name is worked on again, whatever becomes of the
maps that were made of it.  Unions may be bracketed in any way, and a second union with the same
map changes nothing. -/
theorem maps_follow_logs (statements : List (Statement ν κ)) :
    ((run statements).isSome = true ↔ Scoped statements) ∧
    (∀ s, run statements = some s →
      (∀ name m, s.names name = some m →
        s.memory.kinds m = ArtifactLog.kinds (logs statements name) ∧
        (∀ k, s.memory.get m k = ArtifactLog.paths (logs statements name) k ∧
          s.memory.first? m k = (ArtifactLog.paths (logs statements name) k).head?) ∧
        s.memory.items m = ArtifactLog.items (logs statements name)) ∧
      ∀ later s' name m, run (statements ++ later) = some s' →
        (∀ st ∈ later, st.into ≠ name) → s.names name = some m →
          s'.names name = some m ∧ s'.memory.items m = s.memory.items m) ∧
    ∀ s, run statements = some s → ∀ a b c l m n, s.names a = some l → s.names b = some m →
      s.names c = some n →
        let first := s.memory.union l m
        let last := s.memory.union m n
        (first.1.union first.2 n).1.items (first.1.union first.2 n).2 =
            (last.1.union l last.2).1.items (last.1.union l last.2).2 ∧
          (first.1.union first.2 m).1.items (first.1.union first.2 m).2 =
            first.1.items first.2 := by
  refine ⟨isSome_run statements, fun s hrun => ⟨fun name m hm => ?_, ?_⟩, ?_⟩
  · obtain ⟨v, hv, hfollows⟩ := (sound_run hrun).follows name m hm
    refine ⟨hv.kinds.trans hfollows.kinds, fun k => ⟨(hv.get k).trans (hfollows.get k), ?_⟩,
      hv.items.trans hfollows.toList⟩
    rw [Memory.first?, hv.get, hfollows.get]
  · intro later s' name m hrun' hlater hm
    have hstays := stays_run hrun hrun' hlater
    obtain ⟨v, hv, -⟩ := (sound_run hrun).follows name m hm
    have hkept := (hstays.keeps m hm).holds hv
    exact ⟨hstays.names.trans hm, hkept.items.trans hv.items.symm⟩
  · intro s hrun a b c l m n ha hb hc
    have hsound := sound_run hrun
    obtain ⟨u, hu, -⟩ := hsound.follows a l ha
    obtain ⟨v, hv, -⟩ := hsound.follows b m hb
    obtain ⟨w, hw, -⟩ := hsound.follows c n hc
    have hl := hsound.bound a l ha
    have hm := hsound.bound b m hb
    exact ⟨Memory.items_union_assoc hsound.separate hl hm (hsound.bound c n hc) hu hv hw,
      Memory.items_union_again hsound.separate hl hm hu hv⟩

/-- A union of two maps is copied, and then both the union and the copy are added to; the second
operand mentions a kind without a path. -/
theorem maps_follow_logs_of_changed_copy :
    let statements : List (Statement String SourceArtifact) := [
      construct "a" [(.sourceCode, ["x", "x", "y"])],
      construct "b" [(.compose, []), (.sourceCode, ["z", "y"])],
      union "both" "a" "b", copy "again" "both"]
    let later : List (Statement String SourceArtifact) := [
      add "again" .dockerfile "d", extend "both" .sourceCode ["w", "x"]]
    (∀ st ∈ later, st.into ≠ "a" ∧ st.into ≠ "b") ∧
      ∃ s s', run statements = some s ∧ run (statements ++ later) = some s' ∧
        ∃ a both again, s.names "a" = some a ∧ s'.names "a" = some a ∧
          s'.memory.items a = s.memory.items a ∧
          s'.names "both" = some both ∧
          s'.memory.items both = [(.sourceCode, ["x", "y", "z", "w"]), (.compose, [])] ∧
          s'.names "again" = some again ∧
          s'.memory.items again =
            [(.sourceCode, ["x", "y", "z"]), (.compose, []), (.dockerfile, ["d"])] := by
  intro statements later
  have hlater : ∀ st ∈ later, st.into ≠ "a" ∧ st.into ≠ "b" := by decide
  have hs : run statements = some _ := rfl
  have hs' : run (statements ++ later) = some _ := rfl
  obtain ⟨-, hruns, -⟩ := maps_follow_logs statements
  obtain ⟨-, hruns', -⟩ := maps_follow_logs (statements ++ later)
  obtain ⟨hname, hitems⟩ :=
    (hruns _ hs).2 later _ "a" 0 hs' (fun st hst => (hlater st hst).1) rfl
  obtain ⟨hlogged, -⟩ := hruns' _ hs'
  refine ⟨hlater, _, _, hs, hs', 0, 2, 3, rfl, hname, hitems, rfl, ?_, rfl, ?_⟩
  · rw [(hlogged "both" 2 rfl).2.2]
    decide
  · rw [(hlogged "again" 3 rfl).2.2]
    decide

end Statement
end ArtifactMap
end Replatform
