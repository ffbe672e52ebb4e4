import Replatform.ArtifactMap
import Replatform.Proofs.Discovery
import Replatform.Proofs.OrderedMap

/-! # Laws of artifact maps

A union of artifact maps is, kind by kind, the union of the paths, and it mentions the kinds
of both.  So it is associative, it continues the first map, and it is the first map if the second
mentions nothing new.  The map of a list of entries has no repeated paths, and otherwise what is
in the list.
-/
namespace Replatform
namespace ArtifactMap

variable {κ : Type} [DecidableEq κ]

/-- The kinds of the new entries come behind those that are mentioned already. -/
theorem kinds_extendAll (m : ArtifactMap κ) (es : List (κ × List String)) :
    (m.extendAll es).kinds = Discovery.union m.kinds (es.map Prod.fst) := by
  induction es generalizing m with
  | nil => rfl
  | cons e rest ih =>
    have hstep : m.extendAll (e :: rest) = (m.extend e.1 e.2).extendAll rest := rfl
    rw [hstep, ih, kinds_extend, List.map_cons, Discovery.union_cons]

theorem get_extendAll {es : List (κ × List String)} (hes : (es.map Prod.fst).Nodup)
    (m : ArtifactMap κ) (l : κ) :
    (m.extendAll es).get l = Discovery.union (m.get l) ((OrderedMap.find? l es).getD []) := by
  induction es generalizing m with
  | nil => rfl
  | cons e rest ih =>
    obtain ⟨k, ps⟩ := e
    obtain ⟨hk, hrest⟩ := List.nodup_cons.mp hes
    have hstep : m.extendAll ((k, ps) :: rest) = (m.extend k ps).extendAll rest := rfl
    rw [hstep, ih hrest]
    by_cases hkl : k = l
    · subst hkl
      rw [get_extend_self, OrderedMap.find?_eq_none.mpr hk, OrderedMap.find?, if_pos rfl]
      rfl
    · rw [get_extend_ne m ps hkl, OrderedMap.find?, if_neg hkl]

theorem kinds_union (m n : ArtifactMap κ) :
    (m.union n).kinds = Discovery.union m.kinds n.kinds :=
  kinds_extendAll m n.toList

theorem mem_kinds_union {m n : ArtifactMap κ} {k : κ} :
    k ∈ (m.union n).kinds ↔ k ∈ m.kinds ∨ k ∈ n.kinds := by
  rw [kinds_union, Discovery.mem_union]

/-- The paths of a kind in a union are the united paths of that kind. -/
theorem get_union (m n : ArtifactMap κ) (k : κ) :
    (m.union n).get k = Discovery.union (m.get k) (n.get k) :=
  get_extendAll n.paths.keys_nodup m k

theorem mem_get_union {m n : ArtifactMap κ} {k : κ} {p : String} :
    p ∈ (m.union n).get k ↔ p ∈ m.get k ∨ p ∈ n.get k := by
  rw [get_union, Discovery.mem_union]

/-- The first path of a kind in a union is that of the first map that has one. -/
theorem first?_union (m n : ArtifactMap κ) (k : κ) :
    (m.union n).first? k = (m.first? k).or (n.first? k) := by
  unfold first?
  rw [get_union, Discovery.head?_union]

theorem entries_extendAll {m : ArtifactMap κ} {es : List (κ × List String)}
    (h : ((m.paths.entries ++ es).map Prod.fst).Nodup) :
    (m.extendAll es).paths.entries =
      m.paths.entries ++ es.map fun e => (e.1, Discovery.distinct e.2) := by
  induction es generalizing m with
  | nil => exact (List.append_nil _).symm
  | cons e rest ih =>
    have hnew : e.1 ∉ m.paths.entries.map Prod.fst := by
      intro hmem
      rw [List.map_append, List.nodup_append] at h
      exact h.2.2 e.1 hmem e.1 (by simp) rfl
    have hstep : m.extendAll (e :: rest) = (m.extend e.1 e.2).extendAll rest := rfl
    have hext : (m.extend e.1 e.2).paths.entries =
        m.paths.entries ++ [(e.1, Discovery.distinct e.2)] :=
      OrderedMap.alterEntries_of_notMem hnew _
    have hnodup : (((m.extend e.1 e.2).paths.entries ++ rest).map Prod.fst).Nodup := by
      rw [hext]
      simpa using h
    rw [hstep, ih hnodup, hext, List.append_assoc, List.map_cons, List.singleton_append]

/-- The map of entries without repeated kinds has the entries without repeated paths. -/
theorem entries_ofList {es : List (κ × List String)} (h : (es.map Prod.fst).Nodup) :
    (ofList es).paths.entries = es.map fun e => (e.1, Discovery.distinct e.2) :=
  entries_extendAll (m := empty) h

/-- The entries of a map are its kinds with their paths. -/
theorem toList_eq (m : ArtifactMap κ) : m.toList = m.kinds.map fun k => (k, m.get k) := by
  rw [kinds, OrderedMap.keys, List.map_map]
  refine (List.map_id m.toList).symm.trans (List.map_congr_left fun e he => ?_)
  show e = (e.1, m.get e.1)
  rw [get, OrderedMap.get?, OrderedMap.find?_of_mem m.paths.keys_nodup he, Option.getD_some]

/-- The entries of a map make the same map again. -/
theorem ofList_toList (m : ArtifactMap κ) : ofList m.toList = m := by
  refine ArtifactMap.ext (OrderedMap.ext ((entries_ofList m.paths.keys_nodup).trans ?_))
  refine (List.map_congr_left fun e he => ?_).trans (List.map_id m.toList)
  rw [Discovery.distinct_of_nodup (m.nodup_paths e he)]
  rfl

/-! ### Unions of unions -/

theorem get_eq_nil {m : ArtifactMap κ} {k : κ} (h : k ∉ m.kinds) : m.get k = [] := by
  rw [get, OrderedMap.get?_eq_none.mpr h]
  rfl

/-- Maps with the same kinds in the same order and the same paths are equal. -/
theorem ext_get {m n : ArtifactMap κ} (hkinds : m.kinds = n.kinds)
    (hget : ∀ k, m.get k = n.get k) : m = n := by
  refine ArtifactMap.ext (OrderedMap.ext_get? hkinds fun k hk => ?_)
  have hsome : ∀ m' : ArtifactMap κ, k ∈ m'.kinds → m'.paths.get? k = some (m'.get k) := by
    intro m' hmem
    cases hp : m'.paths.get? k with
    | none => exact absurd hmem (OrderedMap.get?_eq_none.mp hp)
    | some ps => rw [get, hp, Option.getD_some]
  rw [hsome m hk, hsome n (hkinds ▸ hk), hget]

/-- What is mentioned already may be added again in vain. -/
theorem extend_of_mentioned {m : ArtifactMap κ} {k : κ} {ps : List String} (hk : k ∈ m.kinds)
    (hps : ∀ p ∈ ps, p ∈ m.get k) : m.extend k ps = m := by
  refine ext_get ?_ fun l => ?_
  · rw [kinds_extend, Discovery.add_of_mem hk]
  · by_cases hkl : k = l
    · subst hkl
      rw [get_extend_self, Discovery.union_of_subset hps]
    · rw [get_extend_ne m ps hkl]

theorem extend_extend (m : ArtifactMap κ) (k : κ) (ps qs : List String) :
    (m.extend k ps).extend k qs = m.extend k (ps ++ qs) := by
  refine ext_get ?_ fun l => ?_
  · rw [kinds_extend, kinds_extend, kinds_extend]
    exact Discovery.add_of_mem (Discovery.mem_add.mpr (Or.inr rfl))
  · by_cases hkl : k = l
    · rw [hkl, get_extend_self, get_extend_self, get_extend_self, Discovery.union_append]
    · rw [get_extend_ne _ qs hkl, get_extend_ne m ps hkl, get_extend_ne m (ps ++ qs) hkl]

theorem union_assoc (l m n : ArtifactMap κ) : (l.union m).union n = l.union (m.union n) := by
  refine ext_get ?_ fun k => ?_
  · rw [kinds_union, kinds_union, kinds_union, kinds_union, Discovery.union_assoc]
  · rw [get_union, get_union, get_union, get_union, Discovery.union_assoc]

/-- A union with a map that mentions nothing new changes nothing. -/
theorem union_of_mentioned {m n : ArtifactMap κ} (hkinds : ∀ k ∈ n.kinds, k ∈ m.kinds)
    (hget : ∀ k, ∀ p ∈ n.get k, p ∈ m.get k) : m.union n = m := by
  refine ext_get ?_ fun k => ?_
  · rw [kinds_union, Discovery.union_of_subset hkinds]
  · rw [get_union, Discovery.union_of_subset (hget k)]

/-- The second map continues the first: the kinds begin with those of the first, and so do the
paths of each kind. -/
structure Grown (m m' : ArtifactMap κ) : Prop where
  kinds : m.kinds <+: m'.kinds
  get : ∀ k, m.get k <+: m'.get k

theorem grown_refl (m : ArtifactMap κ) : m.Grown m :=
  ⟨List.prefix_refl _, fun _ => List.prefix_refl _⟩

theorem Grown.trans {m m' m'' : ArtifactMap κ} (h : m.Grown m') (h' : m'.Grown m'') :
    m.Grown m'' :=
  ⟨h.kinds.trans h'.kinds, fun k => (h.get k).trans (h'.get k)⟩

theorem grown_union (m n : ArtifactMap κ) : m.Grown (m.union n) where
  kinds := kinds_union m n ▸ Discovery.isPrefix_union m.kinds n.kinds
  get k := get_union m n k ▸ Discovery.isPrefix_union (m.get k) (n.get k)

/-! ### The map of several maps -/

/-- What several maps mention together: the kinds, and the paths of each kind, map after map,
without later repeats. -/
def gather (ms : List (ArtifactMap κ)) : ArtifactMap κ where
  paths :=
    { entries := (Discovery.distinct (ms.flatMap kinds)).map fun k =>
        (k, Discovery.distinct (ms.flatMap (·.get k)))
      keys_nodup := by
        rw [List.map_map]
        exact (List.map_id _).symm ▸ Discovery.nodup_distinct _ }
  nodup_paths e he := by
    obtain ⟨k, -, rfl⟩ := List.mem_map.mp he
    exact Discovery.nodup_distinct _

theorem kinds_gather (ms : List (ArtifactMap κ)) :
    (gather ms).kinds = Discovery.distinct (ms.flatMap kinds) :=
  (List.map_map).trans (List.map_id _)

theorem get_gather (ms : List (ArtifactMap κ)) (k : κ) :
    (gather ms).get k = Discovery.distinct (ms.flatMap (·.get k)) := by
  by_cases hk : k ∈ Discovery.distinct (ms.flatMap kinds)
  · have hmem : (k, Discovery.distinct (ms.flatMap (·.get k))) ∈ (gather ms).paths.entries :=
      List.mem_map_of_mem hk
    rw [get, OrderedMap.get?, OrderedMap.find?_of_mem (gather ms).paths.keys_nodup hmem,
      Option.getD_some]
  · rw [get_eq_nil (by rwa [kinds_gather])]
    -- a kind that no map mentions has no paths in any of them
    have hnone : ms.flatMap (·.get k) = [] := by
      refine List.flatMap_eq_nil_iff.mpr fun m hm => get_eq_nil fun hmem => hk ?_
      exact Discovery.mem_distinct.mpr (List.mem_flatMap.mpr ⟨m, hm, hmem⟩)
    rw [hnone]
    rfl

/-- One map more is a union. -/
theorem union_gather (ms : List (ArtifactMap κ)) (m : ArtifactMap κ) :
    (gather ms).union m = gather (ms ++ [m]) := by
  refine ext_get ?_ fun k => ?_
  · rw [kinds_union, kinds_gather, kinds_gather, Discovery.union_distinct, List.flatMap_append,
      List.flatMap_singleton]
  · rw [get_union, get_gather, get_gather, Discovery.union_distinct, List.flatMap_append,
      List.flatMap_singleton]

theorem nodup_get (m : ArtifactMap κ) (k : κ) : (m.get k).Nodup := by
  by_cases hk : k ∈ m.kinds
  · obtain ⟨⟨k', ps⟩, he, rfl⟩ := List.mem_map.mp hk
    rw [get, OrderedMap.get?, OrderedMap.find?_of_mem m.paths.keys_nodup he, Option.getD_some]
    exact m.nodup_paths _ he
  · rw [get_eq_nil hk]
    exact List.nodup_nil

theorem gather_singleton (m : ArtifactMap κ) : gather [m] = m := by
  refine ext_get ?_ fun k => ?_
  · have hkinds : m.kinds.Nodup := m.paths.keys_nodup
    rw [kinds_gather, List.flatMap_singleton, Discovery.distinct_of_nodup hkinds]
  · rw [get_gather, List.flatMap_singleton, Discovery.distinct_of_nodup (m.nodup_get k)]

theorem first?_gather (ms : List (ArtifactMap κ)) (k : κ) :
    (gather ms).first? k = ms.findSome? (·.first? k) := by
  rw [first?, get_gather, Discovery.head?_distinct, List.head?_flatMap]
  rfl

end ArtifactMap
end Replatform
