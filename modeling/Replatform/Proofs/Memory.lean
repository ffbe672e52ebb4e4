import Replatform.Memory
import Replatform.Proofs.ArtifactMap

/-! # Artifact maps that share nothing

No list in memory is referred to twice (`Memory.Separate`).  So a path that is appended to a list
of one map is in no other map, and a map in memory **holds** an artifact map in the plain sense,
which changes exactly when something is added to it.  A map that is made is a new one, with lists
of its own; those that were there before are kept.
-/
namespace Replatform
namespace Memory

variable {κ : Type} {h h' h'' : Memory κ} {m m' : Nat}

/-! ## Cells -/

theorem map_setIfInBounds_self (hm : m < h.maps.size) (lists : Array (List String))
    (x : OrderedMap κ Nat) : (⟨lists, h.maps.setIfInBounds m x⟩ : Memory κ).map m = x := by
  rw [map, Array.getElem?_setIfInBounds, if_pos rfl, if_pos hm, Option.getD_some]

theorem map_setIfInBounds_ne (hne : m' ≠ m) (lists : Array (List String)) (x : OrderedMap κ Nat) :
    (⟨lists, h.maps.setIfInBounds m x⟩ : Memory κ).map m' = h.map m' := by
  rw [map, Array.getElem?_setIfInBounds, if_neg hne.symm]
  rfl

theorem map_of_size_le (hm : h.maps.size ≤ m) : h.map m = .empty := by
  rw [map, Array.getElem?_eq_none hm]
  rfl

theorem list_of_size_le {l : Nat} (hl : h.lists.size ≤ l) : h.list l = [] := by
  rw [list, Array.getElem?_eq_none hl]
  rfl

theorem list_push (h : Memory κ) (maps : Array (OrderedMap κ Nat)) (l : Nat) :
    (⟨h.lists.push [], maps⟩ : Memory κ).list l = h.list l := by
  rw [list, Array.getElem?_push]
  split
  · rename_i hl
    rw [list_of_size_le (Nat.le_of_eq hl.symm)]
    rfl
  · rfl

theorem map_make (h : Memory κ) (m : Nat) : h.make.1.map m = h.map m := by
  rw [map, make, Array.getElem?_push]
  split
  · rename_i hm
    rw [map_of_size_le (Nat.le_of_eq hm.symm)]
    rfl
  · rfl

theorem list_append_self {l : Nat} (hl : l < h.lists.size) (p : String) :
    (h.append l p).list l = h.list l ++ [p] := by
  rw [list, append, Array.getElem?_setIfInBounds, if_pos rfl, if_pos hl, Option.getD_some]

theorem list_append_ne {l l' : Nat} (hne : l' ≠ l) (p : String) :
    (h.append l p).list l' = h.list l' := by
  rw [list, append, Array.getElem?_setIfInBounds, if_neg hne.symm]
  rfl

variable [DecidableEq κ]

theorem get_of_some {k : κ} {l : Nat} (hl : (h.map m).get? k = some l) : h.get m k = h.list l := by
  rw [get, hl]

theorem get_of_none {k : κ} (hk : (h.map m).get? k = none) : h.get m k = [] := by
  rw [get, hk]

theorem mem_kinds_of_some {k : κ} {l : Nat} (hl : (h.map m).get? k = some l) : k ∈ h.kinds m := by
  refine Classical.byContradiction fun hnot => ?_
  rw [OrderedMap.get?_eq_none.mpr hnot] at hl
  cases hl

theorem items_eq (h : Memory κ) (m : Nat) : h.items m = (h.kinds m).map fun k => (k, h.get m k) := by
  rw [items, kinds, OrderedMap.keys, List.map_map]
  refine List.map_congr_left fun e he => ?_
  have hl : (h.map m).get? e.1 = some e.2 := OrderedMap.find?_of_mem (h.map m).keys_nodup he
  exact congrArg (Prod.mk e.1) (get_of_some hl).symm

/-! ## What a map holds -/

/-- Each list is referred to once: by one map, under one kind. -/
structure Separate (h : Memory κ) : Prop where
  bound : ∀ m k l, (h.map m).get? k = some l → l < h.lists.size
  apart : ∀ m k l m' k', (h.map m).get? k = some l → (h.map m').get? k' = some l →
    m = m' ∧ k = k'

theorem separate_empty : (empty : Memory κ).Separate :=
  ⟨fun m k l hl => (by cases hl), fun m k l m' k' hl => (by cases hl)⟩

/-- The map in memory has the kinds and the paths of the artifact map. -/
structure Holds (h : Memory κ) (m : Nat) (v : ArtifactMap κ) : Prop where
  kinds : h.kinds m = v.kinds
  get : ∀ k, h.get m k = v.get k

/-- The map refers to the same lists as before, and they are as they were. -/
structure Keeps (h h' : Memory κ) (m : Nat) : Prop where
  map : h'.map m = h.map m
  list : ∀ k l, (h.map m).get? k = some l → h'.list l = h.list l

variable {v w : ArtifactMap κ}

theorem Holds.items (hv : h.Holds m v) : h.items m = v.toList := by
  rw [items_eq, hv.kinds, funext hv.get, ArtifactMap.toList_eq]

theorem holds_of_size_le (hm : h.maps.size ≤ m) : h.Holds m .empty := by
  have hmap := map_of_size_le hm
  refine ⟨?_, fun k => get_of_none ?_⟩
  · rw [kinds, hmap]
    rfl
  · rw [hmap]
    rfl

theorem keeps_refl (h : Memory κ) (m : Nat) : Keeps h h m := ⟨rfl, fun _ _ _ => rfl⟩

theorem Keeps.trans (hk : Keeps h h' m) (hk' : Keeps h' h'' m) : Keeps h h'' m where
  map := hk'.map.trans hk.map
  list k l hl := (hk'.list k l (hk.map ▸ hl)).trans (hk.list k l hl)

theorem Keeps.get_eq (hk : Keeps h h' m) (k : κ) : h'.get m k = h.get m k := by
  cases hl : (h.map m).get? k with
  | none => rw [get_of_none hl, get_of_none (hk.map ▸ hl)]
  | some l => rw [get_of_some hl, get_of_some (hk.map ▸ hl), hk.list k l hl]

theorem Keeps.holds (hk : Keeps h h' m) (hv : h.Holds m v) : h'.Holds m v where
  kinds := by
    unfold Memory.kinds
    rw [hk.map]
    exact hv.kinds
  get k := (hk.get_eq k).trans (hv.get k)

/-! ## Changes -/

/-- Only the map `m` is another one now: it holds `v`. -/
structure Becomes (h h' : Memory κ) (m : Nat) (v : ArtifactMap κ) : Prop where
  separate : h'.Separate
  size : h'.maps.size = h.maps.size
  holds : h'.Holds m v
  others : ∀ m', m' ≠ m → Keeps h h' m'

theorem Becomes.trans (hv : Becomes h h' m v) (hw : Becomes h' h'' m w) : Becomes h h'' m w where
  separate := hw.separate
  size := hw.size.trans hv.size
  holds := hw.holds
  others m' hne := (hv.others m' hne).trans (hw.others m' hne)

theorem becomes_refl (hs : h.Separate) (hv : h.Holds m v) : Becomes h h m v :=
  ⟨hs, rfl, hv, fun m' _ => keeps_refl h m'⟩

/-- The memory in which the map has a list of its own under a kind, without a path. -/
def withList (h : Memory κ) (m : Nat) (k : κ) : Memory κ :=
  ⟨h.lists.push [], h.maps.setIfInBounds m ((h.map m).insert k h.lists.size)⟩

theorem list_withList (h : Memory κ) (m : Nat) (k : κ) (l : Nat) :
    (h.withList m k).list l = h.list l := list_push h _ l

theorem get?_withList_self (hm : m < h.maps.size) (k : κ) :
    ((h.withList m k).map m).get? k = some h.lists.size := by
  rw [withList, map_setIfInBounds_self hm]
  exact OrderedMap.get?_alter_self ..

theorem get?_withList_ne (hm : m < h.maps.size) {k k' : κ} (hkk : k ≠ k') :
    ((h.withList m k).map m).get? k' = (h.map m).get? k' := by
  rw [withList, map_setIfInBounds_self hm]
  exact OrderedMap.get?_alter_ne _ _ hkk

/-- A list under a kind is the new one, or it was there under the same kind of the same map. -/
theorem get?_withList_cases (hm : m < h.maps.size) {k k' : κ} {m' l : Nat}
    (hl : ((h.withList m k).map m').get? k' = some l) :
    (m' = m ∧ k' = k ∧ l = h.lists.size) ∨ (h.map m').get? k' = some l := by
  by_cases hne : m' = m
  · subst hne
    by_cases hkk : k = k'
    · subst hkk
      exact .inl ⟨rfl, rfl, Option.some.inj (hl.symm.trans (get?_withList_self hm k))⟩
    · exact .inr ((get?_withList_ne hm hkk).symm.trans hl)
  · rw [withList, map_setIfInBounds_ne hne] at hl
    exact .inr hl

theorem Separate.withList (hs : h.Separate) (hm : m < h.maps.size) (k : κ) :
    (h.withList m k).Separate := by
  have hsize : (h.withList m k).lists.size = h.lists.size + 1 := Array.size_push _
  constructor
  · intro m' k' l hl
    obtain ⟨-, -, rfl⟩ | hl := get?_withList_cases hm hl
    · omega
    · exact Nat.lt_of_lt_of_le (hs.bound m' k' l hl) (by omega)
  · intro m₁ k₁ l m₂ k₂ h₁ h₂
    obtain ⟨rfl, rfl, hl₁⟩ | h₁ := get?_withList_cases hm h₁
    · obtain ⟨rfl, rfl, -⟩ | h₂ := get?_withList_cases hm h₂
      · exact ⟨rfl, rfl⟩
      · exact absurd (hs.bound m₂ k₂ l h₂) (by omega)
    · obtain ⟨-, -, hl₂⟩ | h₂ := get?_withList_cases hm h₂
      · exact absurd (hs.bound m₁ k₁ l h₁) (by omega)
      · exact hs.apart m₁ k₁ l m₂ k₂ h₁ h₂

theorem Holds.withList (hv : h.Holds m v) (hm : m < h.maps.size) {k : κ}
    (hk : (h.map m).get? k = none) : (h.withList m k).Holds m (v.extend k []) := by
  constructor
  · have hnot : k ∉ (h.map m).keys := OrderedMap.get?_eq_none.mp hk
    rw [ArtifactMap.kinds_extend, ← hv.kinds, Memory.kinds, Memory.withList,
      map_setIfInBounds_self hm, Memory.kinds, Discovery.add_of_notMem hnot]
    exact (OrderedMap.keys_alter ..).trans (if_neg hnot)
  · intro k'
    by_cases hkk : k = k'
    · subst hkk
      rw [get_of_some (get?_withList_self hm k), list_withList, list_of_size_le (Nat.le_refl _),
        ArtifactMap.get_extend_self, ← hv.get, get_of_none hk, Discovery.union_nil]
    · rw [ArtifactMap.get_extend_ne v [] hkk, ← hv.get k']
      cases hl : (h.map m).get? k' with
      | none => rw [get_of_none hl, get_of_none ((get?_withList_ne hm hkk).trans hl)]
      | some l =>
        rw [get_of_some hl, get_of_some ((get?_withList_ne hm hkk).trans hl), list_withList]

/-- The list of a new kind is a new one. -/
theorem becomes_withList (hs : h.Separate) (hm : m < h.maps.size) (hv : h.Holds m v) {k : κ}
    (hk : (h.map m).get? k = none) : Becomes h (h.withList m k) m (v.extend k []) where
  separate := hs.withList hm k
  size := Array.size_setIfInBounds
  holds := hv.withList hm hk
  others _ hne := ⟨map_setIfInBounds_ne hne .., fun _ l _ => list_withList h m k l⟩

theorem setDefault_spec (hs : h.Separate) (hm : m < h.maps.size) (hv : h.Holds m v) (k : κ) :
    Becomes h (h.setDefault m k).1 m (v.extend k []) ∧
      ((h.setDefault m k).1.map m).get? k = some (h.setDefault m k).2 := by
  unfold setDefault
  split
  · rename_i l hl
    rw [ArtifactMap.extend_of_mentioned (hv.kinds ▸ mem_kinds_of_some hl)
      fun p hp => absurd hp List.not_mem_nil]
    exact ⟨becomes_refl hs hv, hl⟩
  · rename_i hk
    exact ⟨becomes_withList hs hm hv hk, get?_withList_self hm k⟩

/-- What is appended to the list under a kind is in no other map and under no other kind. -/
theorem becomes_append (hs : h.Separate) (hv : h.Holds m v) {k : κ} {l : Nat}
    (hl : (h.map m).get? k = some l) {p : String} (hp : p ∉ v.get k) :
    Becomes h (h.append l p) m (v.add k p) := by
  have hself := list_append_self (hs.bound m k l hl) p
  refine ⟨⟨fun m' k' l' hl' => ?_, hs.apart⟩, rfl, ⟨?_, fun k' => ?_⟩,
    fun m' hne => ⟨rfl, fun k' l' hl' => list_append_ne ?_ p⟩⟩
  · exact Nat.lt_of_lt_of_le (hs.bound m' k' l' hl') (Nat.le_of_eq Array.size_setIfInBounds.symm)
  · rw [ArtifactMap.add, ArtifactMap.kinds_extend,
      Discovery.add_of_mem (hv.kinds ▸ mem_kinds_of_some hl)]
    exact hv.kinds
  · by_cases hkk : k = k'
    · subst hkk
      rw [@get_of_some κ (h.append l p) m _ k l hl, hself, ArtifactMap.add,
        ArtifactMap.get_extend_self, Discovery.union_cons, Discovery.union_nil,
        Discovery.add_of_notMem hp, ← hv.get, get_of_some hl]
    · rw [ArtifactMap.add, ArtifactMap.get_extend_ne v [p] hkk, ← hv.get k']
      cases hk' : (h.map m).get? k' with
      | none => rw [get_of_none hk', @get_of_none κ (h.append l p) m _ k' hk']
      | some l' =>
        rw [get_of_some hk', @get_of_some κ (h.append l p) m _ k' l' hk']
        refine list_append_ne ?_ p
        rintro rfl
        exact hkk (hs.apart m k l' m k' hl hk').2
  · rintro rfl
    exact hne (hs.apart m' k' l' m k hl' hl).1

theorem becomes_add (hs : h.Separate) (hm : m < h.maps.size) (hv : h.Holds m v) (k : κ)
    (p : String) : Becomes h (h.add m k p) m (v.add k p) := by
  obtain ⟨hdefault, hl⟩ := setDefault_spec hs hm hv k
  have hadd : v.add k p = (v.extend k []).add k p := (ArtifactMap.extend_extend v k [] [p]).symm
  have hlist := hdefault.holds.get k
  rw [get_of_some hl] at hlist
  rw [hadd, add]
  dsimp only
  split
  · rename_i hp
    rw [hlist] at hp
    have hkind : k ∈ (v.extend k []).kinds := by
      rw [← hdefault.holds.kinds]
      exact mem_kinds_of_some hl
    rw [ArtifactMap.add, ArtifactMap.extend_of_mentioned hkind
      fun q hq => List.mem_singleton.mp hq ▸ hp]
    exact hdefault
  · rename_i hp
    rw [hlist] at hp
    exact hdefault.trans (becomes_append hdefault.separate hdefault.holds hl hp)

theorem becomes_extend (hs : h.Separate) (hm : m < h.maps.size) (hv : h.Holds m v) (k : κ)
    (ps : List String) : Becomes h (h.extend m k ps) m (v.extend k ps) := by
  -- the paths that have been added already are part of what the map holds
  suffices hfold : ∀ (qs : List String) (h' : Memory κ), Becomes h h' m (v.extend k qs) →
      Becomes h (ps.foldl (fun h p => h.add m k p) h') m (v.extend k (qs ++ ps)) from
    hfold [] _ (setDefault_spec hs hm hv k).1
  induction ps with
  | nil =>
    intro qs h' hqs
    rw [List.append_nil]
    exact hqs
  | cons p ps ih =>
    intro qs h' hqs
    have hstep := becomes_add hqs.separate (hqs.size ▸ hm) hqs.holds k p
    rw [ArtifactMap.add, ArtifactMap.extend_extend] at hstep
    rw [List.append_cons]
    exact ih (qs ++ [p]) _ (hqs.trans hstep)

theorem becomes_extendAll (hs : h.Separate) (hm : m < h.maps.size) (hv : h.Holds m v)
    (es : List (κ × List String)) : Becomes h (h.extendAll m es) m (v.extendAll es) := by
  induction es generalizing h v with
  | nil => exact becomes_refl hs hv
  | cons e es ih =>
    have hstep := becomes_extend hs hm hv e.1 e.2
    exact hstep.trans (ih hstep.separate (hstep.size ▸ hm) hstep.holds)

/-- The lists of the other map are read as they were at first, since only this map changes. -/
theorem takeIn_eq (hs : h.Separate) (hm : m < h.maps.size) (hv : h.Holds m v) {other : Nat}
    (hne : other ≠ m) : h.takeIn m other = h.extendAll m (h.items other) := by
  suffices hfold : ∀ (es : List (κ × Nat)) (h' : Memory κ) (u : ArtifactMap κ),
      (∀ e ∈ es, e ∈ (h.map other).entries) → Becomes h h' m u →
        es.foldl (fun h e => h.extend m e.1 (h.list e.2)) h' =
          h'.extendAll m (es.map fun e => (e.1, h.list e.2)) from
    hfold _ h v (fun _ he => he) (becomes_refl hs hv)
  intro es
  induction es with
  | nil => exact fun _ _ _ _ => rfl
  | cons e es ih =>
    intro h' u hes hu
    obtain ⟨he, hrest⟩ := List.forall_mem_cons.mp hes
    have hl : (h.map other).get? e.1 = some e.2 :=
      OrderedMap.find?_of_mem (h.map other).keys_nodup he
    have hlist : h'.list e.2 = h.list e.2 := (hu.others other hne).list e.1 e.2 hl
    have hstep := becomes_extend hu.separate (hu.size ▸ hm) hu.holds e.1 (h.list e.2)
    rw [List.foldl_cons, hlist]
    exact ih _ _ hrest (hu.trans hstep)

theorem becomes_takeIn (hs : h.Separate) (hm : m < h.maps.size) (hv : h.Holds m v) {other : Nat}
    (hne : other ≠ m) (hw : h.Holds other w) : Becomes h (h.takeIn m other) m (v.union w) := by
  rw [takeIn_eq hs hm hv hne, hw.items]
  exact becomes_extendAll hs hm hv w.toList

/-! ## New maps -/

/-- A new map has been made, which holds `v`. -/
structure Makes (h h' : Memory κ) (m : Nat) (v : ArtifactMap κ) : Prop where
  separate : h'.Separate
  fresh : m = h.maps.size
  size : h'.maps.size = h.maps.size + 1
  holds : h'.Holds m v
  others : ∀ m', m' < h.maps.size → Keeps h h' m'

theorem Makes.becomes (hv : Makes h h' m v) (hw : Becomes h' h'' m w) : Makes h h'' m w where
  separate := hw.separate
  fresh := hv.fresh
  size := hw.size.trans hv.size
  holds := hw.holds
  others m' hm' := (hv.others m' hm').trans (hw.others m' (by rw [hv.fresh]; omega))

theorem Makes.lt (hv : Makes h h' m v) : m < h'.maps.size := by
  rw [hv.fresh, hv.size]
  exact Nat.lt_succ_self _

theorem makes_make (hs : h.Separate) : Makes h h.make.1 h.make.2 .empty where
  separate :=
    ⟨fun m k l hl => hs.bound m k l (map_make h m ▸ hl), fun m k l m' k' hl hl' =>
      hs.apart m k l m' k' (map_make h m ▸ hl) (map_make h m' ▸ hl')⟩
  fresh := rfl
  size := Array.size_push _
  holds := by
    have hempty : h.Holds h.maps.size .empty := holds_of_size_le (Nat.le_refl _)
    have hkeeps : Keeps h h.make.1 h.maps.size := ⟨map_make h _, fun _ _ _ => rfl⟩
    exact hkeeps.holds hempty
  others m' _ := ⟨map_make h m', fun _ _ _ => rfl⟩

theorem makes_construct (hs : h.Separate) (es : List (κ × List String)) :
    Makes h (h.construct es).1 (h.construct es).2 (.ofList es) := by
  have hmake := makes_make hs
  exact hmake.becomes (becomes_extendAll hmake.separate hmake.lt hmake.holds es)

/-- **A copy shares nothing** with what it was made of, and holds the same. -/
theorem makes_copy (hs : h.Separate) {source : Nat} (hlt : source < h.maps.size)
    (hv : h.Holds source v) : Makes h (h.copy source).1 (h.copy source).2 v := by
  have hmake := makes_make hs
  have hne : source ≠ h.maps.size := Nat.ne_of_lt hlt
  have htaken := becomes_takeIn hmake.separate hmake.lt hmake.holds hne
    ((hmake.others source hlt).holds hv)
  rw [show ArtifactMap.empty.union v = v from ArtifactMap.ofList_toList v] at htaken
  exact hmake.becomes htaken

/-- **A union shares nothing** with its operands, which may be one and the same. -/
theorem makes_union (hs : h.Separate) {left right : Nat} (hleft : left < h.maps.size)
    (hright : right < h.maps.size) (hv : h.Holds left v) (hw : h.Holds right w) :
    Makes h (h.union left right).1 (h.union left right).2 (v.union w) := by
  have hcopy := makes_copy hs hleft hv
  have hne : right ≠ (h.copy left).2 := Nat.ne_of_lt hright
  exact hcopy.becomes (becomes_takeIn hcopy.separate hcopy.lt hcopy.holds hne
    ((hcopy.others right hright).holds hw))

theorem Makes.lt_of_lt (hv : Makes h h' m v) {m' : Nat} (hm' : m' < h.maps.size) :
    m' < h'.maps.size := by
  rw [hv.size]
  omega

section

variable {l n : Nat} {u : ArtifactMap κ}

/-- Unions of three maps may be bracketed in any way. -/
theorem items_union_assoc (hs : h.Separate) (hl : l < h.maps.size) (hm : m < h.maps.size)
    (hn : n < h.maps.size) (hu : h.Holds l u) (hv : h.Holds m v) (hw : h.Holds n w) :
    let first := h.union l m
    let last := h.union m n
    (first.1.union first.2 n).1.items (first.1.union first.2 n).2 =
      (last.1.union l last.2).1.items (last.1.union l last.2).2 := by
  intro first last
  have hfirst : Makes h first.1 first.2 (u.union v) := makes_union hs hl hm hu hv
  have hlast : Makes h last.1 last.2 (v.union w) := makes_union hs hm hn hv hw
  have hleft := makes_union hfirst.separate hfirst.lt (hfirst.lt_of_lt hn) hfirst.holds
    ((hfirst.others n hn).holds hw)
  have hright := makes_union hlast.separate (hlast.lt_of_lt hl) hlast.lt
    ((hlast.others l hl).holds hu) hlast.holds
  rw [hleft.holds.items, hright.holds.items, ArtifactMap.union_assoc]

/-- A second union with the same map changes nothing. -/
theorem items_union_again (hs : h.Separate) (hl : l < h.maps.size) (hm : m < h.maps.size)
    (hu : h.Holds l u) (hv : h.Holds m v) :
    let first := h.union l m
    (first.1.union first.2 m).1.items (first.1.union first.2 m).2 = first.1.items first.2 := by
  intro first
  have hfirst : Makes h first.1 first.2 (u.union v) := makes_union hs hl hm hu hv
  have hagain := makes_union hfirst.separate hfirst.lt (hfirst.lt_of_lt hm) hfirst.holds
    ((hfirst.others m hm).holds hv)
  rw [hagain.holds.items, hfirst.holds.items, ArtifactMap.union_of_mentioned]
  · exact fun k hk => ArtifactMap.mem_kinds_union.mpr (Or.inr hk)
  · exact fun k p hp => ArtifactMap.mem_get_union.mpr (Or.inr hp)

end

end Memory
end Replatform
