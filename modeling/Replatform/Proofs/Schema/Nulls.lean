import Mathlib.Data.List.Forall2
import Replatform.Proofs.Schema.Filling

/-! # Null where a list or a map may be empty

A reader **follows** a shape if it rejects null exactly where the shape does, and takes it elsewhere
for the empty list or map: of a value that it has read, any places may be filled with null, and as
long as the nulls fit it reads what it reads of the value with those places emptied.  Readers of
lists, maps and sections follow a shape if the readers of their parts do.
-/
namespace Replatform
namespace Schema

/-! ## Checks with one result -/

namespace Checked

variable {α β : Type}

theorem isSome_result? {c : Checked α} : c.result?.isSome = true ↔ ∃ a, c = .ok a := by
  cases c <;> simp [result?]

/-- Both checks succeed, with the same result. -/
def Alike (c c' : Checked α) : Prop := ∃ a, c = .ok a ∧ c' = .ok a

namespace Alike

variable {c c' : Checked α}

theorem of_ok {a : α} (h : c = .ok a) : Alike c c := ⟨a, h, h⟩

theorem under (h : Alike c c') (step step' : Step) : Alike (c.under step) (c'.under step') := by
  obtain ⟨a, rfl, rfl⟩ := h
  exact ⟨a, rfl, rfl⟩

theorem map (h : Alike c c') (f : α → β) : Alike (f <$> c) (f <$> c') := by
  obtain ⟨a, rfl, rfl⟩ := h
  exact ⟨f a, rfl, rfl⟩

theorem seq {f f' : Checked (α → β)} (hf : Alike f f') (h : Alike c c') :
    Alike (f <*> c) (f' <*> c') := by
  obtain ⟨g, rfl, rfl⟩ := hf
  obtain ⟨a, rfl, rfl⟩ := h
  exact ⟨g a, rfl, rfl⟩

end Alike
end Checked

open Checked (Alike)

/-! ## Lists and maps -/

namespace Reader

variable {α κ : Type} {key : Reader κ} {read : Reader α} {v : Value}

theorem listOrNull_of_items {items : List Value} (h : items? v = some items) :
    listOrNull read v = readItems read 0 items := by
  cases v with
  | list => cases h; rfl
  | pair => cases h; rfl
  | set => cases h; rfl
  | _ => cases h

theorem listOrNull_eq_ok {as : List α} (h : listOrNull read v = .ok as) :
    v = .null ∨ ∃ items, items? v = some items ∧ readItems read 0 items = .ok as := by
  cases v with
  | null => exact .inl rfl
  | list items => exact .inr ⟨items, rfl, h⟩
  | pair a b => exact .inr ⟨[a, b], rfl, h⟩
  | set items => exact .inr ⟨items, rfl, h⟩
  | _ => cases h

theorem mapOrNull_eq_ok [DecidableEq κ] {m : OrderedMap κ α} (h : mapOrNull key read v = .ok m) :
    v = .null ∨ ∃ es l, v = .map es ∧ readEntries key read es = .ok l := by
  cases v with
  | null => exact .inl rfl
  | map es =>
    obtain ⟨l, hl, -⟩ := Checked.map_eq_ok.mp h
    exact .inr ⟨es, l, rfl, hl⟩
  | _ => cases h

/-- Every item of a list that was read was read itself. -/
theorem exists_of_readItems {items : List Value} {as : List α} {n : Int}
    (h : readItems read n items = .ok as) : ∀ x ∈ items, ∃ a, read x = .ok a := by
  induction items generalizing n as with
  | nil => exact nofun
  | cons v rest ih =>
    obtain ⟨g, as', hv, hrest, -⟩ := Checked.seq_eq_ok.mp h
    obtain ⟨a, ha, -⟩ := Checked.map_eq_ok.mp hv
    exact List.forall_mem_cons.mpr ⟨⟨a, Checked.under_eq_ok.mp ha⟩, ih hrest⟩

theorem alike_readItems {xs ys : List Value}
    (h : List.Forall₂ (fun x y => Alike (read x) (read y)) xs ys) (n : Int) :
    Alike (readItems read n xs) (readItems read n ys) := by
  induction h generalizing n with
  | nil => exact .of_ok rfl
  | cons hx hrest ih => exact ((hx.under _ _).map _).seq (ih (n + 1))

theorem exists_of_readEntries {es : Entries} {l : List (κ × α)}
    (h : readEntries key read es = .ok l) :
    ∀ e ∈ es, (∃ k, key e.1 = .ok k) ∧ ∃ a, read e.2 = .ok a := by
  induction es generalizing l with
  | nil => exact nofun
  | cons e rest ih =>
    obtain ⟨g, l', he, hrest, -⟩ := Checked.seq_eq_ok.mp h
    obtain ⟨ka, hka, -⟩ := Checked.map_eq_ok.mp he
    obtain ⟨g', a, hk, ha, -⟩ := Checked.seq_eq_ok.mp (Checked.under_eq_ok.mp hka)
    obtain ⟨k, hk, -⟩ := Checked.map_eq_ok.mp hk
    exact List.forall_mem_cons.mpr ⟨⟨⟨k, Checked.under_eq_ok.mp hk⟩, a, ha⟩, ih hrest⟩

theorem alike_readEntries {es es' : Entries}
    (h : List.Forall₂ (fun e e' => Alike (key e.1) (key e'.1) ∧ Alike (read e.2) (read e'.2))
      es es') :
    Alike (readEntries key read es) (readEntries key read es') := by
  induction h with
  | nil => exact .of_ok rfl
  | cons he hrest ih => exact ((((he.1.under _ _).map _).seq he.2).under _ _ |>.map _).seq ih

end Reader

/-! ## Readers that follow a shape -/

theorem forall₂_mapIdx {α β : Type} {R : β → β → Prop} {f g : Nat → α → β} {l : List α}
    (h : ∀ n x, l[n]? = some x → R (f n x) (g n x)) :
    List.Forall₂ R (l.mapIdx f) (l.mapIdx g) := by
  refine List.forall₂_iff_get.mpr ⟨by simp, fun n hn hn' => ?_⟩
  have hlt : n < l.length := by simpa using hn
  simpa using h n l[n] (List.getElem?_eq_getElem hlt)

/-- The reader takes null for the empty list or map where the shape has one, and rejects it
elsewhere. -/
structure Follows {α : Type} (s : Shape) (read : Reader α) : Prop where
  proper : s.Proper
  nullsFit : ∀ {v a}, read v = .ok a → s.NullsFit v
  null : s.isCollection = true → Alike (read .null) (read s.empty)
  inside : ∀ {v a} (marks : Marks), read v = .ok a → s.NullsFit (s.inside Shape.nothing marks v) →
    Alike (read (s.inside Shape.nothing marks v)) (read (s.inside Shape.empty marks v))

namespace Follows

variable {α κ : Type} {s : Shape} {key : Reader κ} {read : Reader α}

theorem fill (h : Follows s read) {v : Value} {a : α} (marks : Marks) (hv : read v = .ok a)
    (hfit : s.NullsFit (s.fill Shape.nothing marks v)) :
    Alike (read (s.fill Shape.nothing marks v)) (read (s.fill Shape.empty marks v)) := by
  unfold Shape.fill at hfit ⊢
  split at hfit
  · rw [if_pos ‹_›, if_pos ‹_›]
    exact h.null ((Shape.nullsFit_iff.mp hfit).1 rfl)
  · rw [if_neg ‹_›, if_neg ‹_›]
    exact h.inside marks hv hfit

/-- A value without parts must not be null. -/
theorem leaf (h : ∀ a, read .null ≠ .ok a) : Follows .leaf read where
  proper := .leaf
  nullsFit hv := by
    refine Shape.nullsFit_iff.mpr ⟨?_, nofun⟩
    rintro rfl
    exact absurd hv (h _)
  null := nofun
  inside _ hv _ := .of_ok hv

/-- If null fits the filled value, it fits each part that is there, filled on its own. -/
theorem nullsFit_of_part? {filler : Shape → Value} {marks : Marks} {v x : Value} {part : Part}
    {t : Shape} (hs : s.Proper) (hfit : s.NullsFit (s.inside filler marks v))
    (hpart : s.part? v part = some (t, x)) : t.NullsFit (t.fill filler (marks.below part) x) :=
  (Shape.nullsFit_iff.mp hfit).2 part t _ (Shape.part?_inside hs hpart)

theorem list (h : Follows s read) : Follows (.list s) (.listOrNull read) where
  proper := .list h.proper
  nullsFit hv := by
    refine Shape.nullsFit_iff.mpr ⟨fun _ => rfl, fun part t x hpart => ?_⟩
    cases Shape.isPart_of_part? hpart with
    | item hitems hx =>
      rw [Reader.listOrNull_of_items hitems] at hv
      obtain ⟨a, ha⟩ := Reader.exists_of_readItems hv x (List.mem_of_getElem? hx)
      exact h.nullsFit ha
  null _ := .of_ok rfl
  inside {v} as marks hv hfit := by
    rcases Reader.listOrNull_eq_ok hv with rfl | ⟨items, hitems, has⟩
    · exact .of_ok rfl
    · rw [Reader.listOrNull_of_items (items?_inside hitems),
        Reader.listOrNull_of_items (items?_inside hitems)]
      refine Reader.alike_readItems (forall₂_mapIdx fun n x hx => ?_) 0
      obtain ⟨a, ha⟩ := Reader.exists_of_readItems has x (List.mem_of_getElem? hx)
      refine h.fill _ ha (nullsFit_of_part? (.list h.proper) hfit ?_)
      rw [Shape.part?, hitems, Option.bind_some, hx]
      rfl

theorem map [DecidableEq κ] (h : Follows s read) : Follows (.map s) (.mapOrNull key read) where
  proper := .map h.proper
  nullsFit hv := by
    refine Shape.nullsFit_iff.mpr ⟨fun _ => rfl, fun part t x hpart => ?_⟩
    cases Shape.isPart_of_part? hpart with
    | value he =>
      obtain ⟨l, hl, -⟩ := Checked.map_eq_ok.mp hv
      obtain ⟨-, a, ha⟩ := Reader.exists_of_readEntries hl _ (List.mem_of_getElem? he)
      exact h.nullsFit ha
  null _ := .of_ok rfl
  inside {v} m marks hv hfit := by
    rcases Reader.mapOrNull_eq_ok hv with rfl | ⟨es, l, rfl, hl⟩
    · exact .of_ok rfl
    · refine Alike.map (Reader.alike_readEntries (forall₂_mapIdx fun n e he => ?_)) _
      obtain ⟨⟨k, hk⟩, a, ha⟩ := Reader.exists_of_readEntries hl e (List.mem_of_getElem? he)
      refine ⟨.of_ok hk, h.fill _ ha (nullsFit_of_part? (.map h.proper) hfit ?_)⟩
      rw [Shape.part?, he]
      rfl

end Follows

/-! ## Sections -/

/-- Null stands nowhere in the fields but in place of a list or a map. -/
def FieldsFit (fields : List (Field Shape)) (es : Entries) : Prop :=
  ∀ f ∈ fields, ∀ x, f.value? es = some x → f.shape.NullsFit x

/-- The second entries have the fields of the first, filled. -/
def FieldsFilled (filler : Shape → Value) (fields : List (Field Shape)) (marks : Marks)
    (es es' : Entries) : Prop :=
  ∀ f ∈ fields, f.value? es' =
    ((f.value? es).map (f.shape.fill filler (marks.below (.field f.name)))).or
      (if marks [.field f.name] then some (filler f.shape) else none)

/-- The check of a section looks at these fields only, and follows the shape of each. -/
structure FollowsFields {α : Type} (fields : List (Field Shape)) (read : Entries → Checked α) :
    Prop where
  proper : ∀ f ∈ fields, f.shape.Proper
  fieldsFit : ∀ {es a}, read es = .ok a → FieldsFit fields es
  alike : ∀ {es a marks es₁ es₂}, read es = .ok a →
    FieldsFilled Shape.nothing fields marks es es₁ → FieldsFilled Shape.empty fields marks es es₂ →
    FieldsFit fields es₁ → Alike (read es₁) (read es₂)

namespace FollowsFields

variable {α β : Type} {fields fields' : List (Field Shape)} {f : Field Shape} {read : Reader α}

/-- The check of a single field: all sections without it are the same. -/
theorem of_field {check : Entries → Checked α} (h : Follows f.shape read)
    (hsome : ∀ {es v}, f.value? es = some v → ∃ found, check es = (read v).under (.key found))
    (hnone : ∀ {es es'}, f.value? es = none → f.value? es' = none → check es = check es') :
    FollowsFields [f] check where
  proper := List.forall_mem_singleton.mpr h.proper
  fieldsFit {es a} hes := List.forall_mem_singleton.mpr fun x hx => by
    obtain ⟨found, hcheck⟩ := hsome hx
    exact h.nullsFit (Checked.under_eq_ok.mp (hcheck.symm.trans hes))
  alike {es a marks es₁ es₂} hes h₁ h₂ hfit := by
    replace h₁ := List.forall_mem_singleton.mp h₁
    replace h₂ := List.forall_mem_singleton.mp h₂
    replace hfit := List.forall_mem_singleton.mp hfit
    cases hv : f.value? es with
    | some v =>
      rw [hv, Option.map_some, Option.some_or] at h₁ h₂
      obtain ⟨found, hcheck⟩ := hsome hv
      obtain ⟨found₁, hcheck₁⟩ := hsome h₁
      obtain ⟨found₂, hcheck₂⟩ := hsome h₂
      rw [hcheck₁, hcheck₂]
      exact (h.fill _ (Checked.under_eq_ok.mp (hcheck.symm.trans hes)) (hfit _ h₁)).under _ _
    | none =>
      rw [hv, Option.map_none, Option.none_or] at h₁ h₂
      split at h₁
      · -- The field is new.
        rw [if_pos ‹_›] at h₂
        obtain ⟨found₁, hcheck₁⟩ := hsome h₁
        obtain ⟨found₂, hcheck₂⟩ := hsome h₂
        rw [hcheck₁, hcheck₂]
        exact (h.null ((Shape.nullsFit_iff.mp (hfit _ h₁)).1 rfl)).under _ _
      · rw [if_neg ‹_›] at h₂
        rw [hnone h₁ hv, hnone h₂ hv]
        exact .of_ok hes

theorem optional {default : α} (h : Follows f.shape read) :
    FollowsFields [f] (Schema.optional default f.name f.plainName read) := by
  refine of_field h (fun {es v} hv => ?_) (fun {es es'} hes hes' => ?_)
  · obtain ⟨⟨found, v'⟩, hfound, rfl⟩ := Option.map_eq_some_iff.mp hv
    exact ⟨found, by rw [Schema.optional, hfound]⟩
  · rw [Schema.optional, Option.map_eq_none_iff.mp hes, Schema.optional,
      Option.map_eq_none_iff.mp hes']

theorem required (h : Follows f.shape read) :
    FollowsFields [f] (Schema.required f.name f.plainName read) := by
  refine of_field h (fun {es v} hv => ?_) (fun {es es'} hes hes' => ?_)
  · obtain ⟨⟨found, v'⟩, hfound, rfl⟩ := Option.map_eq_some_iff.mp hv
    exact ⟨found, by rw [Schema.required, hfound]⟩
  · rw [Schema.required, Option.map_eq_none_iff.mp hes, Schema.required,
      Option.map_eq_none_iff.mp hes']

theorem map {check : Entries → Checked α} (h : FollowsFields fields check) (g : α → β) :
    FollowsFields fields (fun es => g <$> check es) where
  proper := h.proper
  fieldsFit hes := by
    obtain ⟨a, ha, -⟩ := Checked.map_eq_ok.mp hes
    exact h.fieldsFit ha
  alike hes h₁ h₂ hfit := by
    obtain ⟨a, ha, -⟩ := Checked.map_eq_ok.mp hes
    exact (h.alike ha h₁ h₂ hfit).map g

theorem seq {check : Entries → Checked (α → β)} {check' : Entries → Checked α}
    (h : FollowsFields fields check) (h' : FollowsFields fields' check') :
    FollowsFields (fields ++ fields') (fun es => check es <*> check' es) where
  proper := List.forall_mem_append.mpr ⟨h.proper, h'.proper⟩
  fieldsFit hes := by
    obtain ⟨g, a, hg, ha, -⟩ := Checked.seq_eq_ok.mp hes
    exact List.forall_mem_append.mpr ⟨h.fieldsFit hg, h'.fieldsFit ha⟩
  alike hes h₁ h₂ hfit := by
    obtain ⟨g, a, hg, ha, -⟩ := Checked.seq_eq_ok.mp hes
    obtain ⟨h₁, h₁'⟩ := List.forall_mem_append.mp h₁
    obtain ⟨h₂, h₂'⟩ := List.forall_mem_append.mp h₂
    obtain ⟨hfit, hfit'⟩ := List.forall_mem_append.mp hfit
    exact (h.alike hg h₁ h₂ hfit).seq (h'.alike ha h₁' h₂' hfit')

end FollowsFields

theorem Follows.record {α : Type} {fields : List (Field Shape)} {read : Entries → Checked α}
    (hdistinct : Distinct fields) (h : FollowsFields fields read) :
    Follows (.record fields) (.fields read) where
  proper := .record hdistinct h.proper
  nullsFit {v a} hv := by
    refine Shape.nullsFit_iff.mpr ⟨?_, fun part t x hpart => ?_⟩
    · rintro rfl
      cases hv
    · cases Shape.isPart_of_part? hpart with
      | field hf hx => exact h.fieldsFit hv _ hf x hx
  null := nofun
  inside {v a} marks hv hfit := by
    cases v with
    | map es =>
      refine h.alike hv (fun f => Shape.value?_insideFields _ marks es hdistinct)
        (fun f => Shape.value?_insideFields _ marks es hdistinct) fun f hf x hx => ?_
      refine (Shape.nullsFit_iff.mp hfit).2 (.field f.name) f.shape x ?_
      rw [Shape.inside, Shape.part?, find?_of_distinct hdistinct hf, Option.bind_some, hx]
      rfl
    | _ => cases hv

end Schema
end Replatform
