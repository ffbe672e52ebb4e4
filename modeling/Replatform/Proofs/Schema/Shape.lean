import Replatform.Proofs.Schema.Reader

/-! # Shapes of data

A shape says which parts of a value a reader looks at: the items of a list, the values of a map,
and those fields of a section that have a name in it.  It says nothing about what is accepted
there, except that a list and a map may be null, and everything else may not.  Where null may stand
depends on the names of the fields on the way only.
-/
namespace Replatform
namespace Schema

/-! ## Shapes and places -/

/-- A field of a section: its name in files, its plain name, and the shape of its value. -/
structure Field (σ : Type) where
  name : String
  plainName : String
  shape : σ

/-- What a reader looks at. -/
inductive Shape where
  /-- A text, a truth value or a word: no parts. -/
  | leaf
  | list (item : Shape)
  | map (value : Shape)
  | record (fields : List (Field Shape))

/-- A step from a value to a part: to a field by its name in files, or to an item of a list or the
value of an entry of a map by its number. -/
inductive Part where
  | field (name : String)
  | nth (n : Nat)
  deriving DecidableEq

/-- The way from a value to a part of it. -/
abbrev Place := List Part

/-- The names under which a field may stand. -/
def Field.names {σ : Type} (f : Field σ) : List String := [f.name, f.plainName]

/-- No two fields have a name in common. -/
def Distinct {σ : Type} (fields : List (Field σ)) : Prop :=
  fields.Pairwise fun f g => ∀ k ∈ f.names, k ∉ g.names

instance {σ : Type} (fields : List (Field σ)) : Decidable (Distinct fields) :=
  inferInstanceAs (Decidable (List.Pairwise ..))

/-- The value of the field in a section, under either of its names. -/
def Field.value? {σ : Type} (f : Field σ) (es : Entries) : Option Value :=
  (fieldValue? f.name f.plainName es).map Prod.snd

/-- The items of a value that is read as a list. -/
def items? : Value → Option (List Value)
  | .list items => some items
  | .pair a b => some [a, b]
  | .set items => some items
  | _ => none

theorem find?_of_distinct {fields : List (Field Shape)} (h : Distinct fields) {f : Field Shape}
    (hf : f ∈ fields) : fields.find? (·.name = f.name) = some f := by
  induction fields with
  | nil => cases hf
  | cons g rest ih =>
    obtain ⟨hg, hrest⟩ := List.pairwise_cons.mp h
    rcases List.mem_cons.mp hf with rfl | hf
    · exact List.find?_cons_of_pos (decide_eq_true rfl)
    · have hne : g.name ≠ f.name := fun heq =>
        hg f hf g.name (by simp [Field.names]) (by simp [Field.names, heq])
      rw [List.find?_cons_of_neg (by simpa using hne), ih hrest hf]

namespace Shape

/-- The part of a value to which a step leads, with its shape. -/
def part? : Shape → Value → Part → Option (Shape × Value)
  | .list item, v, .nth n => ((items? v).bind (·[n]?)).map (item, ·)
  | .map value, .map es, .nth n => es[n]?.map fun e => (value, e.2)
  | .record fields, .map es, .field name =>
    (fields.find? (·.name = name)).bind fun f => (f.value? es).map (f.shape, ·)
  | _, _, _ => none

theorem mem_of_find? {fields : List (Field Shape)} {f : Field Shape} {name : String}
    (h : fields.find? (·.name = name) = some f) : f ∈ fields ∧ f.name = name :=
  ⟨List.mem_of_find?_eq_some h, by simpa using List.find?_some h⟩

/-- What stands at a place of a value, with its shape. -/
def at? (s : Shape) (v : Value) : Place → Option (Shape × Value)
  | [] => some (s, v)
  | part :: rest => (s.part? v part).bind fun p => p.1.at? p.2 rest

/-- The shape to which a step leads.  To a field it leads also if the field is missing. -/
def slotAt? : Shape → Value → Part → Option Shape
  | .list item, v, .nth n => ((items? v).bind (·[n]?)).map fun _ => item
  | .map value, .map es, .nth n => es[n]?.map fun _ => value
  | .record fields, .map _, .field name => (fields.find? (·.name = name)).map Field.shape
  | _, _, _ => none

/-- The shape of what may stand at a place of a value: its last step may lead to a missing field,
those before it must not. -/
def slot? (s : Shape) (v : Value) : Place → Option Shape
  | [] => some s
  | [part] => s.slotAt? v part
  | part :: rest => (s.part? v part).bind fun p => p.1.slot? p.2 rest

/-- Null is allowed here, for the empty list or map. -/
def isCollection : Shape → Bool
  | .list _ => true
  | .map _ => true
  | _ => false

/-- The empty list or map, where null stands for it. -/
def empty : Shape → Value
  | .list _ => .list []
  | .map _ => .map []
  | _ => .null

/-- The ways in which a step leads to a part. -/
inductive IsPart : Shape → Value → Part → Shape → Value → Prop
  | item {item : Shape} {v x : Value} {items : List Value} {n : Nat}
      (hitems : items? v = some items) (hx : items[n]? = some x) :
      IsPart (.list item) v (.nth n) item x
  | value {value : Shape} {es : Entries} {e : Value × Value} {n : Nat} (he : es[n]? = some e) :
      IsPart (.map value) (.map es) (.nth n) value e.2
  | field {fields : List (Field Shape)} {f : Field Shape} {es : Entries} {x : Value}
      (hf : f ∈ fields) (hx : f.value? es = some x) :
      IsPart (.record fields) (.map es) (.field f.name) f.shape x

theorem isPart_of_part? {s t : Shape} {v x : Value} {part : Part}
    (h : s.part? v part = some (t, x)) : IsPart s v part t x := by
  unfold part? at h
  split at h
  · obtain ⟨y, hy, heq⟩ := Option.map_eq_some_iff.mp h
    obtain ⟨items, hitems, hy⟩ := Option.bind_eq_some_iff.mp hy
    cases heq
    exact .item hitems hy
  · obtain ⟨e, he, heq⟩ := Option.map_eq_some_iff.mp h
    cases heq
    exact .value he
  · rename_i name
    obtain ⟨f, hfind, hx⟩ := Option.bind_eq_some_iff.mp h
    obtain ⟨hf, rfl⟩ := mem_of_find? hfind
    obtain ⟨y, hy, heq⟩ := Option.map_eq_some_iff.mp hx
    cases heq
    exact .field hf hy
  · cases h

/-- Null stands nowhere in the value but in place of a list or a map. -/
def NullsFit (s : Shape) (v : Value) : Prop :=
  ∀ place t, s.at? v place = some (t, .null) → t.isCollection = true

/-- In each section of the shape, a name belongs to at most one field. -/
inductive Proper : Shape → Prop
  | leaf : Proper .leaf
  | list {item : Shape} (h : item.Proper) : Proper (.list item)
  | map {value : Shape} (h : value.Proper) : Proper (.map value)
  | record {fields : List (Field Shape)} (distinct : Distinct fields)
      (h : ∀ f ∈ fields, f.shape.Proper) : Proper (.record fields)

theorem nullsFit_iff {s : Shape} {v : Value} :
    s.NullsFit v ↔ (v = .null → s.isCollection = true) ∧
      ∀ part t x, s.part? v part = some (t, x) → t.NullsFit x := by
  constructor
  · intro h
    refine ⟨?_, fun part t x hpart rest u hrest => h (part :: rest) u ?_⟩
    · rintro rfl
      exact h [] s rfl
    · rw [at?, hpart]
      exact hrest
  · rintro ⟨hhere, hparts⟩ place t hplace
    cases place with
    | nil =>
      obtain ⟨rfl, rfl⟩ := Prod.mk.inj (Option.some.inj hplace)
      exact hhere rfl
    | cons part rest =>
      obtain ⟨⟨u, x⟩, hpart, hrest⟩ := Option.bind_eq_some_iff.mp hplace
      exact hparts part u x hpart rest t hrest

/-! ### Steps to parts -/

section

variable {s t : Shape} {v x : Value} {part : Part}

theorem Proper.of_part? (hs : s.Proper) (h : s.part? v part = some (t, x)) : t.Proper := by
  cases isPart_of_part? h with
  | item => cases hs with | list hitem => exact hitem
  | value => cases hs with | map hvalue => exact hvalue
  | field hf => cases hs with | record _ hfields => exact hfields _ hf

theorem slotAt?_of_part? (hs : s.Proper) (h : s.part? v part = some (t, x)) :
    s.slotAt? v part = some t := by
  cases isPart_of_part? h with
  | item hitems hx =>
    rw [slotAt?, hitems, Option.bind_some, hx]
    rfl
  | value he =>
    rw [slotAt?, he]
    rfl
  | field hf =>
    cases hs with
    | record hdistinct =>
      rw [slotAt?, find?_of_distinct hdistinct hf]
      rfl

theorem slot?_cons_cons (s : Shape) (v : Value) (part part' : Part) (rest : Place) :
    s.slot? v (part :: part' :: rest) =
      (s.part? v part).bind fun p => p.1.slot? p.2 (part' :: rest) := rfl

theorem slot?_of_part? (hs : s.Proper) (h : s.part? v part = some (t, x)) (rest : Place) :
    s.slot? v (part :: rest) = t.slot? x rest := by
  cases rest with
  | nil => exact slotAt?_of_part? hs h
  | cons part' rest => rw [slot?_cons_cons, h, Option.bind_some]

/-- A step to a missing field is the last one. -/
theorem slot?_of_none (h : s.part? v part = none) (rest : Place) :
    s.slot? v (part :: rest) = some t ↔ rest = [] ∧ s.slotAt? v part = some t := by
  cases rest with
  | nil => simp [slot?]
  | cons part' rest => simp [slot?_cons_cons, h]

theorem part?_null (s : Shape) (part : Part) : s.part? .null part = none := by
  cases s <;> cases part <;> rfl

theorem at?_null_iff {place : Place} :
    s.at? .null place = some (t, x) ↔ place = [] ∧ s = t ∧ .null = x := by
  cases place with
  | nil => simp [at?]
  | cons part rest => simp [at?, part?_null]

end

end Shape

/-! ## Names of places -/

/-- The name of the field; a step to an item or to the value of an entry has none. -/
def Part.name? : Part → Option String
  | .field name => some name
  | .nth _ => none

namespace Shape

/-- The shape of what stands at all places with these names. -/
def named? (s : Shape) : List (Option String) → Option Shape
  | [] => some s
  | name? :: rest =>
    match s, name? with
    | .list item, none => item.named? rest
    | .map value, none => value.named? rest
    | .record fields, some name =>
      (fields.find? (·.name = name)).bind fun f => f.shape.named? rest
    | _, _ => none

mutual

/-- The names of the places at which there are lists and maps. -/
def collections : Shape → List (List (Option String))
  | .leaf => []
  | .list item => [] :: item.collections.map (none :: ·)
  | .map value => [] :: value.collections.map (none :: ·)
  | .record fields => fieldCollections fields

/-- The names of the places within the fields at which there are lists and maps. -/
def fieldCollections : List (Field Shape) → List (List (Option String))
  | [] => []
  | ⟨name, _, shape⟩ :: rest => shape.collections.map (some name :: ·) ++ fieldCollections rest

end

theorem mem_fieldCollections {fields : List (Field Shape)} {names : List (Option String)} :
    names ∈ fieldCollections fields ↔
      ∃ f ∈ fields, ∃ rest ∈ f.shape.collections, names = some f.name :: rest := by
  induction fields with
  | nil => simp [fieldCollections]
  | cons f rest ih =>
    rw [fieldCollections, List.mem_append, ih, List.mem_map]
    simp only [List.mem_cons, or_and_right, exists_or, exists_eq_left, @eq_comm _ names]

theorem mem_collections {s : Shape} (hs : s.Proper) {names : List (Option String)} :
    names ∈ s.collections ↔ ∃ t, s.named? names = some t ∧ t.isCollection = true := by
  induction names generalizing s with
  | nil =>
    cases s with
    | record fields => simp [collections, mem_fieldCollections, named?, isCollection]
    | _ => simp [collections, named?, isCollection]
  | cons name? rest ih =>
    cases hs with
    | leaf => simp [collections, named?]
    | list hitem => cases name? <;> simp [collections, named?, ih hitem]
    | map hvalue => cases name? <;> simp [collections, named?, ih hvalue]
    | @record fields hdistinct hfields =>
      cases name? with
      | none => simp [collections, mem_fieldCollections, named?]
      | some name =>
        rw [collections, mem_fieldCollections]
        constructor
        · rintro ⟨f, hf, rest', hrest, heq⟩
          obtain ⟨rfl, rfl⟩ : name = f.name ∧ rest = rest' := by simpa using heq
          rw [named?, find?_of_distinct hdistinct hf]
          exact (ih (hfields f hf)).mp hrest
        · rintro ⟨t, ht, hcollection⟩
          obtain ⟨f, hfind, hrest⟩ := Option.bind_eq_some_iff.mp ht
          obtain ⟨hf, rfl⟩ := mem_of_find? hfind
          exact ⟨f, hf, rest, (ih (hfields f hf)).mpr ⟨t, hrest, hcollection⟩, rfl⟩

theorem named?_of_at? {s t : Shape} (hs : s.Proper) {v x : Value} {place : Place}
    (h : s.at? v place = some (t, x)) : s.named? (place.map Part.name?) = some t := by
  induction place generalizing s v with
  | nil =>
    cases h
    rfl
  | cons part rest ih =>
    obtain ⟨⟨u, y⟩, hpart, hrest⟩ := Option.bind_eq_some_iff.mp h
    have hnamed := ih (hs.of_part? hpart) hrest
    cases isPart_of_part? hpart with
    | item => exact hnamed
    | value => exact hnamed
    | field hf =>
      cases hs with
      | record hdistinct =>
        rw [List.map_cons, Part.name?, named?, find?_of_distinct hdistinct hf]
        exact hnamed

/-- Where null is allowed is a matter of names. -/
theorem nullsFit_iff_names {s : Shape} (hs : s.Proper) {v : Value} :
    s.NullsFit v ↔ ∀ place t, s.at? v place = some (t, .null) →
      place.map Part.name? ∈ s.collections := by
  refine forall_congr' fun place => forall_congr' fun t => forall_congr' fun h => ?_
  rw [mem_collections hs, named?_of_at? hs h]
  simp

end Shape

end Schema
end Replatform
