import Replatform.Proofs.Schema.Shape

/-! # Filling places of data

Any set of **marked** places of a value can be filled, each with what there is for its shape.  A
place below a marked one is lost with what stood there, and a field that is missing may be marked
too.  Everything else stays.
-/
namespace Replatform
namespace Schema

/-! ## Marked places -/

/-- The places of a value that are marked. -/
abbrev Marks := Place → Bool

/-- The marked places of a part. -/
def Marks.below (marks : Marks) (part : Part) : Marks := fun rest => marks (part :: rest)

/-- No place above is marked. -/
def Marks.ClearAbove (marks : Marks) (place : Place) : Prop :=
  ∀ above, above <+: place → above ≠ place → marks above = false

theorem Marks.clearAbove_nil (marks : Marks) : marks.ClearAbove [] :=
  fun _ hprefix hne => absurd (List.prefix_nil.mp hprefix) hne

theorem Marks.clearAbove_cons {marks : Marks} {part : Part} {rest : Place} :
    marks.ClearAbove (part :: rest) ↔ marks [] = false ∧ (marks.below part).ClearAbove rest := by
  constructor
  · intro h
    refine ⟨h [] List.nil_prefix (by simp), fun above hprefix hne => ?_⟩
    exact h (part :: above) ((List.prefix_cons_inj part).mpr hprefix) (by simpa using hne)
  · rintro ⟨hroot, hbelow⟩ above hprefix hne
    rcases List.prefix_cons_iff.mp hprefix with rfl | ⟨above', rfl, hprefix'⟩
    · exact hroot
    · exact hbelow above' hprefix' (by simpa using hne)

/-- The list with each item changed, or the value itself. -/
def mapItems (f : Nat → Value → Value) : Value → Value
  | .list items => .list (items.mapIdx f)
  | .pair a b => .pair (f 0 a) (f 1 b)
  | .set items => .set (items.mapIdx f)
  | v => v

/-- The map with the value of each entry changed, or the value itself. -/
def mapValues (f : Nat → Value → Value) : Value → Value
  | .map es => .map (es.mapIdx fun n e => (e.1, f n e.2))
  | v => v

/-- The entries with the value under a text changed. -/
def changeText (k : String) (f : Value → Value) : Entries → Entries
  | [] => []
  | (.text k', v) :: rest =>
    if k' = k then (.text k', f v) :: rest else (.text k', v) :: changeText k f rest
  | e :: rest => e :: changeText k f rest

/-- The entries with a field changed, or with `new?` for it if it is missing. -/
def changeField (name plainName : String) (f : Value → Value) (new? : Option Value)
    (es : Entries) : Entries :=
  match fieldValue? name plainName es with
  | some (found, _) => changeText found f es
  | none => es ++ (new?.map (Value.text name, ·)).toList

namespace Shape

mutual

/-- The value with its marked parts filled. -/
def inside (filler : Shape → Value) : Shape → Marks → Value → Value
  | .leaf, _, v => v
  | .list item, marks, v => mapItems (fun n x =>
      if marks [.nth n] then filler item else item.inside filler (marks.below (.nth n)) x) v
  | .map value, marks, v => mapValues (fun n x =>
      if marks [.nth n] then filler value else value.inside filler (marks.below (.nth n)) x) v
  | .record fields, marks, .map es => .map (insideFields filler fields marks es)
  | .record _, _, v => v

/-- The entries of a section with the marked fields filled, also those that are missing. -/
def insideFields (filler : Shape → Value) : List (Field Shape) → Marks → Entries → Entries
  | [], _, es => es
  | ⟨name, plainName, shape⟩ :: rest, marks, es =>
    changeField name plainName
      (fun x => if marks [.field name] then filler shape
        else shape.inside filler (marks.below (.field name)) x)
      (if marks [.field name] then some (filler shape) else none)
      (insideFields filler rest marks es)

end

/-- The value with its marked places filled, each with what `filler` has for its shape. -/
def fill (filler : Shape → Value) (s : Shape) (marks : Marks) (v : Value) : Value :=
  if marks [] then filler s else s.inside filler marks v

/-- Null, whatever the shape. -/
def nothing : Shape → Value := fun _ => .null

theorem insideFields_cons (filler : Shape → Value) (f : Field Shape) (rest : List (Field Shape))
    (marks : Marks) (es : Entries) :
    insideFields filler (f :: rest) marks es =
      changeField f.name f.plainName (f.shape.fill filler (marks.below (.field f.name)))
        (if marks [.field f.name] then some (filler f.shape) else none)
        (insideFields filler rest marks es) := rfl

end Shape

/-! ### Fields after a change -/

section

variable (k : String) (es : Entries)

theorem lookupText_append (es' : Entries) : Value.lookupText k (es ++ es') =
    (Value.lookupText k es).or (Value.lookupText k es') := by
  induction es with
  | nil => rfl
  | cons e rest ih =>
    obtain ⟨key, v⟩ := e
    cases key with
    | text name =>
      by_cases hname : name = k
      · simp [Value.lookupText, hname]
      · simpa [Value.lookupText, hname] using ih
    | _ => exact ih

theorem lookupText_changeText (name : String) (f : Value → Value) :
    Value.lookupText k (changeText name f es) =
      if name = k then (Value.lookupText k es).map f else Value.lookupText k es := by
  induction es with
  | nil => exact (ite_self none).symm
  | cons e rest ih =>
    obtain ⟨key, v⟩ := e
    cases key with
    | text name' =>
      by_cases hname : name' = name
      · subst hname
        by_cases hk : name' = k <;> simp [changeText, Value.lookupText, hk]
      · by_cases hk : name' = k
        · subst hk
          simp [changeText, Value.lookupText, hname, Ne.symm hname]
        · simpa [changeText, Value.lookupText, hname, hk] using ih
    | _ => exact ih

variable {k}

theorem lookupText_changeField_ne {name plainName : String} (hname : k ≠ name)
    (hplain : k ≠ plainName) (f : Value → Value) (new? : Option Value) :
    Value.lookupText k (changeField name plainName f new? es) = Value.lookupText k es := by
  unfold changeField
  split
  · rename_i found v hfound
    have hne : found ≠ k := by
      rintro rfl
      unfold fieldValue? at hfound
      split at hfound
      · exact hname (congrArg Prod.fst (Option.some.inj hfound)).symm
      · exact hplain (congrArg Prod.fst (Option.some.inj hfound)).symm
      · cases hfound
    rw [lookupText_changeText, if_neg hne]
  · cases new? with
    | none => rw [Option.map_none, Option.toList_none, List.append_nil]
    | some new =>
      rw [lookupText_append]
      simp [Value.lookupText, hname.symm]

end

namespace Field

variable {σ : Type} {f : Field σ} {es es' : Entries}

theorem value?_congr (h : ∀ k ∈ f.names, Value.lookupText k es = Value.lookupText k es') :
    f.value? es = f.value? es' := by
  rw [value?, value?, fieldValue?, fieldValue?, h f.name (by simp [names]),
    h f.plainName (by simp [names])]

/-- A field that is there is changed, and one that is missing is new. -/
theorem value?_changeField (f : Field σ) (g : Value → Value) (new? : Option Value) (es : Entries) :
    f.value? (changeField f.name f.plainName g new? es) = ((f.value? es).map g).or new? := by
  unfold value? changeField fieldValue?
  cases hname : Value.lookupText f.name es with
  | some v => simp [lookupText_changeText, hname]
  | none =>
    cases hplain : Value.lookupText f.plainName es with
    | some v =>
      have hne : f.plainName ≠ f.name := by
        intro heq
        rw [heq, hname] at hplain
        cases hplain
      simp [lookupText_changeText, hname, hplain, hne]
    | none =>
      cases new? with
      | none => simp [hname, hplain]
      | some new => simp [lookupText_append, hname, Value.lookupText]

end Field

namespace Shape

variable (filler : Shape → Value) {fields : List (Field Shape)} (marks : Marks) (es : Entries)

theorem lookupText_insideFields {k : String} (h : ∀ f ∈ fields, k ∉ f.names) :
    Value.lookupText k (insideFields filler fields marks es) = Value.lookupText k es := by
  induction fields with
  | nil => rfl
  | cons f rest ih =>
    obtain ⟨hf, hrest⟩ := List.forall_mem_cons.mp h
    simp only [Field.names, List.mem_cons, List.not_mem_nil, or_false, not_or] at hf
    rw [insideFields_cons, lookupText_changeField_ne _ hf.1 hf.2, ih hrest]

/-- Each field is filled as if it were the only one. -/
theorem value?_insideFields (h : Distinct fields) {f : Field Shape} (hf : f ∈ fields) :
    f.value? (insideFields filler fields marks es) =
      ((f.value? es).map (f.shape.fill filler (marks.below (.field f.name)))).or
        (if marks [.field f.name] then some (filler f.shape) else none) := by
  induction fields with
  | nil => cases hf
  | cons g rest ih =>
    obtain ⟨hg, hrest⟩ := List.pairwise_cons.mp h
    rw [insideFields_cons]
    rcases List.mem_cons.mp hf with rfl | hf
    · have hsame : f.value? (insideFields filler rest marks es) = f.value? es :=
        Field.value?_congr fun k hk =>
          lookupText_insideFields filler marks es fun f' hf' => hg f' hf' k hk
      rw [Field.value?_changeField, hsame]
    · refine (Field.value?_congr fun k hk => ?_).trans (ih hrest hf)
      refine lookupText_changeField_ne _ ?_ ?_ _ _
      · rintro rfl
        exact hg f hf g.name (by simp [Field.names]) hk
      · rintro rfl
        exact hg f hf g.plainName (by simp [Field.names]) hk

end Shape

/-! ### What stands where after filling -/

theorem items?_mapItems (f : Nat → Value → Value) (v : Value) :
    items? (mapItems f v) = (items? v).map (·.mapIdx f) := by
  cases v <;> rfl

theorem items?_inside {s : Shape} {filler : Shape → Value} {marks : Marks} {v : Value}
    {items : List Value} (h : items? v = some items) :
    items? ((Shape.list s).inside filler marks v) =
      some (items.mapIdx fun n x => s.fill filler (marks.below (.nth n)) x) := by
  rw [Shape.inside, items?_mapItems, h]
  rfl

namespace Shape

variable {s : Shape} {filler : Shape → Value} {marks : Marks} {v x : Value} {part : Part}
  {t : Shape}

theorem part?_record_inside {fields : List (Field Shape)} (h : Distinct fields)
    {f : Field Shape} (hf : f ∈ fields) (es : Entries) :
    (record fields).part? ((record fields).inside filler marks (.map es)) (.field f.name) =
      (((f.value? es).map (f.shape.fill filler (marks.below (.field f.name)))).or
        (if marks [.field f.name] then some (filler f.shape) else none)).map (f.shape, ·) := by
  rw [inside, part?, find?_of_distinct h hf, ← value?_insideFields filler marks es h hf]
  rfl

/-- A part that is there is filled on its own. -/
theorem part?_inside (hs : s.Proper) (h : s.part? v part = some (t, x)) :
    s.part? (s.inside filler marks v) part = some (t, t.fill filler (marks.below part) x) := by
  cases isPart_of_part? h with
  | item hitems hx =>
    rw [part?, items?_inside hitems, Option.bind_some, List.getElem?_mapIdx, hx]
    rfl
  | value hx =>
    rw [inside, mapValues, part?, List.getElem?_mapIdx, hx]
    rfl
  | field hf hx =>
    cases hs with
    | record hdistinct hfields =>
      rw [part?_record_inside hdistinct hf, hx]
      rfl

/-- A part that is not there is new if it is marked and may be there. -/
theorem part?_inside_of_none (hs : s.Proper) (h : s.part? v part = none) :
    s.part? (s.inside filler marks v) part =
      if marks [part] then (s.slotAt? v part).map fun t => (t, filler t) else none := by
  cases hs with
  | leaf => simp [part?, slotAt?]
  | list hitem =>
    cases part with
    | field name => simp [part?, slotAt?]
    | nth n =>
      have hnone : (items? v).bind (·[n]?) = none := Option.map_eq_none_iff.mp h
      rw [slotAt?, hnone, inside, part?, items?_mapItems]
      cases hitems : items? v with
      | none => simp
      | some items =>
        rw [hitems, Option.bind_some] at hnone
        simp [hnone]
  | map hvalue =>
    cases part with
    | field name => simp [part?, slotAt?]
    | nth n =>
      cases v with
      | map es =>
        have hnone : es[n]? = none := Option.map_eq_none_iff.mp h
        rw [slotAt?, hnone, inside, mapValues, part?]
        simp [hnone]
      | _ => simp [part?, slotAt?, inside, mapValues]
  | @record fields hdistinct hfields =>
    cases part with
    | nth n => simp [part?, slotAt?]
    | field name =>
      cases v with
      | map es =>
        cases hfind : fields.find? (·.name = name) with
        | none => simp [inside, part?, slotAt?, hfind]
        | some f =>
          obtain ⟨hf, rfl⟩ := mem_of_find? hfind
          have hnone : f.value? es = none := by
            rw [part?, hfind] at h
            exact Option.map_eq_none_iff.mp h
          rw [part?_record_inside hdistinct hf, hnone, slotAt?, hfind]
          simp only [Option.map_none, Option.none_or, Option.map_some]
          split <;> rfl
      | _ => simp [inside, part?, slotAt?]

theorem inside_eq_null_iff : s.inside filler marks v = .null ↔ v = .null := by
  cases s <;> cases v <;> simp [inside, mapItems, mapValues]

/-- At a marked place stands what it was filled with. -/
theorem at?_fill_of_marked (hs : s.Proper) {place : Place} (hclear : marks.ClearAbove place)
    (hmarked : marks place = true) (h : s.slot? v place = some t) :
    s.at? (s.fill filler marks v) place = some (t, filler t) := by
  induction place generalizing s v marks with
  | nil =>
    obtain rfl := Option.some.inj h
    rw [fill, if_pos hmarked, at?]
  | cons part rest ih =>
    obtain ⟨hroot, hbelow⟩ := Marks.clearAbove_cons.mp hclear
    rw [fill, hroot, if_neg Bool.false_ne_true, at?]
    cases hpart : s.part? v part with
    | some p =>
      obtain ⟨u, x⟩ := p
      rw [part?_inside hs hpart]
      exact ih (hs.of_part? hpart) hbelow hmarked ((slot?_of_part? hs hpart rest).symm.trans h)
    | none =>
      obtain ⟨rfl, hslot⟩ := (slot?_of_none hpart rest).mp h
      rw [part?_inside_of_none hs hpart, if_pos hmarked, hslot]
      rfl

/-- Where no part is, null is new in place of the part only, and only if it is marked. -/
theorem null_at_inside_iff_of_none (hs : s.Proper) (h : s.part? v part = none) (rest : Place) :
    s.at? (s.inside nothing marks v) (part :: rest) = some (t, .null) ↔
      marks [part] = true ∧ s.slot? v (part :: rest) = some t := by
  rw [slot?_of_none h, at?, part?_inside_of_none hs h]
  by_cases hmarked : marks [part] = true
  · rw [if_pos hmarked]
    cases s.slotAt? v part <;> simp [hmarked, nothing, at?_null_iff]
  · simp [hmarked]

/-- After filling with null, null stands at the marked places, and where it stood before. -/
theorem null_at_fill_iff (hs : s.Proper) {place : Place} :
    s.at? (s.fill nothing marks v) place = some (t, .null) ↔
      marks.ClearAbove place ∧
        (marks place = true ∧ s.slot? v place = some t ∨ s.at? v place = some (t, .null)) := by
  induction place generalizing s v marks with
  | nil =>
    by_cases hroot : marks [] = true
    · simpa [fill, hroot, at?, slot?, nothing, Marks.clearAbove_nil] using fun h _ => h
    · simp [fill, hroot, at?, Marks.clearAbove_nil, inside_eq_null_iff]
  | cons part rest ih =>
    rw [Marks.clearAbove_cons]
    by_cases hroot : marks [] = true
    · simp [fill, hroot, at?_null_iff, nothing]
    · rw [fill, if_neg hroot]
      cases hpart : s.part? v part with
      | some p =>
        obtain ⟨u, x⟩ := p
        rw [at?, part?_inside hs hpart, Option.bind_some, ih (hs.of_part? hpart)]
        rw [slot?_of_part? hs hpart, at?, hpart]
        simp [hroot, Marks.below]
      | none =>
        rw [null_at_inside_iff_of_none hs hpart, at?, hpart, slot?_of_none hpart]
        constructor
        · rintro ⟨hmarked, rfl, hslot⟩
          exact ⟨⟨Bool.eq_false_iff.mpr hroot, Marks.clearAbove_nil _⟩, .inl ⟨hmarked, rfl, hslot⟩⟩
        · rintro ⟨-, ⟨hmarked, rfl, hslot⟩ | h⟩
          · exact ⟨hmarked, rfl, hslot⟩
          · cases h

end Shape
end Schema
end Replatform
