import Replatform.Proofs.OrderedMap
import Replatform.Schema.Reader
import Replatform.Yaml.Tree

/-! # Reading trees of texts

A tree that was made from a list, a map or the fields of a section is read back as that, if its
parts are.  A field that says nothing may be missing where nothing is its default.
-/
namespace Replatform

/-- The words of the set are made of characters. -/
class Term.Spelled (α : Type) [Term α] : Prop where
  hasSurrogate_word : ∀ a : α, Text.hasSurrogate (Term.word a).toList = false

instance : Term.Spelled Strategy := ⟨by intro a; cases a <;> decide⟩

instance : Term.Spelled BuildMethod := ⟨by intro a; cases a <;> decide⟩

instance : Term.Spelled SourceKind := ⟨by intro a; cases a <;> decide⟩

instance : Term.Spelled SourceArtifact := ⟨by intro a; cases a <;> decide⟩

instance : Term.Spelled BuildArtifact := ⟨by intro a; cases a; decide⟩

instance : Term.Spelled TargetArtifact := ⟨by intro a; cases a; decide⟩

namespace Schema

open Yaml (Tree)

/-! ### Checks that succeed -/

namespace Checked

variable {α β : Type}

theorem map_eq_ok {f : α → β} {c : Checked α} {b : β} :
    f <$> c = .ok b ↔ ∃ a, c = .ok a ∧ f a = b := by
  cases c with
  | ok a => exact ⟨fun h => ⟨a, rfl, ok.inj h⟩, fun ⟨_, ha, hb⟩ => ok.inj ha ▸ congrArg ok hb⟩
  | faulty is => exact ⟨nofun, nofun⟩

theorem seq_eq_ok {f : Checked (α → β)} {c : Checked α} {b : β} :
    f <*> c = .ok b ↔ ∃ g a, f = .ok g ∧ c = .ok a ∧ g a = b := by
  cases f with
  | ok g =>
    cases c with
    | ok a =>
      exact ⟨fun h => ⟨g, a, rfl, rfl, ok.inj h⟩,
        fun ⟨_, _, hg, ha, hb⟩ => ok.inj hg ▸ ok.inj ha ▸ congrArg ok hb⟩
    | faulty is => exact ⟨nofun, nofun⟩
  | faulty is => cases c <;> exact ⟨nofun, nofun⟩

theorem bind_eq_ok {f : α → Checked β} {c : Checked α} {b : β} :
    c.bind f = .ok b ↔ ∃ a, c = .ok a ∧ f a = .ok b := by
  cases c with
  | ok a => exact ⟨fun h => ⟨a, rfl, h⟩, fun ⟨_, ha, hb⟩ => ok.inj ha ▸ hb⟩
  | faulty is => exact ⟨nofun, nofun⟩

theorem under_eq_ok {step : Step} {c : Checked α} {a : α} : c.under step = .ok a ↔ c = .ok a := by
  cases c with
  | ok a => exact Iff.rfl
  | faulty is => exact ⟨nofun, nofun⟩

end Checked

/-- A field is its default or what was read of some value. -/
theorem optional_eq_ok {α : Type} {default a : α} {name plainName : String} {read : Reader α}
    {es : Entries} (h : optional default name plainName read es = .ok a) :
    a = default ∨ ∃ v, read v = .ok a := by
  unfold optional at h
  split at h
  · rename_i found v hfound
    exact Or.inr ⟨v, Checked.under_eq_ok.mp h⟩
  · exact Or.inl (Checked.ok.inj h).symm

namespace Reader

theorem term_word {α : Type} [Term α] [Term.Spelled α] (a : α) :
    (term : Reader α) (.text (Term.word a)) = .ok a := by
  have hbroken : isBroken (.text (Term.word a)) = false := Term.Spelled.hasSurrogate_word a
  have hword : (text (.text (Term.word a))).result?.bind Term.ofWord? = some a :=
    Term.ofWord?_word a
  simp only [term, hbroken, Bool.false_eq_true, if_false, hword]

/-! ### Lists and maps -/

theorem readItems_toValues {α : Type} {read : Reader α} {form : α → Tree} {as : List α}
    (h : ∀ a ∈ as, read (form a).toValue = .ok a) (n : Int) :
    readItems read n (Tree.toValues (as.map form)) = .ok as := by
  induction as generalizing n with
  | nil => rfl
  | cons a rest ih =>
    have hrest := ih (fun b hb => h b (List.mem_cons_of_mem a hb)) (n + 1)
    simp only [List.map_cons, Tree.toValues, readItems, h a List.mem_cons_self, hrest]
    rfl

theorem listOrNull_toValue {α : Type} {read : Reader α} {form : α → Tree} {as : List α}
    (h : ∀ a ∈ as, read (form a).toValue = .ok a) :
    listOrNull read (Tree.list (as.map form)).toValue = .ok as :=
  readItems_toValues h 0

theorem readEntries_toEntries {κ α : Type} {key : Reader κ} {read : Reader α} {label : κ → String}
    {form : α → Tree} {es : List (κ × α)} (hkey : ∀ e ∈ es, key (.text (label e.1)) = .ok e.1)
    (hread : ∀ e ∈ es, read (form e.2).toValue = .ok e.2) :
    readEntries key read (Tree.toEntries (es.map fun e => (label e.1, form e.2))) = .ok es := by
  induction es with
  | nil => rfl
  | cons e rest ih =>
    have hrest := ih (fun b hb => hkey b (List.mem_cons_of_mem e hb))
      (fun b hb => hread b (List.mem_cons_of_mem e hb))
    simp only [List.map_cons, Tree.toEntries, readEntries, hkey e List.mem_cons_self,
      hread e List.mem_cons_self, hrest]
    rfl

theorem mapOrNull_toValue {κ α : Type} [DecidableEq κ] {key : Reader κ} {read : Reader α}
    {label : κ → String} {form : α → Tree} {m : OrderedMap κ α}
    (hkey : ∀ e ∈ m.entries, key (.text (label e.1)) = .ok e.1)
    (hread : ∀ e ∈ m.entries, read (form e.2).toValue = .ok e.2) :
    mapOrNull key read (Yaml.Tree.map (m.entries.map fun e => (label e.1, form e.2))).toValue =
      .ok m := by
  show (readEntries key read (Tree.toEntries _)).map OrderedMap.ofList = .ok m
  rw [readEntries_toEntries hkey hread]
  exact congrArg Checked.ok (OrderedMap.ofList_entries m)

end Reader

/-! ### Fields -/

theorem lookupText_toEntries (name : String) (fields : List (String × Tree)) :
    Value.lookupText name (Tree.toEntries fields) =
      (OrderedMap.find? name fields).map Tree.toValue := by
  induction fields with
  | nil => rfl
  | cons f rest ih =>
    obtain ⟨name', t⟩ := f
    by_cases h : name' = name
    · simp [Tree.toEntries, Value.lookupText, OrderedMap.find?, h]
    · simp [Tree.toEntries, Value.lookupText, OrderedMap.find?, h, ih]

theorem nodup_filter_fields {fields : List (String × Tree)} (h : (fields.map Prod.fst).Nodup)
    (keep : String × Tree → Bool) : ((fields.filter keep).map Prod.fst).Nodup :=
  h.sublist (List.filter_sublist.map Prod.fst)

/-- A field that is kept is found by its name. -/
theorem fieldValue?_of_mem {name plainName : String} {t : Tree} {fields : List (String × Tree)}
    {keep : String × Tree → Bool} (hfields : (fields.map Prod.fst).Nodup)
    (ht : (name, t) ∈ fields) (hkeep : keep (name, t) = true) :
    fieldValue? name plainName (Tree.toEntries (fields.filter keep)) = some (name, t.toValue) := by
  have hfind : OrderedMap.find? name (fields.filter keep) = some t :=
    OrderedMap.find?_of_mem (nodup_filter_fields hfields keep) (List.mem_filter.mpr ⟨ht, hkeep⟩)
  rw [fieldValue?, lookupText_toEntries, hfind]
  rfl

/-- A field that is not kept is not found, under neither name. -/
theorem fieldValue?_eq_none {name plainName : String} {t : Tree} {fields : List (String × Tree)}
    {keep : String × Tree → Bool} (hfields : (fields.map Prod.fst).Nodup)
    (ht : (name, t) ∈ fields) (hkeep : keep (name, t) = false)
    (hplain : plainName = name ∨ plainName ∉ fields.map Prod.fst) :
    fieldValue? name plainName (Tree.toEntries (fields.filter keep)) = none := by
  have hname : OrderedMap.find? name (fields.filter keep) = none := by
    refine OrderedMap.find?_eq_none.mpr fun hmem => ?_
    obtain ⟨⟨name', t'⟩, hf, rfl⟩ := List.mem_map.mp hmem
    obtain ⟨hf, hkeep'⟩ := List.mem_filter.mp hf
    have ht' : t' = t := by
      have h := OrderedMap.find?_of_mem hfields ht
      rw [OrderedMap.find?_of_mem hfields hf] at h
      exact Option.some.inj h
    rw [ht', hkeep] at hkeep'
    cases hkeep'
  have hother : OrderedMap.find? plainName (fields.filter keep) = none := by
    rcases hplain with rfl | hplain
    · exact hname
    · refine OrderedMap.find?_eq_none.mpr fun hmem => hplain ?_
      exact (List.filter_sublist.map Prod.fst).subset hmem
  rw [fieldValue?, lookupText_toEntries, lookupText_toEntries, hname, hother]
  rfl

/-- A field that is dropped only if it says nothing is read back, if nothing is its default. -/
theorem optional_of_mem {α : Type} {default a : α} {name plainName : String} {read : Reader α}
    {t : Tree} {fields : List (String × Tree)} {keep : String × Tree → Bool}
    (hfields : (fields.map Prod.fst).Nodup) (ht : (name, t) ∈ fields)
    (hplain : plainName = name ∨ plainName ∉ fields.map Prod.fst)
    (hkeep : keep (name, t) = false → default = a) (hread : read t.toValue = .ok a) :
    optional default name plainName read (Tree.toEntries (fields.filter keep)) = .ok a := by
  unfold optional
  cases hk : keep (name, t) with
  | true =>
    rw [fieldValue?_of_mem hfields ht hk]
    show (read t.toValue).under (.key name) = .ok a
    rw [hread]
    rfl
  | false =>
    rw [fieldValue?_eq_none hfields ht hk hplain, hkeep hk]

/-- A field of a section from which nothing is dropped is read back. -/
theorem optional_of_field {α : Type} {default a : α} {name plainName : String} {read : Reader α}
    {t : Tree} {fields : List (String × Tree)} (hfields : (fields.map Prod.fst).Nodup)
    (ht : (name, t) ∈ fields) (hread : read t.toValue = .ok a) :
    optional default name plainName read (Tree.toEntries fields) = .ok a := by
  have hfind : OrderedMap.find? name fields = some t := OrderedMap.find?_of_mem hfields ht
  rw [optional, fieldValue?, lookupText_toEntries, hfind]
  show (read t.toValue).under (.key name) = .ok a
  rw [hread]
  rfl

/-- A field that is not dropped is read back. -/
theorem required_of_mem {α : Type} {a : α} {name plainName : String} {read : Reader α} {t : Tree}
    {fields : List (String × Tree)} {keep : String × Tree → Bool}
    (hfields : (fields.map Prod.fst).Nodup) (ht : (name, t) ∈ fields)
    (hkeep : keep (name, t) = true) (hread : read t.toValue = .ok a) :
    required name plainName read (Tree.toEntries (fields.filter keep)) = .ok a := by
  unfold required
  rw [fieldValue?_of_mem hfields ht hkeep]
  show (read t.toValue).under (.key name) = .ok a
  rw [hread]
  rfl

end Schema
end Replatform
