import Replatform.Document.Basic
import Replatform.Proofs.Text.Surrogate

/-! # Which issues cannot be worded

The wording of a rule may quote the text that breaks it, and a text with a surrogate can be
quoted nowhere.  Of all checks of a document only the rule about its kind quotes a text; so a
document whose issues cannot be reported is one whose kind holds a surrogate.
-/
namespace Replatform

namespace Utf8

/-- A text cannot be written exactly if it has a surrogate. -/
theorem isSome_obstacle? (cs : List Char) : (obstacle? cs).isSome = Text.hasSurrogate cs := by
  unfold obstacle? Text.hasSurrogate
  induction Text.codes cs with
  | nil => rfl
  | cons n rest ih =>
    cases hn : Text.isSurrogate n with
    | true => simp [hn]
    | false =>
      simp only [List.dropWhile_cons, List.any_cons, hn, Bool.not_false, if_true, Bool.false_or, ← ih]
      split <;> rfl

end Utf8

namespace Schema

variable {α β κ : Type}

/-! ### Checks -/

namespace Checked

/-- What keeps the first issue that cannot be worded from being so. -/
def obstacle? : Checked α → Option Utf8.Obstacle
  | .ok _ => none
  | .faulty is => is.findSome? Issue.obstacle?

@[simp] theorem obstacle?_ok (a : α) : (ok a).obstacle? = none := rfl

@[simp] theorem obstacle?_map (f : α → β) (c : Checked α) : (c.map f).obstacle? = c.obstacle? := by
  cases c <;> rfl

@[simp] theorem obstacle?_fmap (f : α → β) (c : Checked α) : (f <$> c).obstacle? = c.obstacle? :=
  obstacle?_map f c

@[simp] theorem obstacle?_ap (f : Checked (α → β)) (c : Checked α) :
    (f.ap c).obstacle? = f.obstacle?.or c.obstacle? := by
  cases f with
  | ok f => cases c <;> rfl
  | faulty is =>
    cases c with
    | ok a => exact (Option.or_none).symm
    | faulty js => exact List.findSome?_append

@[simp] theorem obstacle?_seq (f : Checked (α → β)) (c : Checked α) :
    (f <*> c).obstacle? = f.obstacle?.or c.obstacle? :=
  obstacle?_ap f c

@[simp] theorem obstacle?_under (step : Step) (c : Checked α) :
    (c.under step).obstacle? = c.obstacle? := by
  cases c with
  | ok a => rfl
  | faulty is =>
    show (is.map _).findSome? Issue.obstacle? = is.findSome? Issue.obstacle?
    rw [List.findSome?_map]
    rfl

end Checked

/-! ### Readers -/

/-- All issues that the reader finds can be worded. -/
def Reader.Worded (read : Reader α) : Prop := ∀ v, (read v).obstacle? = none

namespace Reader

theorem worded_text : Worded text := by
  intro v
  cases v <;> try rfl
  rw [text]
  split <;> rfl

theorem obstacle?_flagOfWord (word : List Char) : (flagOfWord word).obstacle? = none := by
  rw [flagOfWord]
  split <;> rfl

theorem obstacle?_flagOfInt (n : Int) : (flagOfInt n).obstacle? = none := by
  rw [flagOfInt]
  split
  · rfl
  · split
    · rfl
    · split <;> rfl

theorem worded_flag : Worded flag := by
  intro v
  cases v with
  | int n => exact obstacle?_flagOfInt n
  | float x =>
    rw [flag]
    split
    · split
      · rfl
      · exact obstacle?_flagOfInt _
    · rfl
  | text s =>
    rw [flag]
    split
    · rfl
    · exact obstacle?_flagOfWord _
  | bytes bs =>
    rw [flag]
    split
    · exact obstacle?_flagOfWord _
    · rfl
  | _ => rfl

theorem worded_term [Term α] : Worded (term : Reader α) := by
  intro v
  rw [term]
  split
  · rfl
  · split <;> rfl

variable {read : Reader α}

theorem obstacle?_readItems (h : Worded read) (n : Int) (vs : List Value) :
    (readItems read n vs).obstacle? = none := by
  induction vs generalizing n with
  | nil => rfl
  | cons v rest ih => simp [readItems, h v, ih]

theorem obstacle?_readEntries {key : Reader κ} (hkey : Worded key) (h : Worded read) (es : Entries) :
    (readEntries key read es).obstacle? = none := by
  induction es with
  | nil => rfl
  | cons e rest ih => simp [readEntries, hkey e.1, h e.2, ih]

theorem worded_orElse {default : α} (h : Worded read) : Worded (orElse default read) := by
  intro v
  cases v with
  | null => rfl
  | _ => exact h _

theorem worded_listOrNull (h : Worded read) : Worded (listOrNull read) := by
  refine worded_orElse fun v => ?_
  cases v with
  | list items => exact obstacle?_readItems h 0 items
  | pair a b => exact obstacle?_readItems h 0 [a, b]
  | set items => exact obstacle?_readItems h 0 items
  | _ => rfl

theorem worded_mapOrNull [DecidableEq κ] {key : Reader κ} (hkey : Worded key) (h : Worded read) :
    Worded (mapOrNull key read) := by
  refine worded_orElse fun v => ?_
  cases v with
  | map es => exact (Checked.obstacle?_map _ _).trans (obstacle?_readEntries hkey h es)
  | _ => rfl

theorem worded_fields {read : Entries → Checked α} (h : ∀ es, (read es).obstacle? = none) :
    Worded (fields read) := by
  intro v
  cases v with
  | map es => exact h es
  | _ => rfl

end Reader

theorem obstacle?_optional {default : α} {name plainName : String} {read : Reader α}
    (h : read.Worded) (es : Entries) : (optional default name plainName read es).obstacle? = none := by
  rw [optional]
  split
  · rw [Checked.obstacle?_under, h]
  · rfl

theorem obstacle?_required {name plainName : String} {read : Reader α} (h : read.Worded)
    (es : Entries) : (required name plainName read es).obstacle? = none := by
  rw [required]
  split
  · rw [Checked.obstacle?_under, h]
  · rfl

end Schema

namespace Document

open Schema Reader

theorem worded_readArtifacts {κ : Type} [DecidableEq κ] [Term κ] :
    Worded (readArtifacts : Reader (OrderedMap κ (List String))) :=
  worded_mapOrNull worded_term (worded_listOrNull worded_text)

theorem worded_readRepo : Worded (fields readRepo) :=
  worded_fields fun es => by simp [readRepo, obstacle?_optional worded_text]

theorem worded_readService : Worded (fields readService) :=
  worded_fields fun es => by
    simp [readService, obstacle?_required worded_text, obstacle?_optional worded_text,
      obstacle?_required worded_term, obstacle?_optional (worded_listOrNull worded_term),
      obstacle?_optional (worded_listOrNull worded_text), obstacle?_optional worded_flag,
      obstacle?_optional worded_readArtifacts, obstacle?_optional worded_readRepo]

theorem worded_readInputs : Worded (fields Inputs.read) :=
  worded_fields fun es => by
    simp [Inputs.read, obstacle?_optional worded_text,
      obstacle?_optional (worded_listOrNull worded_text),
      obstacle?_optional (worded_mapOrNull worded_text (worded_listOrNull worded_readService)),
      obstacle?_optional worded_readArtifacts]

theorem worded_readOutput : Worded (fields readOutput) := by
  have hcluster : Worded (fields readCluster) :=
    worded_fields fun es => by simp [readCluster, obstacle?_optional worded_text]
  exact worded_fields fun es => by
    simp [readOutput, obstacle?_optional worded_text, obstacle?_optional worded_flag,
      obstacle?_optional hcluster]

theorem worded_readSpec : Worded (fields readSpec) := by
  have houtputs : Worded (fields readOutputs) :=
    worded_fields fun es => obstacle?_optional worded_readOutput es
  exact worded_fields fun es => by
    simp [readSpec, obstacle?_optional worded_readInputs, obstacle?_optional houtputs]

theorem worded_readMetadata : Worded (fields readMetadata) :=
  worded_fields fun es => obstacle?_optional worded_text es

/-- A wrong kind cannot be worded exactly if it has a surrogate. -/
theorem isSome_obstacle?_checkKind (kind : String) :
    (checkKind kind).obstacle?.isSome = Text.hasSurrogate kind.toList := by
  by_cases h : kind = Plan.standardKind
  · rw [checkKind, if_pos h, h]
    decide
  · have hwording : ("Expected kind '" ++ Plan.standardKind ++ "', got '" ++ kind ++ "'").toList =
        "Expected kind 'Plan', got '".toList ++ (kind.toList ++ ['\'']) := by
      simp [Plan.standardKind]
    have hobstacle : (checkKind kind).obstacle? = Utf8.obstacle?
        ("Expected kind '" ++ Plan.standardKind ++ "', got '" ++ kind ++ "'").toList := by
      rw [checkKind, if_neg h]
      exact (List.findSome?_singleton ..)
    rw [hobstacle, Utf8.isSome_obstacle?, hwording, Text.hasSurrogate_append (by decide),
      Text.hasSurrogate_quoted]

/-- The issues of a document can be worded unless its kind is a text with a surrogate. -/
theorem isSome_obstacle?_readEntries (es : Entries) :
    (readEntries es).obstacle?.isSome = true ↔
      ∃ kind, Value.lookupText "kind" es = some (.text kind) ∧ Text.hasSurrogate kind.toList = true := by
  have hkind : (readEntries es).obstacle? = (optional Plan.standardKind "kind" "kind"
      (fun v => (Reader.text v).bind checkKind) es).obstacle? := by
    simp [readEntries, obstacle?_optional worded_text, obstacle?_optional worded_readMetadata,
      obstacle?_optional worded_readSpec]
  rw [hkind, Schema.optional, fieldValue?]
  cases hv : Value.lookupText "kind" es with
  | none => simp
  | some v =>
    cases v with
    | text kind =>
      show ((checkKind kind).under _).obstacle?.isSome = true ↔ _
      simp [isSome_obstacle?_checkKind]
    | bytes bs =>
      show (((Reader.text (.bytes bs)).bind checkKind).under _).obstacle?.isSome = true ↔ _
      rw [Checked.obstacle?_under, Reader.text]
      cases Utf8.decode bs with
      | error fault => simp [Checked.bind, Checked.fail, Checked.obstacle?, Issue.obstacle?]
      | ok cs =>
        show (checkKind (String.ofList (Text.ofChars cs))).obstacle?.isSome = true ↔ _
        rw [isSome_obstacle?_checkKind, String.toList_ofList, Text.hasSurrogate_ofChars]
        simp
    | _ => simp [Checked.obstacle?, Reader.text, Checked.bind, Checked.fail, Checked.under, Issue.obstacle?]

end Document
end Replatform
