import Replatform.Yaml.Meaning

/-! # Sets in YAML texts

A set has its elements in no order, and a loader goes through them in one of its own.  This is all
that the value of a text takes from there: two loaders with the same room find one value, if there
is no set in it.
-/
namespace Replatform

/-- A set is a part of the value. -/
inductive Value.HasSet : Value → Prop
  | set (items : List Value) : HasSet (.set items)
  | item {items : List Value} {v : Value} (hmem : v ∈ items) (h : HasSet v) : HasSet (.list items)
  | first {v : Value} (w : Value) (h : HasSet v) : HasSet (.pair v w)
  | second (v : Value) {w : Value} (h : HasSet w) : HasSet (.pair v w)
  | entry {es : List (Value × Value)} {k v : Value} (hmem : (k, v) ∈ es) (h : HasSet v) :
    HasSet (.map es)

namespace Yaml

/-- The second value is the first, unless there is a set in that. -/
def SameButSets (v w : Value) : Prop := ¬v.HasSet → w = v

variable {sets sets' : List Value → List Value}

/-- A collection whose parts are the same but for sets is so itself. -/
theorem Meaning.value_sameButSets {values values' : Array Value}
    (h : ∀ id, SameButSets (value.of values id) (value.of values' id)) (m : Meaning) :
    SameButSets (m.value sets values) (m.value sets' values') := by
  intro hset
  cases m with
  | scalar k => rfl
  | list ids =>
    refine congrArg Value.list (List.map_congr_left fun id hid => h id fun hpart => hset ?_)
    exact .item (List.mem_map_of_mem hid) hpart
  | pairs es =>
    refine congrArg Value.list (List.map_congr_left fun e he => ?_)
    have hmem := List.mem_map_of_mem (f := fun e : NodeId × NodeId =>
      Value.pair (value.of values e.1) (value.of values e.2)) he
    have hfirst := h e.1 fun hpart => hset (.item hmem (.first _ hpart))
    have hsecond := h e.2 fun hpart => hset (.item hmem (.second _ hpart))
    dsimp only
    rw [hfirst, hsecond]
  | set ks => exact absurd (.set _) hset
  | map es =>
    refine congrArg Value.map (List.map_congr_left fun e he => ?_)
    have hmem := List.mem_map_of_mem (f := fun e : Key × NodeId =>
      (e.1.value, value.of values e.2)) he
    exact congrArg (Prod.mk e.1.value) (h e.2 fun hpart => hset (.entry hmem hpart))

/-- The values of all nodes are the same but for sets. -/
structure AlikeButSets (values values' : Array Value) : Prop where
  size : values'.size = values.size
  value : ∀ id, SameButSets (Meaning.value.of values id) (Meaning.value.of values' id)

theorem AlikeButSets.refl (values : Array Value) : AlikeButSets values values :=
  ⟨rfl, fun _ _ => rfl⟩

theorem AlikeButSets.setIfInBounds {values values' : Array Value}
    (h : AlikeButSets values values') {v w : Value} (hvw : SameButSets v w) (id : NodeId) :
    AlikeButSets (values.setIfInBounds id v) (values'.setIfInBounds id w) := by
  refine ⟨by rw [Array.size_setIfInBounds, Array.size_setIfInBounds, h.size], fun i => ?_⟩
  have hi := h.value i
  unfold Meaning.value.of at hi ⊢
  rw [Array.getElem?_setIfInBounds, Array.getElem?_setIfInBounds, h.size]
  by_cases hid : id = i
  · rw [if_pos hid, if_pos hid]
    split
    · exact hvw
    · exact fun _ => rfl
  · rwa [if_neg hid, if_neg hid]

theorem AlikeButSets.unfold {values values' : Array Value} (h : AlikeButSets values values')
    (meanings : Array (Option Meaning)) (order : List NodeId) :
    AlikeButSets (unfold sets meanings order values) (unfold sets' meanings order values') := by
  induction order generalizing values values' with
  | nil => exact h
  | cons id order ih =>
    refine ih ?_
    dsimp only
    split
    · rename_i m hm
      exact h.setIfInBounds (m.value_sameButSets h.value) id
    · exact h

theorem AlikeButSets.foldl_unfold {values values' : Array Value}
    (h : AlikeButSets values values') (meanings : Array (Option Meaning)) (order : List NodeId)
    (levels : List Nat) :
    AlikeButSets
      (levels.foldl (fun values _ => Yaml.unfold sets meanings order values) values)
      (levels.foldl (fun values _ => Yaml.unfold sets' meanings order values) values') := by
  induction levels generalizing values values' with
  | nil => exact h
  | cons _ levels ih => exact ih (h.unfold meanings order)

variable {loader loader' : Loader}

theorem Parsed.value_of_not_hasSet (hchain : loader'.chain = loader.chain) {p : Parsed} {v : Value}
    (h : p.value loader = .ok v) (hset : ¬v.HasSet) : p.value loader' = .ok v := by
  unfold Parsed.value at h ⊢
  rw [hchain]
  cases hmeanings : p.meanings loader.chain with
  | error fault =>
    rw [hmeanings] at h
    cases h
  | ok meanings =>
    rw [hmeanings] at h
    have halike := @AlikeButSets.foldl_unfold loader.sets loader'.sets _ _
      (.refl (Array.replicate p.graph.size .null)) meanings p.order (List.range unfoldings)
    obtain rfl := Except.ok.inj h
    exact congrArg Except.ok (halike.value p.top hset)

/-- **The order of sets is of no account where there is none.**  The value of a text in which there
is no set is found alike by all loaders with the same room. -/
theorem read_of_not_hasSet (hroom : loader'.room = loader.room)
    (hchain : loader'.chain = loader.chain) {cs : List Char} {v : Value}
    (h : read loader cs = .ok v) (hset : ¬v.HasSet) : read loader' cs = .ok v := by
  unfold read at h ⊢
  rw [hroom]
  by_cases hallowed : (!cs.all isAllowed) = true
  · rw [if_pos hallowed] at h
    cases h
  · rw [if_neg hallowed] at h ⊢
    cases hparsed : Parsed.ofTokens? loader.room (.ofText cs) with
    | error fault =>
      rw [hparsed] at h
      cases h
    | ok parsed =>
      rw [hparsed] at h
      cases parsed with
      | none => exact h
      | some p => exact Parsed.value_of_not_hasSet hchain h hset

end Yaml
end Replatform
