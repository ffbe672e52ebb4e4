import Mathlib.Data.List.Induction
import Replatform.Assembly
import Replatform.Proofs.Service

/-! # What one offer does

A candidate changes the entries under its own name only.  Each of them receives it, and it is
appended to them if none is the same service.
-/
namespace Replatform
namespace Services

theorem offerTo_eq (es : List Service) (c : Service) :
    offerTo es c = es.map (·.receive c) ++ if es.any (·.isSame c) then [] else [c] := by
  unfold offerTo
  split
  · rw [List.append_nil]
    exact List.map_congr_left fun e _ => e.merge?_getD c
  · rename_i h
    have hnone : ∀ e ∈ es, e.receive c = e := fun e he =>
      Service.receive_of_not_isSame fun hs => h (List.any_eq_true.mpr ⟨e, he, hs⟩)
    rw [List.map_congr_left hnone, List.map_id']

theorem mem_offerTo {es : List Service} {c e : Service} :
    e ∈ offerTo es c ↔
      (∃ e₀ ∈ es, e₀.receive c = e) ∨ (e = c ∧ ∀ e₀ ∈ es, ¬e₀.isSame c = true) := by
  rw [offerTo_eq, List.mem_append, List.mem_map]
  refine or_congr_right ?_
  split
  · rename_i h
    obtain ⟨e₀, he₀, hs⟩ := List.any_eq_true.mp h
    simp only [List.not_mem_nil, false_iff]
    exact fun hn => hn.2 e₀ he₀ hs
  · rename_i h
    rw [List.mem_singleton]
    refine ⟨fun he => ⟨he, fun e₀ he₀ hs => h (List.any_eq_true.mpr ⟨e₀, he₀, hs⟩)⟩, And.left⟩

/-- The count of the entries that take a candidate in is zero exactly if none of them does. -/
theorem countP_isSame_eq_zero {es : List Service} {c : Service} :
    es.countP (·.isSame c) = 0 ↔ ¬es.any (·.isSame c) = true := by
  rw [List.countP_eq_zero, List.any_eq_true]
  exact ⟨fun h ⟨e, he, hs⟩ => h e he hs, fun h e he hs => h ⟨e, he, hs⟩⟩

/-- After an offer some entry covers the candidate and has all its traits. -/
theorem exists_covers_offerTo (es : List Service) (c : Service) :
    ∃ e ∈ offerTo es c, e.Covers c ∧ ∀ x, c.Has x → e.Has x := by
  by_cases h : ∃ e₀ ∈ es, e₀.isSame c = true
  · obtain ⟨e₀, he₀, hs⟩ := h
    refine ⟨e₀.receive c, mem_offerTo.mpr (Or.inl ⟨e₀, he₀, rfl⟩), ?_⟩
    rw [Service.receive_of_isSame hs]
    exact ⟨Service.covers_absorb hs, fun x hx => Service.has_absorb.mpr (Or.inr hx)⟩
  · exact ⟨c, mem_offerTo.mpr (Or.inr ⟨rfl, fun e₀ he₀ hs => h ⟨e₀, he₀, hs⟩⟩),
      Service.covers_refl c, fun _ hx => hx⟩

theorem under_insert (ss : Services) (name : String) (es : List Service) (name' : String) :
    under (ss.insert name es) name' = if name = name' then es else ss.under name' := by
  unfold under OrderedMap.insert
  by_cases h : name = name'
  · subst h
    rw [OrderedMap.get?_alter_self, if_pos rfl, Option.getD_some]
  · rw [OrderedMap.get?_alter_ne ss _ h, if_neg h]

theorem under_map (ss : Services) (f : List Service → List Service) (hf : f [] = [])
    (name : String) : Services.under (ss.map f) name = f (ss.under name) := by
  rw [Services.under, Services.under, OrderedMap.get?_map]
  cases ss.get? name with
  | none => exact hf.symm
  | some es => rfl

theorem under_offer_self (ss : Services) (c : Service) :
    (ss.offer c).under c.name = offerTo (ss.under c.name) c := by
  unfold under offer
  rw [OrderedMap.get?_alter_self]
  rfl

theorem under_offer_ne (ss : Services) {c : Service} {name : String} (h : c.name ≠ name) :
    (ss.offer c).under name = ss.under name := by
  unfold under offer
  rw [OrderedMap.get?_alter_ne ss _ h]

theorem keys_offer (ss : Services) (c : Service) :
    (ss.offer c).keys = Discovery.add ss.keys c.name := by
  rw [offer, OrderedMap.keys_alter]
  rfl

theorem mem_keys_offer {ss : Services} {c : Service} {name : String} :
    name ∈ (ss.offer c).keys ↔ name ∈ ss.keys ∨ name = c.name := by
  rw [keys_offer, Discovery.mem_add]

theorem add_cons (ss : Services) (c : Service) (rest : List Service) :
    ss.add (c :: rest) = (ss.offer c).add rest := rfl

/-- The names are those that were there and those of the candidates, in order of discovery. -/
theorem keys_add (ss : Services) (cs : List Service) :
    (ss.add cs).keys = Discovery.union ss.keys (cs.map (·.name)) := by
  induction cs generalizing ss with
  | nil => rfl
  | cons c rest ih => rw [add_cons, ih, keys_offer, List.map_cons, Discovery.union_cons]

theorem add_append (ss : Services) (cs ds : List Service) :
    ss.add (cs ++ ds) = (ss.add cs).add ds :=
  List.foldl_append

/-- What holds of the services at the start and is kept by every offer of a batch holds after
the batch.  The property may depend on the candidates offered so far. -/
theorem add_induction {motive : List Service → Services → Prop} {ss : Services}
    (start : motive [] ss) (offer : ∀ cs c ss, motive cs ss → motive (cs ++ [c]) (ss.offer c))
    (batch : List Service) : motive batch (ss.add batch) := by
  induction batch using List.reverseRecOn with
  | nil => exact start
  | append_singleton cs c ih =>
    rw [add_append]
    exact offer cs c _ ih

end Services

theorem Plan.run_cons (p : Plan) (a : Action) (rest : List Action) :
    p.run (a :: rest) = (p.after a).run rest := rfl

end Replatform
