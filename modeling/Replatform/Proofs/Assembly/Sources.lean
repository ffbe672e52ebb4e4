import Replatform.Proofs.Assembly.Offer

/-! # What the entries of a plan are made of

The services of a plan are **made of** the candidates that were offered: each candidate is kept
whole in some entry that covers it, each trait of an entry stems from a candidate that the
entry covers, and so does its build directory.  Covering, unlike sameness, is not lost when an
entry gets a build directory later, which is why the history of a plan is told by it.

Nothing is counted twice or dropped either: each candidate of a batch is merged or appended,
and the entries grow by those that are appended.
-/
namespace Replatform

/-- The services are those that the candidates lead to: nothing is lost and nothing invented. -/
structure Services.MadeOf (ss : Services) (cs : List Service) : Prop where
  kept : ∀ c ∈ cs, ∃ e ∈ ss.under c.name, e.Covers c ∧ ∀ x, c.Has x → e.Has x
  drawn : ∀ name, ∀ e ∈ ss.under name, ∀ x, e.Has x → ∃ c ∈ cs, e.Covers c ∧ c.Has x
  placed : ∀ name, ∀ e ∈ ss.under name, ∃ c ∈ cs, e.Covers c ∧ c.buildDir? = e.buildDir?

namespace Services

/-! ## Entries before and after an offer -/

/-- An entry after an offer was there before, or it is an entry that received the candidate, or
it is the candidate. -/
theorem mem_under_offer {ss : Services} {c e : Service} {name : String}
    (he : e ∈ (ss.offer c).under name) :
    e ∈ ss.under name ∨ (∃ e₀ ∈ ss.under name, e₀.receive c = e) ∨ e = c := by
  by_cases hname : c.name = name
  · subst hname
    rw [under_offer_self, mem_offerTo] at he
    rcases he with hrec | ⟨rfl, -⟩
    · exact Or.inr (Or.inl hrec)
    · exact Or.inr (Or.inr rfl)
  · rw [under_offer_ne ss hname] at he
    exact Or.inl he

/-- An entry outlives an offer; it may have received the candidate. -/
theorem exists_mem_under_offer {ss : Services} {e : Service} {name : String}
    (he : e ∈ ss.under name) (c : Service) :
    ∃ e' ∈ (ss.offer c).under name, e' = e ∨ e' = e.receive c := by
  by_cases hname : c.name = name
  · subst hname
    refine ⟨e.receive c, ?_, Or.inr rfl⟩
    rw [under_offer_self]
    exact mem_offerTo.mpr (Or.inl ⟨e, he, rfl⟩)
  · refine ⟨e, ?_, Or.inl rfl⟩
    rw [under_offer_ne ss hname]
    exact he

/-! ## Nothing is lost and nothing invented -/

theorem madeOf_empty : MadeOf .empty [] where
  kept _ hc := by cases hc
  drawn _ _ he := by cases he
  placed _ _ he := by cases he

theorem MadeOf.offer {ss : Services} {cs : List Service} (h : ss.MadeOf cs) (c : Service) :
    (ss.offer c).MadeOf (cs ++ [c]) where
  kept c' hc' := by
    rcases List.mem_append.mp hc' with hc' | hc'
    · obtain ⟨e, he, hcov, hhas⟩ := h.kept c' hc'
      obtain ⟨e', he', rfl | rfl⟩ := exists_mem_under_offer he c
      · exact ⟨e', he', hcov, hhas⟩
      · exact ⟨e.receive c, he', hcov.receive c, fun x hx => (hhas x hx).receive c⟩
    · rw [List.mem_singleton.mp hc', under_offer_self]
      exact exists_covers_offerTo (ss.under c.name) c
  drawn name e he x hx := by
    have hc : c ∈ cs ++ [c] := List.mem_append_right cs (List.mem_singleton_self c)
    rcases mem_under_offer he with he | ⟨e₀, he₀, rfl⟩ | rfl
    · obtain ⟨c', hc', hcov, hhas⟩ := h.drawn name e he x hx
      exact ⟨c', List.mem_append_left _ hc', hcov, hhas⟩
    · -- a trait of a receiver was its own or came with the candidate
      rcases Service.has_receive hx with hold | ⟨hs, hnew⟩
      · obtain ⟨c', hc', hcov, hhas⟩ := h.drawn name e₀ he₀ x hold
        exact ⟨c', List.mem_append_left _ hc', hcov.receive c, hhas⟩
      · refine ⟨c, hc, ?_, hnew⟩
        rw [Service.receive_of_isSame hs]
        exact Service.covers_absorb hs
    · exact ⟨e, hc, Service.covers_refl e, hx⟩
  placed name e he := by
    have hc : c ∈ cs ++ [c] := List.mem_append_right cs (List.mem_singleton_self c)
    rcases mem_under_offer he with he | ⟨e₀, he₀, rfl⟩ | rfl
    · obtain ⟨c', hc', hcov, hdir⟩ := h.placed name e he
      exact ⟨c', List.mem_append_left _ hc', hcov, hdir⟩
    · -- and its build directory likewise
      rcases Service.buildDir?_receive_eq e₀ c with hdir | ⟨hcov, hdir⟩
      · obtain ⟨c', hc', hcov, hdir'⟩ := h.placed name e₀ he₀
        exact ⟨c', List.mem_append_left _ hc', hcov.receive c, hdir'.trans hdir.symm⟩
      · exact ⟨c, hc, hcov, hdir⟩
    · exact ⟨e, hc, Service.covers_refl e, rfl⟩

/-- The services that a batch leads to from nothing are made of the batch. -/
theorem madeOf_add (batch : List Service) : (add .empty batch).MadeOf batch :=
  add_induction (motive := fun cs ss => ss.MadeOf cs) madeOf_empty (fun _ c _ h => h.offer c) batch

/-! ## Counts -/

/-- How many entries there are under all names. -/
def count (ss : Services) : Nat := ss.values.flatten.length

theorem length_offerTo (es : List Service) (c : Service) :
    (offerTo es c).length = es.length + if es.countP (·.isSame c) = 0 then 1 else 0 := by
  rw [offerTo_eq, List.length_append, List.length_map]
  by_cases h : es.any (·.isSame c) = true
  · rw [if_pos h, if_neg fun h0 => countP_isSame_eq_zero.mp h0 h, List.length_nil]
  · rw [if_neg h, if_pos (countP_isSame_eq_zero.mpr h), List.length_singleton]

theorem count_offer (ss : Services) (c : Service) :
    (ss.offer c).count = ss.count + if ss.matchCount c = 0 then 1 else 0 := by
  have hflat := OrderedMap.length_flatten_alterEntries c.name
    (fun old => offerTo (old.getD []) c) ss.entries
  have hlen : (offerTo ((OrderedMap.find? c.name ss.entries).getD []) c).length =
      ((OrderedMap.find? c.name ss.entries).getD []).length +
        if ss.matchCount c = 0 then 1 else 0 := length_offerTo _ c
  simp only [count, OrderedMap.values, offer, OrderedMap.alter]
  omega

theorem appended_tally_cons (ss : Services) (c : Service) (rest : List Service) :
    (ss.tally (c :: rest)).appended =
      ((ss.offer c).tally rest).appended + if ss.matchCount c = 0 then 1 else 0 := by
  by_cases h : ss.matchCount c = 0
  · simp only [tally, h, if_true]
  · simp only [tally, h, if_false, Nat.add_zero]

theorem merged_tally_cons (ss : Services) (c : Service) (rest : List Service) :
    (ss.tally (c :: rest)).merged =
      ((ss.offer c).tally rest).merged + if ss.matchCount c = 0 then 0 else 1 := by
  by_cases h : ss.matchCount c = 0
  · simp only [tally, h, if_true, Nat.add_zero]
  · simp only [tally, h, if_false]

theorem appended_tally_concat (ss : Services) (cs : List Service) (c : Service) :
    (ss.tally (cs ++ [c])).appended =
      (ss.tally cs).appended + if (ss.add cs).matchCount c = 0 then 1 else 0 := by
  induction cs generalizing ss with
  | nil =>
    rw [List.nil_append, appended_tally_cons]
    rfl
  | cons c' rest ih =>
    rw [List.cons_append, appended_tally_cons, appended_tally_cons, ih, add_cons]
    omega

/-- Each candidate of a batch is merged or appended. -/
theorem merged_add_appended (ss : Services) (batch : List Service) :
    (ss.tally batch).merged + (ss.tally batch).appended = batch.length := by
  induction batch generalizing ss with
  | nil => rfl
  | cons c rest ih =>
    have hrest := ih (ss.offer c)
    rw [merged_tally_cons, appended_tally_cons, List.length_cons]
    split <;> omega

/-- The entries grow by the candidates that are appended. -/
theorem count_add (ss : Services) (batch : List Service) :
    (ss.add batch).count = ss.count + (ss.tally batch).appended := by
  induction batch generalizing ss with
  | nil => rfl
  | cons c rest ih =>
    have hoffer := count_offer ss c
    rw [add_cons, ih, appended_tally_cons]
    omega

end Services
end Replatform
