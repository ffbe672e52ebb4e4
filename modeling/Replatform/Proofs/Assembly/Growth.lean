import Mathlib.Data.List.Forall2
import Replatform.Proofs.Assembly.Apart
import Replatform.Proofs.Assembly.Sources
import Replatform.Proofs.Merging

/-! # Plans only grow

A submission adds to a plan and takes nothing away.  The names stay where they are, with new ones
behind them; under each name the entries stay where they are, each grown by what it has taken in,
and behind them stand the candidates that were started as entries.  One offer does this to the
entries under the name of its candidate, and a batch is a list of offers.

A candidate that comes again finds entries that have taken it in, or itself as an entry.  They
are still the same as it and have all its traits, so they take it in once more without changing,
and the others still do not take it in: an offer that is repeated is idle.
-/
namespace Replatform

namespace Services

/-! ## Growth -/

/-- What has grown into the entries under a name goes on growing through an offer; a candidate of
that name may be started as an entry behind it. -/
theorem grown_offer {ss : Services} {name : String} {es : List Service}
    (h : List.Forall₂ Service.Grown es (ss.under name)) (c : Service) :
    ∃ started, started.Sublist ([c].filter (·.name = name)) ∧
      List.Forall₂ Service.Grown (es ++ started) ((ss.offer c).under name) := by
  by_cases hname : c.name = name
  · subst hname
    have hreceived : List.Forall₂ Service.Grown es ((ss.under c.name).map (·.receive c)) :=
      List.forall₂_map_right_iff.mpr (h.imp fun _ e hgrown => hgrown.trans (e.grown_receive c))
    refine ⟨if (ss.under c.name).any (·.isSame c) then [] else [c], ?_, ?_⟩
    · split
      · exact List.nil_sublist _
      · simp
    · rw [under_offer_self, offerTo_eq]
      exact List.rel_append hreceived (List.forall₂_same.mpr fun e _ => e.grown_refl)
  · refine ⟨[], List.nil_sublist _, ?_⟩
    rw [under_offer_ne ss hname, List.append_nil]
    exact h

/-- The entries under a name after a batch have grown out of those that were there and, behind
them, of candidates of that name in the order of the batch. -/
theorem grown_add (ss : Services) (cs : List Service) (name : String) :
    ∃ started, started.Sublist (cs.filter (·.name = name)) ∧
      List.Forall₂ Service.Grown (ss.under name ++ started) ((ss.add cs).under name) := by
  refine add_induction (motive := fun cs ss' =>
    ∃ started, started.Sublist (cs.filter (·.name = name)) ∧
      List.Forall₂ Service.Grown (ss.under name ++ started) (ss'.under name)) ?_ ?_ cs
  · refine ⟨[], List.nil_sublist _, ?_⟩
    rw [List.append_nil]
    exact List.forall₂_same.mpr fun e _ => e.grown_refl
  · rintro cs c ss' ⟨started, hsub, hgrown⟩
    obtain ⟨more, hmore, hgrown'⟩ := grown_offer hgrown c
    refine ⟨started ++ more, ?_, ?_⟩
    · rw [List.filter_append]
      exact hsub.append hmore
    · rw [← List.append_assoc]
      exact hgrown'

/-! ## Repeated offers -/

/-- After an offer every entry has received the candidate or is it. -/
theorem receive_of_mem_offerTo {es : List Service} {c e : Service} (h : e ∈ offerTo es c) :
    e.receive c = e := by
  rcases mem_offerTo.mp h with ⟨e₀, -, rfl⟩ | ⟨rfl, -⟩
  · exact e₀.receive_receive c
  · exact e.receive_self

/-- After an offer some entry is the same as the candidate. -/
theorem any_isSame_offerTo (es : List Service) (c : Service) :
    (offerTo es c).any (·.isSame c) = true := by
  obtain ⟨e, he, hcov, -⟩ := exists_covers_offerTo es c
  exact List.any_eq_true.mpr ⟨e, he, hcov.isSame⟩

/-- All entries receive the candidate again in vain, and it is not appended again. -/
theorem offerTo_offerTo (es : List Service) (c : Service) :
    offerTo (offerTo es c) c = offerTo es c := by
  rw [offerTo_eq (offerTo es c), if_pos (any_isSame_offerTo es c), List.append_nil,
    List.map_congr_left fun e he => receive_of_mem_offerTo he]
  exact List.map_id' _

/-- An offer that is repeated changes nothing. -/
theorem offer_offer (ss : Services) (c : Service) : (ss.offer c).offer c = ss.offer c := by
  rw [offer, offer, OrderedMap.alter_alter]
  congr 1
  funext old
  rw [Option.getD_some, offerTo_offerTo]

/-- A candidate that is offered again is merged. -/
theorem tally_offer (ss : Services) (c : Service) : (ss.offer c).tally [c] = ⟨1, 0⟩ := by
  have hpos : (ss.offer c).matchCount c ≠ 0 := by
    rw [matchCount, under_offer_self]
    exact fun h0 => countP_isSame_eq_zero.mp h0 (any_isSame_offerTo (ss.under c.name) c)
  rw [tally, if_neg hpos]
  rfl

end Services

namespace Plan

/-- **A submission only grows a plan.**  It returns a plan that differs in its services at most.
The names that were there come first, in their order, and behind them those that are new, in the
order of their first candidates.  Under each name stand first the entries that were there, grown
in their places, and then candidates that were started as entries.  Each candidate is reported as
merged or as appended, and the entries are as many more as are appended. -/
theorem submission_only_grows {ε : Type} (p : Plan) (cs : List Service) (j : Log.Journal) :
    ∃ p' report, ((p.submit cs : Log.Activity ε (Plan × AssemblyReport)).run.run j).1 =
        .ok (p', report) ∧
      p' = { p with services := p'.services } ∧
      p'.services.keys = p.services.keys ++
        Discovery.distinct ((cs.map (·.name)).filter (· ∉ p.services.keys)) ∧
      (∀ name, ∃ started, started.Sublist (cs.filter (·.name = name)) ∧
        List.Forall₂ Service.Grown (p.services.under name ++ started)
          (p'.services.under name)) ∧
      report.merged + report.appended = cs.length ∧
      p'.serviceCount = p.serviceCount + report.appended := by
  refine ⟨p.add cs, p.services.tally cs, ?_, rfl, ?_, fun name => ?_, ?_, ?_⟩
  · rw [run_submit, after]
  · rw [← Discovery.union_eq_append_distinct]
    exact p.services.keys_add cs
  · exact p.services.grown_add cs name
  · exact p.services.merged_add_appended cs
  · exact p.services.count_add cs

/-- **A submission that is repeated is idle.**  Whatever the plan, and whatever its entries have
to do with each other, a candidate that is submitted a second time leaves the plan as it is and is
reported as merged. -/
theorem repeated_submission_is_idle {ε : Type} (p : Plan) (c : Service) (j j' : Log.Journal) :
    ∃ p' report, ((p.submit [c] : Log.Activity ε (Plan × AssemblyReport)).run.run j).1 =
        .ok (p', report) ∧
      ((p'.submit [c] : Log.Activity ε (Plan × AssemblyReport)).run.run j').1 =
        .ok (p', ⟨1, 0⟩) := by
  have htwice : (p.add [c]).add [c] = p.add [c] := by
    rw [add, add]
    exact congrArg (fun ss => { p with services := ss }) (p.services.offer_offer c)
  have htally : (p.add [c]).services.tally [c] = ⟨1, 0⟩ := p.services.tally_offer c
  refine ⟨p.add [c], p.services.tally [c], ?_, ?_⟩
  · rw [run_submit, after]
  · rw [run_submit, after, htwice, htally]

end Plan
end Replatform
