import Replatform.Proofs.Log.Outside

/-! # How activities end

An activity ends with a value or with a fault, and puts queries on the way, whatever it tells the
log.  What is kept here of a run is its outcome and its queries: of two activities one behind the
other the queries come one behind the other, and nothing comes behind a fault.
-/
namespace Replatform
namespace Log
namespace Activity

variable {ε α β : Type}

/-- From the journal the activity ends in this way, and these are the queries that it puts. -/
def Ends (act : Activity ε α) (j : Journal) (outcome : Except ε α) (asked : List Git.Query) : Prop :=
  ∃ j', act.run.run j = (outcome, j') ∧ j'.queries = j.queries ++ asked

theorem ends_pure (a : α) (j : Journal) : (pure a : Activity ε α).Ends j (.ok a) [] :=
  ⟨j, rfl, (List.append_nil _).symm⟩

theorem ends_throw (fault : ε) (j : Journal) :
    (throw fault : Activity ε α).Ends j (.error fault) [] :=
  ⟨j, rfl, (List.append_nil _).symm⟩

theorem ends_report (level : Level) (message : String) (fields : List (String × Value))
    (j : Journal) : (report level message fields : Activity ε Unit).Ends j (.ok ()) [] := by
  refine ⟨_, rfl, ?_⟩
  rw [List.append_nil]
  exact Journal.queries_congr (Journal.outside_record_event j _)

theorem ends_modify {f : Journal → Journal} {j : Journal} (h : (f j).queries = j.queries) :
    (modify f : Activity ε PUnit).Ends j (.ok ⟨⟩) [] :=
  ⟨f j, rfl, by rw [h, List.append_nil]⟩

/-- The second activity starts where the first has returned. -/
theorem Ends.bind {act : Activity ε α} {j : Journal} {a : α} {asked : List Git.Query}
    (h : act.Ends j (.ok a) asked) (f : α → Activity ε β) :
    ∃ j', ∀ {outcome : Except ε β} {more : List Git.Query}, (f a).Ends j' outcome more →
      (act >>= f).Ends j outcome (asked ++ more) := by
  obtain ⟨j', hrun, hqueries⟩ := h
  refine ⟨j', fun {outcome more} ⟨j'', hrun', hqueries'⟩ => ⟨j'', ?_, ?_⟩⟩
  · rw [run_bind, hrun]
    exact hrun'
  · rw [hqueries', hqueries, List.append_assoc]

/-- Nothing comes behind a fault. -/
theorem Ends.bind_error {act : Activity ε α} {j : Journal} {fault : ε} {asked : List Git.Query}
    (h : act.Ends j (.error fault) asked) (f : α → Activity ε β) :
    (act >>= f).Ends j (.error fault) asked := by
  obtain ⟨j', hrun, hqueries⟩ := h
  refine ⟨j', ?_, hqueries⟩
  rw [run_bind, hrun]

/-- A first activity that returns without a query makes no difference. -/
theorem Ends.behind {act : Activity ε α} {f : α → Activity ε β} {j : Journal} {a : α}
    {outcome : Except ε β} {asked : List Git.Query} (h : act.Ends j (.ok a) [])
    (hf : ∀ j', (f a).Ends j' outcome asked) : (act >>= f).Ends j outcome asked := by
  obtain ⟨j', hnext⟩ := h.bind f
  exact hnext (hf j')

theorem ends_ite_report {c : Prop} [Decidable c] (level : Level) (message : String)
    (fields : List (String × Value)) {act : Activity ε α} {j : Journal} {outcome : Except ε α}
    {asked : List Git.Query} (h : ∀ j', act.Ends j' outcome asked) :
    (if c then report level message fields >>= fun _ => act else act : Activity ε α).Ends
      j outcome asked := by
  split
  · exact (ends_report level message fields j).behind h
  · exact h j

theorem Ends.adapt {act : Activity ε α} {j : Journal} {outcome : Except ε α}
    {asked : List Git.Query} (h : act.Ends j outcome asked) (f : ε → β) :
    Ends (ExceptT.adapt f act) j (outcome.mapError f) asked := by
  obtain ⟨j', hrun, hqueries⟩ := h
  refine ⟨j', ?_, hqueries⟩
  rw [run_adapt, hrun]

/-- The outcome of an activity within another. -/
theorem Ends.liftM {act : Activity ε α} {j : Journal} {outcome : Except ε α}
    {asked : List Git.Query} (h : act.Ends j outcome asked) :
    (MonadLiftT.monadLift act.run : Activity β (Except ε α)).Ends j (.ok outcome) asked := by
  obtain ⟨j', hrun, hqueries⟩ := h
  refine ⟨j', ?_, hqueries⟩
  exact (run_liftM act j).trans (by rw [hrun])

end Activity
end Log
end Replatform
