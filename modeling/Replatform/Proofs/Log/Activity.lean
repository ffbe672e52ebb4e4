import Replatform.Log.Journal

/-! # Running activities

An activity is run from a journal and leaves one behind, also when it fails.  One activity
behind another starts from the journal that the first has left, unless the first has failed.
-/
namespace Replatform
namespace Log
namespace Activity

variable {ε α β : Type}

theorem run_bind (act : Activity ε α) (f : α → Activity ε β) (j : Journal) :
    (act >>= f).run.run j =
      match act.run.run j with
      | (.ok a, j') => (f a).run.run j'
      | (.error fault, j') => (.error fault, j') := by
  change (act.run >>= ExceptT.bindCont f : StateM Journal (Except ε β)).run j = _
  rw [StateT.run_bind]
  rcases act.run.run j with ⟨fault | a, j'⟩ <;> rfl

/-- What a sequence of two has returned was returned by the second, from where the first one
ended. -/
theorem run_bind_ok {act : Activity ε α} {f : α → Activity ε β} {j j' : Journal} {b : β}
    (h : (act >>= f).run.run j = (.ok b, j')) :
    ∃ a j₁, act.run.run j = (.ok a, j₁) ∧ (f a).run.run j₁ = (.ok b, j') := by
  rw [run_bind] at h
  rcases hrun : act.run.run j with ⟨fault | a, j₁⟩
  · rw [hrun] at h
    cases h
  · rw [hrun] at h
    exact ⟨a, j₁, rfl, h⟩

theorem run_report (level : Level) (message : String) (fields : List (String × Value))
    (j : Journal) :
    (report level message fields : Activity ε Unit).run.run j =
      (.ok (), j.record (.event ((Event.mk level message (.ofList fields)).within j.context))) :=
  rfl

theorem run_get (j : Journal) : (get : Activity ε Journal).run.run j = (.ok j, j) := rfl

theorem run_set (j j' : Journal) : (set j' : Activity ε PUnit).run.run j = (.ok ⟨⟩, j') := rfl

theorem run_modify (f : Journal → Journal) (j : Journal) :
    (modify f : Activity ε PUnit).run.run j = (.ok ⟨⟩, f j) := rfl

/-- The outcome of an activity that is run within another. -/
theorem run_liftM (act : Activity ε α) (j : Journal) :
    (liftM act.run : Activity β (Except ε α)).run.run j =
      (.ok (act.run.run j).1, (act.run.run j).2) := by
  change (ExceptT.lift act.run).run.run j = _
  rw [ExceptT.run_lift, StateT.run_map]
  rfl

theorem run_adapt (f : ε → β) (act : Activity ε α) (j : Journal) :
    (ExceptT.adapt f act).run.run j = ((act.run.run j).1.mapError f, (act.run.run j).2) := by
  change (Except.mapError f <$> act.run).run j = _
  rw [StateT.run_map]
  rfl

theorem run_tryCatch (act : Activity ε α) (handle : ε → Activity ε α) (j : Journal) :
    (tryCatch act handle : Activity ε α).run.run j =
      match act.run.run j with
      | (.ok a, j') => (.ok a, j')
      | (.error fault, j') => (handle fault).run.run j' := by
  rw [ExceptT.run_tryCatch, StateT.run_bind]
  rcases act.run.run j with ⟨fault | a, j'⟩ <;> rfl

end Activity
end Log
end Replatform
