import Replatform.Proofs.Log.Activity

/-! # What happens outside the log

Queries and processes happen outside, events are only told.  What happened outside is the part
of a journal that the parts of the program may depend on: an activity is **detached** if it takes
no notice of the events and of what is bound to them, and puts no queries of its own.  Where nothing
happens outside, the journal is only told.
-/
namespace Replatform
namespace Log

/-- It is no event. -/
def Entry.isOutside : Entry → Bool
  | .event _ => false
  | _ => true

namespace Journal

/-- The queries and the processes, latest last. -/
def outside (j : Journal) : List Entry := j.entries.filter Entry.isOutside

/-- A journal of which nothing but this is known. -/
def ofPast (past : List Entry) : Journal := ⟨.empty, past⟩

@[simp] theorem outside_record_event (j : Journal) (e : Event) :
    (j.record (.event e)).outside = j.outside := by
  simp [outside, record, Entry.isOutside]

@[simp] theorem outside_record_asked (j : Journal) (q : Git.Query) :
    (j.record (.asked q)).outside = j.outside ++ [.asked q] := by
  simp [outside, record, Entry.isOutside]

@[simp] theorem outside_record_started (j : Journal) (command : Git.Command) (seconds : Value) :
    (j.record (.started command seconds)).outside = j.outside ++ [.started command seconds] := by
  simp [outside, record, Entry.isOutside]

@[simp] theorem outside_bind (j : Journal) (name : String) (v : Value) :
    (j.bind name v).outside = j.outside := rfl

@[simp] theorem outside_unbind (j : Journal) (names : List String) :
    (j.unbind names).outside = j.outside := rfl

@[simp] theorem outside_ofPast (j : Journal) : (ofPast j.outside).outside = j.outside := by
  simp [outside, ofPast]

theorem queries_ofPast (j : Journal) : (ofPast j.outside).queries = j.queries := by
  simp only [queries, ofPast, outside, List.filterMap_filter]
  congr 1
  funext entry
  cases entry <;> rfl

/-- The queries are part of what happened outside. -/
theorem queries_congr {j j' : Journal} (h : j.outside = j'.outside) : j.queries = j'.queries := by
  rw [← queries_ofPast, h, queries_ofPast]

@[simp] theorem queries_record_asked (j : Journal) (q : Git.Query) :
    (j.record (.asked q)).queries = j.queries ++ [q] := by
  simp [queries, record]

/-! ## Events alone -/

/-- The journal has gone on by events alone. -/
def Told (j j' : Journal) : Prop :=
  j'.context = j.context ∧ ∃ events : List Event, j'.entries = j.entries ++ events.map Entry.event

theorem told_refl (j : Journal) : j.Told j := ⟨rfl, [], (List.append_nil _).symm⟩

theorem told_record_event (j : Journal) (e : Event) : j.Told (j.record (.event e)) :=
  ⟨rfl, [e], rfl⟩

theorem Told.trans {j j' j'' : Journal} (h : j.Told j') (h' : j'.Told j'') : j.Told j'' := by
  obtain ⟨hcontext, events, hentries⟩ := h
  obtain ⟨hcontext', events', hentries'⟩ := h'
  refine ⟨hcontext'.trans hcontext, events ++ events', ?_⟩
  rw [hentries', hentries, List.map_append, List.append_assoc]

theorem Told.outside {j j' : Journal} (h : j.Told j') : j'.outside = j.outside := by
  obtain ⟨-, events, hentries⟩ := h
  have hnone : (events.map Entry.event).filter Entry.isOutside = [] := by
    simp [List.filter_eq_nil_iff, Entry.isOutside]
  rw [Journal.outside, hentries, List.filter_append, hnone, List.append_nil, Journal.outside]

theorem Told.queries {j j' : Journal} (h : j.Told j') : j'.queries = j.queries :=
  queries_congr h.outside

end Journal

namespace Activity

variable {ε α β : Type}

/-- A report in between only tells the log. -/
theorem exists_run_ite_report {c : Prop} [Decidable c] (level : Level) (message : String)
    (fields : List (String × Value)) (act : Activity ε α) (j : Journal) :
    ∃ k, j.Told k ∧ (if c then report level message fields >>= fun _ => act else act :
      Activity ε α).run.run j = act.run.run k := by
  split
  · exact ⟨_, j.told_record_event _, rfl⟩
  · exact ⟨j, j.told_refl, rfl⟩

/-! ## Activities that return -/

/-- From the journal the activity returns a value, and this is what has happened outside then. -/
def Returns (act : Activity ε α) (j : Journal) (a : α) (past : List Entry) : Prop :=
  ∃ j', act.run.run j = (.ok a, j') ∧ j'.outside = past

theorem returns_pure (a : α) (j : Journal) :
    (pure a : Activity ε α).Returns j a j.outside :=
  ⟨j, rfl, rfl⟩

theorem returns_report (level : Level) (message : String) (fields : List (String × Value))
    (j : Journal) : (report level message fields : Activity ε Unit).Returns j () j.outside :=
  ⟨_, rfl, Journal.outside_record_event j _⟩

/-- One activity behind another starts from what has happened outside until then. -/
theorem Returns.bind {act : Activity ε α} {f : α → Activity ε β} {j : Journal} {a : α} {b : β}
    {past past' : List Entry} (h : act.Returns j a past)
    (hf : ∀ j', j'.outside = past → (f a).Returns j' b past') : (act >>= f).Returns j b past' := by
  obtain ⟨j', hrun, hpast⟩ := h
  obtain ⟨j'', hrun', hpast'⟩ := hf j' hpast
  refine ⟨j'', ?_, hpast'⟩
  rw [run_bind, hrun]
  exact hrun'

theorem returns_modify {f : Journal → Journal} {j : Journal} (h : (f j).outside = j.outside) :
    (modify f : Activity ε PUnit).Returns j ⟨⟩ j.outside :=
  ⟨f j, rfl, h⟩

/-- The outcome of an activity that returns, within another. -/
theorem Returns.liftM {act : Activity ε α} {j : Journal} {a : α} {past : List Entry}
    (h : act.Returns j a past) :
    (MonadLiftT.monadLift act.run : Activity β (Except ε α)).Returns j (.ok a) past := by
  obtain ⟨j', hrun, hpast⟩ := h
  refine ⟨j', ?_, hpast⟩
  exact (run_liftM act j).trans (by rw [hrun])

theorem returns_ite_report {c : Prop} [Decidable c] (level : Level) (message : String)
    (fields : List (String × Value)) (a : α) (j : Journal) :
    (if c then report level message fields >>= fun _ => pure a else pure a : Activity ε α).Returns
      j a j.outside := by
  split
  · exact ⟨_, rfl, Journal.outside_record_event j _⟩
  · exact returns_pure a j

theorem Returns.adapt {act : Activity ε α} {j : Journal} {a : α} {past : List Entry}
    (h : act.Returns j a past) (f : ε → β) : Returns (ExceptT.adapt f act) j a past := by
  obtain ⟨j', hrun, hpast⟩ := h
  refine ⟨j', ?_, hpast⟩
  rw [run_adapt, hrun]
  rfl

/-- A report in between changes neither what is returned nor what has happened outside. -/
theorem of_run_ite_report {c : Prop} [Decidable c] {level : Level} {message : String}
    {fields : List (String × Value)} {a b : α} {j j' : Journal}
    (h : (if c then report level message fields >>= fun _ => pure a else pure a :
      Activity ε α).run.run j = (.ok b, j')) : b = a ∧ j'.outside = j.outside := by
  by_cases hc : c
  · rw [if_pos hc] at h
    obtain ⟨hb, rfl⟩ := Prod.mk.inj h
    exact ⟨(Except.ok.inj hb).symm, Journal.outside_record_event j _⟩
  · rw [if_neg hc] at h
    obtain ⟨hb, rfl⟩ := Prod.mk.inj h
    exact ⟨(Except.ok.inj hb).symm, rfl⟩

/-! ## Detached activities -/

/-- How the activity ends and what it leaves behind outside depends on what has happened outside
alone, and it puts no queries. -/
def Detached (act : Activity ε α) : Prop :=
  ∀ j j', j.outside = j'.outside → ∃ outcome k k', act.run.run j = (outcome, k) ∧
    act.run.run j' = (outcome, k') ∧ k.outside = k'.outside ∧ k.queries = j.queries

end Activity
end Log
end Replatform
