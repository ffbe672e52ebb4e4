import Replatform.Proofs.Git.Obstacle

/-! # Lookups with the command-line program

A lookup with the command-line program gives up to four commands, and the process of each can end in
several ways.  A process that fails, that is not found or that takes too long is a failed
inspection, and the lookup goes on or says that there is no repository.  A command that breaks down
is none, and ends the lookup wherever it comes: the operating system refuses the program or the
time limit, a word of the command cannot be handed over, or what the process wrote is no text.  So a
lookup returns exactly if none of its commands breaks down.
-/
namespace Replatform
namespace Git

open Log (Journal Entry)

/-- One of the commands that were given behind `past` broke down in this way. -/
def Client.BreaksDown (client : Client) (shell : Shell) (context : Log.Fields)
    (past added : List Entry) (b : Breakdown) : Prop :=
  ∃ before command seconds after, added = before ++ .started command seconds :: after ∧
    client.ending shell ⟨context, past ++ before⟩ command = .error (.breakdown b)

namespace Client

variable {client : Client} {shell : Shell} {context : Log.Fields} {past : List Entry}
  {b : Breakdown}

theorem not_breaksDown_nil : ¬client.BreaksDown shell context past [] b := by
  rintro ⟨before, command, seconds, after, h, -⟩
  exact absurd h.symm (by simp)

theorem breaksDown_started {command : Command} {seconds : Value} :
    client.BreaksDown shell context past [.started command seconds] b ↔
      client.ending shell ⟨context, past⟩ command = .error (.breakdown b) := by
  constructor
  · rintro ⟨before, command', seconds', after, h, hbroken⟩
    cases before with
    | nil =>
      obtain ⟨rfl, -⟩ := List.cons.inj h |>.1 |> Entry.started.inj
      rwa [List.append_nil] at hbroken
    | cons entry rest => exact absurd (List.cons.inj h).2.symm (by simp)
  · intro hbroken
    exact ⟨[], command, seconds, [], rfl, by rwa [List.append_nil]⟩

theorem not_breaksDown_of_not_started {entry : Entry}
    (h : ∀ command seconds, entry ≠ .started command seconds) :
    ¬client.BreaksDown shell context past [entry] b := by
  rintro ⟨before, command, seconds, after, hentry, -⟩
  cases before with
  | nil => exact h command seconds (List.cons.inj hentry).1
  | cons first rest => exact absurd (List.cons.inj hentry).2.symm (by simp)

theorem breaksDown_append {added more : List Entry} :
    client.BreaksDown shell context past (added ++ more) b ↔
      client.BreaksDown shell context past added b ∨
        client.BreaksDown shell context (past ++ added) more b := by
  constructor
  · rintro ⟨before, command, seconds, after, h, hbroken⟩
    rcases List.append_eq_append_iff.mp h with ⟨rest, rfl, hmore⟩ | ⟨rest, rfl, hrest⟩
    · exact Or.inr ⟨rest, command, seconds, after, hmore, by rwa [List.append_assoc]⟩
    · cases rest with
      | nil => exact Or.inr ⟨[], command, seconds, after, hrest.symm, by simpa using hbroken⟩
      | cons entry rest =>
        obtain ⟨rfl, -⟩ := List.cons.inj hrest
        exact Or.inl ⟨before, command, seconds, rest, rfl, hbroken⟩
  · rintro (⟨before, command, seconds, after, rfl, hbroken⟩ |
      ⟨before, command, seconds, after, rfl, hbroken⟩)
    · exact ⟨before, command, seconds, after ++ more, by simp, hbroken⟩
    · exact ⟨added ++ before, command, seconds, after, by simp, by rwa [← List.append_assoc]⟩

end Client

/-! ## Activities that heed breakdowns -/

/-- From wherever the activity is run it adds to the journal and changes nothing else.  It fails with
the fault of a breakdown if one of its commands broke down, and otherwise with a tolerable fault
at most. -/
def Heeds {ε α : Type} (client : Client) (shell : Shell) (broken : Breakdown → ε)
    (tolerable : ε → Prop) (act : Log.Activity ε α) : Prop :=
  ∀ j : Journal, ∃ outcome added,
    act.run.run j = (outcome, ⟨j.context, j.entries ++ added⟩) ∧
    match outcome with
    | .ok _ => ∀ b, ¬client.BreaksDown shell j.context j.entries added b
    | .error fault =>
      (∃ b, fault = broken b ∧ client.BreaksDown shell j.context j.entries added b) ∨
        tolerable fault ∧ ∀ b, ¬client.BreaksDown shell j.context j.entries added b

section

variable {ε α β : Type} {client : Client} {shell : Shell} {broken : Breakdown → ε}
  {tolerable : ε → Prop}

theorem heeds_pure (a : α) : Heeds client shell broken tolerable (pure a) :=
  fun j => ⟨.ok a, [], by rw [List.append_nil]; rfl, fun _ => Client.not_breaksDown_nil⟩

theorem heeds_report (level : Log.Level) (message : String) (fields : List (String × Value)) :
    Heeds client shell broken tolerable (Log.report level message fields) :=
  fun _ => ⟨.ok (), [_], rfl, fun _ => Client.not_breaksDown_of_not_started fun _ _ h => by cases h⟩

/-- Behind entries without a breakdown the other entries count. -/
theorem breaksDown_append_iff {context : Log.Fields} {past added more : List Entry}
    (h : ∀ b, ¬client.BreaksDown shell context past added b) (b : Breakdown) :
    client.BreaksDown shell context past (added ++ more) b ↔
      client.BreaksDown shell context (past ++ added) more b := by
  rw [Client.breaksDown_append, or_iff_right (h b)]

theorem Heeds.bind {act : Log.Activity ε α} {f : α → Log.Activity ε β}
    (h : Heeds client shell broken tolerable act)
    (hf : ∀ a, Heeds client shell broken tolerable (f a)) :
    Heeds client shell broken tolerable (act >>= f) := by
  intro j
  obtain ⟨outcome, added, hrun, houtcome⟩ := h j
  cases outcome with
  | error fault => exact ⟨.error fault, added, by rw [Log.Activity.run_bind, hrun], houtcome⟩
  | ok a =>
    obtain ⟨outcome', more, hrun', houtcome'⟩ := hf a ⟨j.context, j.entries ++ added⟩
    refine ⟨outcome', added ++ more, ?_, ?_⟩
    · rw [Log.Activity.run_bind, hrun]
      dsimp only
      rw [hrun', List.append_assoc]
    · simp only [breaksDown_append_iff houtcome]
      exact houtcome'

theorem Heeds.map {act : Log.Activity ε α} (h : Heeds client shell broken tolerable act)
    (f : α → β) : Heeds client shell broken tolerable (f <$> act) := by
  rw [map_eq_pure_bind]
  exact h.bind fun a => heeds_pure (f a)

theorem heeds_ite_report {c : Prop} [Decidable c] (level : Log.Level) (message : String)
    (fields : List (String × Value)) {act : Log.Activity ε α}
    (h : Heeds client shell broken tolerable act) :
    Heeds client shell broken tolerable
      (if c then Log.report level message fields >>= fun _ => act else act) := by
  split
  · exact (heeds_report level message fields).bind fun _ => h
  · exact h

end

namespace Client

variable {client : Client} {shell : Shell}

/-- The fault is a failed inspection. -/
def IsInspection (fault : Fault) : Prop := ∃ i, fault = .inspection i

theorem heeds_run (dir : Path) (args : List String) :
    Heeds client shell .breakdown IsInspection (client.run shell dir args) := by
  intro j
  refine ⟨_, [.started (client.command dir args) client.timeout], run_run dir args j, ?_⟩
  simp only [breaksDown_started]
  cases client.ending shell j (client.command dir args) with
  | ok output => exact fun b h => by cases h
  | error fault =>
    cases fault with
    | inspection i => exact Or.inr ⟨⟨i, rfl⟩, fun b h => by cases h⟩
    | breakdown b => exact Or.inl ⟨b, rfl, rfl⟩

theorem heeds_runOrElse (dir : Path) (args : List String) (message : String)
    (fields : List (String × Value)) :
    Heeds client shell .breakdown IsInspection
      (client.runOrElse shell dir args message fields) := by
  intro j
  obtain ⟨outcome, added, hrun, houtcome⟩ := (@heeds_run client shell dir args).map some j
  unfold runOrElse
  rw [Log.Activity.run_tryCatch, hrun]
  cases outcome with
  | ok output => exact ⟨.ok output, added, rfl, houtcome⟩
  | error fault =>
    rcases houtcome with ⟨b, rfl, hbroken⟩ | ⟨⟨i, rfl⟩, hwhole⟩
    · exact ⟨_, added, rfl, Or.inl ⟨b, rfl, hbroken⟩⟩
    · -- a failed inspection is reported, and there is no output
      obtain ⟨outcome', more, hrun', houtcome'⟩ :=
        ((heeds_report .debug message fields).bind fun _ => heeds_pure none :
          Heeds client shell .breakdown IsInspection _)
          ⟨j.context, j.entries ++ added⟩
      refine ⟨outcome', added ++ more, ?_, ?_⟩
      · rw [← List.append_assoc]
        exact hrun'
      · simp only [breaksDown_append_iff hwhole]
        exact houtcome'

theorem heeds_remotes (dir : Path) :
    Heeds client shell .breakdown IsInspection (client.remotes shell dir) :=
  (heeds_run dir ["remote"]).map outputLines

theorem heeds_details (dir : Path) (remote : Option String) :
    Heeds client shell .breakdown IsInspection (client.details shell dir remote) := by
  refine (heeds_run dir _).bind fun root => ?_
  refine Heeds.bind ?_ fun branch => Heeds.bind ?_ fun urls => heeds_pure _
  · exact (heeds_runOrElse dir _ _ _).bind fun _ => heeds_pure _
  · unfold urls
    cases remote with
    | none => exact heeds_pure []
    | some name =>
      dsimp only
      split
      · exact heeds_pure []
      · exact (heeds_runOrElse dir _ _ _).bind fun _ => heeds_pure _

end Client

/-! ## Lookups -/

namespace Resolver

variable {client : Client} {shell : Shell}

/-- No fault is tolerable: whatever an inspection says, the lookup goes on. -/
theorem heeds_inspect {α : Type} (query : Query) {answer : Log.Activity Fault α}
    (h : Heeds client shell .breakdown Client.IsInspection answer) (message : String)
    (shown : String × Value) :
    Heeds client shell .breakdown (fun _ => False) (inspect query answer message shown) := by
  intro j
  obtain ⟨outcome, added, hrun, houtcome⟩ := h (j.record (.asked query))
  have hasked : ∀ b, ¬client.BreaksDown shell j.context j.entries [.asked query] b :=
    fun b => Client.not_breaksDown_of_not_started fun _ _ h => by cases h
  have hentries : ∀ more, (j.record (.asked query)).entries ++ more =
      j.entries ++ ([.asked query] ++ more) := fun more => List.append_assoc ..
  have hbehind : ∀ b, client.BreaksDown shell j.context j.entries ([.asked query] ++ added) b ↔
      client.BreaksDown shell (j.record (.asked query)).context
        (j.record (.asked query)).entries added b := breaksDown_append_iff hasked
  rw [run_inspect, hrun, hentries]
  simp only [← hbehind] at houtcome
  cases outcome with
  | ok a => exact ⟨.ok (some a), _, rfl, houtcome⟩
  | error fault =>
    rcases houtcome with ⟨b, rfl, hbroken⟩ | ⟨⟨i, rfl⟩, hwhole⟩
    · exact ⟨_, _, rfl, Or.inl ⟨b, rfl, hbroken⟩⟩
    · let event : Log.Event := ⟨.debug, message, .ofList [shown, ("error", .text i.message)]⟩
      refine ⟨.ok none, ([.asked query] ++ added) ++ [.event (event.within j.context)], ?_, ?_⟩
      · rw [← List.append_assoc j.entries ([Entry.asked query] ++ added)]
        rfl
      · intro b
        rw [breaksDown_append_iff hwhole]
        exact Client.not_breaksDown_of_not_started fun _ _ h => by cases h

theorem heeds_remote (dir : Path) :
    Heeds client shell .breakdown (fun _ => False)
      (remote (client.inspector shell) dir) := by
  refine (heeds_inspect _ (Client.heeds_remotes dir) _ _).bind fun names => ?_
  cases names with
  | none => exact heeds_pure none
  | some names => exact heeds_ite_report _ _ _ (heeds_pure _)

theorem heeds_directory {host : Host} {path : Path} (hclear : obstacle? host path = none) :
    Heeds client shell .breakdown (fun _ => False) (directory host path) := by
  unfold obstacle? at hclear
  unfold directory
  cases hstat : host.tree.stat host.cwd path with
  | error refusal =>
    rw [hstat] at hclear
    cases hclear
  | ok node =>
    rw [hstat] at hclear
    dsimp only at hclear ⊢
    rw [← around_of_stat hstat]
    refine heeds_ite_report _ _ _ ?_
    cases hopen : host.tree.isOpen host.cwd (around host path) with
    | false =>
      rw [hopen] at hclear
      cases hclear
    | true => exact heeds_pure _

/-- The lookup heeds breakdowns, and tolerates everything else. -/
theorem heeds_resolve {host : Host} {path : Path} (hclear : obstacle? host path = none) :
    Heeds client shell .breakdown (fun _ => False)
      (resolve host (client.inspector shell) path) := by
  refine (heeds_directory hclear).bind fun dir => ?_
  refine (heeds_remote dir).bind fun remote => ?_
  refine (heeds_inspect _ (Client.heeds_details dir remote) _ _).bind fun found => ?_
  cases found with
  | none => exact heeds_pure none
  | some found => exact heeds_ite_report _ _ _ (heeds_pure _)

theorem run_gather (host : Host) (inspector : Inspector) (s : Service) (path : Path)
    (j : Journal) :
    (gather host inspector s path).run.run j =
      (((resolve host inspector path).run.run j).1.map fun repo =>
          (repo.isSome, (repo.map s.withRepo).getD s),
        ((resolve host inspector path).run.run j).2) := by
  unfold gather
  rw [Log.Activity.run_bind]
  rcases (resolve host inspector path).run.run j with ⟨fault | _ | repo, j'⟩ <;> rfl

end Resolver
end Git
end Replatform
