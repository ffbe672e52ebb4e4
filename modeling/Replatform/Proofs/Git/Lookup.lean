import Replatform.Git.Client
import Replatform.Git.Resolver
import Replatform.Proofs.Log.Outside

/-! # Lookups one after the other

What a lookup gives, as a function of what has happened outside until then: the directory of the
path is asked for its remotes, then for its details with the remote that was picked, each once.
This is what the resolver does whenever it returns, if the inspector takes no notice of the log;
the command-line program does not, unless its processes do.
-/
namespace Replatform
namespace Git

open Log (Journal Entry)

/-! ## Inspectors that take no notice of the log -/

/-- What the inspector answers, and what it does for an answer, depends on what has happened
outside alone, and it puts no queries itself. -/
structure Inspector.Detached (inspector : Inspector) : Prop where
  remotes : ∀ dir, (inspector.remotes dir).Detached
  details : ∀ dir remote, (inspector.details dir remote).Detached

section

variable {remotes : Journal → Path → Except Inspection (List String)}
  {details : Journal → Path → Option String → Except Inspection RepoDetails}

theorem Inspector.run_remotes_ready (dir : Path) (j : Journal) :
    ((Inspector.ready remotes details).remotes dir).run.run j =
      ((remotes j dir).mapError Fault.inspection, j) := by
  unfold Inspector.ready
  dsimp only
  rw [Log.Activity.run_bind, Log.Activity.run_get]
  dsimp only
  cases remotes j dir <;> rfl

theorem Inspector.run_details_ready (dir : Path) (remote : Option String) (j : Journal) :
    ((Inspector.ready remotes details).details dir remote).run.run j =
      ((details j dir remote).mapError Fault.inspection, j) := by
  unfold Inspector.ready
  dsimp only
  rw [Log.Activity.run_bind, Log.Activity.run_get]
  dsimp only
  cases details j dir remote <;> rfl

/-- An inspector with ready answers takes no notice of the log if its answers do not. -/
theorem Inspector.detached_ready
    (hremotes : ∀ j j' : Journal, j.outside = j'.outside → remotes j = remotes j')
    (hdetails : ∀ j j' : Journal, j.outside = j'.outside → details j = details j') :
    (Inspector.ready remotes details).Detached where
  remotes dir j j' hj := by
    refine ⟨_, j, j', run_remotes_ready dir j, ?_, hj, rfl⟩
    rw [run_remotes_ready, hremotes j j' hj]
  details dir remote j j' hj := by
    refine ⟨_, j, j', run_details_ready dir remote j, ?_, hj, rfl⟩
    rw [run_details_ready, hdetails j j' hj]

end

namespace Client

variable {client : Client} {shell : Shell}

theorem run_run (dir : Path) (args : List String) (j : Journal) :
    (client.run shell dir args).run.run j =
      (client.ending shell j (client.command dir args),
        j.record (.started (client.command dir args) client.timeout)) := by
  unfold Client.run
  rw [Log.Activity.run_bind, Log.Activity.run_get]
  dsimp only
  rw [Log.Activity.run_bind, Log.Activity.run_set]
  cases client.ending shell j (client.command dir args) <;> rfl

end Client

/-! ## A lookup -/

namespace Resolver

/-- What an inspector answers to a query, if it has an answer, and what has happened outside
then. -/
def ask {α : Type} (query : Query) (answer : Log.Activity Fault α) (past : List Entry) :
    Option α × List Entry :=
  let ended := answer.run.run (.ofPast (past ++ [.asked query]))
  (ended.1.toOption, ended.2.outside)

/-- The directory that is looked into for a path: the path itself, or its parent if no directory
is there. -/
def around (host : Host) (path : Path) : Path :=
  if host.tree.isDirectory host.cwd path then path else path.parent

/-- What a lookup gives: the queries that it puts, the repository, and what has happened outside
then. -/
structure Lookup where
  queries : List Query
  repo : Option RepoInfo
  past : List Entry

/-- The remotes are asked for, then the details with the remote that was picked. -/
def lookup (host : Host) (inspector : Inspector) (path : Path) (past : List Entry) : Lookup :=
  let dir := around host path
  let names := ask (.remotes dir) (inspector.remotes dir) past
  let remote := names.1.bind pickRemote
  let found := ask (.details dir remote) (inspector.details dir remote) names.2
  { queries := [.remotes dir, .details dir remote]
    repo := found.1.map fun details => ⟨details.root, details.urls.headD "", details.branch, ""⟩
    past := found.2 }

/-! ### What the resolver does -/

theorem queries_ask {α : Type} {answer : Log.Activity Fault α} (h : answer.Detached) (query : Query)
    (past : List Entry) : (Journal.ofPast (ask query answer past).2).queries =
      (Journal.ofPast past).queries ++ [query] := by
  obtain ⟨outcome, k, -, hrun, -, -, hqueries⟩ := h (.ofPast (past ++ [.asked query])) _ rfl
  have hpast : (ask query answer past).2 = k.outside := by rw [ask, hrun]
  rw [hpast, Journal.queries_ofPast, hqueries]
  exact Journal.queries_record_asked (.ofPast past) query

theorem run_inspect {α : Type} (query : Query) (answer : Log.Activity Fault α) (message : String)
    (shown : String × Value) (j : Journal) :
    (inspect query answer message shown).run.run j =
      match answer.run.run (j.record (.asked query)) with
      | (.ok a, k) => (.ok (some a), k)
      | (.error (.inspection i), k) =>
        (.ok none, ((Log.report .debug message [shown, ("error", .text i.message)] :
          Log.Activity ResolveFault Unit).run.run k).2)
      | (.error (.breakdown b), k) => (.error (.breakdown b), k) := by
  unfold inspect
  rw [Log.Activity.run_bind, Log.Activity.run_modify]
  dsimp only
  rw [Log.Activity.run_bind, Log.Activity.run_liftM]
  rcases answer.run.run (j.record (.asked query)) with ⟨(i | b) | a, k⟩ <;> rfl

/-- What the resolver gets for a query depends on what has happened outside alone. -/
theorem inspect_ok {α : Type} {query : Query} {answer : Log.Activity Fault α}
    (h : answer.Detached) {message : String} {shown : String × Value} {j j' : Journal}
    {r : Option α} (hrun : (inspect query answer message shown).run.run j = (.ok r, j')) :
    ask query answer j.outside = (r, j'.outside) := by
  -- the inspector is asked after the query has been put down
  have hsame : (j.record (.asked query)).outside =
      (Journal.ofPast (j.outside ++ [.asked query])).outside := by
    rw [← Journal.outside_record_asked, Journal.outside_ofPast]
  obtain ⟨outcome, k, k', hhere, hthere, hk, -⟩ := h _ _ hsame
  have hask : ask query answer j.outside = (outcome.toOption, k.outside) := by
    rw [ask, hthere, hk]
  rw [run_inspect, hhere] at hrun
  rw [hask]
  cases outcome with
  | ok a =>
    obtain ⟨hr, rfl⟩ := Prod.mk.inj hrun
    rw [← Except.ok.inj hr]
    rfl
  | error fault =>
    cases fault with
    | inspection i =>
      obtain ⟨hr, rfl⟩ := Prod.mk.inj hrun
      rw [← Except.ok.inj hr, Log.Activity.run_report, Journal.outside_record_event]
      rfl
    | breakdown b => cases hrun

theorem around_of_stat {host : Host} {path : Path} {node : FileTree.Node}
    (h : host.tree.stat host.cwd path = .ok node) :
    around host path = if node.isDirectory then path else path.parent := by
  rw [around, FileTree.isDirectory, h]

theorem directory_ok {host : Host} {path dir : Path} {j j' : Journal}
    (hrun : (directory host path).run.run j = (.ok dir, j')) :
    dir = around host path ∧ j'.outside = j.outside := by
  unfold directory at hrun
  cases hstat : host.tree.stat host.cwd path with
  | error refusal =>
    rw [hstat] at hrun
    cases refusal <;> cases hrun
  | ok node =>
    rw [hstat] at hrun
    dsimp only at hrun
    rw [← around_of_stat hstat] at hrun
    cases hopen : host.tree.isOpen host.cwd (around host path) with
    | false =>
      rw [hopen] at hrun
      split at hrun <;> cases hrun
    | true =>
      rw [hopen] at hrun
      exact Log.Activity.of_run_ite_report hrun

theorem remote_ok {inspector : Inspector} (h : inspector.Detached) {dir : Path} {j j' : Journal}
    {r : Option String} (hrun : (remote inspector dir).run.run j = (.ok r, j')) :
    r = (ask (.remotes dir) (inspector.remotes dir) j.outside).1.bind pickRemote ∧
      j'.outside = (ask (.remotes dir) (inspector.remotes dir) j.outside).2 := by
  obtain ⟨names, k, hnames, hrun⟩ := Log.Activity.run_bind_ok hrun
  rw [inspect_ok (h.remotes dir) hnames]
  cases names with
  | none =>
    obtain ⟨hr, rfl⟩ := Prod.mk.inj hrun
    exact ⟨(Except.ok.inj hr).symm, rfl⟩
  | some names =>
    obtain ⟨rfl, hk⟩ := Log.Activity.of_run_ite_report hrun
    exact ⟨rfl, hk⟩

/-- **The resolver puts the two queries of a lookup**, whenever it returns, and gives what the
lookup gives. -/
theorem resolve_ok {host : Host} {inspector : Inspector} (h : inspector.Detached) {path : Path}
    {j j' : Journal} {r : Option RepoInfo}
    (hrun : (resolve host inspector path).run.run j = (.ok r, j')) :
    r = (lookup host inspector path j.outside).repo ∧
      j'.outside = (lookup host inspector path j.outside).past := by
  obtain ⟨dir, k, hdir, hrun⟩ := Log.Activity.run_bind_ok hrun
  obtain ⟨rfl, hk⟩ := directory_ok hdir
  obtain ⟨remote, l, hremote, hrun⟩ := Log.Activity.run_bind_ok hrun
  obtain ⟨rfl, hl⟩ := remote_ok h hremote
  obtain ⟨found, m, hfound, hrun⟩ := Log.Activity.run_bind_ok hrun
  have hdetails := inspect_ok (h.details _ _) hfound
  rw [hk] at hl hdetails
  rw [hl] at hdetails
  rw [lookup]
  dsimp only
  rw [hdetails]
  cases found with
  | none =>
    obtain ⟨hr, rfl⟩ := Prod.mk.inj hrun
    exact ⟨(Except.ok.inj hr).symm, rfl⟩
  | some found =>
    obtain ⟨rfl, hm⟩ := Log.Activity.of_run_ite_report hrun
    exact ⟨rfl, hm⟩

/-- A lookup that does not fail returns what it gives. -/
theorem returns_gather {host : Host} {inspector : Inspector} (h : inspector.Detached) {path : Path}
    {j : Journal} (hok : ∃ r, ((resolve host inspector path).run.run j).1 = .ok r) (s : Service) :
    (gather host inspector s path).Returns j
      ((lookup host inspector path j.outside).repo.isSome,
        ((lookup host inspector path j.outside).repo.map s.withRepo).getD s)
      (lookup host inspector path j.outside).past := by
  obtain ⟨r, hr⟩ := hok
  have hrun : (resolve host inspector path).run.run j =
      (.ok r, ((resolve host inspector path).run.run j).2) := Prod.ext hr rfl
  obtain ⟨rfl, hpast⟩ := resolve_ok h hrun
  refine Log.Activity.Returns.bind ⟨_, hrun, hpast⟩ fun j' hj' => ?_
  rw [← hj']
  cases (lookup host inspector path j.outside).repo with
  | none => exact Log.Activity.returns_pure _ j'
  | some repo => exact Log.Activity.returns_pure _ j'

theorem queries_lookup {inspector : Inspector} (h : inspector.Detached) (host : Host) (path : Path)
    (past : List Entry) : (Journal.ofPast (lookup host inspector path past).past).queries =
      (Journal.ofPast past).queries ++ (lookup host inspector path past).queries := by
  simp only [lookup, queries_ask (h.details _ _), queries_ask (h.remotes _), List.append_assoc]
  rfl

/-! ### Lookups that do not fail -/

/-- What answers never breaks down: it fails with an inspection at most. -/
def Admitted {α : Type} (answer : Log.Activity Fault α) : Prop :=
  ∀ j b, (answer.run.run j).1 ≠ .error (.breakdown b)

theorem Admitted.run_inspect_ok {α : Type} {answer : Log.Activity Fault α} (h : Admitted answer)
    (query : Query) (message : String) (shown : String × Value) (j : Journal) :
    ∃ r k, (inspect query answer message shown).run.run j = (.ok r, k) := by
  rw [run_inspect]
  rcases hrun : answer.run.run (j.record (.asked query)) with ⟨(i | b) | a, k⟩
  · exact ⟨none, _, rfl⟩
  · exact absurd (congrArg Prod.fst hrun) (h _ b)
  · exact ⟨some a, k, rfl⟩

theorem returns_directory {host : Host} {path : Path} {node : FileTree.Node}
    (hstat : host.tree.stat host.cwd path = .ok node)
    (hopen : host.tree.isOpen host.cwd (around host path) = true) (j : Journal) :
    (directory host path).Returns j (around host path) j.outside := by
  unfold directory
  rw [hstat]
  dsimp only
  rw [← around_of_stat hstat, hopen]
  exact Log.Activity.returns_ite_report _ _ _ _ j

theorem run_remote_ok {inspector : Inspector} {dir : Path} (h : Admitted (inspector.remotes dir))
    (j : Journal) : ∃ r k, (remote inspector dir).run.run j = (.ok r, k) := by
  unfold remote
  dsimp only
  obtain ⟨names, k, hnames⟩ := h.run_inspect_ok (.remotes dir) "No remotes found"
    ("path", .text dir.text) j
  rw [Log.Activity.run_bind, hnames]
  cases names with
  | none => exact ⟨none, k, rfl⟩
  | some names =>
    obtain ⟨l, hl, -⟩ := Log.Activity.returns_ite_report (ε := ResolveFault) (c := names = [])
      .debug "No remotes found" [("path", .text dir.text)] (pickRemote names) k
    exact ⟨_, l, hl⟩

/-- A lookup does not fail if the path leads to something, the directory may be read and searched
and what answers never breaks down. -/
theorem run_resolve_ok {host : Host} {inspector : Inspector} {path : Path} {node : FileTree.Node}
    (hstat : host.tree.stat host.cwd path = .ok node)
    (hopen : host.tree.isOpen host.cwd (around host path) = true)
    (hremotes : ∀ dir, Admitted (inspector.remotes dir))
    (hdetails : ∀ dir remote, Admitted (inspector.details dir remote)) (j : Journal) :
    ∃ r, ((resolve host inspector path).run.run j).1 = .ok r := by
  unfold resolve
  obtain ⟨k, hdir, -⟩ := returns_directory hstat hopen j
  obtain ⟨remote, l, hremote⟩ := run_remote_ok (hremotes (around host path)) k
  obtain ⟨found, m, hfound⟩ := (hdetails (around host path) remote).run_inspect_ok
    (.details (around host path) remote) "No git repository found"
    ("path", .text (around host path).text) l
  rw [Log.Activity.run_bind, hdir]
  dsimp only
  rw [Log.Activity.run_bind, hremote]
  dsimp only
  rw [Log.Activity.run_bind, hfound]
  cases found with
  | none => exact ⟨none, rfl⟩
  | some found =>
    dsimp only
    split
    · exact ⟨_, rfl⟩
    · exact ⟨_, rfl⟩

end Resolver

end Git
end Replatform
