import Replatform.Proofs.Git.Breakdown

/-! # The two calls of a lookup

What the inspector is called with, and what is made of its answers.  The journal is followed from
one call to the next: the resolver itself only tells the log, so each call finds the journal that
the one before has left, with events behind it.
-/
namespace Replatform
namespace Git
namespace Resolver

open Log (Journal)

/-- The path leads to something that can be seen, and the directory that is looked into may be read
and searched. -/
def Readable (host : Host) (path : Path) : Prop :=
  (∃ node, host.tree.stat host.cwd path = .ok node) ∧
    host.tree.isOpen host.cwd (around host path) = true

theorem obstacle?_eq_none_iff {host : Host} {path : Path} :
    obstacle? host path = none ↔ Readable host path := by
  unfold obstacle? Readable
  cases host.tree.stat host.cwd path with
  | error refusal => exact iff_of_false (fun h => by cases h) (fun ⟨⟨_, h⟩, _⟩ => by cases h)
  | ok node => simp

/-- A preferred remote is picked whatever its place, and another only if it is the first. -/
theorem pickRemote_eq (names : List String) :
    pickRemote names = if "upstream" ∈ names then some "upstream"
      else if "origin" ∈ names then some "origin" else names.head? := by
  unfold pickRemote preferredRemotes
  by_cases hupstream : "upstream" ∈ names
  · simp [hupstream]
  · by_cases horigin : "origin" ∈ names
    · simp [hupstream, horigin]
    · simp [hupstream, horigin]

/-! ## One step after the other -/

variable {host : Host} {inspector : Inspector}

theorem exists_run_remote {dir : Path} (h : Admitted (inspector.remotes dir)) (j : Journal) :
    ∃ k, ((inspector.remotes dir).run.run (j.record (.asked (.remotes dir)))).2.Told k ∧
      (remote inspector dir).run.run j =
        (.ok (((inspector.remotes dir).run.run
          (j.record (.asked (.remotes dir)))).1.toOption.bind pickRemote), k) := by
  unfold remote
  obtain ⟨k, hk, hrun⟩ := exists_run_inspect h (.remotes dir) "No remotes found"
    ("path", .text dir.text) j
  rw [Log.Activity.run_bind, hrun]
  cases ((inspector.remotes dir).run.run (j.record (.asked (.remotes dir)))).1.toOption with
  | none => exact ⟨k, hk, rfl⟩
  | some names =>
    obtain ⟨l, hl, hnext⟩ := Log.Activity.exists_run_ite_report (c := names = []) .debug
      "No remotes found" [("path", .text dir.text)]
      (pure (pickRemote names) : Log.Activity ResolveFault _) k
    exact ⟨l, hk.trans hl, hnext⟩

theorem run_resolve_of_obstacle {path : Path} {fault : ResolveFault}
    (h : obstacle? host path = some fault) (inspector : Inspector) (j : Journal) :
    ∃ k, j.Told k ∧ (resolve host inspector path).run.run j = (.error fault, k) := by
  obtain ⟨k, hk, hrun⟩ := exists_run_directory host path j
  rw [h] at hrun
  refine ⟨k, hk, ?_⟩
  unfold resolve
  rw [Log.Activity.run_bind, hrun]

/-- Without an obstacle the two calls are made, each from where the one before has ended. -/
theorem run_resolve_of_clear (hinspects : inspector.Inspects) {path : Path}
    (h : obstacle? host path = none) (j : Journal) :
    let dir := around host path
    ∃ k₁ k₂ k₃,
      let names := (inspector.remotes dir).run.run (k₁.record (.asked (.remotes dir)))
      let remote := names.1.toOption.bind pickRemote
      let found := (inspector.details dir remote).run.run
        (k₂.record (.asked (.details dir remote)))
      j.Told k₁ ∧ names.2.Told k₂ ∧ found.2.Told k₃ ∧
        (resolve host inspector path).run.run j =
          (.ok (found.1.toOption.map fun details =>
            ⟨details.root, details.urls.headD "", details.branch, ""⟩), k₃) := by
  intro dir
  obtain ⟨k₁, hk₁, hdirectory⟩ := exists_run_directory host path j
  rw [h] at hdirectory
  obtain ⟨k₂, hk₂, hremote⟩ := exists_run_remote (hinspects.admitsRemotes dir) k₁
  generalize hpicked : ((inspector.remotes dir).run.run
    (k₁.record (.asked (.remotes dir)))).1.toOption.bind pickRemote = picked at hremote
  obtain ⟨k₃, hk₃, hdetails⟩ := exists_run_inspect (hinspects.admitsDetails dir picked)
    (.details dir picked) "No git repository found" ("path", .text dir.text) k₂
  -- the last journal depends on whether it is reported that there are no URLs
  refine ⟨k₁, k₂, ?_⟩
  dsimp only
  rw [hpicked]
  unfold resolve
  rw [Log.Activity.run_bind, hdirectory]
  dsimp only
  rw [Log.Activity.run_bind, hremote]
  dsimp only
  rw [Log.Activity.run_bind, hdetails]
  cases ((inspector.details dir picked).run.run
    (k₂.record (.asked (.details dir picked)))).1.toOption with
  | none => exact ⟨k₃, hk₁, hk₂, hk₃, rfl⟩
  | some found =>
    dsimp only
    by_cases hurls : found.urls = []
    · rw [if_pos hurls]
      exact ⟨_, hk₁, hk₂, hk₃.trans (k₃.told_record_event _), rfl⟩
    · rw [if_neg hurls]
      exact ⟨k₃, hk₁, hk₂, hk₃, rfl⟩

theorem run_gather_update (host : Host) (inspector : Inspector) (s : Service) (path : Path)
    (j : Journal) :
    (gather host inspector s path).run.run j =
      (((resolve host inspector path).run.run j).1.map fun
          | some repo => (true, { s with repo := repo })
          | none => (false, s),
        ((resolve host inspector path).run.run j).2) := by
  rw [run_gather]
  rcases (resolve host inspector path).run.run j with ⟨fault | _ | repo, j'⟩ <;> rfl

/-- Two calls that put no queries themselves. -/
theorem queries_of_calls (hinspects : inspector.Inspects) {dir : Path} {remote : Option String}
    {j k₁ k₂ k₃ : Journal} (h₁ : j.Told k₁)
    (h₂ : ((inspector.remotes dir).run.run (k₁.record (.asked (.remotes dir)))).2.Told k₂)
    (h₃ : ((inspector.details dir remote).run.run
      (k₂.record (.asked (.details dir remote)))).2.Told k₃) :
    k₃.queries = j.queries ++ [.remotes dir, .details dir remote] := by
  obtain ⟨_, l₁, hremotes, hl₁⟩ := hinspects.remotes dir (k₁.record (.asked (.remotes dir)))
  obtain ⟨_, l₂, hdetails, hl₂⟩ :=
    hinspects.details dir remote (k₂.record (.asked (.details dir remote)))
  rw [hremotes] at h₂
  rw [hdetails] at h₃
  calc k₃.queries
      = l₂.queries := h₃.queries
    _ = k₂.queries ++ [.details dir remote] := by
        rw [hl₂, Journal.queries_record_asked, List.append_nil]
    _ = k₁.queries ++ [.remotes dir] ++ [.details dir remote] := by
        rw [h₂.queries, hl₁, Journal.queries_record_asked, List.append_nil]
    _ = j.queries ++ [.remotes dir, .details dir remote] := by
        rw [h₁.queries, List.append_assoc]
        rfl

end Resolver
end Git
end Replatform
