import Replatform.Proofs.FileTree.Change
import Replatform.Proofs.Git.Lookup
import Replatform.Proofs.Log.Ending

/-! # Paths that cannot be looked into

A lookup fails because of its path or because what answers breaks down.  With an inspector that
never breaks down it fails exactly if there is an obstacle to its path: it cannot be handed over, it
leads to nothing that can be seen, or the directory must not be read or searched.  Then it has put
no query; otherwise it has put its two.
-/
namespace Replatform

namespace Git

open Log (Journal)

/-- An inspector that puts no queries itself and never breaks down: a call returns or is a failed
inspection.  It may tell the log what it likes, and its answers may depend on all that has
happened. -/
structure Inspector.Inspects (inspector : Inspector) : Prop where
  remotes : ∀ dir j, ∃ outcome, (inspector.remotes dir).Ends j outcome []
  details : ∀ dir remote j, ∃ outcome, (inspector.details dir remote).Ends j outcome []
  admitsRemotes : ∀ dir, Resolver.Admitted (inspector.remotes dir)
  admitsDetails : ∀ dir remote, Resolver.Admitted (inspector.details dir remote)

/-- An inspector with ready answers. -/
theorem Inspector.inspects_ready (remotes : Journal → Path → Except Inspection (List String))
    (details : Journal → Path → Option String → Except Inspection RepoDetails) :
    (Inspector.ready remotes details).Inspects where
  remotes dir j := ⟨_, j, run_remotes_ready dir j, (List.append_nil _).symm⟩
  details dir remote j := ⟨_, j, run_details_ready dir remote j, (List.append_nil _).symm⟩
  admitsRemotes dir j b h := by
    rw [run_remotes_ready] at h
    cases hremotes : remotes j dir with
    | ok names =>
      rw [hremotes] at h
      cases h
    | error i =>
      rw [hremotes] at h
      cases h
  admitsDetails dir remote j b h := by
    rw [run_details_ready] at h
    cases hdetails : details j dir remote with
    | ok found =>
      rw [hdetails] at h
      cases h
    | error i =>
      rw [hdetails] at h
      cases h

/-- The fault is that of a path: it leads to nothing that can be seen, or its directory must not be
read or searched.  A path that cannot be handed over is another fault. -/
def ResolveFault.IsOfPath : ResolveFault → Prop
  | .path fault => ∀ why, fault.refusal ≠ .unusable why
  | .denied _ => True
  | .breakdown _ => False

namespace Resolver

/-- Why a path cannot be looked into, if it cannot. -/
def obstacle? (host : Host) (path : Path) : Option ResolveFault :=
  match host.tree.stat host.cwd path with
  | .error refusal => some (.path ⟨refusal, path.text⟩)
  | .ok _ =>
    let dir := around host path
    if host.tree.isOpen host.cwd dir then none else some (.denied dir.text)

/-- The obstacle is the fault of the path if the path can be handed over. -/
theorem isOfPath_iff_of_obstacle {host : Host} {path : Path} {fault : ResolveFault}
    (h : obstacle? host path = some fault) : fault.IsOfPath ↔ path.Usable := by
  unfold obstacle? at h
  cases hstat : host.tree.stat host.cwd path with
  | error refusal =>
    rw [hstat] at h
    rw [← Option.some.inj h]
    have haccept : ∀ why, refusal = .unusable why ↔
        FileTree.accept path = .error (.unusable why) := by
      intro why
      rw [← FileTree.stat_eq_unusable, hstat, Except.error.injEq]
    constructor
    · intro hpath
      rw [FileTree.usable_iff]
      cases hfault : FileTree.accept path with
      | ok _ => rfl
      | error other =>
        obtain ⟨why, rfl⟩ := FileTree.accept_error hfault
        exact absurd ((haccept why).mpr hfault) (hpath why)
    · intro husable why hrefusal
      have hfault := (haccept why).mp hrefusal
      rw [FileTree.usable_iff.mp husable] at hfault
      cases hfault
  | ok node =>
    rw [hstat] at h
    dsimp only at h
    split at h
    · cases h
    · rw [← Option.some.inj h]
      exact iff_of_true True.intro (FileTree.usable_of_stat hstat)

theorem obstacle?_of_unusable {path : Path} {why : Text.Unusable}
    (h : FileTree.accept path = .error (.unusable why)) :
    obstacle? host path = some (.path ⟨.unusable why, path.text⟩) := by
  rw [obstacle?, FileTree.stat_eq_unusable.mpr h]

/-- The two queries of a lookup around a path: the remotes of its directory are asked for, and
then its details, with the remote that is picked from what was answered. -/
def IsAsked (host : Host) (inspector : Inspector) (path : Path) (asked : List Query) : Prop :=
  ∃ j, asked = [.remotes (around host path), .details (around host path)
    (((inspector.remotes (around host path)).run.run j).1.toOption.bind pickRemote)]

/-- The way to the directory only tells the log. -/
theorem exists_run_directory (host : Host) (path : Path) (j : Journal) :
    ∃ k, j.Told k ∧ (directory host path).run.run j =
      (match obstacle? host path with
        | some fault => .error fault
        | none => .ok (around host path), k) := by
  unfold directory obstacle?
  cases hstat : host.tree.stat host.cwd path with
  | error refusal =>
    cases refusal with
    | unusable why => exact ⟨j, j.told_refl, rfl⟩
    | _ => exact ⟨_, j.told_record_event _, rfl⟩
  | ok node =>
    dsimp only
    rw [← around_of_stat hstat]
    obtain ⟨k, hk, hrun⟩ := Log.Activity.exists_run_ite_report (c := (!node.isDirectory) = true) .debug
      "Path is not a directory, using its parent" [("path", .text path.text)] _ j
    rw [hrun]
    cases host.tree.isOpen host.cwd (around host path) with
    | false => exact ⟨_, hk.trans (k.told_record_event _), rfl⟩
    | true => exact ⟨k, hk, rfl⟩

theorem ends_directory (host : Host) (path : Path) (j : Journal) :
    (directory host path).Ends j
      (match obstacle? host path with
        | some fault => .error fault
        | none => .ok (around host path)) [] := by
  obtain ⟨k, hk, hrun⟩ := exists_run_directory host path j
  exact ⟨k, hrun, by rw [hk.queries, List.append_nil]⟩

/-- Behind an answer the resolver only tells the log. -/
theorem exists_run_inspect {α : Type} {answer : Log.Activity Fault α} (h : Admitted answer)
    (query : Query) (message : String) (shown : String × Value) (j : Journal) :
    ∃ k, (answer.run.run (j.record (.asked query))).2.Told k ∧
      (inspect query answer message shown).run.run j =
        (.ok (answer.run.run (j.record (.asked query))).1.toOption, k) := by
  rw [run_inspect]
  rcases hrun : answer.run.run (j.record (.asked query)) with ⟨(i | b) | a, k⟩
  · exact ⟨_, k.told_record_event _, rfl⟩
  · exact absurd (congrArg Prod.fst hrun) (h _ b)
  · exact ⟨k, k.told_refl, rfl⟩

/-- The query is put, and there is an answer or none. -/
theorem ends_inspect {α : Type} (query : Query) {answer : Log.Activity Fault α}
    (hadmitted : Admitted answer) {j : Journal}
    (hquiet : ∃ outcome, answer.Ends (j.record (.asked query)) outcome [])
    (message : String) (shown : String × Value) :
    (inspect query answer message shown).Ends j
      (.ok (answer.run.run (j.record (.asked query))).1.toOption) [query] := by
  obtain ⟨_, k, hrun, hqueries⟩ := hquiet
  rw [List.append_nil, Journal.queries_record_asked] at hqueries
  obtain ⟨l, hl, hinspect⟩ := exists_run_inspect hadmitted query message shown j
  rw [hrun] at hl
  exact ⟨l, hinspect, by rw [hl.queries, hqueries]⟩

variable {host : Host} {inspector : Inspector}

theorem ends_remote (h : inspector.Inspects) (dir : Path) (j : Journal) :
    ∃ k, (remote inspector dir).Ends j
      (.ok (((inspector.remotes dir).run.run k).1.toOption.bind pickRemote)) [.remotes dir] := by
  refine ⟨j.record (.asked (.remotes dir)), ?_⟩
  unfold remote
  obtain ⟨j', hnext⟩ := (ends_inspect (.remotes dir) (h.admitsRemotes dir) (h.remotes dir _)
    "No remotes found" ("path", .text dir.text)).bind _
  refine hnext ?_
  cases ((inspector.remotes dir).run.run (j.record (.asked (.remotes dir)))).1.toOption with
  | none => exact Log.Activity.ends_pure none j'
  | some names => exact Log.Activity.ends_ite_report _ _ _ fun j'' => Log.Activity.ends_pure _ j''

theorem ends_details (h : inspector.Inspects) (dir : Path) (remote : Option String) (j : Journal) :
    ∃ found, (inspect (.details dir remote) (inspector.details dir remote)
      "No git repository found" ("path", .text dir.text)).Ends j (.ok found)
        [.details dir remote] :=
  ⟨_, ends_inspect _ (h.admitsDetails dir remote) (h.details dir remote _) _ _⟩

/-- **A lookup fails exactly if there is an obstacle to its path**, before any query is put;
otherwise it returns after its two queries. -/
theorem ends_resolve (h : inspector.Inspects) (path : Path) (j : Journal) :
    match obstacle? host path with
    | some fault => (resolve host inspector path).Ends j (.error fault) []
    | none => ∃ repo asked, IsAsked host inspector path asked ∧
        (resolve host inspector path).Ends j (.ok repo) asked := by
  unfold resolve
  have hdirectory := ends_directory host path j
  cases hobstacle : obstacle? host path with
  | some fault =>
    rw [hobstacle] at hdirectory
    exact hdirectory.bind_error _
  | none =>
    rw [hobstacle] at hdirectory
    obtain ⟨j₁, hafterDirectory⟩ := hdirectory.bind _
    obtain ⟨k, hremote⟩ := ends_remote h (around host path) j₁
    obtain ⟨j₂, hafterRemote⟩ := hremote.bind _
    obtain ⟨found, hdetails⟩ := ends_details h (around host path)
      (((inspector.remotes (around host path)).run.run k).1.toOption.bind pickRemote) j₂
    obtain ⟨j₃, hafterDetails⟩ := hdetails.bind _
    cases found with
    | none =>
      exact ⟨none, _, ⟨k, rfl⟩, hafterDirectory (hafterRemote (hafterDetails
        (Log.Activity.ends_pure none j₃)))⟩
    | some found =>
      exact ⟨some ⟨found.root, found.urls.headD "", found.branch, ""⟩, _, ⟨k, rfl⟩,
        hafterDirectory (hafterRemote (hafterDetails
          (Log.Activity.ends_ite_report _ _ _ fun j₄ => Log.Activity.ends_pure _ j₄)))⟩

/-- The search for the repository of a service ends as the lookup does. -/
theorem ends_gather (h : inspector.Inspects) (s : Service) (path : Path) (j : Journal) :
    match obstacle? host path with
    | some fault => (gather host inspector s path).Ends j (.error fault) []
    | none => ∃ found asked, IsAsked host inspector path asked ∧
        (gather host inspector s path).Ends j (.ok found) asked := by
  unfold gather
  have hresolve := @ends_resolve host inspector h path j
  cases hobstacle : obstacle? host path with
  | some fault =>
    rw [hobstacle] at hresolve
    exact hresolve.bind_error _
  | none =>
    rw [hobstacle] at hresolve
    obtain ⟨repo, asked, hasked, hresolve⟩ := hresolve
    obtain ⟨j', hnext⟩ := hresolve.bind _
    rw [List.append_nil asked |>.symm] at hasked
    cases repo with
    | none => exact ⟨_, _, hasked, hnext (Log.Activity.ends_pure _ j')⟩
    | some repo => exact ⟨_, _, hasked, hnext (Log.Activity.ends_pure _ j')⟩

end Resolver
end Git
end Replatform
