import Mathlib.Data.List.Forall2
import Replatform.Proofs.Assembly.Apart
import Replatform.Proofs.Git.Obstacle
import Replatform.Proofs.Pool
import Replatform.Workflow

/-! # How a planning run fails

Three things can end a run without a plan, and they come in a fixed order.  All analyzers are
done before the first query is put, so an analyzer that fails does so unasked, and the first one
in the list counts.  Then the candidates are passed over in their order, and the first whose path
cannot be looked into ends the run, behind the queries of those before it.  Whatever happens, the
values that are bound for the run are dropped.
-/
namespace Replatform

open Log (Journal)

/-- The fault with which an analyzer ends a run, if it fails. -/
def Analyzer.failure? (root : Path) (a : Analyzer) : Option Workflow.Fault :=
  match a.discover root with
  | .ok _ => none
  | .error fault => some (.analyzer a.name root.text fault)

/-- What an analyzer finds. -/
def Analyzer.candidates (root : Path) (a : Analyzer) : List Service :=
  match a.discover root with
  | .ok cs => cs
  | .error _ => []

namespace Workflow

/-- All candidates, in the order of the analyzers. -/
def candidates (w : Workflow) (root : Path) : List Service :=
  w.analyzers.flatMap (Analyzer.candidates root)

/-- Why the path of a candidate cannot be looked into, if it has to be and cannot. -/
def obstacle? (w : Workflow) (root : Path) (c : Service) : Option Git.ResolveFault :=
  match w.repositories with
  | none => none
  | some (host, _) =>
    if c.repo.isEmpty then Git.Resolver.obstacle? host (sourcePath root c) else none

/-- The queries that are put for a candidate: those of a lookup, if it has no repository and
repositories are to be looked for. -/
def IsAsked (w : Workflow) (root : Path) (c : Service) (asked : List Git.Query) : Prop :=
  match w.repositories with
  | none => asked = []
  | some (host, inspector) =>
    if c.repo.isEmpty then Git.Resolver.IsAsked host inspector (sourcePath root c) asked
    else asked = []

/-- The candidates before the first whose path cannot be looked into. -/
def unobstructed (w : Workflow) (root : Path) (cs : List Service) : List Service :=
  cs.takeWhile fun c => (w.obstacle? root c).isNone

/-- The activity passes over the candidates: it fails with the first whose path cannot be looked
into, and the queries it puts are those of the candidates before. -/
def Passes {α : Type} (w : Workflow) (root : Path) (cs : List Service)
    (act : Log.Activity Fault α) : Prop :=
  ∀ j, ∃ calls, List.Forall₂ (w.IsAsked root) (w.unobstructed root cs) calls ∧
    match cs.findSome? (w.obstacle? root) with
    | some fault => act.Ends j (.error (.repository fault)) calls.flatten
    | none => ∃ a, act.Ends j (.ok a) calls.flatten

variable {w : Workflow} {root : Path} {α β : Type}

/-! ## Passing over candidates -/

theorem unobstructed_append (w : Workflow) (root : Path) (cs ds : List Service) :
    w.unobstructed root (cs ++ ds) =
      match cs.findSome? (w.obstacle? root) with
      | some _ => w.unobstructed root cs
      | none => cs ++ w.unobstructed root ds := by
  induction cs with
  | nil => rfl
  | cons c rest ih =>
    unfold unobstructed at ih ⊢
    rw [List.cons_append, List.takeWhile_cons, List.takeWhile_cons, List.findSome?_cons, ih]
    cases w.obstacle? root c with
    | some fault => rfl
    | none =>
      dsimp only [Option.isNone]
      cases rest.findSome? (w.obstacle? root) <;> rfl

theorem unobstructed_eq {cs : List Service} (h : cs.findSome? (w.obstacle? root) = none) :
    w.unobstructed root cs = cs := by
  have happend := w.unobstructed_append root cs []
  rw [h, List.append_nil] at happend
  exact happend.trans (List.append_nil cs)

/-- An activity that returns without a query passes over no candidates. -/
theorem passes_nil {act : Log.Activity Fault α} (h : ∀ j, ∃ a, act.Ends j (.ok a) []) :
    w.Passes root [] act :=
  fun j => ⟨[], .nil, h j⟩

theorem passes_pure (a : α) : w.Passes root [] (pure a) :=
  passes_nil fun j => ⟨a, Log.Activity.ends_pure a j⟩

/-- One pass behind another passes over the candidates of both. -/
theorem Passes.bind {cs ds : List Service} {act : Log.Activity Fault α}
    {f : α → Log.Activity Fault β} (h : w.Passes root cs act)
    (hf : ∀ a, w.Passes root ds (f a)) : w.Passes root (cs ++ ds) (act >>= f) := by
  intro j
  obtain ⟨calls, hcalls, hends⟩ := h j
  rw [unobstructed_append, List.findSome?_append]
  cases hfirst : cs.findSome? (w.obstacle? root) with
  | some fault =>
    rw [hfirst] at hends
    exact ⟨calls, hcalls, hends.bind_error f⟩
  | none =>
    rw [hfirst] at hends
    obtain ⟨a, hends⟩ := hends
    obtain ⟨j', hnext⟩ := hends.bind f
    obtain ⟨more, hmore, hlast⟩ := hf a j'
    rw [unobstructed_eq hfirst] at hcalls
    refine ⟨calls ++ more, List.rel_append hcalls hmore, ?_⟩
    rw [List.flatten_append]
    dsimp only [Option.none_or]
    cases hsecond : ds.findSome? (w.obstacle? root) with
    | some fault =>
      rw [hsecond] at hlast
      exact hnext hlast
    | none =>
      rw [hsecond] at hlast
      obtain ⟨b, hlast⟩ := hlast
      exact ⟨b, hnext hlast⟩

/-- What comes in front without a query makes no difference. -/
theorem Passes.behind {cs : List Service} {act : Log.Activity Fault α}
    {f : α → Log.Activity Fault β}
    (h : ∀ j, ∃ a, act.Ends j (.ok a) [] ∧ w.Passes root cs (f a)) :
    w.Passes root cs (act >>= f) := by
  intro j
  obtain ⟨a, hends, hpasses⟩ := h j
  obtain ⟨j', hnext⟩ := hends.bind f
  obtain ⟨calls, hcalls, hlast⟩ := hpasses j'
  refine ⟨calls, hcalls, ?_⟩
  cases hfault : cs.findSome? (w.obstacle? root) with
  | some fault =>
    rw [hfault] at hlast
    exact hnext hlast
  | none =>
    rw [hfault] at hlast
    obtain ⟨b, hlast⟩ := hlast
    exact ⟨b, hnext hlast⟩

/-- What comes behind without a query makes no difference. -/
theorem Passes.before {cs : List Service} {act : Log.Activity Fault α}
    {f : α → Log.Activity Fault β} (h : w.Passes root cs act)
    (hf : ∀ a, w.Passes root [] (f a)) : w.Passes root cs (act >>= f) := by
  have hboth := h.bind hf
  rwa [List.append_nil] at hboth

/-! ## A run -/

/-- The inspector of repositories, if there is one, puts no queries itself and never breaks down. -/
def Inspects (w : Workflow) : Prop :=
  ∀ host inspector, w.repositories = some (host, inspector) → inspector.Inspects

/-- A candidate is one to pass over. -/
theorem passes_enrich (h : w.Inspects) (c : Service) : w.Passes root [c] (w.enrich root c) := by
  intro j
  unfold enrich
  rw [unobstructed, List.takeWhile_cons, List.takeWhile_nil, List.findSome?_singleton]
  cases hw : w.repositories with
  | none =>
    have hclear : w.obstacle? root c = none := by rw [obstacle?, hw]
    have hasked : w.IsAsked root c [] := by rw [IsAsked, hw]
    rw [hclear]
    exact ⟨[[]], .cons hasked .nil, c, Log.Activity.ends_pure c j⟩
  | some pair =>
    obtain ⟨host, inspector⟩ := pair
    dsimp only
    cases hempty : c.repo.isEmpty with
    | false =>
      have hclear : w.obstacle? root c = none := by simp [obstacle?, hw, hempty]
      have hasked : w.IsAsked root c [] := by simp [IsAsked, hw, hempty]
      rw [hclear]
      exact ⟨[[]], .cons hasked .nil, c, Log.Activity.ends_pure c j⟩
    | true =>
      have hgather := @Git.Resolver.ends_gather host inspector (h host inspector hw) c
        (sourcePath root c) j
      have hsame : w.obstacle? root c = Git.Resolver.obstacle? host (sourcePath root c) := by
        simp [obstacle?, hw, hempty]
      rw [hsame]
      cases hobstacle : Git.Resolver.obstacle? host (sourcePath root c) with
      | some fault =>
        rw [hobstacle] at hgather
        exact ⟨[], .nil, (hgather.adapt Fault.repository).bind_error _⟩
      | none =>
        rw [hobstacle] at hgather
        obtain ⟨found, asked, hlookup, hgather⟩ := hgather
        have hasked : w.IsAsked root c asked := by simpa [IsAsked, hw, hempty] using hlookup
        obtain ⟨j', hnext⟩ := (hgather.adapt Fault.repository).bind _
        refine ⟨[asked], .cons hasked .nil, found.2, ?_⟩
        exact hnext (Log.Activity.ends_ite_report _ _ _ fun j'' => Log.Activity.ends_pure _ j'')

theorem passes_mapM_enrich (h : w.Inspects) (cs : List Service) :
    w.Passes root cs (cs.mapM (w.enrich root)) := by
  induction cs with
  | nil => exact passes_pure []
  | cons c rest ih =>
    rw [List.mapM_cons]
    exact (passes_enrich h c).bind fun s => ih.before fun more => passes_pure (s :: more)

theorem passes_report (level : Log.Level) (message : String) (fields : List (String × Value)) :
    w.Passes root [] (Log.report level message fields) :=
  passes_nil fun j => ⟨(), Log.Activity.ends_report level message fields j⟩

theorem passes_submit (p : Plan) (cs : List Service) : w.Passes root [] (p.submit cs) := by
  refine passes_nil fun j => ⟨_, _, Plan.run_submit p cs j, ?_⟩
  simp [Journal.queries, List.filterMap_map]

/-- The batches are passed over one after the other. -/
theorem passes_mergeAll (h : w.Inspects) (p : Plan) (found : List (String × List Service)) :
    w.Passes root (found.flatMap Prod.snd) (w.mergeAll root p found) := by
  induction found generalizing p with
  | nil => exact passes_pure p
  | cons batch rest ih =>
    obtain ⟨name, cs⟩ := batch
    rw [List.flatMap_cons]
    refine (passes_mapM_enrich h cs).bind fun candidates => ?_
    refine Passes.bind (passes_submit p candidates) fun submitted => ?_
    exact Passes.bind (passes_report _ _ _) fun _ => ih _

/-- The analyzers put no queries, and the first that fails ends the run. -/
theorem ends_discover (w : Workflow) (root : Path) (j : Journal) :
    match w.analyzers.findSome? (Analyzer.failure? root) with
    | some fault => (w.discover root).Ends j (.error fault) []
    | none => ∃ found, found.flatMap Prod.snd = w.candidates root ∧
        (w.discover root).Ends j (.ok found) [] := by
  unfold discover candidates
  rw [Pool.zip_results]
  generalize w.analyzers = analyzers
  induction analyzers generalizing j with
  | nil => exact ⟨[], rfl, Log.Activity.ends_pure [] j⟩
  | cons a rest ih =>
    rw [List.map_cons, List.findSome?_cons, List.flatMap_cons]
    cases ha : a.discover root with
    | error fault =>
      have hfailure : a.failure? root = some (.analyzer a.name root.text fault) := by
        rw [Analyzer.failure?, ha]
      rw [hfailure]
      exact (Log.Activity.ends_report _ _ _ j).behind fun j' => Log.Activity.ends_throw _ j'
    | ok cs =>
      have hnone : a.failure? root = none := by rw [Analyzer.failure?, ha]
      have hcandidates : a.candidates root = cs := by rw [Analyzer.candidates, ha]
      rw [hnone, hcandidates]
      have hrest := ih j
      unfold collect
      cases hfault : rest.findSome? (Analyzer.failure? root) with
      | some fault =>
        rw [hfault] at hrest
        exact hrest.bind_error _
      | none =>
        rw [hfault] at hrest
        obtain ⟨found, hfound, hends⟩ := hrest
        refine ⟨(a.name, cs) :: found, by rw [List.flatMap_cons, hfound], ?_⟩
        exact hends.behind fun j' => Log.Activity.ends_pure _ j'

/-- The fault of a candidate is that of its path if the path can be handed over. -/
theorem isOfPath_iff_of_obstacle {c : Service} {fault : Git.ResolveFault}
    (h : w.obstacle? root c = some fault) : fault.IsOfPath ↔ (sourcePath root c).Usable := by
  unfold obstacle? at h
  split at h
  · cases h
  · split at h
    · exact Git.Resolver.isOfPath_iff_of_obstacle h
    · cases h

/-- The activity is run from a journal in which the values of the run are bound. -/
theorem ends_bound (w : Workflow) (root : Path) (act : Log.Activity Fault α) (j : Journal) :
    ∃ j', ∀ {outcome : Except Fault α} {asked : List Git.Query}, act.Ends j' outcome asked →
      (w.bound root act).Ends j outcome asked := by
  unfold bound
  obtain ⟨j₁, hbound⟩ := (Log.Activity.ends_modify rfl : (modify fun j : Journal =>
    (j.bind "plan_name" (.text w.planName)).bind "root_dir" (.text root.text) :
      Log.Activity Fault PUnit).Ends j (.ok ⟨⟩) []).bind _
  refine ⟨j₁, fun {outcome asked} hact => hbound ?_⟩
  obtain ⟨j₂, hunbound⟩ := hact.liftM.bind _
  rw [List.append_nil asked |>.symm]
  refine hunbound ((Log.Activity.ends_modify rfl).behind fun j₃ => ?_)
  cases outcome with
  | ok a => exact Log.Activity.ends_pure a j₃
  | error fault => exact Log.Activity.ends_throw fault j₃

theorem Passes.bound {cs : List Service} {act : Log.Activity Fault α} (h : w.Passes root cs act) :
    w.Passes root cs (w.bound root act) := by
  intro j
  obtain ⟨j', hbound⟩ := ends_bound w root act j
  obtain ⟨calls, hcalls, hends⟩ := h j'
  refine ⟨calls, hcalls, ?_⟩
  cases hfault : cs.findSome? (w.obstacle? root) with
  | some fault =>
    rw [hfault] at hends
    exact hbound hends
  | none =>
    rw [hfault] at hends
    obtain ⟨a, hends⟩ := hends
    exact ⟨a, hbound hends⟩

/-- A run whose analyzers do not fail passes over all candidates. -/
theorem passes_execute (h : w.Inspects) (rootDir : String) (layers : List KubernetesOutput)
    (hfound : w.analyzers.findSome? (Analyzer.failure? (.parse rootDir)) = none) :
    w.Passes (.parse rootDir) (w.candidates (.parse rootDir)) (w.execute rootDir layers) := by
  refine Passes.bound (Passes.behind fun j => ⟨(), Log.Activity.ends_report _ _ _ j, ?_⟩)
  refine Passes.behind fun j => ?_
  have hdiscover := ends_discover w (.parse rootDir) j
  rw [hfound] at hdiscover
  obtain ⟨found, hflat, hends⟩ := hdiscover
  refine ⟨found, hends, ?_⟩
  rw [← hflat]
  refine (passes_mergeAll h _ found).before fun p => ?_
  exact (passes_report _ _ _).before fun _ => passes_pure _

/-- A run ends with the fault of the first analyzer that fails, before any query is put. -/
theorem ends_execute_of_failure {rootDir : String} (layers : List KubernetesOutput)
    {fault : Fault}
    (hfault : w.analyzers.findSome? (Analyzer.failure? (.parse rootDir)) = some fault)
    (j : Journal) : (w.execute rootDir layers).Ends j (.error fault) [] := by
  obtain ⟨j', hbound⟩ := ends_bound w (.parse rootDir) (w.plan (.parse rootDir) layers) j
  refine hbound ((Log.Activity.ends_report _ _ _ j').behind fun j₁ => ?_)
  have hdiscover := ends_discover w (.parse rootDir) j₁
  rw [hfault] at hdiscover
  exact hdiscover.bind_error _

/-! ## What is bound for a run -/

/-- The names that are bound for a run. -/
def boundNames : List String := ["plan_name", "root_dir"]

/-- What was bound for the run is dropped, however it ends. -/
theorem get?_context_bound (act : Log.Activity Fault α) (j : Journal) {name : String}
    (hname : name ∈ boundNames) : ((w.bound root act).run.run j).2.context.get? name = none := by
  unfold bound
  rw [Log.Activity.run_bind, Log.Activity.run_modify]
  dsimp only
  rw [Log.Activity.run_bind, Log.Activity.run_liftM]
  dsimp only
  rw [Log.Activity.run_bind, Log.Activity.run_modify]
  dsimp only
  have hdropped : ∀ k : Journal, (k.unbind boundNames).context.get? name = none := by
    intro k
    rw [Option.eq_none_iff_forall_not_mem]
    intro v hv
    obtain ⟨-, hkept⟩ := List.mem_filter.mp (OrderedMap.mem_of_get?_ofList hv)
    rw [List.contains_eq_mem, decide_eq_true hname] at hkept
    cases hkept
  cases (act.run.run _).1 <;> exact hdropped _

/-- The journal after some runs. -/
def journalAfter (w : Workflow) (rootDir : String) (layers : List KubernetesOutput) :
    Nat → Journal → Journal
  | 0, j => j
  | n + 1, j => ((w.execute rootDir layers).run.run (w.journalAfter rootDir layers n j)).2

end Workflow
end Replatform
