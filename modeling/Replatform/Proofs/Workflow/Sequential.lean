import Replatform.Proofs.Assembly.Apart
import Replatform.Proofs.Git.Lookup
import Replatform.Proofs.Pool
import Replatform.Workflow

/-! # A planning run as one pass over the candidates

A run submits the candidates analyzer by analyzer and looks for their repositories on the way,
batch by batch.  What it makes is what one pass over all candidates makes, in their order: each
gets its repository, one lookup after the other, and then all are offered to a plan without
services.  So neither the number of workers nor the division of the candidates among the analyzers
makes a difference, to the plan or to what is asked outside.
-/
namespace Replatform

open Log (Journal Entry)
open Log.Activity (Returns)

namespace Workflow

/-! ## One pass over the candidates -/

/-- What a candidate becomes. -/
structure Visit where
  enriched : Service
  /-- The queries that are put for it. -/
  queries : List Git.Query
  deriving DecidableEq

/-- A candidate with the repository that is found for it, if it has none yet and repositories are
to be looked for, and what has happened outside then. -/
def visit (w : Workflow) (root : Path) (c : Service) (past : List Entry) : Visit × List Entry :=
  match w.repositories with
  | none => (⟨c, []⟩, past)
  | some (host, inspector) =>
    if c.repo.isEmpty then
      let found := Git.Resolver.lookup host inspector (sourcePath root c) past
      (⟨(found.repo.map c.withRepo).getD c, found.queries⟩, found.past)
    else (⟨c, []⟩, past)

/-- All candidates, one after the other. -/
def visitAll (w : Workflow) (root : Path) : List Service → List Entry → List Visit × List Entry
  | [], past => ([], past)
  | c :: rest, past =>
    let first := w.visit root c past
    let others := visitAll w root rest first.2
    (first.1 :: others.1, others.2)

theorem visitAll_append (w : Workflow) (root : Path) (cs ds : List Service) (past : List Entry) :
    w.visitAll root (cs ++ ds) past =
      ((w.visitAll root cs past).1 ++ (w.visitAll root ds (w.visitAll root cs past).2).1,
        (w.visitAll root ds (w.visitAll root cs past).2).2) := by
  induction cs generalizing past with
  | nil => rfl
  | cons c rest ih =>
    rw [List.cons_append, visitAll, ih]
    rfl

/-- The pass does not depend on anything but the repositories. -/
theorem visitAll_congr {w w' : Workflow} (h : w'.repositories = w.repositories) (root : Path)
    (cs : List Service) (past : List Entry) :
    w'.visitAll root cs past = w.visitAll root cs past := by
  induction cs generalizing past with
  | nil => rfl
  | cons c rest ih =>
    have hfirst : w'.visit root c past = w.visit root c past := by rw [visit, visit, h]
    rw [visitAll, visitAll, hfirst, ih]

/-! ## Lookups that do not fail -/

/-- The inspector, if there is one, takes no notice of the log, and no lookup for a candidate
without a repository fails. -/
structure LooksUp (w : Workflow) (root : Path) (cs : List Service) : Prop where
  detached : ∀ host inspector, w.repositories = some (host, inspector) → inspector.Detached
  returns : ∀ host inspector, w.repositories = some (host, inspector) → ∀ c ∈ cs,
    c.repo.isEmpty = true → ∀ j, ∃ r,
      ((Git.Resolver.resolve host inspector (sourcePath root c)).run.run j).1 = .ok r

variable {w : Workflow} {root : Path}

theorem LooksUp.mono {cs ds : List Service} (h : w.LooksUp root cs) (hsub : ds ⊆ cs) :
    w.LooksUp root ds :=
  ⟨h.detached, fun host inspector hw c hc => h.returns host inspector hw c (hsub hc)⟩

/-- The queries of the pass are those that were put outside. -/
theorem queries_visitAll {cs : List Service} (h : w.LooksUp root cs) (past : List Entry) :
    (Journal.ofPast (w.visitAll root cs past).2).queries =
      (Journal.ofPast past).queries ++ (w.visitAll root cs past).1.flatMap Visit.queries := by
  induction cs generalizing past with
  | nil => simp [visitAll]
  | cons c rest ih =>
    have hfirst : (Journal.ofPast (w.visit root c past).2).queries =
        (Journal.ofPast past).queries ++ (w.visit root c past).1.queries := by
      unfold visit
      split
      · simp
      · rename_i host inspector hw
        split
        · exact Git.Resolver.queries_lookup (h.detached host inspector hw) ..
        · simp
    rw [visitAll]
    dsimp only
    rw [ih (h.mono (List.subset_cons_self c rest)), hfirst, List.flatMap_cons, List.append_assoc]

/-! ## What a run does -/

/-- A candidate is enriched as the pass does it. -/
theorem returns_enrich {c : Service} (h : w.LooksUp root [c]) (j : Journal) :
    (w.enrich root c).Returns j (w.visit root c j.outside).1.enriched
      (w.visit root c j.outside).2 := by
  unfold enrich visit
  cases hw : w.repositories with
  | none => exact Log.Activity.returns_pure c j
  | some pair =>
    obtain ⟨host, inspector⟩ := pair
    dsimp only
    cases hempty : c.repo.isEmpty with
    | false => exact Log.Activity.returns_pure c j
    | true =>
      have hgather := Git.Resolver.returns_gather (h.detached host inspector hw)
        (h.returns host inspector hw c (List.mem_singleton_self c) hempty j) c
      refine (hgather.adapt Fault.repository).bind fun j' hj' => ?_
      rw [← hj']
      exact Log.Activity.returns_ite_report _ _ _ _ j'

theorem returns_mapM_enrich {cs : List Service} (h : w.LooksUp root cs) (j : Journal) :
    (cs.mapM (w.enrich root)).Returns j ((w.visitAll root cs j.outside).1.map Visit.enriched)
      (w.visitAll root cs j.outside).2 := by
  induction cs generalizing j with
  | nil => exact Log.Activity.returns_pure [] j
  | cons c rest ih =>
    rw [List.mapM_cons]
    refine (returns_enrich (h.mono (by simp)) j).bind fun j₁ hj₁ => ?_
    refine (ih (h.mono (List.subset_cons_self c rest)) j₁).bind fun j₂ hj₂ => ?_
    rw [visitAll, ← hj₁, ← hj₂]
    exact Log.Activity.returns_pure _ j₂

theorem returns_submit {ε : Type} (p : Plan) (cs : List Service) (j : Journal) :
    (p.submit cs : Log.Activity ε (Plan × AssemblyReport)).Returns j
      (p.add cs, p.services.tally cs) j.outside := by
  refine ⟨_, Plan.run_submit p cs j, ?_⟩
  simp [Journal.outside, Log.Entry.isOutside, List.filter_map]

/-- The candidates are added as if all were submitted at once. -/
theorem returns_mergeAll {found : List (String × List Service)}
    (h : w.LooksUp root (found.flatMap Prod.snd)) (p : Plan) (j : Journal) :
    (w.mergeAll root p found).Returns j
      (p.add ((w.visitAll root (found.flatMap Prod.snd) j.outside).1.map Visit.enriched))
      (w.visitAll root (found.flatMap Prod.snd) j.outside).2 := by
  induction found generalizing p j with
  | nil => exact Log.Activity.returns_pure p j
  | cons batch rest ih =>
    obtain ⟨name, cs⟩ := batch
    rw [List.flatMap_cons] at h ⊢
    have hcs : w.LooksUp root cs := h.mono (List.subset_append_left cs _)
    have hrest : w.LooksUp root (rest.flatMap Prod.snd) := h.mono (List.subset_append_right cs _)
    refine (returns_mapM_enrich hcs j).bind fun j₁ hj₁ => ?_
    refine (returns_submit p _ j₁).bind fun j₂ hj₂ => ?_
    refine (Log.Activity.returns_report _ _ _ j₂).bind fun j₃ hj₃ => ?_
    -- the other batches start from this plan, and from what has happened outside for this batch
    have hnext := ih hrest (p.add ((w.visitAll root cs j.outside).1.map Visit.enriched)) j₃
    rw [hj₃, hj₂, hj₁] at hnext
    have hadd : ∀ es ds : List Service, (p.add es).add ds = p.add (es ++ ds) := fun es ds =>
      congrArg (fun services => { p with services }) (Services.add_append p.services es ds).symm
    rw [visitAll_append, List.map_append, ← hadd]
    exact hnext

theorem returns_discover {batches : List (List Service)}
    (h : w.analyzers.map (·.discover root) = batches.map .ok) (j : Journal) :
    ∃ found, found.flatMap Prod.snd = batches.flatten ∧
      (w.discover root).Returns j found j.outside := by
  unfold discover
  rw [Pool.zip_results]
  generalize w.analyzers = analyzers at h ⊢
  induction analyzers generalizing batches j with
  | nil =>
    obtain rfl : batches = [] := List.map_eq_nil_iff.mp h.symm
    exact ⟨[], rfl, Log.Activity.returns_pure [] j⟩
  | cons a rest ih =>
    cases batches with
    | nil => cases h
    | cons cs batches =>
      obtain ⟨hfirst, hrest⟩ := List.cons.inj h
      have ha : a.discover root = .ok cs := hfirst
      obtain ⟨found, hfound, hreturns⟩ := ih j hrest
      refine ⟨(a.name, cs) :: found, by rw [List.flatMap_cons, hfound, List.flatten_cons], ?_⟩
      rw [List.map_cons, ha]
      unfold collect
      refine hreturns.bind fun j' hj' => ?_
      rw [← hj']
      exact Log.Activity.returns_pure _ j'

/-- What is bound for the run makes no difference to what happens outside. -/
theorem returns_bound {α : Type} {act : Log.Activity Fault α} {j : Journal} {a : α}
    {past : List Entry} (h : ∀ j', j'.outside = j.outside → act.Returns j' a past) :
    (w.bound root act).Returns j a past := by
  unfold bound
  have hout : ((j.bind "plan_name" (.text w.planName)).bind "root_dir" (.text root.text)).outside =
      j.outside := by
    rw [Journal.outside_bind, Journal.outside_bind]
  refine (Log.Activity.returns_modify hout).bind fun j₁ hj₁ => ?_
  refine (h j₁ hj₁).liftM.bind fun j₂ hj₂ => ?_
  refine (Log.Activity.returns_modify (Journal.outside_unbind j₂ _)).bind fun j₃ hj₃ => ?_
  rw [← hj₂, ← hj₃]
  exact Log.Activity.returns_pure a j₃

/-- The plan of one pass: the candidates with their repositories are offered to a plan without
services at once, and the output layers are merged. -/
def planned (w : Workflow) (root : Path) (layers : List KubernetesOutput)
    (visits : List Visit) : Plan :=
  { Plan.new w.planName w.clusterType with
    rootDir := root.text
    services := Services.add .empty (visits.map Visit.enriched)
    output := layers.foldl KubernetesOutput.merge
      { KubernetesOutput.blank with cluster := ⟨w.clusterType, ""⟩ } }

theorem returns_execute {rootDir : String} {batches : List (List Service)}
    (hfound : w.analyzers.map (·.discover (.parse rootDir)) = batches.map .ok)
    (hlooks : w.LooksUp (.parse rootDir) batches.flatten) (layers : List KubernetesOutput)
    (j : Journal) :
    (w.execute rootDir layers).Returns j
      (w.planned (.parse rootDir) layers (w.visitAll (.parse rootDir) batches.flatten j.outside).1)
      (w.visitAll (.parse rootDir) batches.flatten j.outside).2 := by
  refine returns_bound fun j₁ hj₁ => ?_
  refine (Log.Activity.returns_report _ _ _ j₁).bind fun j₂ hj₂ => ?_
  obtain ⟨found, hflat, hdiscover⟩ := returns_discover hfound j₂
  refine hdiscover.bind fun j₃ hj₃ => ?_
  rw [← hflat] at hlooks
  refine (returns_mergeAll hlooks _ j₃).bind fun j₄ hj₄ => ?_
  refine (Log.Activity.returns_report _ _ _ j₄).bind fun j₅ hj₅ => ?_
  rw [← hflat, ← hj₁, ← hj₂, ← hj₃, ← hj₄, ← hj₅]
  exact Log.Activity.returns_pure _ j₅

/-- **A run makes what one pass over the candidates makes.**  If no analyzer and no lookup fails,
the plan is that of the pass over the candidates of all analyzers, in the order of the analyzers,
and the queries of the run are those of the pass.  A run with other workers or other analyzers
makes the same plan and leaves the same behind outside, if its analyzers find the same candidates
in the same order, however they are divided among them. -/
theorem execute_is_one_pass {w : Workflow} {rootDir : String} {batches : List (List Service)}
    (hfound : w.analyzers.map (·.discover (.parse rootDir)) = batches.map .ok)
    (hlooks : w.LooksUp (.parse rootDir) batches.flatten) (layers : List KubernetesOutput)
    (j : Journal) :
    (∃ j', (w.execute rootDir layers).run.run j =
        (.ok (w.planned (.parse rootDir) layers
          (w.visitAll (.parse rootDir) batches.flatten j.outside).1), j') ∧
      j'.queries = j.queries ++
        (w.visitAll (.parse rootDir) batches.flatten j.outside).1.flatMap Visit.queries) ∧
    ∀ (w' : Workflow) (batches' : List (List Service)) (j' : Journal),
      w'.repositories = w.repositories → w'.planName = w.planName →
      w'.clusterType = w.clusterType →
      w'.analyzers.map (·.discover (.parse rootDir)) = batches'.map .ok →
      batches'.flatten = batches.flatten → j'.outside = j.outside →
      ((w'.execute rootDir layers).run.run j').1 = ((w.execute rootDir layers).run.run j).1 ∧
        ((w'.execute rootDir layers).run.run j').2.outside =
          ((w.execute rootDir layers).run.run j).2.outside := by
  obtain ⟨k, hrun, hpast⟩ := returns_execute hfound hlooks layers j
  refine ⟨⟨k, hrun, ?_⟩, ?_⟩
  · rw [← Journal.queries_ofPast k, hpast, queries_visitAll hlooks, Journal.queries_ofPast]
  · intro w' batches' j' hrepositories hname hcluster hfound' hflat hj
    have hlooks' : w'.LooksUp (.parse rootDir) batches'.flatten := by
      rw [hflat]
      exact ⟨hrepositories ▸ hlooks.detached, hrepositories ▸ hlooks.returns⟩
    obtain ⟨k', hrun', hpast'⟩ := returns_execute hfound' hlooks' layers j'
    have hplanned : ∀ visits, w'.planned (.parse rootDir) layers visits =
        w.planned (.parse rootDir) layers visits := by
      intro visits
      rw [planned, planned, hname, hcluster]
    rw [hrun, hrun', hplanned, hflat, hj, visitAll_congr hrepositories]
    rw [hflat, hj, visitAll_congr hrepositories] at hpast'
    exact ⟨rfl, hpast'.trans hpast.symm⟩

/-- Two analyzers find a candidate with a repository, one whose repository is found, and one whose
is not, since the inspector has one answer only; one analyzer with all three makes no
difference. -/
theorem execute_is_one_pass_of_three_candidates :
    let host : Git.Host :=
      ⟨FileTree.empty.set ["shop"] (.directory .all), ⟨.slash, []⟩⟩
    let inspector := Git.Inspector.ready (fun _ _ => .ok ["fork", "origin"]) fun j dir _ =>
      if j.queries.length = 2 then .ok ⟨dir.text, "main", ["url"]⟩
      else .error (.reported "no answer")
    let preset := (Service.new "api" .any).withRepo ⟨"/shop/api", "", "", ""⟩
    let web := (Service.new "web" .any).addSource .sourceCode "/shop"
    let job := Service.new "job" .any
    let w : Workflow :=
      { analyzers := [⟨"a", fun _ => .ok [preset, web]⟩, ⟨"b", fun _ => .ok [job]⟩]
        repositories := some (host, inspector)
        planName := "shop", clusterType := "Kubernetes", pool := ⟨2, fun _ => 1⟩ }
    let w' := { w with analyzers := [⟨"c", fun _ => .ok [preset, web, job]⟩], pool := ⟨0, fun _ => 0⟩ }
    let layer := { KubernetesOutput.blank with registryUrl := "registry" }
    let p := { Plan.new "shop" "Kubernetes" with
      rootDir := "/shop"
      services := Services.add .empty [preset, web.withRepo ⟨"/shop", "url", "main", ""⟩, job]
      output := { layer with cluster := ⟨"Kubernetes", ""⟩ } }
    let dir : Path := ⟨.slash, ["shop"]⟩
    (∃ j, (w.execute "/shop" [layer]).run.run .empty = (.ok p, j) ∧
      j.queries = [.remotes dir, .details dir (some "origin"), .remotes dir,
        .details dir (some "origin")]) ∧
    ((w'.execute "/shop" [layer]).run.run .empty).1 = .ok p := by
  intro host inspector preset web job w w' layer p dir
  have hfound : w.analyzers.map (·.discover (.parse "/shop")) =
      [[preset, web], [job]].map .ok := rfl
  have hlooks : w.LooksUp (.parse "/shop") [[preset, web], [job]].flatten := by
    refine ⟨fun host' inspector' hw => ?_, fun host' inspector' hw c hc _ j => ?_⟩
    · obtain ⟨rfl, rfl⟩ := Prod.mk.inj (Option.some.inj hw)
      refine Git.Inspector.detached_ready (fun _ _ _ => rfl) fun j j' hj => ?_
      rw [Journal.queries_congr hj]
    · obtain ⟨rfl, rfl⟩ := Prod.mk.inj (Option.some.inj hw)
      have hpath : ∀ c ∈ [preset, web, job], sourcePath (.parse "/shop") c = dir := by
        decide +kernel
      rw [hpath c hc]
      refine @Git.Resolver.run_resolve_ok host inspector dir (.directory .all) (by rfl)
        (by decide +kernel) ?_ ?_ j
      · intro dir j b
        rw [Git.Inspector.run_remotes_ready]
        exact fun h => by cases h
      · intro dir remote j b
        rw [Git.Inspector.run_details_ready]
        split <;> exact fun h => by cases h
  obtain ⟨⟨j, hrun, hqueries⟩, hother⟩ := execute_is_one_pass hfound hlooks [layer] .empty
  have hvisits : (w.visitAll (.parse "/shop") [[preset, web], [job]].flatten []).1 =
      [⟨preset, []⟩,
        ⟨web.withRepo ⟨"/shop", "url", "main", ""⟩, [.remotes dir, .details dir (some "origin")]⟩,
        ⟨job, [.remotes dir, .details dir (some "origin")]⟩] := by
    decide +kernel
  have hout : Journal.empty.outside = [] := rfl
  rw [hout, hvisits] at hrun hqueries
  have hsame := (hother w' [[preset, web, job]] .empty rfl rfl rfl rfl rfl rfl).1
  refine ⟨⟨j, hrun, hqueries⟩, ?_⟩
  rw [hsame, hrun]
  rfl

end Workflow
end Replatform
