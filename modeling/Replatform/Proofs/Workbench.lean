import Mathlib.Logic.Relation
import Replatform.Proofs.Assembly.Grouping
import Replatform.Proofs.Document.Mapping
import Replatform.Proofs.Git.Breakdown

/-! # Lists without repeats

A program has services and plans at hand, and works on them step by step: it changes a service,
also one that is an entry of a plan; it makes a new service from others; it lets a plan take in a
batch; it loads a plan from a document.  The lists of a document may hold repeats, and the
conversion of its paths may make equal what was different.  Still no step ever leads from **tidy**
services to one that is not: each way to make a service either takes the lists as they are, or
extends them by what is new, or drops the repeats at last.
-/
namespace Replatform

namespace Service

/-- A change of a service in place. -/
inductive Change where
  | sourceKind (k : SourceKind)
  | targetOption (option : String)
  | source (k : SourceArtifact) (path : String)
  | build (k : BuildArtifact) (path : String)

/-- The service after a change. -/
def changed (s : Service) : Change → Service
  | .sourceKind k => s.addSourceKind k
  | .targetOption option => s.addTargetOption option
  | .source k path => s.addSource k path
  | .build k path => s.addBuild k path

theorem Tidy.changed {s : Service} (h : s.Tidy) (c : Change) : (s.changed c).Tidy := by
  cases c with
  | sourceKind k => exact ⟨Discovery.nodup_add h.sourceKinds k, h.targetOptions⟩
  | targetOption option => exact ⟨h.sourceKinds, Discovery.nodup_add h.targetOptions option⟩
  | source k path => exact ⟨h.sourceKinds, h.targetOptions⟩
  | build k path => exact ⟨h.sourceKinds, h.targetOptions⟩

theorem Tidy.withRepo {s : Service} (h : s.Tidy) (repo : RepoInfo) : (s.withRepo repo).Tidy :=
  ⟨h.sourceKinds, h.targetOptions⟩

/-- What an entry takes in need not be tidy. -/
theorem Tidy.absorb {s : Service} (h : s.Tidy) (t : Service) : (s.absorb t).Tidy :=
  ⟨Discovery.nodup_union h.sourceKinds t.sourceKinds,
    Discovery.nodup_union h.targetOptions t.targetOptions⟩

theorem Tidy.merge? {s t m : Service} (h : s.Tidy) (hm : s.merge? t = some m) : m.Tidy := by
  obtain ⟨-, rfl⟩ := merge?_eq_some_iff.mp hm
  exact h.absorb t

theorem Tidy.receive {s : Service} (h : s.Tidy) (c : Service) : (s.receive c).Tidy := by
  unfold Service.receive
  split
  · exact h.absorb c
  · exact h

/-- A search for the repository of a service returns the service, with another repository at
most. -/
theorem Tidy.gather {host : Git.Host} {inspector : Git.Inspector} {s s' : Service} {path : Path}
    {j j' : Log.Journal} {found : Bool} (h : s.Tidy)
    (hrun : (Git.Resolver.gather host inspector s path).run.run j = (.ok (found, s'), j')) :
    s'.Tidy := by
  rw [Git.Resolver.run_gather] at hrun
  rcases hresolve : (Git.Resolver.resolve host inspector path).run.run j with
    ⟨fault | _ | repo, j₁⟩ <;> rw [hresolve] at hrun <;> cases hrun
  · exact h
  · exact h.withRepo repo

end Service

/-! ## Plans -/

namespace Services

/-- Every entry is tidy. -/
def Tidy (ss : Services) : Prop := ∀ name, ∀ e ∈ ss.under name, e.Tidy

/-- An entry after an offer is an entry that has received the candidate, or the candidate. -/
theorem Tidy.offer {ss : Services} {c : Service} (h : Tidy ss) (hc : c.Tidy) :
    Tidy (ss.offer c) := by
  intro name e he
  by_cases hname : c.name = name
  · subst hname
    rw [under_offer_self] at he
    rcases mem_offerTo.mp he with ⟨e₀, he₀, rfl⟩ | ⟨rfl, -⟩
    · exact (h c.name e₀ he₀).receive c
    · exact hc
  · rw [under_offer_ne ss hname] at he
    exact h name e he

theorem Tidy.add {ss : Services} {batch : List Service} (h : Tidy ss)
    (hbatch : ∀ c ∈ batch, c.Tidy) : Tidy (ss.add batch) := by
  induction batch generalizing ss with
  | nil => exact h
  | cons c rest ih =>
    rw [add_cons]
    exact ih (h.offer (hbatch c List.mem_cons_self)) fun c' hc' =>
      hbatch c' (List.mem_cons_of_mem c hc')

/-- An entry is changed in place, and the others stay. -/
theorem Tidy.changeEntry {ss : Services} {name : String} {es : List Service} {i : Nat}
    {s : Service} (h : Tidy ss) (hes : ss.get? name = some es) (hs : es[i]? = some s)
    (c : Service.Change) : Tidy (ss.insert name (es.set i (s.changed c))) := by
  have hold : ∀ e ∈ es, e.Tidy := fun e he => h name e (by rwa [under, hes])
  intro name' e he
  rw [under_insert] at he
  split at he
  · rcases List.mem_or_eq_of_mem_set he with he | rfl
    · exact hold e he
    · exact (hold s (List.mem_of_getElem? hs)).changed c
  · exact h name' e he

end Services

namespace Plan

theorem mem_entries {p : Plan} {s : Service} :
    s ∈ p.entries ↔ ∃ name, s ∈ p.services.under name := by
  unfold entries Services.under
  constructor
  · intro hs
    obtain ⟨es, hes, hmem⟩ := List.mem_flatten.mp hs
    obtain ⟨⟨name, es⟩, he, rfl⟩ := List.mem_map.mp hes
    refine ⟨name, ?_⟩
    rw [OrderedMap.get?, OrderedMap.find?_of_mem p.services.keys_nodup he]
    exact hmem
  · rintro ⟨name, hs⟩
    cases hes : p.services.get? name with
    | none =>
      rw [hes] at hs
      cases hs
    | some es =>
      rw [hes] at hs
      exact List.mem_flatten.mpr ⟨es, List.mem_map_of_mem (OrderedMap.mem_of_get? hes), hs⟩

theorem tidy_iff {p : Plan} : p.Tidy ↔ Services.Tidy p.services :=
  ⟨fun h name e he => h e (mem_entries.mpr ⟨name, he⟩), fun h s hs =>
    let ⟨name, he⟩ := mem_entries.mp hs
    h name s he⟩

theorem Tidy.add {p : Plan} {batch : List Service} (h : p.Tidy) (hbatch : ∀ c ∈ batch, c.Tidy) :
    (p.add batch).Tidy :=
  tidy_iff.mpr ((tidy_iff.mp h).add hbatch)

end Plan

/-! ## Steps of a program -/

/-- The services and the plans that a program has at hand. -/
structure Workbench where
  services : List Service
  plans : List Plan

namespace Workbench

/-- The service is at hand, by itself or as an entry of a plan. -/
def Holds (w : Workbench) (s : Service) : Prop := s ∈ w.services ∨ ∃ p ∈ w.plans, s ∈ p.entries

/-- How a service comes to hand: as a candidate that is tidy from the start, as a copy, with a
repository that is given or searched for, or merged from two. -/
inductive Makes (w : Workbench) : Service → Prop
  | candidate {s : Service} (h : s.Tidy) : Makes w s
  | copy {s : Service} (h : w.Holds s) : Makes w s
  | withRepo {s : Service} (h : w.Holds s) (repo : RepoInfo) : Makes w (s.withRepo repo)
  | merge {s t m : Service} (hs : w.Holds s) (ht : w.Holds t) (h : s.merge? t = some m) : Makes w m
  | gather {s s' : Service} (h : w.Holds s) {host : Git.Host} {inspector : Git.Inspector}
      {path : Path} {j j' : Log.Journal} {found : Bool}
      (hrun : (Git.Resolver.gather host inspector s path).run.run j = (.ok (found, s'), j')) :
      Makes w s'

/-- What becomes of a plan: it takes in a batch of services that are at hand, also through a
session with its reports, or one of its entries is changed in place. -/
inductive Updates (w : Workbench) (p : Plan) : Plan → Prop
  | add {batch : List Service} (h : ∀ c ∈ batch, w.Holds c) : Updates w p (p.add batch)
  | submit {ε : Type} {batch : List Service} (h : ∀ c ∈ batch, w.Holds c) {p' : Plan}
      {report : AssemblyReport} {j j' : Log.Journal}
      (hrun : (p.submit batch : Log.Activity ε (Plan × AssemblyReport)).run.run j =
        (.ok (p', report), j')) : Updates w p p'
  | changeEntry {name : String} {es : List Service} {i : Nat} {s : Service}
      (hes : p.services.get? name = some es) (hs : es[i]? = some s) (c : Service.Change) :
      Updates w p { p with services := p.services.insert name (es.set i (s.changed c)) }

/-- A step of a program.  What a program holds in several places is changed in each of them by a
step of its own.  Documents are loaded as they are, under any conversion of paths. -/
inductive Step (w : Workbench) : Workbench → Prop
  | change {i : Nat} {s : Service} (h : w.services[i]? = some s) (c : Service.Change) :
      Step w { w with services := w.services.set i (s.changed c) }
  | make {s : Service} (h : w.Makes s) : Step w { w with services := w.services ++ [s] }
  | start {p : Plan} (h : p.Tidy) : Step w { w with plans := w.plans ++ [p] }
  | update {i : Nat} {p p' : Plan} (hp : w.plans[i]? = some p) (h : w.Updates p p') :
      Step w { w with plans := w.plans.set i p' }
  | load (f : String → String) (d : Document) :
      Step w { w with plans := w.plans ++ [d.toPlan f] }

/-- All services at hand are tidy. -/
def Tidy (w : Workbench) : Prop := ∀ s, w.Holds s → s.Tidy

theorem tidy_iff {w : Workbench} :
    w.Tidy ↔ (∀ s ∈ w.services, s.Tidy) ∧ ∀ p ∈ w.plans, p.Tidy := by
  constructor
  · exact fun h => ⟨fun s hs => h s (Or.inl hs), fun p hp s hs => h s (Or.inr ⟨p, hp, hs⟩)⟩
  · rintro ⟨hservices, hplans⟩ s (hs | ⟨p, hp, hs⟩)
    · exact hservices s hs
    · exact hplans p hp s hs

theorem Tidy.makes {w : Workbench} {s : Service} (hw : w.Tidy) (h : w.Makes s) : s.Tidy := by
  cases h with
  | candidate h => exact h
  | copy h => exact hw s h
  | withRepo h repo => exact (hw _ h).withRepo repo
  | merge hs _ h => exact (hw _ hs).merge? h
  | gather h hrun => exact (hw _ h).gather hrun

theorem Tidy.updates {w : Workbench} {p p' : Plan} (hw : w.Tidy) (hp : p.Tidy)
    (h : w.Updates p p') : p'.Tidy := by
  cases h with
  | add h => exact hp.add fun c hc => hw c (h c hc)
  | submit h hrun =>
    rw [Plan.run_submit] at hrun
    cases hrun
    exact hp.add fun c hc => hw c (h c hc)
  | changeEntry hes hs c => exact Plan.tidy_iff.mpr ((Plan.tidy_iff.mp hp).changeEntry hes hs c)

theorem Tidy.step {w w' : Workbench} (hw : w.Tidy) (h : w.Step w') : w'.Tidy := by
  obtain ⟨hservices, hplans⟩ := tidy_iff.mp hw
  rw [tidy_iff]
  cases h with
  | change h c =>
    refine ⟨fun s hs => ?_, hplans⟩
    rcases List.mem_or_eq_of_mem_set hs with hs | rfl
    · exact hservices s hs
    · exact (hservices _ (List.mem_of_getElem? h)).changed c
  | make h =>
    refine ⟨List.forall_mem_append.mpr ⟨hservices, ?_⟩, hplans⟩
    exact List.forall_mem_singleton.mpr (hw.makes h)
  | start h =>
    exact ⟨hservices, List.forall_mem_append.mpr ⟨hplans, List.forall_mem_singleton.mpr h⟩⟩
  | update hp h =>
    refine ⟨hservices, fun p hmem => ?_⟩
    rcases List.mem_or_eq_of_mem_set hmem with hmem | rfl
    · exact hplans p hmem
    · exact hw.updates (hplans _ (List.mem_of_getElem? hp)) h
  | load f d =>
    refine ⟨hservices, List.forall_mem_append.mpr ⟨hplans, ?_⟩⟩
    exact List.forall_mem_singleton.mpr (Document.tidy_toPlan f d)

theorem Tidy.run {w w' : Workbench} (hw : w.Tidy) (h : Relation.ReflTransGen Step w w') :
    w'.Tidy := by
  induction h with
  | refl => exact hw
  | tail _ hstep ih => exact ih.step hstep

/-- **No list ever holds a repeat.**  If the services at hand have none at the start, then after
any number of steps the lists of each service at hand have none, nor have the paths of any kind
of artifact, of a service or of the target of a plan. -/
theorem no_repeats {w w' : Workbench} (hstart : w.Tidy) (h : Relation.ReflTransGen Step w w') :
    (∀ s, w'.Holds s → s.sourceKinds.Nodup ∧ s.targetOptions.Nodup ∧
      (∀ k, (s.sources.get k).Nodup) ∧ ∀ k, (s.builds.get k).Nodup) ∧
    ∀ p ∈ w'.plans, ∀ k, (p.targets.get k).Nodup := by
  refine ⟨fun s hs => ?_, fun p _ k => p.targets.nodup_get k⟩
  have htidy : s.Tidy := hstart.run h s hs
  exact ⟨htidy.sourceKinds, htidy.targetOptions, s.sources.nodup_get, s.builds.nodup_get⟩

/-- The directories of a loaded service become one.  A copy of the service gets a kind that it has
and one that it has not, and the plan takes it in. -/
theorem no_repeats_of_collapsed :
    let web : ServiceDocument :=
      { name := "web", relPath := "", image := "", strategy := .any, build := .s2i
        sourceKinds := [.directory, .directory], targetOptions := ["a", "b", "a"]
        sources := .ofList [(.sourceCode, ["src", "./src", "src"])], builds := .empty
        updatesBuild := false, updatesDeploy := false, repo := .none }
    let d : Document :=
      { apiVersion := "", kind := Plan.standardKind, name := "shop", rootDir := ""
        k8sFiles := [], services := .ofList [("web", [web])], targets := .empty, output := .blank }
    let p := d.toPlan fun _ => "/src"
    let copy := ((Document.toService (fun _ => "/src") web).addSourceKind .directory).addSourceKind
      .compose
    let w : Workbench := ⟨[copy], [p.add [copy]]⟩
    Tidy ⟨[], []⟩ ∧ Relation.ReflTransGen Step ⟨[], []⟩ w ∧
      (p.add [copy]).entries.map (fun s => (s.sourceKinds, s.targetOptions,
        s.sources.get .sourceCode)) = [([.directory, .compose], ["/src"], ["/src"])] ∧
      ∀ s, w.Holds s → s.sourceKinds.Nodup := by
  intro web d p copy w
  let loaded := Document.toService (fun _ => "/src") web
  let same := loaded.addSourceKind .directory
  have hload : Step ⟨[], []⟩ ⟨[], [p]⟩ := .load _ d
  have hcopy : Step ⟨[], [p]⟩ ⟨[loaded], [p]⟩ := .make (.copy (.inr ⟨p, by simp, by decide⟩))
  have hsame : Step ⟨[loaded], [p]⟩ ⟨[same], [p]⟩ := .change (i := 0) rfl (.sourceKind .directory)
  have hnew : Step ⟨[same], [p]⟩ ⟨[copy], [p]⟩ := .change (i := 0) rfl (.sourceKind .compose)
  have hadd : Step ⟨[copy], [p]⟩ w := .update (i := 0) rfl (.add fun _ hc => .inl hc)
  have hrun : Relation.ReflTransGen Step ⟨[], []⟩ w :=
    ((((Relation.ReflTransGen.single hload).tail hcopy).tail hsame).tail hnew).tail hadd
  have htidy : Tidy ⟨[], []⟩ := tidy_iff.mpr ⟨by simp, by simp⟩
  exact ⟨htidy, hrun, by decide, fun s hs => ((no_repeats htidy hrun).1 s hs).1⟩

end Workbench
end Replatform
