import Mathlib.Algebra.GroupWithZero.Nat
import Replatform.Proofs.Assembly.Sources

/-! # Sessions with several clients

A client is the list of actions that it issues; what takes effect is an interleaving of these
lists.  An interleaving keeps the order of each client and holds the actions of all, so what is
known of the services after a list of actions is known of every interleaving: the plan is
made of all candidates that any client submits, and the reports count each of them once.
-/
namespace Replatform

/-! ## Interleavings -/

/-- The list is an interleaving of the lists of some clients: as long as some client has actions
left, the first of them may be the next to take effect. -/
inductive Interleaving {α : Type} : List (List α) → List α → Prop
  | done {clients : List (List α)} (h : ∀ actions ∈ clients, actions = []) :
      Interleaving clients []
  | step {before after : List (List α)} {a : α} {rest session : List α}
      (h : Interleaving (before ++ rest :: after) session) :
      Interleaving (before ++ (a :: rest) :: after) (a :: session)

/-- An interleaving holds the actions of all clients, each as often as they are issued. -/
theorem Interleaving.perm {α : Type} {clients : List (List α)} {session : List α}
    (h : Interleaving clients session) : session.Perm clients.flatten := by
  induction h with
  | done h => rw [List.flatten_eq_nil_iff.mpr h]
  | @step before after a rest session _ ih =>
    rw [List.flatten_append, List.flatten_cons] at ih ⊢
    exact (ih.cons a).trans List.perm_middle.symm

/-! ## What a session adds up to -/

namespace Action

/-- The candidates that an action submits. -/
def batch : Action → List Service
  | .submit batch => batch
  | _ => []

/-- The output layers that an action applies. -/
def layers : Action → List KubernetesOutput
  | .applyOutput layer => [layer]
  | _ => []

end Action

namespace Plan

/-- The reports that the submissions of a session return, in order (`run_submit`). -/
def reports (p : Plan) : List Action → List AssemblyReport
  | [] => []
  | .submit batch :: rest => p.services.tally batch :: (p.after (.submit batch)).reports rest
  | a :: rest => (p.after a).reports rest

/-- The services after a session are those after one batch of all that it submits. -/
theorem services_run (p : Plan) (session : List Action) :
    (p.run session).services = p.services.add (session.flatMap Action.batch) := by
  induction session generalizing p with
  | nil => rfl
  | cons a rest ih =>
    rw [run_cons, ih, List.flatMap_cons, Services.add_append]
    cases a with
    | submit batch => rfl
    | applyOutput layer => rfl
    | snapshot => rfl

/-- The output after a session is the one under all layers that it applies. -/
theorem output_run (p : Plan) (session : List Action) :
    (p.run session).output =
      (session.flatMap Action.layers).foldl KubernetesOutput.merge p.output := by
  induction session generalizing p with
  | nil => rfl
  | cons a rest ih =>
    rw [run_cons, ih, List.flatMap_cons, List.foldl_append]
    cases a with
    | submit batch => rfl
    | applyOutput layer => rfl
    | snapshot => rfl

/-- The reports of a session count each candidate once. -/
theorem sum_reports (p : Plan) (session : List Action) :
    ((p.reports session).map AssemblyReport.merged).sum +
        ((p.reports session).map AssemblyReport.appended).sum =
      (session.flatMap Action.batch).length := by
  induction session generalizing p with
  | nil => rfl
  | cons a rest ih =>
    have hrest := ih (p.after a)
    rw [List.flatMap_cons, List.length_append]
    cases a with
    | submit batch =>
      have hbatch := p.services.merged_add_appended batch
      simp only [reports, Action.batch, List.map_cons, List.sum_cons]
      omega
    | applyOutput layer => simpa [reports, Action.batch] using hrest
    | snapshot => simpa [reports, Action.batch] using hrest

/-- The entries grow by the candidates that are reported as appended. -/
theorem serviceCount_run (p : Plan) (session : List Action) :
    (p.run session).serviceCount =
      p.serviceCount + ((p.reports session).map AssemblyReport.appended).sum := by
  induction session generalizing p with
  | nil => rfl
  | cons a rest ih =>
    rw [run_cons, ih]
    cases a with
    | submit batch =>
      have hbatch : (p.after (.submit batch)).serviceCount =
          p.serviceCount + (p.services.tally batch).appended := p.services.count_add batch
      simp only [reports, List.map_cons, List.sum_cons]
      omega
    | applyOutput layer => rfl
    | snapshot => rfl

/-- **No interleaving loses or invents anything.**  In the plan that any number of clients make
from nothing, every submitted candidate is kept whole in an entry that is the same service, and
every trait of an entry stems from a submitted candidate that is the same service as the entry
in its final form.  The reports count each candidate once and the appended ones as entries.
The services depend on the submissions alone, in their order, and the output on the layers. -/
theorem interleaving_keeps_all {clients : List (List Action)} {session : List Action}
    (h : Interleaving clients session) (name clusterType : String) :
    (∀ c ∈ clients.flatten.flatMap Action.batch,
      ∃ e ∈ ((new name clusterType).run session).services.under c.name,
        e.isSame c = true ∧ ∀ x, c.Has x → e.Has x) ∧
    (∀ n, ∀ e ∈ ((new name clusterType).run session).services.under n, ∀ x, e.Has x →
      ∃ c ∈ clients.flatten.flatMap Action.batch, e.isSame c = true ∧ c.Has x) ∧
    (((new name clusterType).reports session).map AssemblyReport.merged).sum +
        (((new name clusterType).reports session).map AssemblyReport.appended).sum =
      (clients.flatten.flatMap Action.batch).length ∧
    (((new name clusterType).reports session).map AssemblyReport.appended).sum =
      ((new name clusterType).run session).serviceCount ∧
    ∀ clients' session', Interleaving clients' session' →
      (session.flatMap Action.batch = session'.flatMap Action.batch →
        ((new name clusterType).run session).services =
          ((new name clusterType).run session').services) ∧
      (session.flatMap Action.layers = session'.flatMap Action.layers →
        ((new name clusterType).run session).output =
          ((new name clusterType).run session').output) := by
  have hperm : (session.flatMap Action.batch).Perm (clients.flatten.flatMap Action.batch) :=
    h.perm.flatMap_right _
  have hmade : ((new name clusterType).run session).services.MadeOf
      (session.flatMap Action.batch) := by
    rw [services_run]
    exact Services.madeOf_add _
  refine ⟨?_, ?_, ?_, ?_, ?_⟩
  · intro c hc
    obtain ⟨e, he, hcov, hhas⟩ := hmade.kept c (hperm.mem_iff.mpr hc)
    exact ⟨e, he, hcov.isSame, hhas⟩
  · intro n e he x hx
    obtain ⟨c, hc, hcov, hhas⟩ := hmade.drawn n e he x hx
    exact ⟨c, hperm.mem_iff.mp hc, hcov.isSame, hhas⟩
  · rw [sum_reports, hperm.length_eq]
  · have hnone : (new name clusterType).serviceCount = 0 := rfl
    rw [serviceCount_run, hnone, Nat.zero_add]
  · -- the clients may differ; only what is submitted and what is applied counts
    intro clients' session' _
    refine ⟨fun hbatch => ?_, fun hlayers => ?_⟩
    · rw [services_run, services_run, hbatch]
    · rw [output_run, output_run, hlayers]

/-- The second client is served between the two actions of the first, and the entry that takes
its candidate in has the build directory of the other. -/
theorem interleaving_keeps_all_of_two_clients :
    let north := (Service.new "web" .any).addBuild .sourceCode "north"
    let plain := (Service.new "web" .any).addTargetOption "image"
    let session := [Action.submit [north], Action.submit [plain], Action.applyOutput .blank]
    Interleaving [[Action.submit [north], Action.applyOutput .blank], [Action.submit [plain]]]
        session ∧
      ∃ e ∈ ((new "shop" "Kubernetes").run session).services.under "web",
        e.isSame plain = true ∧ ∀ x, plain.Has x → e.Has x := by
  intro north plain session
  have h : Interleaving
      [[Action.submit [north], Action.applyOutput .blank], [Action.submit [plain]]] session :=
    @Interleaving.step _ [] _ _ _ _
      (@Interleaving.step _ [[Action.applyOutput .blank]] [] _ [] _
        (@Interleaving.step _ [] _ _ _ _ (.done (by simp))))
  exact ⟨h, (interleaving_keeps_all h "shop" "Kubernetes").1 plain (by simp [Action.batch])⟩

end Plan
end Replatform
