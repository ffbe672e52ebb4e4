import Mathlib.Data.List.Pairwise
import Replatform.Proofs.Assembly.Offer
import Replatform.Proofs.Log.Activity

/-! # The entries of a plan stay apart

Under every name of a plan no entry is the same service as another one.  A candidate with a
build directory is therefore taken in by one entry at most: two entries that are the same as
it would be the same as each other.  A candidate without one may be taken in by several, but
then it changes the build directory of none.
-/
namespace Replatform

/-- Every entry stands under its own name, no name is without entries, and no two entries under
a name are the same service. -/
structure Services.Apart (ss : Services) : Prop where
  named : ∀ name, ∀ e ∈ ss.under name, e.name = name
  inhabited : ∀ name ∈ ss.keys, ss.under name ≠ []
  apart : ∀ name, (ss.under name).Pairwise fun e e' => ¬e.isSame e' = true ∧ ¬e'.isSame e = true

namespace Services

/-! ## The invariant -/

theorem apart_empty : Apart .empty where
  named _ _ he := by cases he
  inhabited _ hname := by cases hname
  apart _ := List.Pairwise.nil

theorem pairwise_offerTo {es : List Service}
    (h : es.Pairwise fun e e' => ¬e.isSame e' = true ∧ ¬e'.isSame e = true) (c : Service) :
    (offerTo es c).Pairwise fun e e' => ¬e.isSame e' = true ∧ ¬e'.isSame e = true := by
  rw [offerTo_eq, List.pairwise_append]
  refine ⟨?_, ?_, ?_⟩
  · refine List.pairwise_map.mpr (h.imp ?_)
    rintro e e' ⟨hee', he'e⟩
    exact ⟨Service.not_isSame_receive hee' c, Service.not_isSame_receive he'e c⟩
  · split
    · exact List.Pairwise.nil
    · exact List.pairwise_singleton _ c
  · -- a candidate is only appended where no entry is the same, so nothing was received
    intro e he c' hc'
    split at hc'
    · cases hc'
    · rename_i hnone
      obtain ⟨e₀, he₀, rfl⟩ := List.mem_map.mp he
      have hs : ¬e₀.isSame c = true := fun hs => hnone (List.any_eq_true.mpr ⟨e₀, he₀, hs⟩)
      rw [List.mem_singleton.mp hc', Service.receive_of_not_isSame hs]
      exact ⟨hs, fun hs' => hs (Service.isSame_symm hs')⟩

/-- If every entry stands under its own name, then so it does after an offer. -/
theorem named_offer {ss : Services} (h : ∀ name, ∀ e ∈ ss.under name, e.name = name)
    (c : Service) : ∀ name, ∀ e ∈ (ss.offer c).under name, e.name = name := by
  intro name e he
  by_cases hname : c.name = name
  · subst hname
    rw [under_offer_self, mem_offerTo] at he
    rcases he with ⟨e₀, he₀, rfl⟩ | ⟨rfl, -⟩
    · rw [Service.name_receive]
      exact h _ e₀ he₀
    · rfl
  · rw [under_offer_ne ss hname] at he
    exact h name e he

theorem named_add {ss : Services} (h : ∀ name, ∀ e ∈ ss.under name, e.name = name)
    (batch : List Service) : ∀ name, ∀ e ∈ (ss.add batch).under name, e.name = name :=
  add_induction (motive := fun _ ss => ∀ name, ∀ e ∈ ss.under name, e.name = name) h
    (fun _ c _ hss => named_offer hss c) batch

theorem Apart.offer {ss : Services} (h : ss.Apart) (c : Service) : (ss.offer c).Apart where
  named := named_offer h.named c
  inhabited name hmem := by
    by_cases hname : c.name = name
    · subst hname
      obtain ⟨e, he, -⟩ := exists_covers_offerTo (ss.under c.name) c
      rw [under_offer_self]
      exact List.ne_nil_of_mem he
    · rw [under_offer_ne ss hname]
      rcases mem_keys_offer.mp hmem with hk | he
      · exact h.inhabited name hk
      · exact absurd he.symm hname
  apart name := by
    by_cases hname : c.name = name
    · subst hname
      rw [under_offer_self]
      exact pairwise_offerTo (h.apart _) c
    · rw [under_offer_ne ss hname]
      exact h.apart name

theorem Apart.add {ss : Services} (h : ss.Apart) (batch : List Service) : (ss.add batch).Apart :=
  add_induction (motive := fun _ ss => ss.Apart) h (fun _ c _ hss => hss.offer c) batch

/-- Entries that are the same service are one entry. -/
theorem Apart.eq_of_isSame {ss : Services} (h : ss.Apart) {name : String} {e e' : Service}
    (he : e ∈ ss.under name) (he' : e' ∈ ss.under name) (hs : e.isSame e' = true) : e = e' := by
  apply Classical.byContradiction
  intro hne
  have hsymm : Std.Symm fun e e' : Service => ¬e.isSame e' = true ∧ ¬e'.isSame e = true :=
    ⟨fun _ _ hee' => ⟨hee'.2, hee'.1⟩⟩
  exact ((h.apart name).forall he he' hne).1 hs

/-! ## Candidates that several entries take in -/

theorem countP_isSame_le_one {es : List Service}
    (h : es.Pairwise fun e e' => ¬e.isSame e' = true ∧ ¬e'.isSame e = true) {c : Service}
    (hc : c.buildDir? ≠ none) : es.countP (·.isSame c) ≤ 1 := by
  induction es with
  | nil => exact Nat.zero_le 1
  | cons e es ih =>
    obtain ⟨he, hes⟩ := List.pairwise_cons.mp h
    by_cases hs : e.isSame c = true
    · have hrest : es.countP (·.isSame c) = 0 := List.countP_eq_zero.mpr fun e' he' hs' =>
        (he e' he').1 (Service.isSame_of_buildDir hc hs hs')
      simp [hs, hrest]
    · simpa [hs] using ih hes

theorem Apart.buildDir?_eq_none {ss : Services} (h : ss.Apart) {c : Service}
    (hc : 1 < ss.matchCount c) : c.buildDir? = none := by
  apply Classical.byContradiction
  intro hne
  exact Nat.not_le_of_lt hc (countP_isSame_le_one (h.apart c.name) hne)

/-! ## What is announced -/

/-- The wording of the event that several entries take a candidate in. -/
def severalWording : String := "Candidate merged into several entries"

/-- The event that a name is new. -/
def newNameEvent (c : Service) : Log.Event :=
  ⟨.debug, "Added new service to plan", .ofList [("service_name", .text c.name)]⟩

/-- The event that several entries take a candidate in. -/
def severalEvent (c : Service) (count : Nat) : Log.Event :=
  ⟨.warning, severalWording, .ofList [("service_name", .text c.name), ("matches", .int count)]⟩

/-- The events that a candidate gives rise to. -/
def noticesOf (ss : Services) (c : Service) : List Log.Event :=
  (if ss.contains c.name then [] else [newNameEvent c]) ++
    if 1 < ss.matchCount c then [severalEvent c (ss.matchCount c)] else []

/-- The events that a batch gives rise to. -/
def notices (ss : Services) : List Service → List Log.Event
  | [] => []
  | c :: rest => ss.noticesOf c ++ (ss.offer c).notices rest

/-- Announcing a batch records its notices, with what is bound, and does nothing else. -/
theorem run_announce {ε : Type} (ss : Services) (batch : List Service) (j : Log.Journal) :
    (ss.announce batch : Log.Activity ε Unit).run.run j =
      (.ok (), { j with
        entries := j.entries ++ (ss.notices batch).map fun e => .event (e.within j.context) }) := by
  induction batch generalizing ss j with
  | nil => simp only [notices, List.map_nil, List.append_nil]; rfl
  | cons c rest ih =>
    have hstep : (ss.announce (c :: rest) : Log.Activity ε Unit).run.run j =
        ((ss.offer c).announce rest : Log.Activity ε Unit).run.run { j with
          entries := j.entries ++ (ss.noticesOf c).map fun e => .event (e.within j.context) } := by
      by_cases hnew : ss.contains c.name = true <;> by_cases hmany : 1 < ss.matchCount c <;>
        simp only [announce, noticesOf, hnew, hmany, Log.Activity.run_bind, Log.Activity.run_report,
          Log.Journal.record, newNameEvent, severalEvent, severalWording, Bool.not_true,
          Bool.not_false, Bool.false_eq_true, if_true, if_false, List.append_nil, List.nil_append,
          List.cons_append, List.map_cons, List.map_nil, List.append_assoc]
    rw [hstep, ih, notices, List.map_append, List.append_assoc]

/-- A notice that several entries take a candidate in is about a candidate of the batch that is
then offered to more than one entry that is the same. -/
theorem mem_notices {ss : Services} {batch : List Service} {e : Log.Event}
    (he : e ∈ ss.notices batch) (hw : e.message = severalWording) :
    ∃ before c after, batch = before ++ c :: after ∧ 1 < (ss.add before).matchCount c ∧
      e = severalEvent c ((ss.add before).matchCount c) := by
  induction batch generalizing ss with
  | nil => cases he
  | cons c rest ih =>
    rcases List.mem_append.mp he with hc | hrest
    · refine ⟨[], c, rest, rfl, ?_⟩
      rcases List.mem_append.mp hc with hnew | hmany
      · split at hnew
        · cases hnew
        · rw [List.mem_singleton.mp hnew] at hw
          have hne : "Added new service to plan" ≠ severalWording := by decide
          exact absurd hw hne
      · split at hmany
        · rename_i hcount
          exact ⟨hcount, List.mem_singleton.mp hmany⟩
        · cases hmany
    · obtain ⟨before, c', after, rfl, hcount, he⟩ := ih hrest
      exact ⟨c :: before, c', after, rfl, hcount, he⟩

end Services

/-! ## Sessions -/

namespace Plan

theorem apart_new (name clusterType : String) : (new name clusterType).services.Apart :=
  Services.apart_empty

theorem apart_after {p : Plan} (h : p.services.Apart) (a : Action) :
    (p.after a).services.Apart := by
  cases a with
  | submit batch => exact h.add batch
  | applyOutput layer => exact h
  | snapshot => exact h

theorem apart_run {p : Plan} (h : p.services.Apart) (session : List Action) :
    (p.run session).services.Apart := by
  induction session generalizing p with
  | nil => exact h
  | cons a rest ih =>
    rw [run_cons]
    exact ih (apart_after h a)

theorem run_submit {ε : Type} (p : Plan) (batch : List Service) (j : Log.Journal) :
    (p.submit batch : Log.Activity ε (Plan × AssemblyReport)).run.run j =
      (.ok (p.after (.submit batch), p.services.tally batch), { j with
        entries := j.entries ++
          (p.services.notices batch).map fun e => .event (e.within j.context) }) := by
  rw [submit, Log.Activity.run_bind, Services.run_announce]
  rfl

/-- **The entries of a plan stay apart**, whatever a session does to a plan without services or
to one whose entries are apart.  So a candidate that several entries take in, at any point of
any batch, has no build directory; and no event says that several entries take in a candidate
with one. -/
theorem entries_stay_apart {p : Plan}
    (h : (∃ name clusterType, p = new name clusterType) ∨ p.services.Apart)
    (session : List Action) :
    (p.run session).services.Apart ∧
      (∀ before c, 1 < ((p.run session).services.add before).matchCount c → c.buildDir? = none) ∧
      ∀ (ε : Type) (batch : List Service) (j : Log.Journal) (event : Log.Event),
        .event event ∈ (((p.run session).submit batch :
          Log.Activity ε (Plan × AssemblyReport)).run.run j).2.entries.drop j.entries.length →
        event.message = Services.severalWording →
        ∃ c ∈ batch, c.buildDir? = none ∧
          ∃ count, event = (Services.severalEvent c count).within j.context := by
  have hstart : p.services.Apart := by
    rcases h with ⟨name, clusterType, rfl⟩ | h
    · exact apart_new name clusterType
    · exact h
  have hrun := apart_run hstart session
  refine ⟨hrun, fun before c hc => (hrun.add before).buildDir?_eq_none hc, ?_⟩
  intro ε batch j event hmem hw
  rw [run_submit, List.drop_left] at hmem
  obtain ⟨e, he, heq⟩ := List.mem_map.mp hmem
  obtain rfl := Log.Entry.event.inj heq
  obtain ⟨before, c, after, rfl, hcount, rfl⟩ := Services.mem_notices he hw
  exact ⟨c, by simp, (hrun.add before).buildDir?_eq_none hcount, _, rfl⟩

/-- A candidate without a build directory that two entries take in. -/
theorem entries_stay_apart_of_two_dirs :
    1 < ((new "shop" "Kubernetes").run
        [.submit [(Service.new "web" .any).addBuild .sourceCode "north"], .applyOutput .blank,
          .submit [(Service.new "web" .any).addBuild .sourceCode "south"],
          .snapshot]).services.matchCount (Service.new "web" .any) ∧
      (Service.new "web" .any).buildDir? = none :=
  have hmany : 1 < ((new "shop" "Kubernetes").run
      [.submit [(Service.new "web" .any).addBuild .sourceCode "north"], .applyOutput .blank,
        .submit [(Service.new "web" .any).addBuild .sourceCode "south"],
        .snapshot]).services.matchCount (Service.new "web" .any) := by decide
  ⟨hmany, (entries_stay_apart (Or.inl ⟨"shop", "Kubernetes", rfl⟩) _).2.1 [] _ hmany⟩

end Plan
end Replatform
