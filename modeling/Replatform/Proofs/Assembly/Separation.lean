import Replatform.Proofs.Assembly.Apart

/-! # Profiles do not interfere

All services of a name share one list, and a candidate is offered to each of them.  Still those of
one profile, of one name, image, strategy and build method, live in a part of the plan of their
own.  A candidate changes only entries of its profile, and whether it becomes an entry itself
depends on these alone.  So a restriction to one profile commutes with every offer: an offer of the
profile is made to the restricted services as well, and any other offer is not seen there.

After a batch the entries of a profile are therefore those of a run in which nothing else ever
occurred, and candidates of other profiles may stand between its own in any way.
-/
namespace Replatform

namespace Services

/-- The services of one profile, under the names under which they stand. -/
def only (k : Service.Profile) (ss : Services) : Services := ss.map (·.filter (·.profile = k))

/-- The candidates of one profile. -/
def ofProfile (k : Service.Profile) (cs : List Service) : List Service := cs.filter (·.profile = k)

theorem under_only (k : Service.Profile) (ss : Services) (name : String) :
    (ss.only k).under name = ofProfile k (ss.under name) :=
  under_map ss (ofProfile k) rfl name

theorem ofProfile_append (k : Service.Profile) (cs ds : List Service) :
    ofProfile k (cs ++ ds) = ofProfile k cs ++ ofProfile k ds :=
  List.filter_append ..

/-- Entries keep their profiles when a candidate is offered. -/
theorem ofProfile_map_receive (k : Service.Profile) (es : List Service) (c : Service) :
    ofProfile k (es.map (·.receive c)) = (ofProfile k es).map (·.receive c) := by
  unfold ofProfile
  rw [List.filter_map]
  congr 1
  refine List.filter_congr fun e _ => ?_
  rw [Function.comp_apply, Service.profile_receive]

/-- Whether some entry is the same as a candidate is decided among those of its profile. -/
theorem any_isSame_ofProfile (es : List Service) (c : Service) :
    (ofProfile c.profile es).any (·.isSame c) = es.any (·.isSame c) := by
  rw [Bool.eq_iff_iff, List.any_eq_true, List.any_eq_true]
  constructor
  · rintro ⟨e, he, hsame⟩
    exact ⟨e, (List.mem_filter.mp he).1, hsame⟩
  · rintro ⟨e, he, hsame⟩
    refine ⟨e, List.mem_filter.mpr ⟨he, ?_⟩, hsame⟩
    exact decide_eq_true (Service.isSame_iff.mp hsame).1

/-- An offer to a list of entries is one to those of the candidate's profile. -/
theorem ofProfile_offerTo_self (es : List Service) (c : Service) :
    ofProfile c.profile (offerTo es c) = offerTo (ofProfile c.profile es) c := by
  rw [offerTo_eq, offerTo_eq, ofProfile_append, ofProfile_map_receive, any_isSame_ofProfile]
  congr 1
  split
  · rfl
  · exact List.filter_cons_of_pos (decide_eq_true rfl)

/-- Entries of other profiles do not notice it. -/
theorem ofProfile_offerTo_ne {k : Service.Profile} (es : List Service) {c : Service}
    (h : c.profile ≠ k) : ofProfile k (offerTo es c) = ofProfile k es := by
  have hreceive : (ofProfile k es).map (·.receive c) = ofProfile k es := by
    refine (List.map_congr_left fun e he => ?_).trans (List.map_id' _)
    have hprofile : e.profile = k := of_decide_eq_true (List.mem_filter.mp he).2
    refine Service.receive_of_not_isSame fun hsame => h ?_
    rw [← hprofile, (Service.isSame_iff.mp hsame).1]
  have happended : ofProfile k (if es.any (·.isSame c) then [] else [c]) = [] := by
    split
    · rfl
    · exact List.filter_cons_of_neg (by simpa using h)
  rw [offerTo_eq, ofProfile_append, ofProfile_map_receive, hreceive, happended, List.append_nil]

/-! ## Restricted runs -/

/-- The services `rs` are those of one profile among `ss`, under every name. -/
def Restricts (k : Service.Profile) (ss rs : Services) : Prop :=
  ∀ name, rs.under name = ofProfile k (ss.under name)

theorem restricts_only (k : Service.Profile) (ss : Services) : Restricts k ss (ss.only k) :=
  under_only k ss

/-- A candidate of the profile is offered on both sides. -/
theorem Restricts.offer {k : Service.Profile} {ss rs : Services} (h : Restricts k ss rs)
    {c : Service} (hc : c.profile = k) : Restricts k (ss.offer c) (rs.offer c) := by
  intro name
  by_cases hname : c.name = name
  · subst hname hc
    rw [under_offer_self, under_offer_self, h, ofProfile_offerTo_self]
  · rw [under_offer_ne ss hname, under_offer_ne rs hname]
    exact h name

/-- Any other candidate is offered on one side only. -/
theorem Restricts.offer_ne {k : Service.Profile} {ss rs : Services} (h : Restricts k ss rs)
    {c : Service} (hc : c.profile ≠ k) : Restricts k (ss.offer c) rs := by
  intro name
  by_cases hname : c.name = name
  · subst hname
    rw [under_offer_self, ofProfile_offerTo_ne _ hc]
    exact h c.name
  · rw [under_offer_ne ss hname]
    exact h name

/-- A restricted run goes through the candidates of the profile alone. -/
theorem Restricts.add {k : Service.Profile} {ss rs : Services} (h : Restricts k ss rs)
    (cs : List Service) : Restricts k (ss.add cs) (rs.add (ofProfile k cs)) := by
  induction cs generalizing ss rs with
  | nil => exact h
  | cons c rest ih =>
    rw [add_cons]
    by_cases hc : c.profile = k
    · have hcons : ofProfile k (c :: rest) = c :: ofProfile k rest :=
        List.filter_cons_of_pos (decide_eq_true hc)
      rw [hcons, add_cons]
      exact ih (h.offer hc)
    · have hcons : ofProfile k (c :: rest) = ofProfile k rest :=
        List.filter_cons_of_neg (by simpa using hc)
      rw [hcons]
      exact ih (h.offer_ne hc)

/-! ## The entries of one name -/

/-- If only one name has entries, then these are all. -/
theorem flatten_values_eq_under {ss : Services} {name : String}
    (h : ∀ name', name' ≠ name → ss.under name' = []) : ss.values.flatten = ss.under name := by
  have hflat : ∀ es : List (String × List Service), (es.map Prod.fst).Nodup →
      (∀ e ∈ es, e.1 ≠ name → e.2 = []) →
      (es.map Prod.snd).flatten = (OrderedMap.find? name es).getD [] := by
    intro es hnodup hempty
    induction es with
    | nil => rfl
    | cons e rest ih =>
      obtain ⟨name', es'⟩ := e
      obtain ⟨hnew, hrest⟩ := List.nodup_cons.mp hnodup
      have hih := ih hrest fun e he => hempty e (List.mem_cons_of_mem _ he)
      rw [List.map_cons, List.flatten_cons, hih]
      by_cases hname : name' = name
      · subst hname
        rw [OrderedMap.find?_eq_none.mpr hnew, OrderedMap.find?, if_pos rfl]
        exact List.append_nil es'
      · have hnil : es' = [] := hempty (name', es') List.mem_cons_self hname
        rw [OrderedMap.find?, if_neg hname, hnil, List.nil_append]
  refine hflat ss.entries ss.keys_nodup fun e he hne => ?_
  rw [← h e.1 hne, under, OrderedMap.get?, OrderedMap.find?_of_mem ss.keys_nodup he,
    Option.getD_some]

/-- If all entries stand under their own names, then those of a profile stand under its name. -/
theorem Restricts.flatten_values {k : Service.Profile} {ss rs : Services} (h : Restricts k ss rs)
    (hnamed : ∀ name, ∀ e ∈ ss.under name, e.name = name) :
    rs.values.flatten = ofProfile k (ss.under k.name) := by
  rw [← h k.name]
  refine flatten_values_eq_under fun name hne => ?_
  rw [h name]
  refine List.filter_eq_nil_iff.mpr fun e he hprofile => hne ?_
  have hk : e.profile = k := of_decide_eq_true hprofile
  rw [← hnamed name e he, ← hk]
  rfl

end Services

namespace Plan

/-- The plan with the services of one profile only. -/
def only (k : Service.Profile) (p : Plan) : Plan := { p with services := p.services.only k }

/-- **Profiles do not interfere.**  Where every entry stands under its own name, the entries of a
profile that a batch leads to are, in their order, those to which the candidates of the profile
lead alone, in the plan with the services of the profile only; and this plan gets no other entries.
Another batch with the same candidates of the profile in the same order leads to the same entries
of it, whatever else is in the batch and wherever. -/
theorem profiles_do_not_interfere {ε : Type} {p : Plan}
    (hnamed : ∀ name, ∀ e ∈ p.services.under name, e.name = name) (cs : List Service)
    (k : Service.Profile) (j j' : Log.Journal) :
    ∃ p' q report report',
      ((p.submit cs : Log.Activity ε (Plan × AssemblyReport)).run.run j).1 = .ok (p', report) ∧
      (((p.only k).submit (Services.ofProfile k cs) :
        Log.Activity ε (Plan × AssemblyReport)).run.run j').1 = .ok (q, report') ∧
      Services.ofProfile k (p'.services.under k.name) = q.services.under k.name ∧
      q.entries = q.services.under k.name ∧
      ∀ ds j'', Services.ofProfile k ds = Services.ofProfile k cs → ∃ p'' report'',
        ((p.submit ds : Log.Activity ε (Plan × AssemblyReport)).run.run j'').1 =
          .ok (p'', report'') ∧
        Services.ofProfile k (p''.services.under k.name) =
          Services.ofProfile k (p'.services.under k.name) := by
  have hrun : ∀ cs, Services.Restricts k (p.services.add cs)
      ((p.services.only k).add (Services.ofProfile k cs)) :=
    (Services.restricts_only k p.services).add
  refine ⟨p.add cs, (p.only k).add (Services.ofProfile k cs), p.services.tally cs,
    (p.services.only k).tally (Services.ofProfile k cs), ?_, ?_, (hrun cs k.name).symm, ?_, ?_⟩
  · rw [run_submit, after]
  · rw [run_submit, after]
    rfl
  · exact ((hrun cs).flatten_values (Services.named_add hnamed cs)).trans (hrun cs k.name).symm
  · intro ds j'' hds
    refine ⟨p.add ds, p.services.tally ds, ?_, ?_⟩
    · rw [run_submit, after]
    · show Services.ofProfile k ((p.services.add ds).under k.name) =
        Services.ofProfile k ((p.services.add cs).under k.name)
      rw [← hrun ds k.name, hds, hrun cs k.name]

/-- A plan with an image of its own and one that is built, and two batches in which the candidates
of the second stand differently between others: one without a build directory, one with another
image. -/
theorem profiles_do_not_interfere_of_two_images :
    let image := Service.new "web" .any
    let built := { Service.new "web" .any with build := .s2i }
    let p := { Plan.new "shop" "Kubernetes" with
      services := OrderedMap.empty.insert "web" [image, built.addBuild .sourceCode "north"] }
    let plain := built.addTargetOption "Dockerfile"
    let south := built.addBuild .sourceCode "south"
    let other := { built with image := "web:2" }
    let cs := [plain, image.addTargetOption "web:1", south, other]
    let ds := [other, other.addBuild .sourceCode "north", plain, south]
    (∀ name, ∀ e ∈ p.services.under name, e.name = name) ∧
      Services.ofProfile built.profile ds = Services.ofProfile built.profile cs ∧
      Services.ofProfile built.profile ((p.services.add ds).under "web") =
        Services.ofProfile built.profile ((p.services.add cs).under "web") ∧
      (Services.ofProfile built.profile ((p.services.add cs).under "web")).map
          (fun s => (s.buildDir?, s.targetOptions)) =
        [(some "north", ["Dockerfile"]), (some "south", [])] := by
  intro image built p plain south other cs ds
  have hnamed : ∀ name, ∀ e ∈ p.services.under name, e.name = name := by
    intro name e he
    rw [Services.under_insert] at he
    split at he
    · rename_i hname
      subst hname
      have hall : ∀ e ∈ [image, built.addBuild .sourceCode "north"], e.name = "web" := by decide
      exact hall e he
    · cases he
  have hsame : Services.ofProfile built.profile ds = Services.ofProfile built.profile cs := by
    decide
  obtain ⟨p', q, report, report', hrun, -, -, -, hothers⟩ :=
    profiles_do_not_interfere (ε := Empty) hnamed cs built.profile .empty .empty
  obtain ⟨p'', report'', hrun', hagree⟩ := hothers ds .empty hsame
  rw [run_submit, after] at hrun hrun'
  cases hrun
  cases hrun'
  exact ⟨hnamed, hsame, hagree, by decide⟩

end Plan
end Replatform
