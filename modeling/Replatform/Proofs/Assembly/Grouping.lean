import Replatform.Proofs.Assembly.Apart
import Replatform.Proofs.Assembly.Sources

/-! # Assembly as grouping

Two candidates are **akin** if they agree in name, image, strategy and build method, and in the
build directory if both have one.  This is no equivalence in general, but it is one among
candidates that are **unmixed**: of those that agree in the other four, either all have a build
directory or no two have different ones.  Then the candidates fall into classes, and offering
them one after the other gives what can be read off the whole list at once: the services
**grouped**, one entry for each class, in the order of the first candidates of the classes.

The entries of a prefix of the list are those of its own classes.  The next candidate is akin to
an entry exactly if it is akin to the first candidate of the entry's class, even if only a later
candidate of the class has brought in the build directory.
-/
namespace Replatform

namespace Service

/-- Name, image, strategy and build method agree, and so do the build directories if both are
there. -/
def Akin (s t : Service) : Prop :=
  s.profile = t.profile ∧ (s.buildDir? = none ∨ t.buildDir? = none ∨ s.buildDir? = t.buildDir?)

instance (s t : Service) : Decidable (s.Akin t) := inferInstanceAs (Decidable (_ ∧ _))

theorem isSame_iff_akin {s t : Service} : s.isSame t = true ↔ s.Akin t := isSame_iff

theorem akin_refl (s : Service) : s.Akin s := isSame_iff_akin.mp (isSame_refl s)

theorem Akin.symm {s t : Service} (h : s.Akin t) : t.Akin s :=
  isSame_iff_akin.mp (isSame_symm (isSame_iff_akin.mpr h))

theorem Akin.name {s t : Service} (h : s.Akin t) : s.name = t.name := congrArg Profile.name h.1

/-- The entry of a class: its first candidate with the flags, lists and maps of all its
candidates together. -/
def summary (first : Service) (cs : List Service) : Service :=
  { first with
    updatesBuild := cs.any (·.updatesBuild)
    updatesDeploy := cs.any (·.updatesDeploy)
    sourceKinds := Discovery.distinct (cs.flatMap (·.sourceKinds))
    targetOptions := Discovery.distinct (cs.flatMap (·.targetOptions))
    sources := .gather (cs.map (·.sources))
    builds := .gather (cs.map (·.builds)) }

@[simp] theorem profile_summary (first : Service) (cs : List Service) :
    (first.summary cs).profile = first.profile := rfl

/-- The build directory of a class is the first that its candidates have. -/
theorem buildDir?_summary (first : Service) (cs : List Service) :
    (first.summary cs).buildDir? = cs.findSome? (·.buildDir?) := by
  have hbuilds := ArtifactMap.first?_gather (cs.map (·.builds)) .sourceCode
  rw [List.findSome?_map] at hbuilds
  exact hbuilds

/-- An entry that takes in one candidate more is the entry of the larger class. -/
theorem absorb_summary (first : Service) (cs : List Service) (c : Service) :
    (first.summary cs).absorb c = first.summary (cs ++ [c]) := by
  simp only [absorb, summary, Discovery.union_distinct, ArtifactMap.union_gather, List.any_append,
    List.any_cons, List.any_nil, Bool.or_false, List.flatMap_append, List.flatMap_singleton,
    List.map_append, List.map_cons, List.map_nil]

/-- A candidate alone is the entry of its class. -/
theorem Tidy.summary_singleton {c : Service} (h : c.Tidy) : c.summary [c] = c := by
  simp only [summary, List.any_cons, List.any_nil, Bool.or_false, List.flatMap_singleton,
    List.map_cons, List.map_nil, ArtifactMap.gather_singleton,
    Discovery.distinct_of_nodup h.sourceKinds, Discovery.distinct_of_nodup h.targetOptions]

end Service

namespace Services

open Service (Akin)

/-! ## Classes -/

/-- The candidates that are akin to one. -/
def classOf (cs : List Service) (c : Service) : List Service := cs.filter fun c' => Akin c c'

/-- The first candidates of the classes: those that none before them is akin to. -/
def leaders (cs : List Service) : List Service :=
  (cs.zipIdx.filter fun e => (cs.take e.2).all fun c => ¬Akin c e.1).map Prod.fst

/-- The entries of the classes of a name. -/
def groupedUnder (cs : List Service) (name : String) : List Service :=
  ((leaders cs).filter (·.name = name)).map fun c => c.summary (classOf cs c)

/-- The candidates by classes: the names in the order in which they first occur, and under each
name an entry for every class. -/
def grouped (cs : List Service) : Services where
  entries := (Discovery.distinct (cs.map (·.name))).map fun name => (name, groupedUnder cs name)
  keys_nodup := by
    rw [List.map_map]
    exact (List.map_id _).symm ▸ Discovery.nodup_distinct _

/-- Of the candidates that agree in all but the build directory, either all have one or no two
have different ones. -/
def Unmixed (cs : List Service) : Prop :=
  ∀ p : Service.Profile, (∀ c ∈ cs, c.profile = p → c.buildDir? ≠ none) ∨
    ∀ a ∈ cs, ∀ b ∈ cs, a.profile = p → b.profile = p → a.buildDir? ≠ none →
      b.buildDir? ≠ none → a.buildDir? = b.buildDir?

theorem Unmixed.of_append {cs ds : List Service} (h : Unmixed (cs ++ ds)) : Unmixed cs := by
  intro p
  rcases h p with hall | hone
  · exact Or.inl fun c hc => hall c (List.mem_append_left ds hc)
  · exact Or.inr fun a ha b hb => hone a (List.mem_append_left ds ha) b (List.mem_append_left ds hb)

/-- Among unmixed candidates akinness carries over. -/
theorem Unmixed.trans {cs : List Service} (h : Unmixed cs) {a b c : Service} (ha : a ∈ cs)
    (hb : b ∈ cs) (hc : c ∈ cs) (hab : a.Akin b) (hbc : b.Akin c) : a.Akin c := by
  refine ⟨hab.1.trans hbc.1, ?_⟩
  rcases h b.profile with hall | hone
  · have hdir : ∀ {s t : Service}, s ∈ cs → t ∈ cs → s.profile = b.profile →
        t.profile = b.profile → s.Akin t → s.buildDir? = t.buildDir? := by
      intro s t hs ht hps hpt hst
      exact (hst.2.resolve_left (hall s hs hps)).resolve_left (hall t ht hpt)
    exact Or.inr (Or.inr ((hdir ha hb hab.1 rfl hab).trans (hdir hb hc rfl hbc.1.symm hbc)))
  · by_cases hda : a.buildDir? = none
    · exact Or.inl hda
    · by_cases hdc : c.buildDir? = none
      · exact Or.inr (Or.inl hdc)
      · exact Or.inr (Or.inr (hone a ha c hc hab.1 hbc.1.symm hda hdc))

theorem mem_classOf {cs : List Service} {c c' : Service} :
    c' ∈ classOf cs c ↔ c' ∈ cs ∧ c.Akin c' := by
  simp [classOf]

theorem classOf_concat (cs : List Service) (c' c : Service) :
    classOf (cs ++ [c]) c' = classOf cs c' ++ if c'.Akin c then [c] else [] := by
  rw [classOf, List.filter_append, classOf]
  by_cases h : c'.Akin c <;> simp [h]

/-- The entry of a class has the build directory that some candidates of the class have. -/
theorem buildDir?_summary_classOf {cs : List Service} (h : Unmixed cs) {f : Service} (hf : f ∈ cs)
    {d : String} :
    (f.summary (classOf cs f)).buildDir? = some d ↔
      ∃ c ∈ cs, f.Akin c ∧ c.buildDir? = some d := by
  rw [Service.buildDir?_summary]
  constructor
  · intro hd
    obtain ⟨c, hc, hcd⟩ := List.exists_of_findSome?_eq_some hd
    obtain ⟨hmem, hakin⟩ := mem_classOf.mp hc
    exact ⟨c, hmem, hakin, hcd⟩
  · rintro ⟨c, hc, hakin, hcd⟩
    have hsome : ((classOf cs f).findSome? (·.buildDir?)).isSome = true := by
      rw [List.findSome?_isSome_iff]
      exact ⟨c, mem_classOf.mpr ⟨hc, hakin⟩, by rw [hcd]; rfl⟩
    obtain ⟨d', hd'⟩ := Option.isSome_iff_exists.mp hsome
    obtain ⟨c', hc', hcd'⟩ := List.exists_of_findSome?_eq_some hd'
    obtain ⟨hmem', hakin'⟩ := mem_classOf.mp hc'
    -- two candidates of the class that have build directories have the same one
    have hboth : c'.Akin c := h.trans hmem' hf hc hakin'.symm hakin
    have heq : c'.buildDir? = c.buildDir? :=
      (hboth.2.resolve_left (by simp [hcd'])).resolve_left (by simp [hcd])
    rw [hd', ← hcd', heq, hcd]

/-! ## First candidates -/

theorem leaders_concat (cs : List Service) (c : Service) :
    leaders (cs ++ [c]) = leaders cs ++ if ∃ c' ∈ cs, c'.Akin c then [] else [c] := by
  have hold : (cs.zipIdx.filter fun e => ((cs ++ [c]).take e.2).all fun c' => ¬Akin c' e.1) =
      cs.zipIdx.filter fun e => (cs.take e.2).all fun c' => ¬Akin c' e.1 := by
    refine List.filter_congr fun e he => ?_
    obtain ⟨-, hlt, -⟩ := List.mem_zipIdx he
    rw [List.take_append_of_le_length (by omega)]
  have hnew : ([(c, cs.length)].filter fun e =>
      ((cs ++ [c]).take e.2).all fun c' => ¬Akin c' e.1) =
      if ∃ c' ∈ cs, c'.Akin c then [] else [(c, cs.length)] := by
    by_cases h : ∃ c' ∈ cs, c'.Akin c
    · simp [h]
    · simpa [h] using fun c' hc' hakin => h ⟨c', hc', hakin⟩
  unfold leaders
  rw [List.zipIdx_append, List.filter_append, List.map_append, hold, Nat.zero_add,
    List.zipIdx_singleton, hnew]
  split <;> rfl

theorem mem_of_mem_leaders {cs : List Service} {f : Service} (h : f ∈ leaders cs) : f ∈ cs := by
  obtain ⟨⟨f, i⟩, he, rfl⟩ := List.mem_map.mp h
  obtain ⟨-, -, hf⟩ := List.mem_zipIdx (List.mem_filter.mp he).1
  rw [hf]
  exact List.getElem_mem _

/-- Every candidate is akin to the first one of some class. -/
theorem exists_leader {cs : List Service} (h : Unmixed cs) :
    ∀ c ∈ cs, ∃ f ∈ leaders cs, f.Akin c := by
  induction cs using List.reverseRecOn with
  | nil => exact fun c hc => absurd hc List.not_mem_nil
  | append_singleton cs c ih =>
    have hold : ∀ c' ∈ cs, ∃ f ∈ leaders (cs ++ [c]), f.Akin c' := by
      intro c' hc'
      obtain ⟨f, hf, hakin⟩ := ih h.of_append c' hc'
      rw [leaders_concat]
      exact ⟨f, List.mem_append_left _ hf, hakin⟩
    intro c' hc'
    rcases List.mem_append.mp hc' with hc' | hc'
    · exact hold c' hc'
    · obtain rfl := List.mem_singleton.mp hc'
      by_cases hex : ∃ c₀ ∈ cs, c₀.Akin c'
      · obtain ⟨c₀, hc₀, hakin⟩ := hex
        obtain ⟨f, hf, hf₀⟩ := hold c₀ hc₀
        exact ⟨f, hf, h.trans (mem_of_mem_leaders hf) (List.mem_append_left _ hc₀)
          (List.mem_append_right cs (List.mem_singleton_self c')) hf₀ hakin⟩
      · refine ⟨c', ?_, Service.akin_refl c'⟩
        rw [leaders_concat, if_neg hex]
        exact List.mem_append_right _ (List.mem_singleton_self c')

/-- The first candidates of two classes are not akin. -/
theorem pairwise_leaders (cs : List Service) : (leaders cs).Pairwise fun a b => ¬a.Akin b := by
  induction cs using List.reverseRecOn with
  | nil => exact List.Pairwise.nil
  | append_singleton cs c ih =>
    rw [leaders_concat]
    split
    · rw [List.append_nil]
      exact ih
    · rename_i hnone
      refine List.pairwise_append.mpr ⟨ih, List.pairwise_singleton _ c, ?_⟩
      intro f hf c' hc' hakin
      rw [List.mem_singleton.mp hc'] at hakin
      exact hnone ⟨f, mem_of_mem_leaders hf, hakin⟩

/-- Every candidate belongs to one class. -/
theorem existsUnique_leader {cs : List Service} (h : Unmixed cs) {c : Service} (hc : c ∈ cs) :
    ∃! f, f ∈ leaders cs ∧ f.Akin c := by
  obtain ⟨f, hf, hakin⟩ := exists_leader h c hc
  refine ⟨f, ⟨hf, hakin⟩, ?_⟩
  rintro f' ⟨hf', hakin'⟩
  apply Classical.byContradiction
  intro hne
  have hsymm : Std.Symm fun a b : Service => ¬a.Akin b := ⟨fun _ _ hab hba => hab hba.symm⟩
  have hmem := mem_of_mem_leaders hf
  have hmem' := mem_of_mem_leaders hf'
  exact (pairwise_leaders cs).forall hf' hf hne (h.trans hmem' hc hmem hakin' hakin.symm)

/-! ## One candidate more -/

/-- An entry takes in the candidates that are akin to the first one of its class. -/
theorem isSame_summary_iff {cs : List Service} {c f : Service} (h : Unmixed (cs ++ [c]))
    (hf : f ∈ cs) : (f.summary (classOf cs f)).isSame c = true ↔ f.Akin c := by
  have hc : c ∈ cs ++ [c] := List.mem_append_right cs (List.mem_singleton_self c)
  rw [Service.isSame_iff, Service.profile_summary]
  constructor
  · rintro ⟨hp, hd⟩
    refine ⟨hp, ?_⟩
    cases hfd : f.buildDir? with
    | none => exact Or.inl rfl
    | some d =>
      have hsum := (buildDir?_summary_classOf h.of_append hf).mpr ⟨f, hf, Service.akin_refl f, hfd⟩
      rw [← hsum]
      exact hd
  · intro hakin
    refine ⟨hakin.1, ?_⟩
    cases hsum : (f.summary (classOf cs f)).buildDir? with
    | none => exact Or.inl rfl
    | some d =>
      obtain ⟨c', hc', hakin', hd⟩ := (buildDir?_summary_classOf h.of_append hf).mp hsum
      have hboth : c'.Akin c := h.trans (List.mem_append_left _ hc') (List.mem_append_left _ hf) hc
        hakin'.symm hakin
      rw [← hd]
      exact hboth.2

theorem receive_summary {cs : List Service} {c f : Service} (h : Unmixed (cs ++ [c]))
    (hf : f ∈ cs) :
    (f.summary (classOf cs f)).receive c = f.summary (classOf (cs ++ [c]) f) := by
  rw [classOf_concat]
  by_cases hakin : f.Akin c
  · rw [if_pos hakin, Service.receive_of_isSame ((isSame_summary_iff h hf).mpr hakin),
      Service.absorb_summary]
  · rw [if_neg hakin, List.append_nil]
    exact Service.receive_of_not_isSame fun hs => hakin ((isSame_summary_iff h hf).mp hs)

/-- Some entry takes in a candidate exactly if an earlier candidate is akin to it. -/
theorem any_isSame_groupedUnder {cs : List Service} {c : Service} (h : Unmixed (cs ++ [c])) :
    (groupedUnder cs c.name).any (·.isSame c) = true ↔ ∃ c' ∈ cs, c'.Akin c := by
  rw [List.any_eq_true]
  constructor
  · rintro ⟨e, he, hs⟩
    obtain ⟨f, hf, rfl⟩ := List.mem_map.mp he
    have hmem := mem_of_mem_leaders (List.mem_filter.mp hf).1
    exact ⟨f, hmem, (isSame_summary_iff h hmem).mp hs⟩
  · rintro ⟨c', hc', hakin⟩
    obtain ⟨f, hf, hakin'⟩ := exists_leader h.of_append c' hc'
    have hmem := mem_of_mem_leaders hf
    have hfc : f.Akin c := h.trans (List.mem_append_left _ hmem) (List.mem_append_left _ hc')
      (List.mem_append_right cs (List.mem_singleton_self c)) hakin' hakin
    refine ⟨_, List.mem_map_of_mem (List.mem_filter.mpr ⟨hf, ?_⟩),
      (isSame_summary_iff h hmem).mpr hfc⟩
    simpa using hfc.name

/-- The classes of the candidates so far, with the next candidate in them, and a class of its own
if none is akin to it. -/
theorem groupedUnder_concat (cs : List Service) (c : Service) (name : String) :
    groupedUnder (cs ++ [c]) name =
      ((leaders cs).filter (·.name = name)).map (fun f => f.summary (classOf (cs ++ [c]) f)) ++
        if (∃ c' ∈ cs, c'.Akin c) ∨ c.name ≠ name then [] else [c.summary [c]] := by
  rw [groupedUnder, leaders_concat, List.filter_append, List.map_append]
  congr 1
  by_cases hex : ∃ c' ∈ cs, c'.Akin c
  · rw [if_pos hex, if_pos (Or.inl hex)]
    rfl
  · rw [if_neg hex]
    by_cases hname : c.name = name
    · have hnone : classOf cs c = [] := by
        refine List.filter_eq_nil_iff.mpr fun c' hc' hakin => hex ⟨c', hc', ?_⟩
        exact (of_decide_eq_true hakin).symm
      have hclass : classOf (cs ++ [c]) c = [c] := by
        rw [classOf_concat, hnone, if_pos (Service.akin_refl c), List.nil_append]
      simp [hex, hname, hclass]
    · simp [hname]

/-- The entries under the name of the next candidate. -/
theorem offerTo_groupedUnder {cs : List Service} {c : Service} (h : Unmixed (cs ++ [c]))
    (hc : c.Tidy) : offerTo (groupedUnder cs c.name) c = groupedUnder (cs ++ [c]) c.name := by
  have hreceive : (groupedUnder cs c.name).map (·.receive c) =
      ((leaders cs).filter (·.name = c.name)).map fun f => f.summary (classOf (cs ++ [c]) f) := by
    rw [groupedUnder, List.map_map]
    exact List.map_congr_left fun f hf =>
      receive_summary h (mem_of_mem_leaders (List.mem_filter.mp hf).1)
  rw [offerTo_eq, hreceive, groupedUnder_concat, hc.summary_singleton]
  simp only [any_isSame_groupedUnder h, ne_eq, not_true_eq_false, or_false]

/-- The entries under other names. -/
theorem groupedUnder_concat_ne (cs : List Service) {c : Service} {name : String}
    (h : c.name ≠ name) : groupedUnder (cs ++ [c]) name = groupedUnder cs name := by
  rw [groupedUnder_concat, if_pos (Or.inr h), List.append_nil, groupedUnder]
  refine List.map_congr_left fun f hf => ?_
  have hname : f.name = name := by simpa using (List.mem_filter.mp hf).2
  have hakin : ¬f.Akin c := fun hakin => h (hakin.name.symm.trans hname)
  rw [classOf_concat, if_neg hakin, List.append_nil]

theorem keys_grouped (cs : List Service) :
    (grouped cs).keys = Discovery.distinct (cs.map (·.name)) :=
  (List.map_map).trans (List.map_id _)

theorem get?_grouped {cs : List Service} {name : String} (h : name ∈ (grouped cs).keys) :
    (grouped cs).get? name = some (groupedUnder cs name) := by
  rw [keys_grouped] at h
  exact OrderedMap.find?_of_mem (grouped cs).keys_nodup (List.mem_map_of_mem h)

theorem under_grouped (cs : List Service) (name : String) :
    (grouped cs).under name = groupedUnder cs name := by
  by_cases h : name ∈ (grouped cs).keys
  · rw [under, get?_grouped h, Option.getD_some]
  · rw [under, OrderedMap.get?_eq_none.mpr h, Option.getD_none]
    -- no candidate has the name
    rw [keys_grouped, Discovery.mem_distinct] at h
    have hnone : (leaders cs).filter (·.name = name) = [] := by
      refine List.filter_eq_nil_iff.mpr fun f hf hname => h ?_
      exact List.mem_map.mpr ⟨f, mem_of_mem_leaders hf, of_decide_eq_true hname⟩
    rw [groupedUnder, hnone, List.map_nil]

/-- The next candidate leads from the groups of the candidates before it to the groups with it. -/
theorem offer_grouped {cs : List Service} {c : Service} (h : Unmixed (cs ++ [c])) (hc : c.Tidy) :
    (grouped cs).offer c = grouped (cs ++ [c]) := by
  have hkeys : ((grouped cs).offer c).keys = (grouped (cs ++ [c])).keys := by
    rw [keys_grouped, List.map_append, List.map_singleton, Discovery.distinct_concat,
      ← keys_grouped, keys_offer]
  have hunder : ∀ name, ((grouped cs).offer c).under name = groupedUnder (cs ++ [c]) name := by
    intro name
    by_cases hname : c.name = name
    · rw [← hname, under_offer_self, under_grouped, offerTo_groupedUnder h hc]
    · rw [under_offer_ne _ hname, under_grouped, groupedUnder_concat_ne cs hname]
  refine OrderedMap.ext_get? hkeys fun name hname => ?_
  rw [get?_grouped (hkeys ▸ hname), ← hunder]
  obtain ⟨es, hes⟩ := Option.ne_none_iff_exists'.mp fun hnone =>
    OrderedMap.get?_eq_none.mp hnone hname
  rw [under, hes, Option.getD_some]

/-! ## The whole list -/

theorem add_eq_grouped {cs : List Service} (h : Unmixed cs) (htidy : ∀ c ∈ cs, c.Tidy) :
    add .empty cs = grouped cs := by
  refine add_induction (motive := fun cs ss => Unmixed cs → (∀ c ∈ cs, c.Tidy) → ss = grouped cs)
    (fun _ _ => rfl) ?_ cs h htidy
  intro cs c ss ih hcs hall
  rw [ih hcs.of_append fun c' hc' => hall c' (List.mem_append_left _ hc')]
  exact offer_grouped hcs (hall c (List.mem_append_right cs (List.mem_singleton_self c)))

/-- As many candidates are appended as there are classes. -/
theorem appended_tally {cs : List Service} (h : Unmixed cs) (htidy : ∀ c ∈ cs, c.Tidy) :
    (tally .empty cs).appended = (leaders cs).length := by
  induction cs using List.reverseRecOn with
  | nil => rfl
  | append_singleton cs c ih =>
    have htidy' : ∀ c' ∈ cs, c'.Tidy := fun c' hc' => htidy c' (List.mem_append_left _ hc')
    rw [appended_tally_concat, ih h.of_append htidy', leaders_concat, List.length_append,
      add_eq_grouped h.of_append htidy', matchCount, under_grouped]
    congr 1
    by_cases hex : ∃ c' ∈ cs, c'.Akin c
    · have hpos : (groupedUnder cs c.name).countP (·.isSame c) ≠ 0 := fun h0 =>
        countP_isSame_eq_zero.mp h0 ((any_isSame_groupedUnder h).mpr hex)
      rw [if_neg hpos, if_pos hex, List.length_nil]
    · have hzero : (groupedUnder cs c.name).countP (·.isSame c) = 0 :=
        countP_isSame_eq_zero.mpr fun hany => hex ((any_isSame_groupedUnder h).mp hany)
      rw [if_pos hzero, if_neg hex, List.length_singleton]

end Services

namespace Plan

/-- **Assembling unmixed candidates is grouping them.**  The plan has one entry for each class of
candidates, and each candidate belongs to one class.  The entry has the build directory of its
class, if that has one.  As many candidates are reported as appended as there are classes, and
the others as merged. -/
theorem assembly_is_grouping {cs : List Service} (h : Services.Unmixed cs)
    (htidy : ∀ c ∈ cs, c.Tidy) (name clusterType : String) {ε : Type} (j : Log.Journal) :
    (((new name clusterType).submit cs : Log.Activity ε (Plan × AssemblyReport)).run.run j).1 =
        .ok ({ new name clusterType with services := Services.grouped cs },
          ⟨cs.length - (Services.leaders cs).length, (Services.leaders cs).length⟩) ∧
      (∀ c ∈ cs, ∃! f, f ∈ Services.leaders cs ∧ f.Akin c) ∧
      ∀ f ∈ Services.leaders cs, ∀ d,
        (f.summary (Services.classOf cs f)).buildDir? = some d ↔
          ∃ c ∈ cs, f.Akin c ∧ c.buildDir? = some d := by
  have hadd : (new name clusterType).services.add cs = Services.grouped cs :=
    Services.add_eq_grouped h htidy
  have happended : ((new name clusterType).services.tally cs).appended =
      (Services.leaders cs).length := Services.appended_tally h htidy
  have htally : (new name clusterType).services.tally cs =
      ⟨cs.length - (Services.leaders cs).length, (Services.leaders cs).length⟩ := by
    have hsum := (new name clusterType).services.merged_add_appended cs
    have hmerged : ((new name clusterType).services.tally cs).merged =
        cs.length - (Services.leaders cs).length := by omega
    calc (new name clusterType).services.tally cs
        = ⟨((new name clusterType).services.tally cs).merged,
            ((new name clusterType).services.tally cs).appended⟩ := rfl
      _ = _ := by rw [hmerged, happended]
  refine ⟨?_, fun c hc => Services.existsUnique_leader h hc, fun f hf d =>
    Services.buildDir?_summary_classOf h (Services.mem_of_mem_leaders hf)⟩
  rw [run_submit, htally, after, Plan.add, hadd]

/-- The first class gets its build directory from its second candidate, and one name has two
classes. -/
theorem assembly_is_grouping_of_late_dir :
    let plain := (Service.new "web" .any).addTargetOption "image"
    let north := (Service.new "web" .any).addBuild .sourceCode "north"
    let east := (Service.new "api" .compose).addBuild .sourceCode "east"
    let west := (Service.new "api" .compose).addBuild .sourceCode "west"
    let cs := [plain, east, north, west, plain]
    Services.Unmixed cs ∧ (∀ c ∈ cs, c.Tidy) ∧
      (((new "shop" "Kubernetes").submit cs :
          Log.Activity Empty (Plan × AssemblyReport)).run.run .empty).1 =
        .ok ({ new "shop" "Kubernetes" with services := Services.grouped cs }, ⟨2, 3⟩) := by
  intro plain north east west cs
  have hunmixed : Services.Unmixed cs := by
    intro p
    by_cases hp : p = east.profile
    · subst hp
      exact Or.inl (by decide)
    · have hone : ∀ a ∈ cs, ∀ b ∈ cs, a.profile ≠ east.profile → b.profile ≠ east.profile →
          a.buildDir? ≠ none → b.buildDir? ≠ none → a.buildDir? = b.buildDir? := by decide
      exact Or.inr fun a ha b hb hpa hpb =>
        hone a ha b hb (fun he => hp (hpa.symm.trans he)) fun he => hp (hpb.symm.trans he)
  have htidy : ∀ c ∈ cs, c.Tidy := by
    have hlists : ∀ c ∈ cs, c.sourceKinds.Nodup ∧ c.targetOptions.Nodup := by decide
    exact fun c hc => ⟨(hlists c hc).1, (hlists c hc).2⟩
  exact ⟨hunmixed, htidy, (assembly_is_grouping hunmixed htidy "shop" "Kubernetes" .empty).1⟩

end Plan
end Replatform
