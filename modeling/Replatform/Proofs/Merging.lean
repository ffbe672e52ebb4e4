import Replatform.Proofs.Service

/-! # The laws of merging

Merging is a partial operation, since only services that are the same are merged.  Where it is
defined it is associative, and it is commutative but for the order of the lists and for what is
kept from the first service alone, its path and its repository.  A service that takes in another
one **grows**: nothing of it is lost, moved or replaced, and it changes nothing to take the same
service in again.

Sameness is not transitive, so the question which of three services can be merged is answered
through the build directory of the merged two.  That is the first which either of them has; hence
the merged service is the same as a third exactly if both of its parts are.
-/
namespace Replatform
namespace Service

/-! ## Sameness of merged services -/

/-- A service that has taken in another one is the same as those that both are the same as. -/
theorem isSame_absorb_iff {a b : Service} (h : a.isSame b = true) (c : Service) :
    (a.absorb b).isSame c = true ↔ a.isSame c = true ∧ b.isSame c = true := by
  obtain ⟨hp, hab⟩ := isSame_iff.mp h
  rw [isSame_iff, isSame_iff, isSame_iff, profile_absorb, buildDir?_absorb, ← hp]
  cases ha : a.buildDir? with
  | none =>
    rw [Option.none_or]
    exact ⟨fun hc => ⟨⟨hc.1, Or.inl rfl⟩, hc⟩, And.right⟩
  | some d =>
    rw [Option.some_or]
    refine ⟨fun hc => ⟨hc, hc.1, ?_⟩, And.left⟩
    -- the other directory is missing or the same
    rcases hab with hnone | hnone | heq
    · rw [ha] at hnone
      cases hnone
    · exact Or.inl hnone
    · rw [← heq, ha]
      exact hc.2

theorem isSame_absorb_right_iff {b c : Service} (h : b.isSame c = true) (a : Service) :
    a.isSame (b.absorb c) = true ↔ a.isSame b = true ∧ a.isSame c = true := by
  rw [isSame_comm, isSame_absorb_iff h, isSame_comm b, isSame_comm c]

/-! ## Associativity -/

theorem absorb_assoc (a b c : Service) : (a.absorb b).absorb c = a.absorb (b.absorb c) := by
  simp only [absorb, Bool.or_assoc, Discovery.union_assoc, ArtifactMap.union_assoc]

/-- Three services merged from the left. -/
theorem bind_merge?_eq_some_iff {a b c m : Service} :
    (a.merge? b).bind (·.merge? c) = some m ↔
      (a.isSame b = true ∧ a.isSame c = true ∧ b.isSame c = true) ∧
        (a.absorb b).absorb c = m := by
  rw [Option.bind_eq_some_iff]
  constructor
  · rintro ⟨ab, hab, hm⟩
    obtain ⟨hsame, rfl⟩ := merge?_eq_some_iff.mp hab
    obtain ⟨hboth, heq⟩ := merge?_eq_some_iff.mp hm
    exact ⟨⟨hsame, (isSame_absorb_iff hsame c).mp hboth⟩, heq⟩
  · rintro ⟨⟨hsame, hboth⟩, heq⟩
    exact ⟨a.absorb b, merge?_eq_some_iff.mpr ⟨hsame, rfl⟩,
      merge?_eq_some_iff.mpr ⟨(isSame_absorb_iff hsame c).mpr hboth, heq⟩⟩

/-- Three services merged from the right. -/
theorem merge?_bind_eq_some_iff {a b c m : Service} :
    (b.merge? c).bind a.merge? = some m ↔
      (a.isSame b = true ∧ a.isSame c = true ∧ b.isSame c = true) ∧
        a.absorb (b.absorb c) = m := by
  rw [Option.bind_eq_some_iff]
  constructor
  · rintro ⟨bc, hbc, hm⟩
    obtain ⟨hsame, rfl⟩ := merge?_eq_some_iff.mp hbc
    obtain ⟨hboth, heq⟩ := merge?_eq_some_iff.mp hm
    obtain ⟨hb, hc⟩ := (isSame_absorb_right_iff hsame a).mp hboth
    exact ⟨⟨hb, hc, hsame⟩, heq⟩
  · rintro ⟨⟨hb, hc, hsame⟩, heq⟩
    exact ⟨b.absorb c, merge?_eq_some_iff.mpr ⟨hsame, rfl⟩,
      merge?_eq_some_iff.mpr ⟨(isSame_absorb_right_iff hsame a).mpr ⟨hb, hc⟩, heq⟩⟩

/-- **Merging is associative**: three services that are merged from the left or from the right
give the same service, or none.  They give one exactly if each two of them are the same. -/
theorem merging_is_associative (a b c : Service) :
    (a.merge? b).bind (·.merge? c) = (b.merge? c).bind a.merge? ∧
      (((a.merge? b).bind (·.merge? c)).isSome = true ↔
        a.isSame b = true ∧ a.isSame c = true ∧ b.isSame c = true) := by
  constructor
  · refine Option.ext fun m => ?_
    rw [bind_merge?_eq_some_iff, merge?_bind_eq_some_iff, absorb_assoc]
  · rw [Option.isSome_iff_exists]
    constructor
    · rintro ⟨m, hm⟩
      exact (bind_merge?_eq_some_iff.mp hm).1
    · intro hsame
      exact ⟨_, bind_merge?_eq_some_iff.mpr ⟨hsame, rfl⟩⟩

/-- A service without a build directory is the same as services with different ones, and still the
three cannot be merged. -/
example :
    let plain := Service.new "web" .any
    let north := plain.addBuild .sourceCode "north"
    let south := plain.addBuild .sourceCode "south"
    north.isSame plain = true ∧ plain.isSame south = true ∧
      (north.merge? plain).bind (·.merge? south) = none := by
  decide

/-! ## Growing -/

/-- The second service is what the first may have become by taking others in: what identifies it
stays, flags stay set, and lists and maps are continued at their ends. -/
structure Grown (e e' : Service) : Prop where
  profile : e'.profile = e.profile
  relPath : e'.relPath = e.relPath
  repo : e'.repo = e.repo
  sourceKinds : e.sourceKinds <+: e'.sourceKinds
  targetOptions : e.targetOptions <+: e'.targetOptions
  sources : e.sources.Grown e'.sources
  builds : e.builds.Grown e'.builds
  updatesBuild : e.updatesBuild = true → e'.updatesBuild = true
  updatesDeploy : e.updatesDeploy = true → e'.updatesDeploy = true
  buildDir : ∀ d, e.buildDir? = some d → e'.buildDir? = some d

theorem grown_refl (e : Service) : e.Grown e where
  profile := rfl
  relPath := rfl
  repo := rfl
  sourceKinds := List.prefix_refl _
  targetOptions := List.prefix_refl _
  sources := ArtifactMap.grown_refl _
  builds := ArtifactMap.grown_refl _
  updatesBuild := id
  updatesDeploy := id
  buildDir _ := id

theorem Grown.trans {e e' e'' : Service} (h : e.Grown e') (h' : e'.Grown e'') : e.Grown e'' where
  profile := h'.profile.trans h.profile
  relPath := h'.relPath.trans h.relPath
  repo := h'.repo.trans h.repo
  sourceKinds := h.sourceKinds.trans h'.sourceKinds
  targetOptions := h.targetOptions.trans h'.targetOptions
  sources := h.sources.trans h'.sources
  builds := h.builds.trans h'.builds
  updatesBuild hset := h'.updatesBuild (h.updatesBuild hset)
  updatesDeploy hset := h'.updatesDeploy (h.updatesDeploy hset)
  buildDir d hd := h'.buildDir d (h.buildDir d hd)

theorem grown_absorb (e c : Service) : e.Grown (e.absorb c) where
  profile := rfl
  relPath := rfl
  repo := rfl
  sourceKinds := Discovery.isPrefix_union _ _
  targetOptions := Discovery.isPrefix_union _ _
  sources := ArtifactMap.grown_union _ _
  builds := ArtifactMap.grown_union _ _
  updatesBuild hset := Bool.or_eq_true_iff.mpr (Or.inl hset)
  updatesDeploy hset := Bool.or_eq_true_iff.mpr (Or.inl hset)
  buildDir d hd := by rw [buildDir?_absorb, hd, Option.some_or]

theorem grown_receive (e c : Service) : e.Grown (e.receive c) := by
  unfold receive
  split
  · exact grown_absorb e c
  · exact grown_refl e

/-! ## Absorption -/

/-- A service that has all traits of another one does not change by taking it in. -/
theorem absorb_of_has {s t : Service} (h : ∀ x, t.Has x → s.Has x) : s.absorb t = s := by
  have hkinds : Discovery.union s.sourceKinds t.sourceKinds = s.sourceKinds :=
    Discovery.union_of_subset fun k => h (.sourceKind k)
  have hoptions : Discovery.union s.targetOptions t.targetOptions = s.targetOptions :=
    Discovery.union_of_subset fun option => h (.targetOption option)
  have hsources : s.sources.union t.sources = s.sources :=
    ArtifactMap.union_of_mentioned (fun k => h (.source k)) fun k path => h (.sourcePath k path)
  have hbuilds : s.builds.union t.builds = s.builds :=
    ArtifactMap.union_of_mentioned (fun k => h (.build k)) fun k path => h (.buildPath k path)
  have hbuild : (s.updatesBuild || t.updatesBuild) = s.updatesBuild :=
    Bool.or_eq_left_iff_imp.mpr (h .updatesBuild)
  have hdeploy : (s.updatesDeploy || t.updatesDeploy) = s.updatesDeploy :=
    Bool.or_eq_left_iff_imp.mpr (h .updatesDeploy)
  rw [absorb, hkinds, hoptions, hsources, hbuilds, hbuild, hdeploy]

/-- A service does not change by taking in itself. -/
@[simp] theorem absorb_self (s : Service) : s.absorb s = s := absorb_of_has fun _ => id

/-- Nor does it change by taking in again what it has taken in. -/
@[simp] theorem absorb_absorb (s t : Service) : (s.absorb t).absorb t = s.absorb t :=
  absorb_of_has fun _ hx => has_absorb.mpr (Or.inr hx)

/-- Nor by taking in what it has grown out of. -/
theorem absorb_absorb_left (s t : Service) : (s.absorb t).absorb s = s.absorb t :=
  absorb_of_has fun _ hx => has_absorb.mpr (Or.inl hx)

/-- An entry that has received a service does not change by receiving it again, whether it took
it in or not. -/
@[simp] theorem receive_receive (e c : Service) : (e.receive c).receive c = e.receive c := by
  by_cases hs : e.isSame c = true
  · have hagain : (e.absorb c).isSame c = true :=
      (isSame_absorb_iff hs c).mpr ⟨hs, isSame_refl c⟩
    rw [receive_of_isSame hs, receive_of_isSame hagain, absorb_absorb]
  · rw [receive_of_not_isSame hs, receive_of_not_isSame hs]

@[simp] theorem receive_self (c : Service) : c.receive c = c := by
  rw [receive_of_isSame (isSame_refl c), absorb_self]

/-- Of two services that are the same, it makes no difference to the build directory which of them
takes the other one in. -/
theorem buildDir?_absorb_comm {s t : Service} (h : s.isSame t = true) :
    (s.absorb t).buildDir? = (t.absorb s).buildDir? := by
  rw [buildDir?_absorb, buildDir?_absorb]
  rcases (isSame_iff.mp h).2 with hd | hd | hd
  · rw [hd, Option.none_or, Option.or_none]
  · rw [hd, Option.none_or, Option.or_none]
  · rw [hd]

/-- **Merging is commutative up to order and absorbs both services.**  Two services can be merged
either way or not at all, and both ways lead to the same profile, the same build directory and the
same traits, flags among them.  The merged service grows out of the first one, it is the same as
both, and merging either of them into it again changes nothing. -/
theorem merging_commutes_and_absorbs (e c : Service) :
    (e.merge? c = none ↔ c.merge? e = none) ∧
      ∀ m, e.merge? c = some m →
        (∃ m', c.merge? e = some m' ∧ m.profile = m'.profile ∧ m.buildDir? = m'.buildDir? ∧
          ∀ x, m.Has x ↔ m'.Has x) ∧
        m.merge? c = some m ∧ m.merge? e = some m ∧
        m.isSame e = true ∧ m.isSame c = true ∧ e.Grown m := by
  refine ⟨?_, fun m hm => ?_⟩
  · rw [merge?_eq_none_iff, merge?_eq_none_iff, isSame_comm]
  · obtain ⟨hsame, rfl⟩ := merge?_eq_some_iff.mp hm
    have hwith : (e.absorb c).isSame e = true :=
      (isSame_absorb_iff hsame e).mpr ⟨isSame_refl e, isSame_symm hsame⟩
    have hwithc : (e.absorb c).isSame c = true :=
      (isSame_absorb_iff hsame c).mpr ⟨hsame, isSame_refl c⟩
    refine ⟨⟨c.absorb e, ?_, ?_, ?_, fun x => ?_⟩, ?_, ?_, hwith, hwithc, grown_absorb e c⟩
    · exact merge?_eq_some_iff.mpr ⟨isSame_symm hsame, rfl⟩
    · exact (isSame_iff.mp hsame).1
    · exact buildDir?_absorb_comm hsame
    · rw [has_absorb, has_absorb, or_comm]
    · exact merge?_eq_some_iff.mpr ⟨hwithc, absorb_absorb e c⟩
    · exact merge?_eq_some_iff.mpr ⟨hwith, absorb_absorb_left e c⟩

/-- The first service repeats an option and mentions the kind of the build directory without a
path; the directory comes from the other one. -/
theorem merging_commutes_and_absorbs_of_late_dir :
    let e := { Service.new "web" .any with
      targetOptions := ["a", "b", "a"], builds := ArtifactMap.empty.extend .sourceCode [] }
    let c := ((Service.new "web" .any).addTargetOption "c").addBuild .sourceCode "src"
    let m := e.absorb c
    e.merge? c = some m ∧ m.targetOptions = ["a", "b", "a", "c"] ∧ m.buildDir? = some "src" ∧
      m.merge? c = some m ∧ m.merge? e = some m := by
  intro e c m
  have hm : e.merge? c = some m := by decide
  obtain ⟨-, hc, he, -⟩ := (merging_commutes_and_absorbs e c).2 m hm
  exact ⟨hm, by decide, by decide, hc, he⟩

end Service
end Replatform
