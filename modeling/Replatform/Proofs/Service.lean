import Replatform.Proofs.ArtifactMap
import Replatform.Service

/-! # Sameness and merging of services

Sameness is reflexive and symmetric, but not transitive: a service without a build directory
is the same as services with different ones.  What does carry over is that an entry **covers**
a service it was started from or has taken in: the profiles agree and the entry has the build
directory of the service, if that has one.  Whatever an entry takes in later, it goes on
covering the service, and it goes on having all traits of it.
-/
namespace Replatform
namespace Service

/-! ## Profiles and build directories -/

/-- What has to agree for two services to be the same, but for the build directory. -/
structure Profile where
  name : String
  image : String
  strategy : Strategy
  build : BuildMethod
  deriving DecidableEq

def profile (s : Service) : Profile := ⟨s.name, s.image, s.strategy, s.build⟩

theorem sameDir_iff {a b : Option String} :
    sameDir a b = true ↔ a = none ∨ b = none ∨ a = b := by
  cases a <;> cases b <;> simp [sameDir]

theorem isSame_iff {s t : Service} :
    s.isSame t = true ↔
      s.profile = t.profile ∧
        (s.buildDir? = none ∨ t.buildDir? = none ∨ s.buildDir? = t.buildDir?) := by
  simp only [isSame, Bool.and_eq_true, beq_iff_eq, sameDir_iff, profile, Profile.mk.injEq]
  constructor
  · rintro ⟨⟨⟨⟨hn, hi⟩, hs⟩, hb⟩, hd⟩
    exact ⟨⟨hn, hi, hs, hb⟩, hd⟩
  · rintro ⟨⟨hn, hi, hs, hb⟩, hd⟩
    exact ⟨⟨⟨⟨hn, hi⟩, hs⟩, hb⟩, hd⟩

theorem isSame_refl (s : Service) : s.isSame s = true :=
  isSame_iff.mpr ⟨rfl, Or.inr (Or.inr rfl)⟩

theorem isSame_symm {s t : Service} (h : s.isSame t = true) : t.isSame s = true := by
  obtain ⟨hp, hd⟩ := isSame_iff.mp h
  refine isSame_iff.mpr ⟨hp.symm, ?_⟩
  rcases hd with hd | hd | hd
  · exact Or.inr (Or.inl hd)
  · exact Or.inl hd
  · exact Or.inr (Or.inr hd.symm)

theorem isSame_comm (s t : Service) : s.isSame t = true ↔ t.isSame s = true :=
  ⟨isSame_symm, isSame_symm⟩

/-- Two services that are not the same differ in their profiles, or name different build
directories. -/
theorem not_isSame_iff {s t : Service} :
    ¬s.isSame t = true ↔ s.profile ≠ t.profile ∨
      ∃ d d', s.buildDir? = some d ∧ t.buildDir? = some d' ∧ d ≠ d' := by
  rw [isSame_iff]
  by_cases hp : s.profile = t.profile
  · cases hs : s.buildDir? <;> cases ht : t.buildDir? <;> simp [hp]
  · simp [hp]

/-- Through a service with a build directory sameness does carry over. -/
theorem isSame_of_buildDir {s t c : Service} (hc : c.buildDir? ≠ none) (hs : s.isSame c = true)
    (ht : t.isSame c = true) : s.isSame t = true := by
  obtain ⟨hps, hds⟩ := isSame_iff.mp hs
  obtain ⟨hpt, hdt⟩ := isSame_iff.mp ht
  refine isSame_iff.mpr ⟨hps.trans hpt.symm, ?_⟩
  rcases hds with hds | hds | hds
  · exact Or.inl hds
  · exact absurd hds hc
  · rcases hdt with hdt | hdt | hdt
    · exact Or.inr (Or.inl hdt)
    · exact absurd hdt hc
    · exact Or.inr (Or.inr (hds.trans hdt.symm))

/-! ## Taking in -/

@[simp] theorem profile_absorb (s t : Service) : (s.absorb t).profile = s.profile := rfl

theorem buildDir?_absorb (s t : Service) :
    (s.absorb t).buildDir? = s.buildDir?.or t.buildDir? :=
  ArtifactMap.first?_union s.builds t.builds .sourceCode

theorem merge?_eq_some_iff {s t m : Service} :
    s.merge? t = some m ↔ s.isSame t = true ∧ s.absorb t = m := by
  unfold merge?
  split
  · rename_i h
    rw [Option.some_inj]
    exact ⟨fun hm => ⟨h, hm⟩, And.right⟩
  · rename_i h
    exact ⟨nofun, fun hm => absurd hm.1 h⟩

theorem merge?_eq_none_iff {s t : Service} : s.merge? t = none ↔ ¬s.isSame t = true := by
  unfold merge?
  split
  · rename_i h
    exact ⟨nofun, fun hnot => absurd h hnot⟩
  · rename_i h
    exact ⟨fun _ => h, fun _ => rfl⟩

/-- What an entry is after a service has been offered to it. -/
def receive (e c : Service) : Service := if e.isSame c then e.absorb c else e

theorem merge?_getD (e c : Service) : (e.merge? c).getD e = e.receive c := by
  unfold merge? receive
  split <;> rfl

theorem receive_of_isSame {e c : Service} (h : e.isSame c = true) : e.receive c = e.absorb c :=
  if_pos h

theorem receive_of_not_isSame {e c : Service} (h : ¬e.isSame c = true) : e.receive c = e :=
  if_neg h

@[simp] theorem profile_receive (e c : Service) : (e.receive c).profile = e.profile := by
  unfold receive
  split <;> rfl

@[simp] theorem name_receive (e c : Service) : (e.receive c).name = e.name :=
  congrArg Profile.name (profile_receive e c)

theorem buildDir?_receive {e c : Service} {d : String} (h : e.buildDir? = some d) :
    (e.receive c).buildDir? = some d := by
  unfold receive
  split
  · rw [buildDir?_absorb, h, Option.some_or]
  · exact h

/-- Services that are not the same stay so, whatever is offered to both. -/
theorem not_isSame_receive {e e' : Service} (h : ¬e.isSame e' = true) (c : Service) :
    ¬(e.receive c).isSame (e'.receive c) = true := by
  rw [not_isSame_iff] at h ⊢
  rw [profile_receive, profile_receive]
  rcases h with hp | ⟨d, d', hd, hd', hne⟩
  · exact Or.inl hp
  · exact Or.inr ⟨d, d', buildDir?_receive hd, buildDir?_receive hd', hne⟩

/-! ## Covering -/

/-- The entry may have been started from the service or may have taken it in: the profiles
agree, and the entry has the build directory of the service, if that has one. -/
def Covers (e c : Service) : Prop :=
  e.profile = c.profile ∧ (c.buildDir? = none ∨ c.buildDir? = e.buildDir?)

theorem covers_refl (s : Service) : s.Covers s := ⟨rfl, Or.inr rfl⟩

theorem Covers.isSame {e c : Service} (h : e.Covers c) : e.isSame c = true := by
  obtain ⟨hp, hd | hd⟩ := h
  · exact isSame_iff.mpr ⟨hp, Or.inr (Or.inl hd)⟩
  · exact isSame_iff.mpr ⟨hp, Or.inr (Or.inr hd.symm)⟩

theorem Covers.name {e c : Service} (h : e.Covers c) : e.name = c.name := congrArg Profile.name h.1

theorem covers_absorb {e c : Service} (h : e.isSame c = true) : (e.absorb c).Covers c := by
  obtain ⟨hp, hd⟩ := isSame_iff.mp h
  refine ⟨hp, ?_⟩
  rw [buildDir?_absorb]
  rcases hd with hd | hd | hd
  · rw [hd, Option.none_or]
    exact Or.inr rfl
  · exact Or.inl hd
  · rw [hd, Option.or_self]
    exact Or.inr rfl

/-- The build directory of an entry that received a service is the one that it had, or that of
the service, which the entry then covers. -/
theorem buildDir?_receive_eq (e c : Service) :
    (e.receive c).buildDir? = e.buildDir? ∨
      ((e.receive c).Covers c ∧ c.buildDir? = (e.receive c).buildDir?) := by
  by_cases hs : e.isSame c = true
  · rw [receive_of_isSame hs]
    cases hd : e.buildDir? with
    | none =>
      refine Or.inr ⟨covers_absorb hs, ?_⟩
      rw [buildDir?_absorb, hd, Option.none_or]
    | some d =>
      refine Or.inl ?_
      rw [buildDir?_absorb, hd, Option.some_or]
  · rw [receive_of_not_isSame hs]
    exact Or.inl rfl

/-- What an entry covers it goes on covering. -/
theorem Covers.receive {e c : Service} (h : e.Covers c) (c' : Service) :
    (e.receive c').Covers c := by
  obtain ⟨hp, hd⟩ := h
  refine ⟨(profile_receive e c').trans hp, ?_⟩
  cases hc : c.buildDir? with
  | none => exact Or.inl rfl
  | some d =>
    have he : e.buildDir? = some d := by
      rcases hd with hd | hd
      · rw [hc] at hd; cases hd
      · rw [← hd, hc]
    exact Or.inr (buildDir?_receive he).symm

/-! ## Traits -/

/-- A single thing that a service states and that merging unites: an element of a list, a kind
of artifact that is mentioned, a path under a kind, or a flag that is set. -/
inductive Trait where
  | sourceKind (k : SourceKind)
  | targetOption (option : String)
  | source (k : SourceArtifact)
  | sourcePath (k : SourceArtifact) (path : String)
  | build (k : BuildArtifact)
  | buildPath (k : BuildArtifact) (path : String)
  | updatesBuild
  | updatesDeploy
  deriving DecidableEq

/-- The service states a trait. -/
def Has (s : Service) : Trait → Prop
  | .sourceKind k => k ∈ s.sourceKinds
  | .targetOption option => option ∈ s.targetOptions
  | .source k => k ∈ s.sources.kinds
  | .sourcePath k path => path ∈ s.sources.get k
  | .build k => k ∈ s.builds.kinds
  | .buildPath k path => path ∈ s.builds.get k
  | .updatesBuild => s.updatesBuild = true
  | .updatesDeploy => s.updatesDeploy = true

theorem has_absorb {s t : Service} {x : Trait} : (s.absorb t).Has x ↔ s.Has x ∨ t.Has x := by
  cases x with
  | sourceKind k => exact Discovery.mem_union
  | targetOption option => exact Discovery.mem_union
  | source k => exact ArtifactMap.mem_kinds_union
  | sourcePath k path => exact ArtifactMap.mem_get_union
  | build k => exact ArtifactMap.mem_kinds_union
  | buildPath k path => exact ArtifactMap.mem_get_union
  | updatesBuild => exact Bool.or_eq_true_iff
  | updatesDeploy => exact Bool.or_eq_true_iff

theorem Has.receive {e : Service} {x : Trait} (h : e.Has x) (c : Service) :
    (e.receive c).Has x := by
  unfold Service.receive
  split
  · exact has_absorb.mpr (Or.inl h)
  · exact h

/-- A trait of an entry to which a service was offered is one that it had, or one of a service
that it has taken in. -/
theorem has_receive {e c : Service} {x : Trait} (h : (e.receive c).Has x) :
    e.Has x ∨ (e.isSame c = true ∧ c.Has x) := by
  by_cases hs : e.isSame c = true
  · rw [receive_of_isSame hs, has_absorb] at h
    exact h.imp_right fun hc => ⟨hs, hc⟩
  · rw [receive_of_not_isSame hs] at h
    exact Or.inl h

/-! ## Lists without repeats -/

/-- No list of the service has repeats; its maps cannot have any. -/
structure Tidy (s : Service) : Prop where
  sourceKinds : s.sourceKinds.Nodup
  targetOptions : s.targetOptions.Nodup

instance (s : Service) : Decidable s.Tidy :=
  decidable_of_iff (s.sourceKinds.Nodup ∧ s.targetOptions.Nodup)
    ⟨fun h => ⟨h.1, h.2⟩, fun h => ⟨h.sourceKinds, h.targetOptions⟩⟩

end Service
end Replatform
