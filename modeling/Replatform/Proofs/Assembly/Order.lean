import Mathlib.Data.Set.Defs
import Replatform.Proofs.Assembly.Apart
import Replatform.Proofs.Assembly.Sources

/-! # The order of discovery

Services are **alike** if they agree but for the order of their lists, and so are plans if they
have the same names and, under each name, entries that are alike in some order.  Which entries
there are, by profile and build directory, depends on the candidates alone and not on their
order.  What an entry holds may depend on it: a candidate without a build directory is taken in
by the entries that happen to be there, and if the entries for two directories come about one
before and one after it, then only one of them gets its traits.

So the order is immaterial exactly for those lists of candidates that are **settled**: wherever
one profile has candidates for several build directories, each trait of a candidate without
one is stated by the candidates for each of the directories too.
-/
namespace Replatform

namespace Service

/-- What is compared of a service: all that has to agree but the build directory, and what the
lists, the maps and the flags state, in any order. -/
def outline (s : Service) : Profile × Set Trait := (s.profile, {x | s.Has x})

/-- What tells the entries of a plan apart. -/
def key (s : Service) : Profile × Option String := (s.profile, s.buildDir?)

theorem key_eq_iff {s t : Service} :
    s.key = t.key ↔ s.profile = t.profile ∧ s.buildDir? = t.buildDir? := Prod.ext_iff

theorem isSame_of_key {s t : Service} (h : s.key = t.key) : s.isSame t = true := by
  obtain ⟨hp, hd⟩ := key_eq_iff.mp h
  exact isSame_iff.mpr ⟨hp, Or.inr (Or.inr hd)⟩

theorem Covers.buildDir? {e c : Service} (h : e.Covers c) (hc : c.buildDir? ≠ none) :
    e.buildDir? = c.buildDir? := (h.2.resolve_left hc).symm

end Service

/-- The names are the same and, under each of them, the entries are alike in some order. -/
structure Services.Alike (ss tt : Services) : Prop where
  names : ∀ name, name ∈ ss.keys ↔ name ∈ tt.keys
  entries : ∀ name, ((ss.under name).map Service.outline).Perm ((tt.under name).map Service.outline)

namespace Services

/-- Where a profile has candidates for several build directories, what a candidate without one
states is stated for each of the directories as well. -/
def Settled (cs : List Service) : Prop :=
  ∀ n ∈ cs, ∀ a ∈ cs, ∀ b ∈ cs, a.profile = n.profile → b.profile = n.profile →
    n.buildDir? = none → a.buildDir? ≠ none → b.buildDir? ≠ none → a.buildDir? ≠ b.buildDir? →
    ∀ x, n.Has x → ∃ c ∈ cs, c.key = a.key ∧ c.Has x

theorem mem_keys_add {ss : Services} {cs : List Service} {name : String} :
    name ∈ (ss.add cs).keys ↔ name ∈ ss.keys ∨ ∃ c ∈ cs, c.name = name := by
  rw [keys_add, Discovery.mem_union, List.mem_map]

/-! ## Which entries there are -/

/-- The candidates lead to an entry of a key: one of them has the key, and if the key is without
a build directory, then no candidate of the profile has one. -/
def Keyed (cs : List Service) (k : Service.Profile × Option String) : Prop :=
  (∃ c ∈ cs, c.key = k) ∧ (k.2 = none → ∀ c ∈ cs, c.profile = k.1 → c.buildDir? = none)

theorem nodup_keys {ss : Services} (h : ss.Apart) (name : String) :
    ((ss.under name).map Service.key).Nodup :=
  List.pairwise_map.mpr ((h.apart name).imp fun hee' hk => hee'.1 (Service.isSame_of_key hk))

/-- An entry without a build directory is the only one of its profile. -/
theorem Apart.eq_of_buildDir? {ss : Services} (h : ss.Apart) {name : String} {e e' : Service}
    (he : e ∈ ss.under name) (he' : e' ∈ ss.under name) (hp : e.profile = e'.profile)
    (hd : e.buildDir? = none) : e = e' :=
  h.eq_of_isSame he he' (Service.isSame_iff.mpr ⟨hp, Or.inl hd⟩)

theorem mem_keys_iff {ss : Services} {cs : List Service} (happ : ss.Apart) (hmade : ss.MadeOf cs)
    {name : String} {k : Service.Profile × Option String} :
    k ∈ (ss.under name).map Service.key ↔ k.1.name = name ∧ Keyed cs k := by
  rw [List.mem_map]
  constructor
  · rintro ⟨e, he, rfl⟩
    obtain ⟨c, hc, hcov, hdir⟩ := hmade.placed name e he
    refine ⟨happ.named name e he, ⟨c, hc, Service.key_eq_iff.mpr ⟨hcov.1.symm, hdir⟩⟩, ?_⟩
    intro hnone c' hc' hp
    -- an entry without a build directory takes in all candidates of its profile, so the one that
    -- covers `c'` is `e`
    obtain ⟨e', he', hcov', -⟩ := hmade.kept c' hc'
    have hname : c'.name = name := (congrArg Service.Profile.name hp).trans (happ.named name e he)
    rw [hname] at he'
    obtain rfl := happ.eq_of_buildDir? he he' (hp.symm.trans hcov'.1.symm) hnone
    rcases hcov'.2 with hd | hd
    · exact hd
    · exact hd.trans hnone
  · rintro ⟨rfl, ⟨c, hc, rfl⟩, hnone⟩
    obtain ⟨e, he, hcov, -⟩ := hmade.kept c hc
    refine ⟨e, he, Service.key_eq_iff.mpr ⟨hcov.1, ?_⟩⟩
    by_cases hd : c.buildDir? = none
    · obtain ⟨c', hc', hcov', hdir'⟩ := hmade.placed c.name e he
      rw [← hdir', hd]
      exact hnone hd c' hc' (hcov'.1.symm.trans hcov.1)
    · exact hcov.buildDir? hd

/-! ## What they hold -/

/-- Every entry has all traits of all candidates that are the same service. -/
def Whole (ss : Services) (cs : List Service) : Prop :=
  ∀ name, ∀ e ∈ ss.under name, ∀ x, e.Has x ↔ ∃ c ∈ cs, e.isSame c = true ∧ c.Has x

/-- What an entry of a key holds if it is whole. -/
def sketch (cs : List Service) (k : Service.Profile × Option String) :
    Service.Profile × Set Service.Trait :=
  (k.1, {x | ∃ c ∈ cs, (k.1 = c.profile ∧ (k.2 = none ∨ c.buildDir? = none ∨ k.2 = c.buildDir?)) ∧
    c.Has x})

theorem outline_eq_sketch {ss : Services} {cs : List Service} (h : ss.Whole cs) {name : String}
    {e : Service} (he : e ∈ ss.under name) : e.outline = sketch cs e.key := by
  refine Prod.ext rfl (Set.ext fun x => ?_)
  refine (h name e he x).trans (exists_congr fun c => and_congr_right fun _ => ?_)
  exact and_congr_left fun _ => Service.isSame_iff

theorem sketch_congr {cs ds : List Service} (h : ∀ c, c ∈ cs ↔ c ∈ ds) :
    sketch cs = sketch ds := by
  funext k
  simp only [sketch, h]

theorem keyed_congr {cs ds : List Service} (h : ∀ c, c ∈ cs ↔ c ∈ ds)
    (k : Service.Profile × Option String) : Keyed cs k ↔ Keyed ds k := by
  simp only [Keyed, h]

theorem settled_congr {cs ds : List Service} (h : ∀ c, c ∈ cs ↔ c ∈ ds) :
    Settled cs ↔ Settled ds := by
  simp only [Settled, h]

/-- What a candidate states is held by an entry that is the same as all entries that cover the
candidate. -/
theorem has_of_kept {ss : Services} {cs : List Service} (happ : ss.Apart) (hmade : ss.MadeOf cs)
    {name : String} {e c : Service} (he : e ∈ ss.under name) (hc : c ∈ cs)
    (hp : e.profile = c.profile)
    (hsame : ∀ e' ∈ ss.under name, e'.Covers c → e.isSame e' = true) {x : Service.Trait}
    (hx : c.Has x) : e.Has x := by
  obtain ⟨e', he', hcov, hhas⟩ := hmade.kept c hc
  have hname : c.name = name :=
    (congrArg Service.Profile.name hp.symm).trans (happ.named name e he)
  rw [hname] at he'
  obtain rfl := happ.eq_of_isSame he he' (hsame e' he' hcov)
  exact hhas x hx

/-- What a candidate with a build directory states is held by the entry that is the same. -/
theorem has_of_buildDir? {ss : Services} {cs : List Service} (happ : ss.Apart)
    (hmade : ss.MadeOf cs) {name : String} {e c : Service} (he : e ∈ ss.under name) (hc : c ∈ cs)
    (hs : e.isSame c = true) (hd : c.buildDir? ≠ none) {x : Service.Trait} (hx : c.Has x) :
    e.Has x :=
  have hp : e.profile = c.profile := (Service.isSame_iff.mp hs).1
  has_of_kept happ hmade he hc hp
    (fun _ _ hcov => Service.isSame_of_buildDir hd hs hcov.isSame) hx

/-- The entries of settled candidates are whole: a candidate without a build directory that an
entry may have missed states nothing that the candidates for that entry do not. -/
theorem whole_of_settled {ss : Services} {cs : List Service} (happ : ss.Apart)
    (hmade : ss.MadeOf cs) (hset : Settled cs) : ss.Whole cs := by
  intro name e he x
  constructor
  · intro hx
    obtain ⟨c, hc, hcov, hhas⟩ := hmade.drawn name e he x hx
    exact ⟨c, hc, hcov.isSame, hhas⟩
  · rintro ⟨c, hc, hs, hx⟩
    obtain ⟨hp, -⟩ := Service.isSame_iff.mp hs
    by_cases hc0 : c.buildDir? = none
    · by_cases hall : ∀ e' ∈ ss.under name, e'.Covers c → e.isSame e' = true
      · exact has_of_kept happ hmade he hc hp hall hx
      · -- some entry for another directory covers `c`, and so settledness applies
        push Not at hall
        obtain ⟨e', he', hcov, hns⟩ := hall
        obtain ⟨d, d', hed, hed', hne⟩ := (Service.not_isSame_iff.mp hns).resolve_left
          fun hne => hne (hp.trans hcov.1.symm)
        obtain ⟨a, ha, hcova, hdira⟩ := hmade.placed name e he
        obtain ⟨b, hb, hcovb, hdirb⟩ := hmade.placed name e' he'
        rw [hed] at hdira
        rw [hed'] at hdirb
        obtain ⟨c', hc', hk, hx'⟩ := hset c hc a ha b hb (hcova.1.symm.trans hp)
          (hcovb.1.symm.trans hcov.1) hc0 (by simp [hdira]) (by simp [hdirb])
          (by simpa [hdira, hdirb] using hne) x hx
        obtain ⟨hp', hd'⟩ := Service.key_eq_iff.mp hk
        have hs' : e.isSame c' = true := Service.isSame_iff.mpr
          ⟨hcova.1.trans hp'.symm, Or.inr (Or.inr (hed.trans (hd'.trans hdira).symm))⟩
        exact has_of_buildDir? happ hmade he hc' hs' (by simp [hd', hdira]) hx'
    · exact has_of_buildDir? happ hmade he hc hs hc0 hx

/-- Services that are whole with respect to the same candidates are alike under each name. -/
theorem outlines_perm {ss tt : Services} {cs ds : List Service} (hcs : ∀ c, c ∈ cs ↔ c ∈ ds)
    (hss : ss.Apart ∧ ss.MadeOf cs ∧ ss.Whole cs) (htt : tt.Apart ∧ tt.MadeOf ds ∧ tt.Whole ds)
    (name : String) :
    ((ss.under name).map Service.outline).Perm ((tt.under name).map Service.outline) := by
  obtain ⟨happ, hmade, hwhole⟩ := hss
  obtain ⟨happ', hmade', hwhole'⟩ := htt
  have hkeys : ((ss.under name).map Service.key).Perm ((tt.under name).map Service.key) := by
    refine (List.perm_ext_iff_of_nodup (nodup_keys happ name) (nodup_keys happ' name)).mpr ?_
    intro k
    rw [mem_keys_iff happ hmade, mem_keys_iff happ' hmade', keyed_congr hcs]
  have hsketch := hkeys.map (sketch cs)
  rw [List.map_map, List.map_map] at hsketch
  have hleft : (ss.under name).map Service.outline =
      (ss.under name).map (sketch cs ∘ Service.key) :=
    List.map_congr_left fun e he => outline_eq_sketch hwhole he
  have hright : (tt.under name).map Service.outline =
      (tt.under name).map (sketch cs ∘ Service.key) := by
    rw [sketch_congr hcs]
    exact List.map_congr_left fun e he => outline_eq_sketch hwhole' he
  rw [hleft, hright]
  exact hsketch

/-! ## Orders that make a difference -/

/-- A candidate without a build directory that comes last is taken in by all entries of its
profile. -/
theorem has_of_offer_last {ss : Services} {n e : Service} (hn : n.buildDir? = none)
    (he : e ∈ (ss.offer n).under n.name) (hp : e.profile = n.profile) {x : Service.Trait}
    (hx : n.Has x) : e.Has x := by
  rw [under_offer_self, mem_offerTo] at he
  rcases he with ⟨e₀, -, rfl⟩ | ⟨rfl, -⟩
  · rw [Service.profile_receive] at hp
    have hs : e₀.isSame n = true := Service.isSame_iff.mpr ⟨hp, Or.inr (Or.inl hn)⟩
    rw [Service.receive_of_isSame hs]
    exact Service.has_absorb.mpr (Or.inr hx)
  · exact hx

/-- If the candidates for a build directory come last, when the entries of their profile are for
other directories, then the entry for it holds what they state and nothing else. -/
theorem drawn_of_last {ss : Services} {p : Service.Profile} {d : String}
    (hother : ∀ e ∈ ss.under p.name, e.profile = p → e.buildDir? ≠ none ∧ e.buildDir? ≠ some d)
    (last : List Service) (hlast : ∀ c ∈ last, c.key = (p, some d)) :
    ∀ e ∈ (ss.add last).under p.name, e.profile = p → e.buildDir? ≠ none ∧
      (e.buildDir? = some d → ∀ x, e.Has x → ∃ c ∈ last, c.Has x) := by
  induction last using List.reverseRecOn with
  | nil =>
    intro e he hp
    exact ⟨(hother e he hp).1, fun hd => absurd hd (hother e he hp).2⟩
  | append_singleton last c ih =>
    intro e he hp
    have hprev := ih fun c' hc' => hlast c' (List.mem_append_left _ hc')
    have hc : c ∈ last ++ [c] := List.mem_append_right last (List.mem_singleton_self c)
    rw [add_append] at he
    rcases mem_under_offer he with he | ⟨e₀, he₀, rfl⟩ | rfl
    · obtain ⟨hnone, hhas⟩ := hprev e he hp
      refine ⟨hnone, fun hd x hx => ?_⟩
      obtain ⟨c', hc', hx'⟩ := hhas hd x hx
      exact ⟨c', List.mem_append_left _ hc', hx'⟩
    · -- a receiver of the profile has a build directory already, and so it keeps that one
      rw [Service.profile_receive] at hp
      obtain ⟨hnone, hhas⟩ := hprev e₀ he₀ hp
      obtain ⟨d₀, hd₀⟩ := Option.ne_none_iff_exists'.mp hnone
      rw [Service.buildDir?_receive hd₀]
      refine ⟨Option.some_ne_none d₀, fun hd x hx => ?_⟩
      rcases Service.has_receive hx with hx | ⟨-, hx⟩
      · obtain ⟨c', hc', hx'⟩ := hhas (hd₀.trans hd) x hx
        exact ⟨c', List.mem_append_left _ hc', hx'⟩
      · exact ⟨c, hc, hx⟩
    · have hd : e.buildDir? = some d := congrArg Prod.snd (hlast e hc)
      exact ⟨by simp [hd], fun _ x hx => ⟨e, hc, hx⟩⟩

/-- If some candidate of a profile has a build directory and none has that of the key, then all
entries of the profile are for other directories. -/
theorem others_of_declared {rest : List Service} {p : Service.Profile} {d : String} {b : Service}
    (hb : b ∈ rest) (hp : b.profile = p) (hb0 : b.buildDir? ≠ none)
    (hnot : ∀ c ∈ rest, c.key ≠ (p, some d)) {e : Service}
    (he : e ∈ (add .empty rest).under p.name) (hep : e.profile = p) :
    e.buildDir? ≠ none ∧ e.buildDir? ≠ some d := by
  have happ : (add .empty rest).Apart := apart_empty.add rest
  refine ⟨fun hnone => ?_, fun hsome => ?_⟩
  · obtain ⟨e', he', hcov, -⟩ := (madeOf_add rest).kept b hb
    have hname : b.name = p.name := congrArg Service.Profile.name hp
    rw [hname] at he'
    obtain rfl := happ.eq_of_buildDir? he he' (hep.trans (hp.symm.trans hcov.1.symm)) hnone
    exact hb0 ((hcov.buildDir? hb0).symm.trans hnone)
  · obtain ⟨c, hc, hcov, hdir⟩ := (madeOf_add rest).placed _ e he
    exact hnot c hc (Prod.ext (hcov.1.symm.trans hep) (hdir.trans hsome))

/-- If a profile has candidates for two directories, then in the order that puts the candidates
for one of them last, the entry for it holds what they state and nothing else. -/
theorem exists_drawn_of_key {cs : List Service} {a b : Service} (ha : a ∈ cs) (hb : b ∈ cs)
    (hp : b.profile = a.profile) (ha0 : a.buildDir? ≠ none) (hb0 : b.buildDir? ≠ none)
    (hab : a.buildDir? ≠ b.buildDir?) :
    ∃ ds, cs.Perm ds ∧ ∃ e ∈ (add .empty ds).under a.name, e.profile = a.profile ∧
      ∀ x, e.Has x → ∃ c ∈ cs, c.key = a.key ∧ c.Has x := by
  obtain ⟨d, hd⟩ := Option.ne_none_iff_exists'.mp ha0
  have hkey : a.key = (a.profile, some d) := Prod.ext rfl hd
  let rest := cs.filter fun c => !decide (c.key = a.key)
  let last := cs.filter fun c => decide (c.key = a.key)
  have hperm : cs.Perm (rest ++ last) :=
    (List.filter_append_perm _ cs).symm.trans List.perm_append_comm
  have hbrest : b ∈ rest := by
    refine List.mem_filter.mpr ⟨hb, ?_⟩
    have hne : b.key ≠ a.key := fun hk => hab (Service.key_eq_iff.mp hk).2.symm
    simp [hne]
  have hother : ∀ e ∈ (add .empty rest).under a.profile.name, e.profile = a.profile →
      e.buildDir? ≠ none ∧ e.buildDir? ≠ some d := by
    intro e he hep
    refine others_of_declared hbrest hp hb0 ?_ he hep
    intro c hc hk
    have hne := (List.mem_filter.mp hc).2
    simp [hk, hkey] at hne
  have hlast : ∀ c ∈ last, c.key = a.key := fun c hc =>
    of_decide_eq_true (List.mem_filter.mp hc).2
  obtain ⟨e, he, hcov, -⟩ := (madeOf_add (rest ++ last)).kept a (hperm.mem_iff.mp ha)
  have hed : e.buildDir? = some d := (hcov.buildDir? ha0).trans hd
  refine ⟨rest ++ last, hperm, e, he, hcov.1, fun x hx => ?_⟩
  rw [add_append] at he
  obtain ⟨c, hc, hcx⟩ := (drawn_of_last hother last (fun c hc => (hlast c hc).trans hkey)
    e he hcov.1).2 hed x hx
  exact ⟨c, (List.mem_filter.mp hc).1, hlast c hc, hcx⟩

/-- Candidates that are not settled have an order that puts the candidates for some directory
last, and an order that puts a candidate without one last; they are not alike. -/
theorem settled_of_alike {cs : List Service}
    (h : ∀ ds, cs.Perm ds → (add .empty cs).Alike (add .empty ds)) : Settled cs := by
  intro n hn a ha b hb hpa hpb hn0 ha0 hb0 hab x hx
  obtain ⟨ds, hds, e, he, hp, hdrawn⟩ :=
    exists_drawn_of_key ha hb (hpb.trans hpa.symm) ha0 hb0 hab
  have hperm : cs.Perm (cs.erase n ++ [n]) :=
    (List.perm_cons_erase hn).trans (List.perm_append_singleton n _).symm
  -- the entry has its like in the order with `n` last, which has the trait
  have hmem : e.outline ∈ ((add .empty (cs.erase n ++ [n])).under a.name).map Service.outline :=
    ((h _ hperm).entries a.name).mem_iff.mp
      (((h _ hds).entries a.name).mem_iff.mpr (List.mem_map_of_mem he))
  obtain ⟨e', he', hout⟩ := List.mem_map.mp hmem
  have hp' : e'.profile = n.profile := (congrArg Prod.fst hout).trans (hp.trans hpa)
  have hx' : e'.Has x := by
    have hname : a.name = n.name := congrArg Service.Profile.name hpa
    rw [hname, add_append] at he'
    exact has_of_offer_last hn0 he' hp' hx
  exact hdrawn x ((Set.ext_iff.mp (congrArg Prod.snd hout) x).mp hx')

end Services

namespace Plan

/-- **The order of discovery is immaterial for settled candidates and for no others.**  The plans
that a list of candidates and any permutation of it lead to from nothing are alike, exactly if
the list is settled. -/
theorem order_immaterial_iff (name clusterType name' clusterType' : String) (cs : List Service) :
    (∀ ds, cs.Perm ds →
      ((new name clusterType).add cs).services.Alike ((new name' clusterType').add ds).services) ↔
      Services.Settled cs := by
  constructor
  · exact Services.settled_of_alike
  · intro hset ds hperm
    have hmem : ∀ c, c ∈ cs ↔ c ∈ ds := fun c => hperm.mem_iff
    have hset' : Services.Settled ds := (Services.settled_congr hmem).mp hset
    have happ := Services.apart_empty.add cs
    have happ' := Services.apart_empty.add ds
    refine ⟨fun key => ?_, Services.outlines_perm hmem
      ⟨happ, Services.madeOf_add cs, Services.whole_of_settled happ (Services.madeOf_add cs) hset⟩
      ⟨happ', Services.madeOf_add ds,
        Services.whole_of_settled happ' (Services.madeOf_add ds) hset'⟩⟩
    show key ∈ (Services.add .empty cs).keys ↔ key ∈ (Services.add .empty ds).keys
    rw [Services.mem_keys_add, Services.mem_keys_add]
    simp only [hmem]

/-- A candidate without a build directory that comes between the candidates for two directories
is taken in by the first entry only; if it comes after them, both take it in. -/
theorem order_matters :
    ¬∀ cs ds : List Service, cs.Perm ds →
      ((new "shop" "Kubernetes").add cs).services.Alike
        ((new "shop" "Kubernetes").add ds).services := by
  intro h
  let plain := (Service.new "web" .any).addTargetOption "image"
  let north := (Service.new "web" .any).addBuild .sourceCode "north"
  let south := (Service.new "web" .any).addBuild .sourceCode "south"
  have hperm : ([plain] ++ [north, south]).Perm ([north, south] ++ [plain]) :=
    List.perm_append_comm
  have halike := (h _ _ hperm).entries "web"
  have hsouth : south ∈ (Services.add .empty [plain, north, south]).under "web" := by decide
  have hall : ∀ e ∈ (Services.add .empty [north, south, plain]).under "web",
      "image" ∈ e.targetOptions := by decide
  obtain ⟨e, he, hout⟩ := List.mem_map.mp (halike.mem_iff.mp (List.mem_map_of_mem hsouth))
  have hsame : e.Has (.targetOption "image") ↔ south.Has (.targetOption "image") :=
    Set.ext_iff.mp (congrArg Prod.snd hout) (.targetOption "image")
  have hnot : "image" ∉ south.targetOptions := by decide
  exact hnot (hsame.mp (hall e he))

end Plan
end Replatform
