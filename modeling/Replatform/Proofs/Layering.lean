import Mathlib.Data.List.Induction
import Replatform.Proofs.Assembly.Apart

/-! # Layers of opinions

The output of a plan is what is left when layers have been put over it one after the other.  Each
of its fields has a rule of its own on which layers have an **opinion** on it, and says what the
last of these layers says, or what it said at first.

Layers may also be merged with each other before they are put over anything.  The grouping is free
but for one case: a layer that names a path and nothing else has an opinion on the flag, and in a
merger the path is dropped, which may leave a layer without any opinion.  Where no path stands
without a type, this does not happen.
-/
namespace Replatform
namespace KubernetesOutput

attribute [ext] KubernetesOutput TargetCluster

/-! ## A single layer -/

theorem isBlank_iff {layer : KubernetesOutput} : layer.isBlank = true ↔ layer = blank :=
  decide_eq_true_iff

theorem merge_blank (o : KubernetesOutput) : o.merge blank = o := if_pos rfl

/-- What each field is under a layer. -/
theorem merge_eq (o layer : KubernetesOutput) : o.merge layer =
    { registryUrl := if layer.registryUrl ≠ "" then layer.registryUrl else o.registryUrl
      registryNamespace :=
        if layer.registryNamespace ≠ "" then layer.registryNamespace else o.registryNamespace
      cluster := if layer.cluster.type ≠ "" then layer.cluster else o.cluster
      ignoreUnsupportedKinds :=
        if layer.isBlank = false then layer.ignoreUnsupportedKinds else o.ignoreUnsupportedKinds } := by
  by_cases h : layer.isBlank = true
  · rw [isBlank_iff.mp h, merge_blank]
    rfl
  · rw [merge, if_neg h, if_pos (Bool.eq_false_iff.mpr h)]
    simp only [prefer, ite_not]

/-! ## The last opinion -/

/-- The last of the layers that has an opinion, or `o` if none has. -/
def lastWith (opinion : KubernetesOutput → Bool) (o : KubernetesOutput)
    (layers : List KubernetesOutput) : KubernetesOutput :=
  (layers.reverse.find? opinion).getD o

theorem lastWith_concat (opinion : KubernetesOutput → Bool) (o layer : KubernetesOutput)
    (layers : List KubernetesOutput) :
    lastWith opinion o (layers ++ [layer]) =
      if opinion layer then layer else lastWith opinion o layers := by
  rw [lastWith, List.reverse_append, List.reverse_singleton, List.singleton_append,
    List.find?_cons]
  cases opinion layer <;> rfl

/-- A field that each layer with an opinion overrides is the one of the last such layer. -/
theorem field_foldl_merge {α : Type} (field : KubernetesOutput → α)
    (opinion : KubernetesOutput → Bool)
    (hfield : ∀ o layer, field (merge o layer) = if opinion layer then field layer else field o)
    (o : KubernetesOutput) (layers : List KubernetesOutput) :
    field (layers.foldl merge o) = field (lastWith opinion o layers) := by
  induction layers using List.reverseRecOn with
  | nil => rfl
  | append_singleton layers layer ih =>
    rw [List.foldl_append, List.foldl_cons, List.foldl_nil, hfield, lastWith_concat, ih]
    exact (apply_ite field ..).symm

/-- Layers without an opinion leave no trace. -/
theorem foldl_merge_filter (o : KubernetesOutput) (layers : List KubernetesOutput) :
    (layers.filter fun layer => !layer.isBlank).foldl merge o = layers.foldl merge o := by
  induction layers generalizing o with
  | nil => rfl
  | cons layer rest ih =>
    by_cases h : layer.isBlank = true
    · rw [List.filter_cons_of_neg (by simp [h]), ih, List.foldl_cons, isBlank_iff.mp h, merge_blank]
    · rw [List.filter_cons_of_pos (by simp [h]), List.foldl_cons, List.foldl_cons, ih]

/-! ## Three layers -/

/-- The layer has no opinion, except on the flag. -/
def IsSilent (o : KubernetesOutput) : Prop :=
  o.registryUrl = "" ∧ o.registryNamespace = "" ∧ o.cluster.type = "" ∧ o.cluster.path = ""

/-- The layer names a path and nothing else. -/
def IsPathOnly (o : KubernetesOutput) : Prop :=
  o.registryUrl = "" ∧ o.registryNamespace = "" ∧ o.cluster.type = "" ∧ o.cluster.path ≠ "" ∧
    o.ignoreUnsupportedKinds = false

/-- In everything but the flag the last opinion counts, however three layers are grouped. -/
theorem merge_merge_but_flag (a b c : KubernetesOutput) :
    { (a.merge b).merge c with ignoreUnsupportedKinds := false } =
      { a.merge (b.merge c) with ignoreUnsupportedKinds := false } := by
  refine KubernetesOutput.ext ?_ ?_ ?_ rfl
  · simp only [merge_eq]
    by_cases hc : c.registryUrl = "" <;> simp [hc]
  · simp only [merge_eq]
    by_cases hc : c.registryNamespace = "" <;> simp [hc]
  · simp only [merge_eq]
    by_cases hc : c.cluster.type = "" <;> simp [hc]

theorem isBlank_iff_isSilent {o : KubernetesOutput} :
    o.isBlank = true ↔ o.IsSilent ∧ o.ignoreUnsupportedKinds = false := by
  rw [isBlank_iff]
  constructor
  · rintro rfl
    exact ⟨⟨rfl, rfl, rfl, rfl⟩, rfl⟩
  · rintro ⟨⟨hurl, hnamespace, htype, hpath⟩, hflag⟩
    exact KubernetesOutput.ext hurl hnamespace (TargetCluster.ext htype hpath) hflag

/-- A layer with an opinion is lost in a merger exactly if it only names a path and the other one
is silent. -/
theorem isBlank_merge_iff {b c : KubernetesOutput} (hc : c.isBlank = false) :
    (b.merge c).isBlank = true ↔ b.IsSilent ∧ c.IsPathOnly := by
  have hsaid : ¬(c.IsSilent ∧ c.ignoreUnsupportedKinds = false) := by
    rw [← isBlank_iff_isSilent, hc]
    exact Bool.false_ne_true
  rw [isBlank_iff_isSilent, merge_eq, if_pos hc]
  unfold IsSilent IsPathOnly at *
  by_cases hurl : c.registryUrl = ""
  · by_cases hnamespace : c.registryNamespace = ""
    · by_cases htype : c.cluster.type = ""
      · simp only [hurl, hnamespace, htype, ne_eq, not_true, if_false, true_and] at hsaid ⊢
        tauto
      · simp [htype]
    · simp [hnamespace]
  · simp [hurl]

/-- The two groupings of three layers agree, unless the first raises the flag and the second is
silent and the third only names a path. -/
theorem merge_merge_eq_iff (a b c : KubernetesOutput) :
    (a.merge b).merge c = a.merge (b.merge c) ↔
      ¬(a.ignoreUnsupportedKinds = true ∧ b.IsSilent ∧ c.IsPathOnly) := by
  cases hc : c.isBlank with
  | true =>
    obtain rfl := isBlank_iff.mp hc
    rw [merge_blank, merge_blank]
    exact iff_of_true rfl fun h => h.2.2.2.2.2.1 rfl
  | false =>
    have hleft : ((a.merge b).merge c).ignoreUnsupportedKinds = c.ignoreUnsupportedKinds := by
      rw [merge_eq, if_pos hc]
    cases hbc : (b.merge c).isBlank with
    | true =>
      -- what the third layer has said is lost, and the flag with it
      have hlost := (isBlank_merge_iff hc).mp hbc
      have hflag := hlost.2.2.2.2.2
      have hbut := merge_merge_but_flag a b c
      rw [isBlank_iff.mp hbc, merge_blank] at hbut ⊢
      constructor
      · rintro h ⟨hraised, -⟩
        rw [← h, hleft, hflag] at hraised
        cases hraised
      · intro h
        have hlowered : a.ignoreUnsupportedKinds = false := by
          rw [← Bool.not_eq_true]
          exact fun hraised => h ⟨hraised, hlost⟩
        obtain ⟨hurl, hnamespace, hcluster, -⟩ := KubernetesOutput.ext_iff.mp hbut
        exact KubernetesOutput.ext hurl hnamespace hcluster
          (by rw [hleft, hflag, hlowered])
    | false =>
      have hright : (a.merge (b.merge c)).ignoreUnsupportedKinds = c.ignoreUnsupportedKinds := by
        rw [merge_eq, if_pos hbc, merge_eq, if_pos hc]
      obtain ⟨hurl, hnamespace, hcluster, -⟩ :=
        KubernetesOutput.ext_iff.mp (merge_merge_but_flag a b c)
      refine iff_of_true (KubernetesOutput.ext hurl hnamespace hcluster (hleft.trans hright.symm)) ?_
      rintro ⟨-, hlost⟩
      rw [(isBlank_merge_iff hc).mpr hlost] at hbc
      cases hbc

/-! ## Layers that are merged in advance -/

/-- The layer names no path without a type. -/
def IsTyped (layer : KubernetesOutput) : Prop := layer.cluster.path ≠ "" → layer.cluster.type ≠ ""

theorem IsTyped.merge {a b : KubernetesOutput} (ha : a.IsTyped) (hb : b.IsTyped) :
    (a.merge b).IsTyped := by
  rw [IsTyped, merge_eq]
  by_cases htype : b.cluster.type = ""
  · rw [if_neg (not_not.mpr htype)]
    exact ha
  · rw [if_pos htype]
    exact hb

theorem merge_assoc_of_isTyped (a b : KubernetesOutput) {c : KubernetesOutput} (hc : c.IsTyped) :
    (a.merge b).merge c = a.merge (b.merge c) := by
  rw [merge_merge_eq_iff]
  rintro ⟨-, -, hpath⟩
  exact hc hpath.2.2.2.1 hpath.2.2.1

/-- The layer is what some layers are if they are merged with each other, in whatever grouping. -/
inductive Merged : List KubernetesOutput → KubernetesOutput → Prop
  | none : Merged [] blank
  | single (layer : KubernetesOutput) : Merged [layer] layer
  | both {ls ms : List KubernetesOutput} {l m : KubernetesOutput} (hl : Merged ls l)
      (hm : Merged ms m) : Merged (ls ++ ms) (l.merge m)

/-- One way is to merge them one after the other, from nothing. -/
theorem merged_foldl (layers : List KubernetesOutput) :
    Merged layers (layers.foldl merge blank) := by
  induction layers using List.reverseRecOn with
  | nil => exact .none
  | append_singleton layers layer ih =>
    rw [List.foldl_append]
    exact .both ih (.single layer)

theorem Merged.isTyped {layers : List KubernetesOutput} {layer : KubernetesOutput}
    (h : Merged layers layer) (htyped : ∀ l ∈ layers, l.IsTyped) : layer.IsTyped := by
  induction h with
  | none => exact fun hpath => absurd rfl hpath
  | single layer => exact htyped layer List.mem_cons_self
  | both hl hm ihl ihm =>
    obtain ⟨hls, hms⟩ := List.forall_mem_append.mp htyped
    exact (ihl hls).merge (ihm hms)

/-- Typed layers may be merged in advance. -/
theorem Merged.foldl_merge {layers : List KubernetesOutput} {layer : KubernetesOutput}
    (h : Merged layers layer) (htyped : ∀ l ∈ layers, l.IsTyped) (o : KubernetesOutput) :
    layers.foldl merge o = o.merge layer := by
  induction h generalizing o with
  | none => exact (merge_blank o).symm
  | single layer => rfl
  | both hl hm ihl ihm =>
    obtain ⟨hls, hms⟩ := List.forall_mem_append.mp htyped
    rw [List.foldl_append, ihl hls, ihm hms]
    exact merge_assoc_of_isTyped _ _ (hm.isTyped hms)

/-- **When layers may be merged in advance.**  The grouping of three layers does not count, except
in one case, and in that case it counts for the flag only.  Any number of typed layers at the end
of a list may be replaced by what they are when they are merged, however that is done. -/
theorem merging_in_advance (a b c : KubernetesOutput) :
    ((a.merge b).merge c = a.merge (b.merge c) ↔
      ¬(a.ignoreUnsupportedKinds = true ∧ b.IsSilent ∧ c.IsPathOnly)) ∧
    { (a.merge b).merge c with ignoreUnsupportedKinds := false } =
      { a.merge (b.merge c) with ignoreUnsupportedKinds := false } ∧
    ∀ (p : Plan) (before last : List KubernetesOutput) (layer : KubernetesOutput),
      (∀ l ∈ last, l.IsTyped) → Merged last layer →
        p.applyLayers (before ++ [layer]) = p.applyLayers (before ++ last) := by
  refine ⟨merge_merge_eq_iff a b c, merge_merge_but_flag a b c, ?_⟩
  intro p before last layer htyped h
  have hlast := h.foldl_merge htyped (before.foldl merge p.output)
  rw [Plan.applyLayers, Plan.applyLayers, List.foldl_append, List.foldl_append, hlast]
  rfl

/-- The last layer names a path with its type.  Without the type the last two would be merged to a
layer without an opinion, and the flag would stay raised. -/
theorem merging_in_advance_of_typed_path :
    let p := Plan.new "shop" "Kubernetes"
    let raised : KubernetesOutput := ⟨"", "", ⟨"", ""⟩, true⟩
    let typed : KubernetesOutput := ⟨"", "", ⟨"OpenShift", "clusters"⟩, false⟩
    (∀ l ∈ [blank, typed], l.IsTyped) ∧ Merged [blank, typed] ([blank, typed].foldl merge blank) ∧
      p.applyLayers [raised, [blank, typed].foldl merge blank] =
        p.applyLayers [raised, blank, typed] := by
  intro p raised typed
  have htyped : ∀ l ∈ [blank, typed], l.IsTyped := by
    intro l hl
    rcases List.mem_cons.mp hl with rfl | hl
    · exact fun hpath => absurd rfl hpath
    · obtain rfl := List.mem_singleton.mp hl
      exact fun _ => by decide
  have hmerged := merged_foldl [blank, typed]
  exact ⟨htyped, hmerged,
    (merging_in_advance raised blank typed).2.2 p [raised] [blank, typed] _ htyped hmerged⟩

end KubernetesOutput

namespace Plan

open KubernetesOutput

theorem run_applyOutput (p : Plan) (layers : List KubernetesOutput) :
    p.run (layers.map .applyOutput) = p.applyLayers layers := by
  induction layers generalizing p with
  | nil => rfl
  | cons layer rest ih =>
    rw [List.map_cons, run_cons, ih]
    rfl

/-- **The last opinion wins**, field by field, and nothing but the output changes.  The cluster is
taken as a whole from a layer that names a type, and the flag from a layer with any opinion.
Layers may be applied one at a time, and those without an opinion may come in and go out. -/
theorem last_opinion_wins (p : Plan) (layers : List KubernetesOutput) :
    p.applyLayers layers = { p with output :=
      { registryUrl := (lastWith (fun l => l.registryUrl ≠ "") p.output layers).registryUrl
        registryNamespace :=
          (lastWith (fun l => l.registryNamespace ≠ "") p.output layers).registryNamespace
        cluster := (lastWith (fun l => l.cluster.type ≠ "") p.output layers).cluster
        ignoreUnsupportedKinds :=
          (lastWith (fun l => !l.isBlank) p.output layers).ignoreUnsupportedKinds } } ∧
    p.run (layers.map .applyOutput) = p.applyLayers layers ∧
    ∀ layers', (layers'.filter fun l => !l.isBlank) = (layers.filter fun l => !l.isBlank) →
      p.applyLayers layers' = p.applyLayers layers := by
  refine ⟨?_, run_applyOutput p layers, ?_⟩
  · have hurl := field_foldl_merge registryUrl (fun l => l.registryUrl ≠ "")
      (fun o l => by simp only [merge_eq, decide_eq_true_eq]) p.output layers
    have hnamespace := field_foldl_merge registryNamespace (fun l => l.registryNamespace ≠ "")
      (fun o l => by simp only [merge_eq, decide_eq_true_eq]) p.output layers
    have hcluster := field_foldl_merge cluster (fun l => l.cluster.type ≠ "")
      (fun o l => by simp only [merge_eq, decide_eq_true_eq]) p.output layers
    have hflag := field_foldl_merge ignoreUnsupportedKinds (fun l => !l.isBlank)
      (fun o l => by simp only [merge_eq, Bool.not_eq_true']) p.output layers
    rw [applyLayers]
    refine congrArg (fun o => { p with output := o }) ?_
    exact KubernetesOutput.ext hurl hnamespace hcluster hflag
  · intro layers' h
    rw [applyLayers, applyLayers, ← foldl_merge_filter, h, foldl_merge_filter]

/-- The path of the last layer is dropped, for want of a type; still its flag counts, and the
cluster of the plan stays. -/
theorem last_opinion_wins_of_dropped_path :
    let p := Plan.new "shop" "Kubernetes"
    let first : KubernetesOutput := ⟨"quay.io", "", ⟨"", "clusters"⟩, true⟩
    let last : KubernetesOutput := ⟨"", "", ⟨"", "late"⟩, false⟩
    ([blank, first, last, blank].filter fun l => !l.isBlank) =
        ([first, last].filter fun l => !l.isBlank) ∧
      p.applyLayers [blank, first, last, blank] = p.applyLayers [first, last] ∧
      (p.applyLayers [first, last]).output = ⟨"quay.io", "", ⟨"Kubernetes", ""⟩, false⟩ := by
  intro p first last
  have hfilter : ([blank, first, last, blank].filter fun l => !l.isBlank) =
      ([first, last].filter fun l => !l.isBlank) := by decide
  exact ⟨hfilter, (last_opinion_wins p [first, last]).2.2 _ hfilter, by decide⟩

end Plan
end Replatform
