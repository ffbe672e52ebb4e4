import Replatform.Yaml.Meaning

/-! # What the nodes of a plain graph mean

A graph is plain (`Graph.Plain`) if its nodes are texts, truth values, lists and maps with
distinct texts as keys, and each part has a greater number than the whole.  Its nodes mean what
they are made of (`Graph.Means`): nothing is merged, and no key is another one's equal.

The parts of a collection are looked at a round after the collection has been found.  In between
it waits; so a node that has been found either waits or has its meaning, and its parts have been
found (`Interpret.Found`).  As parts have greater numbers, those that wait have greater numbers
from round to round, and in the end none is left.
-/
namespace Replatform
namespace Yaml

namespace Graph

variable {g : Graph} {id : NodeId}

/-! ## Plain graphs -/

/-- The text that a node is made of. -/
def textOf (g : Graph) (id : NodeId) : String :=
  match (g.node id).content with
  | .scalar s => s
  | _ => ""

/-- The key that a node with a text is. -/
def keyOf (g : Graph) (id : NodeId) : Key := ⟨.text (g.textOf id), some id⟩

/-- The parts of a collection. -/
def parts (g : Graph) (id : NodeId) : List NodeId :=
  match (g.node id).content with
  | .scalar _ => []
  | .sequence ids => ids
  | .mapping es => es.flatMap fun e => [e.1, e.2]

/-- The keys of a map are texts, and no two of them are equal. -/
structure PlainKeys (g : Graph) (es : List (NodeId × NodeId)) : Prop where
  text : ∀ e ∈ es, (g.node e.1).tag = .text ∧ ∃ s, (g.node e.1).content = .scalar s
  distinct : es.Pairwise fun e e' => g.textOf e.1 ≠ g.textOf e'.1

/-- What a node of a plain graph is made of. -/
inductive PlainNode (g : Graph) : Node → Prop
  | text (s : String) : PlainNode g ⟨.text, .scalar s⟩
  | flag {s : String} {b : Bool} (h : readBool s.toList = .ok b) : PlainNode g ⟨.bool, .scalar s⟩
  | list (ids : List NodeId) : PlainNode g ⟨.list, .sequence ids⟩
  | map {es : List (NodeId × NodeId)} (h : PlainKeys g es) : PlainNode g ⟨.map, .mapping es⟩

/-- A graph of texts, truth values, lists and maps.  The first node is no part, and any other is a
part of a node before it. -/
structure Plain (g : Graph) : Prop where
  node : ∀ id < g.size, PlainNode g (g.node id)
  part : ∀ id < g.size, ∀ part ∈ g.parts id, id < part ∧ part < g.size
  whole : ∀ id < g.size, 0 < id → ∃ whole < id, id ∈ g.parts whole

/-- What a node means. -/
inductive Means (g : Graph) (id : NodeId) : Meaning → Prop
  | text {s : String} (h : g.node id = ⟨.text, .scalar s⟩) : Means g id (.scalar ⟨.text s, some id⟩)
  | flag {s : String} {b : Bool} (h : g.node id = ⟨.bool, .scalar s⟩)
    (hb : readBool s.toList = .ok b) : Means g id (.scalar ⟨.bool b, some id⟩)
  | list {ids : List NodeId} (h : g.node id = ⟨.list, .sequence ids⟩) : Means g id (.list ids)
  | map {es : List (NodeId × NodeId)} (h : g.node id = ⟨.map, .mapping es⟩) :
    Means g id (.map (es.map fun e => (g.keyOf e.1, e.2)))

/-- The node is a list or a map. -/
def IsCollection (g : Graph) (id : NodeId) : Prop :=
  (∃ ids, g.node id = ⟨.list, .sequence ids⟩) ∨ ∃ es, g.node id = ⟨.map, .mapping es⟩

/-! ## Merging nothing -/

/-- No node of a plain graph has the merge key or the default key. -/
theorem Plain.tag_ne (h : g.Plain) (id : NodeId) : (g.node id).tag ≠ .merge ∧ (g.node id).tag ≠ .value := by
  by_cases hid : id < g.size
  · have hnode := h.node id hid
    generalize g.node id = node at hnode
    cases hnode <;> simp
  · have hnone : g.nodes[id]? = none := Array.getElem?_eq_none (Nat.not_lt.mp hid)
    rw [Graph.node, hnone]
    exact ⟨by decide, by decide⟩

theorem Plain.merges_eq (h : g.Plain) (e : NodeId × NodeId) : g.merges e = false :=
  decide_eq_false (h.tag_ne e.1).1

theorem Plain.mergeCount_eq (h : g.Plain) : g.mergeCount = 0 := by
  have hcount : ∀ node : Node, node.entries.countP g.merges = 0 := fun node =>
    List.countP_eq_zero.mpr fun e _ => by
      rw [h.merges_eq]
      exact Bool.false_ne_true
  unfold mergeCount
  rw [← Array.foldl_toList]
  generalize g.nodes.toList = nodes
  induction nodes with
  | nil => rfl
  | cons node rest ih => rw [List.foldl_cons, hcount, ih]

theorem Plain.withTextKeys_eq (h : g.Plain) (es : List (NodeId × NodeId)) : g.withTextKeys es = g := by
  unfold withTextKeys
  induction es with
  | nil => rfl
  | cons e rest ih =>
    rw [List.foldl_cons, if_neg (h.tag_ne e.1).2]
    exact ih

/-- The entries of a map are its own. -/
theorem Plain.entries_eq (h : g.Plain) (fuel : Nat) (id : NodeId) :
    (Merging.entries (fuel + 1) id).run g = .ok ((g.node id).entries, g) := by
  have hnone : (g.node id).entries.filter g.merges = [] := List.filter_eq_nil_iff.mpr fun e _ => by
    rw [h.merges_eq]
    exact Bool.false_ne_true
  have hkeys : (Merging.entries (fuel + 1) id).run g =
      .ok ((g.node id).entries, g.withTextKeys (g.node id).entries) := by
    unfold Merging.entries
    rw [StateT.run_bind]
    show StateT.run (if ((g.node id).entries.filter g.merges).isEmpty = true then
      pure (g.node id).entries >>= _ else _) g = _
    rw [hnone]
    rfl
  rw [hkeys, h.withTextKeys_eq]

end Graph

namespace Interpret

open Replatform.Yaml.Graph

variable {g : Graph} {s s' : Interpretation} {id part k : NodeId} {todo : List NodeId}

/-! ## Steps -/

section

variable {α β : Type}

theorem bind_of_ok {m : Interpret α} {a : α} (h : m s = .ok (a, s')) (f : α → Interpret β) :
    (m >>= f) s = f a s' := by
  show (m s >>= fun r => f r.1 r.2) = _
  rw [h]
  rfl

theorem get_bind (f : Interpretation → Interpret β) (s : Interpretation) :
    ((get : Interpret Interpretation) >>= f) s = f s s := rfl

theorem node_bind (id : NodeId) (f : Node → Interpret β) (s : Interpretation) :
    (node id >>= f) s = f (s.graph.node id) s := rfl

theorem meaning?_bind (id : NodeId) (f : Option Meaning → Interpret β) (s : Interpretation) :
    (meaning? id >>= f) s = f (s.meanings[id]?).join s := rfl

end

/-! ## Single nodes -/

/-- The node has been found. -/
def IsFound (s : Interpretation) (id : NodeId) : Prop := ∃ m, s.meanings[id]? = some (some m)

theorem visit_of_isFound (h : IsFound s id) : visit id s = .ok ((), s) := by
  obtain ⟨m, h⟩ := h
  have hjoin : (s.meanings[id]?).join.isSome = true := by
    rw [h]
    rfl
  show (if (s.meanings[id]?).join.isSome = true then pure () else _ : Interpret Unit) s = _
  rw [if_pos hjoin]
  rfl

/-- A node that has not been found is read as its tag says. -/
theorem visit_of_not_isFound (h : ¬IsFound s id) : visit id s =
    (match (s.graph.node id).tag with
      | .list => visit.wait id (.list [])
      | .orderedMap => visit.wait id (.pairs [])
      | .pairs => visit.wait id (.pairs [])
      | .map => visit.wait id (.map [])
      | .set => visit.wait id (.set [])
      | _ => do note id (← scalar id) : Interpret Unit) s := by
  have hjoin : ¬(s.meanings[id]?).join.isSome = true := fun hsome => by
    obtain ⟨m, hm⟩ := Option.isSome_iff_exists.mp hsome
    exact h ⟨m, Option.join_eq_some_iff.mp hm⟩
  show (if (s.meanings[id]?).join.isSome = true then pure () else _ : Interpret Unit) s = _
  rw [if_neg hjoin]
  rfl

/-- The state in which a node has been found to mean something. -/
def noted (s : Interpretation) (id : NodeId) (m : Meaning) : Interpretation :=
  { s with meanings := s.meanings.setIfInBounds id (some m) }

theorem scalar_eq {tag : Tag} {t : String} {v : Value} (hchain : 0 < s.chain)
    (h : s.graph.node id = ⟨tag, .scalar t⟩) (htag : tag = .text ∨ tag = .bool)
    (hv : readScalar tag t = .ok v) :
    scalar id s = .ok (.scalar ⟨v, some id⟩, s) := by
  obtain ⟨fuel, hfuel⟩ : ∃ fuel, min (s.graph.size + 1) s.chain = fuel + 1 :=
    ⟨min s.graph.size (s.chain - 1), by omega⟩
  have htext : text s.graph (fuel + 1) id = .ok t := by rw [text, h]
  unfold scalar
  rw [get_bind]
  dsimp only
  rw [h, hfuel, htext]
  -- neither kind is checked for anything else
  obtain rfl | rfl := htag
  · show ((readScalar .text t >>= fun v => .ok (v, s)) >>= fun r =>
      .ok (Meaning.scalar ⟨r.1, some id⟩, r.2)) = _
    rw [hv]
    rfl
  · show ((readScalar .bool t >>= fun v => .ok (v, s)) >>= fun r =>
      .ok (Meaning.scalar ⟨r.1, some id⟩, r.2)) = _
    rw [hv]
    rfl

theorem visit_scalar {tag : Tag} {t : String} {v : Value} (hchain : 0 < s.chain)
    (hfound : ¬IsFound s id) (h : s.graph.node id = ⟨tag, .scalar t⟩) (htag : tag = .text ∨ tag = .bool)
    (hv : readScalar tag t = .ok v) :
    visit id s = .ok ((), noted s id (.scalar ⟨v, some id⟩)) := by
  have hscalar := scalar_eq hchain h htag hv
  have hvisit : visit id s = (do note id (← scalar id) : Interpret Unit) s := by
    rw [visit_of_not_isFound hfound, h]
    obtain rfl | rfl := htag <;> rfl
  rw [hvisit]
  show (scalar id s >>= fun r => note id r.1 r.2) = _
  rw [hscalar]
  rfl

theorem visit_list {ids : List NodeId} (hfound : ¬IsFound s id)
    (h : s.graph.node id = ⟨.list, .sequence ids⟩) :
    visit id s = .ok ((), { noted s id (.list []) with waiting := id :: s.waiting }) := by
  rw [visit_of_not_isFound hfound, h]
  rfl

theorem visit_map {es : List (NodeId × NodeId)} (hfound : ¬IsFound s id)
    (h : s.graph.node id = ⟨.map, .mapping es⟩) :
    visit id s = .ok ((), { noted s id (.map []) with waiting := id :: s.waiting }) := by
  rw [visit_of_not_isFound hfound, h]
  rfl

/-! ## What has been found -/

/-- How far a plain graph is known: a node that has been found either has to be looked at still,
waits for the next round, or has its meaning, and its parts have been found.  In round `k` the
nodes that wait have at least this number. -/
structure Found (g : Graph) (k : Nat) (todo : List NodeId) (s : Interpretation) : Prop where
  graph : s.graph = g
  mergeKeys : s.mergeKeys = 0
  chain : 0 < s.chain
  size : s.meanings.size = g.size
  means : ∀ id m, s.meanings[id]? = some (some m) → id ∈ todo ∨ id ∈ s.waiting ∨
    g.Means id m ∧ ∀ part ∈ g.parts id, IsFound s part
  collection : ∀ id, id ∈ todo ∨ id ∈ s.waiting → id < g.size ∧ g.IsCollection id
  todo_le : ∀ id ∈ todo, k ≤ id + 1
  waiting_le : ∀ id ∈ s.waiting, k ≤ id

/-- What was found before is found still. -/
def Keeps (s s' : Interpretation) : Prop := ∀ id, IsFound s id → IsFound s' id

theorem keeps_refl (s : Interpretation) : Keeps s s := fun _ h => h

theorem Keeps.trans {s'' : Interpretation} (h : Keeps s s') (h' : Keeps s' s'') : Keeps s s'' :=
  fun id hid => h' id (h id hid)

theorem getElem?_noted (hid : id < s.meanings.size) (m : Meaning) (i : NodeId) :
    (noted s id m).meanings[i]? = if i = id then some (some m) else s.meanings[i]? := by
  show (s.meanings.setIfInBounds id (some m))[i]? = _
  rw [Array.getElem?_setIfInBounds]
  by_cases h : i = id
  · rw [if_pos h, if_pos h.symm, if_pos (h ▸ hid)]
  · rw [if_neg h, if_neg (Ne.symm h)]

theorem isFound_noted (hid : id < s.meanings.size) (m : Meaning) : IsFound (noted s id m) id :=
  ⟨m, by rw [getElem?_noted hid, if_pos rfl]⟩

theorem keeps_noted (hid : id < s.meanings.size) (m : Meaning) : Keeps s (noted s id m) := by
  rintro i ⟨m', hm'⟩
  by_cases h : i = id
  · subst h
    exact isFound_noted hid m
  · exact ⟨m', by rw [getElem?_noted hid, if_neg h, hm']⟩

/-- A node may be noted with its meaning if its parts have been found, or as one that waits. -/
theorem Found.noted (h : Found g k todo s) (hid : id < g.size) (m : Meaning) {waiting : List NodeId}
    (hwaiting : waiting = s.waiting ∧ g.Means id m ∧ (∀ part ∈ g.parts id, IsFound s part) ∨
      waiting = id :: s.waiting ∧ g.IsCollection id ∧ k ≤ id) {todo' : List NodeId}
    (htodo : ∀ i ∈ todo', i ∈ todo) (htodo' : ∀ i ∈ todo, i ≠ id → i ∈ todo') :
    Found g k todo' { noted s id m with waiting := waiting } := by
  have hsize : id < s.meanings.size := h.size.symm ▸ hid
  have hmem : ∀ i ∈ s.waiting, i ∈ waiting := by
    obtain ⟨rfl, -⟩ | ⟨rfl, -⟩ := hwaiting
    · exact fun _ hi => hi
    · exact fun _ hi => List.mem_cons_of_mem _ hi
  have hkeeps := keeps_noted hsize m
  refine ⟨h.graph, h.mergeKeys, h.chain, ?_, ?_, ?_, fun i hi => h.todo_le i (htodo i hi), ?_⟩
  · exact (Array.size_setIfInBounds).trans h.size
  · intro i m' hm'
    have hm' : (Interpret.noted s id m).meanings[i]? = some (some m') := hm'
    -- the node itself has its meaning or waits; any other one is as it was
    rw [getElem?_noted hsize] at hm'
    by_cases hi : i = id
    · subst hi
      rw [if_pos rfl] at hm'
      obtain rfl := Option.some.inj (Option.some.inj hm')
      obtain ⟨-, hmeans, hparts⟩ | ⟨rfl, -⟩ := hwaiting
      · exact .inr (.inr ⟨hmeans, fun part hpart => hkeeps part (hparts part hpart)⟩)
      · exact .inr (.inl List.mem_cons_self)
    · rw [if_neg hi] at hm'
      obtain hi' | hi' | ⟨hmeans, hparts⟩ := h.means i m' hm'
      · exact .inl (htodo' i hi' hi)
      · exact .inr (.inl (hmem i hi'))
      · exact .inr (.inr ⟨hmeans, fun part hpart => hkeeps part (hparts part hpart)⟩)
  · intro i hi
    obtain hi | hi := hi
    · exact h.collection i (.inl (htodo i hi))
    · obtain ⟨rfl, -⟩ | ⟨rfl, hcollection, -⟩ := hwaiting
      · exact h.collection i (.inr hi)
      · obtain rfl | hi := List.mem_cons.mp hi
        · exact ⟨hid, hcollection⟩
        · exact h.collection i (.inr hi)
  · intro i hi
    obtain ⟨rfl, -⟩ | ⟨rfl, -, hk⟩ := hwaiting
    · exact h.waiting_le i hi
    · obtain rfl | hi := List.mem_cons.mp hi
      · exact hk
      · exact h.waiting_le i hi

/-- **A node can be found at any time.** -/
theorem Found.visit (hg : g.Plain) (h : Found g k todo s) (hid : id < g.size) (hk : k ≤ id) :
    ∃ s', Interpret.visit id s = .ok ((), s') ∧ Found g k todo s' ∧ Keeps s s' ∧ IsFound s' id := by
  have hsize : id < s.meanings.size := h.size.symm ▸ hid
  by_cases hfound : IsFound s id
  · exact ⟨s, visit_of_isFound hfound, h, keeps_refl s, hfound⟩
  · have hkeeps := fun m => keeps_noted hsize m
    have hfoundId := fun m => isFound_noted hsize m
    have hsame : ∀ i ∈ todo, i ≠ id → i ∈ todo := fun _ hi _ => hi
    have hnode := hg.node id hid
    generalize hn : g.node id = n at hnode
    have hn' : s.graph.node id = n := h.graph.symm ▸ hn
    cases hnode with
    | text t =>
      have hparts : g.parts id = [] := by rw [parts, hn]
      refine ⟨_, visit_scalar h.chain hfound hn' (.inl rfl) rfl, ?_, hkeeps _, hfoundId _⟩
      exact h.noted hid _ (.inl ⟨rfl, .text hn, fun part hpart => by rw [hparts] at hpart; cases hpart⟩)
        (fun _ hi => hi) hsame
    | @flag t b hb =>
      have hparts : g.parts id = [] := by rw [parts, hn]
      have hv : readScalar .bool t = .ok (.bool b) := by rw [readScalar, hb]; rfl
      refine ⟨_, visit_scalar h.chain hfound hn' (.inr rfl) hv, ?_, hkeeps _, hfoundId _⟩
      exact h.noted hid _ (.inl ⟨rfl, .flag hn hb, fun part hpart => by rw [hparts] at hpart; cases hpart⟩)
        (fun _ hi => hi) hsame
    | list ids =>
      exact ⟨_, visit_list hfound hn', h.noted hid _ (.inr ⟨rfl, .inl ⟨ids, hn⟩, hk⟩) (fun _ hi => hi) hsame,
        hkeeps _, hfoundId _⟩
    | @map es _ =>
      exact ⟨_, visit_map hfound hn', h.noted hid _ (.inr ⟨rfl, .inr ⟨es, hn⟩, hk⟩) (fun _ hi => hi) hsame,
        hkeeps _, hfoundId _⟩

/-- Several nodes can be found one behind the other. -/
theorem Found.visits (hg : g.Plain) {ids : List NodeId} (h : Found g k todo s)
    (hids : ∀ i ∈ ids, i < g.size ∧ k ≤ i) :
    ∃ s', ids.forM Interpret.visit s = .ok ((), s') ∧ Found g k todo s' ∧ Keeps s s' ∧
      ∀ i ∈ ids, IsFound s' i := by
  induction ids generalizing s with
  | nil => exact ⟨s, rfl, h, keeps_refl s, fun _ hi => absurd hi List.not_mem_nil⟩
  | cons i rest ih =>
    obtain ⟨hi, hk⟩ := hids i List.mem_cons_self
    obtain ⟨s₁, hvisit, h₁, hkeeps₁, hfound⟩ := h.visit hg hi hk
    obtain ⟨s₂, hrest, h₂, hkeeps₂, hfound'⟩ :=
      ih h₁ fun j hj => hids j (List.mem_cons_of_mem i hj)
    refine ⟨s₂, ?_, h₂, hkeeps₁.trans hkeeps₂, List.forall_mem_cons.mpr ⟨hkeeps₂ i hfound, hfound'⟩⟩
    show (Interpret.visit i s >>= fun r => rest.forM Interpret.visit r.2) = _
    rw [hvisit]
    exact hrest

/-! ## Keys -/

theorem means_text {t : String} {m : Meaning} (h : g.node id = ⟨.text, .scalar t⟩) (hm : g.Means id m) :
    m = .scalar (g.keyOf id) := by
  cases hm with
  | @text t' h' =>
    rw [keyOf, textOf, h']
  | flag h' =>
    rw [h] at h'
    cases h'
  | list h' =>
    rw [h] at h'
    cases h'
  | map h' =>
    rw [h] at h'
    cases h'

/-- A text is found as a key. -/
theorem Found.key (hg : g.Plain) (h : Found g k todo s) (hid : id < g.size) (hk : k ≤ id) {t : String}
    (htext : g.node id = ⟨.text, .scalar t⟩) :
    ∃ s', Interpret.key id s = .ok (g.keyOf id, s') ∧ Found g k todo s' ∧ Keeps s s' ∧ IsFound s' id := by
  obtain ⟨s', hvisit, h', hkeeps, m, hm⟩ := h.visit hg hid hk
  refine ⟨s', ?_, h', hkeeps, m, hm⟩
  have hscalar : ¬g.IsCollection id := by
    rintro (⟨ids, hids⟩ | ⟨es, hes⟩)
    · rw [htext] at hids
      cases hids
    · rw [htext] at hes
      cases hes
  have hmeans : m = .scalar (g.keyOf id) := by
    obtain hi | hi | ⟨hm', -⟩ := h'.means id m hm
    · exact absurd (h'.collection id (.inl hi)).2 hscalar
    · exact absurd (h'.collection id (.inr hi)).2 hscalar
    · exact means_text htext hm'
  unfold Interpret.key
  rw [bind_of_ok hvisit, meaning?_bind, hm, hmeans]
  rfl

/-- A key that is like none of those in front comes at the end. -/
theorem insert_of_distinct {es : List (NodeId × NodeId)} (v : NodeId)
    (h : ∀ e ∈ es, g.textOf e.1 ≠ g.textOf id) :
    Key.insert (g.keyOf id) v (es.map fun e => (g.keyOf e.1, e.2)) =
      (es ++ [(id, v)]).map fun e => (g.keyOf e.1, e.2) := by
  induction es with
  | nil => rfl
  | cons e rest ih =>
    obtain ⟨he, hrest⟩ := List.forall_mem_cons.mp h
    have hsame : ¬(g.keyOf e.1).same (g.keyOf id) = true := by
      simpa [keyOf, Key.same, Value.sameKey, Value.isNaN] using he
    rw [List.map_cons, Key.insert, if_neg hsame, ih hrest]
    rfl

/-- Finds the key and the value of an entry. -/
def addEntry (m : List (Key × NodeId)) (e : NodeId × NodeId) : Interpret (List (Key × NodeId)) := do
  let k ← key e.1
  visit e.2
  return Key.insert k e.2 m

/-- The entries of a map are taken in their order. -/
theorem Found.folds (hg : g.Plain) {es : List (NodeId × NodeId)} {done : List (NodeId × NodeId)}
    (h : Found g k todo s) (hes : ∀ e ∈ es, (e.1 < g.size ∧ k ≤ e.1) ∧ e.2 < g.size ∧ k ≤ e.2)
    (hkeys : PlainKeys g (done ++ es)) :
    ∃ s', es.foldlM addEntry (done.map fun e => (g.keyOf e.1, e.2)) s =
        .ok ((done ++ es).map fun e => (g.keyOf e.1, e.2), s') ∧
      Found g k todo s' ∧ Keeps s s' ∧ ∀ e ∈ es, IsFound s' e.1 ∧ IsFound s' e.2 := by
  induction es generalizing s done with
  | nil =>
    rw [List.append_nil]
    exact ⟨s, rfl, h, keeps_refl s, fun _ he => absurd he List.not_mem_nil⟩
  | cons e rest ih =>
    obtain ⟨⟨⟨hkey, hkeyLe⟩, hvalue, hvalueLe⟩, hrest⟩ := List.forall_mem_cons.mp hes
    obtain ⟨htag, t, hcontent⟩ := hkeys.text e (List.mem_append_right done List.mem_cons_self)
    have htext : g.node e.1 = ⟨.text, .scalar t⟩ := by
      cases hn : g.node e.1
      rw [hn] at htag hcontent
      rw [← htag, ← hcontent]
    have hdistinct : ∀ e' ∈ done, g.textOf e'.1 ≠ g.textOf e.1 := fun e' he' =>
      (List.pairwise_append.mp hkeys.distinct).2.2 e' he' e List.mem_cons_self
    obtain ⟨s₁, hkeyStep, h₁, hkeeps₁, hfound₁⟩ := h.key hg hkey hkeyLe htext
    obtain ⟨s₂, hvalueStep, h₂, hkeeps₂, hfound₂⟩ := h₁.visit hg hvalue hvalueLe
    have hkeys' : PlainKeys g (done ++ [e] ++ rest) := by rwa [List.append_assoc]
    obtain ⟨s₃, hfold, h₃, hkeeps₃, hfound₃⟩ := ih h₂ hrest hkeys'
    refine ⟨s₃, ?_, h₃, hkeeps₁.trans (hkeeps₂.trans hkeeps₃), List.forall_mem_cons.mpr
      ⟨⟨hkeeps₃ _ (hkeeps₂ _ hfound₁), hkeeps₃ _ hfound₂⟩, hfound₃⟩⟩
    rw [List.append_assoc] at hfold
    rw [List.foldlM_cons]
    show ((Interpret.key e.1 s >>= fun r => Interpret.visit e.2 r.2 >>= fun r' =>
      pure (Key.insert r.1 e.2 (done.map fun e => (g.keyOf e.1, e.2)), r'.2)) >>= fun r =>
        rest.foldlM addEntry r.1 r.2) = _
    rw [hkeyStep]
    show ((Interpret.visit e.2 s₁ >>= fun r' =>
      pure (Key.insert (g.keyOf e.1) e.2 (done.map fun e => (g.keyOf e.1, e.2)), r'.2)) >>= fun r =>
        rest.foldlM addEntry r.1 r.2) = _
    rw [hvalueStep, insert_of_distinct e.2 hdistinct]
    exact hfold

/-! ## Collections -/

/-- The entries of a map. -/
theorem Found.entries (hg : g.Plain) (h : Found g k todo s) {es : List (NodeId × NodeId)}
    (hmap : g.node id = ⟨.map, .mapping es⟩)
    (hes : ∀ e ∈ es, (e.1 < g.size ∧ k ≤ e.1) ∧ e.2 < g.size ∧ k ≤ e.2) (hkeys : PlainKeys g es) :
    ∃ s', Interpret.entries id s = .ok (es.map fun e => (g.keyOf e.1, e.2), s') ∧
      Found g k todo s' ∧ Keeps s s' ∧ ∀ e ∈ es, IsFound s' e.1 ∧ IsFound s' e.2 := by
  obtain ⟨s', hfold, h', hkeeps, hfound⟩ := @Found.folds g s k todo hg es [] h hes hkeys
  refine ⟨s', ?_, h', hkeeps, hfound⟩
  have hmapping : (g.node id).isMapping = true := by rw [hmap]; rfl
  have hentries : (g.node id).entries = es := by rw [hmap]; rfl
  have hmerge := hg.entries_eq 0 id
  rw [hentries] at hmerge
  have hfuel : min (0 + 1) s.chain = 1 := Nat.min_eq_left h.chain
  obtain ⟨graph, mergeKeys, chain, meanings, waiting⟩ := s
  obtain rfl : graph = g := h.graph
  obtain rfl : mergeKeys = 0 := h.mergeKeys
  unfold Interpret.entries
  show (if (!(graph.node id).isMapping) = true then throw .malformed else _ : Interpret _)
    ⟨graph, 0, chain, meanings, waiting⟩ = _
  rw [hmapping, if_neg (by decide)]
  show ((liftM ((Merging.entries (min (0 + 1) chain) id).run graph) :
      Interpret (List (NodeId × NodeId) × Graph)) ⟨graph, 0, chain, meanings, waiting⟩ >>= fun r =>
        r.1.1.foldlM addEntry [] ⟨r.1.2, 0, chain, meanings, waiting⟩) = _
  rw [hfuel, hmerge]
  exact hfold

theorem fill_list {ids : List NodeId} (hn : s.graph.node id = ⟨.list, .sequence ids⟩)
    (hvisits : ids.forM visit s = .ok ((), s')) :
    fill id s = .ok ((), noted s' id (.list ids)) := by
  have hitems : items id s = .ok (ids, s) := by
    unfold items
    rw [node_bind, hn]
    rfl
  have hfill : fill id s = (items id >>= fun ids => do ids.forM visit; note id (.list ids)) s := by
    unfold fill
    rw [node_bind, hn]
  rw [hfill, bind_of_ok hitems, bind_of_ok hvisits]
  rfl

theorem fill_map {es : List (NodeId × NodeId)} {m : List (Key × NodeId)}
    (hn : s.graph.node id = ⟨.map, .mapping es⟩) (hentries : entries id s = .ok (m, s')) :
    fill id s = .ok ((), noted s' id (.map m)) := by
  have hfill : fill id s = (entries id >>= fun es => note id (.map es)) s := by
    unfold fill
    rw [node_bind, hn]
  rw [hfill, bind_of_ok hentries]
  rfl

/-- A collection is known when its parts have been found. -/
theorem Found.known (h : Found g k (id :: todo) s) (hid : id < g.size) {m : Meaning}
    (hmeans : g.Means id m) (hparts : ∀ part ∈ g.parts id, IsFound s part) :
    Found g k todo (Interpret.noted s id m) :=
  h.noted hid m (.inl ⟨rfl, hmeans, hparts⟩) (fun _ hi => List.mem_cons_of_mem id hi)
    fun _ hi hne => (List.mem_cons.mp hi).resolve_left hne

/-- The parts of a collection are looked at, which is known then. -/
theorem Found.fill (hg : g.Plain) (h : Found g k (id :: todo) s) :
    ∃ s', Interpret.fill id s = .ok ((), s') ∧ Found g k todo s' ∧ Keeps s s' := by
  obtain ⟨hid, hcollection⟩ := h.collection id (.inl List.mem_cons_self)
  have hk := h.todo_le id List.mem_cons_self
  have hpart : ∀ part ∈ g.parts id, part < g.size ∧ k ≤ part := fun part hpart => by
    obtain ⟨hlt, hsize⟩ := hg.part id hid part hpart
    exact ⟨hsize, Nat.le_trans hk hlt⟩
  obtain ⟨ids, hn⟩ | ⟨es, hn⟩ := hcollection
  · have hparts : g.parts id = ids := by rw [parts, hn]
    obtain ⟨s', hvisits, h', hkeeps, hfound⟩ := h.visits hg (hparts ▸ hpart)
    have hsize : id < s'.meanings.size := h'.size.symm ▸ hid
    exact ⟨_, fill_list (h.graph.symm ▸ hn) hvisits, h'.known hid (.list hn) (hparts.symm ▸ hfound),
      hkeeps.trans (keeps_noted hsize _)⟩
  · have hparts : g.parts id = es.flatMap fun e => [e.1, e.2] := by rw [parts, hn]
    have hkeys : PlainKeys g es := by
      have hnode := hg.node id hid
      rw [hn] at hnode
      cases hnode with
      | map h => exact h
    have hes : ∀ e ∈ es, e.1 ∈ g.parts id ∧ e.2 ∈ g.parts id := fun e he => by
      rw [hparts]
      exact ⟨List.mem_flatMap.mpr ⟨e, he, List.mem_cons_self⟩,
        List.mem_flatMap.mpr ⟨e, he, List.mem_cons_of_mem _ List.mem_cons_self⟩⟩
    obtain ⟨s', hentries, h', hkeeps, hfound⟩ := h.entries hg hn
      (fun e he => ⟨hpart _ (hes e he).1, hpart _ (hes e he).2⟩) hkeys
    have hsize : id < s'.meanings.size := h'.size.symm ▸ hid
    have hfound' : ∀ part ∈ g.parts id, IsFound s' part := by
      rw [hparts]
      intro part hpart
      obtain ⟨e, he, hpart⟩ := List.mem_flatMap.mp hpart
      obtain rfl | hpart := List.mem_cons.mp hpart
      · exact (hfound e he).1
      · rw [List.mem_singleton.mp hpart]
        exact (hfound e he).2
    exact ⟨_, fill_map (h.graph.symm ▸ hn) hentries, h'.known hid (.map hn) hfound',
      hkeeps.trans (keeps_noted hsize _)⟩

/-! ## Rounds -/

/-- All collections that were found before a round are looked at. -/
theorem Found.fills (hg : g.Plain) (h : Found g k todo s) :
    ∃ s', todo.forM Interpret.fill s = .ok ((), s') ∧ Found g k [] s' ∧ Keeps s s' := by
  induction todo generalizing s with
  | nil => exact ⟨s, rfl, h, keeps_refl s⟩
  | cons id rest ih =>
    obtain ⟨s₁, hfill, h₁, hkeeps₁⟩ := h.fill hg
    obtain ⟨s₂, hrest, h₂, hkeeps₂⟩ := ih h₁
    refine ⟨s₂, ?_, h₂, hkeeps₁.trans hkeeps₂⟩
    show (Interpret.fill id s >>= fun r => rest.forM Interpret.fill r.2) = _
    rw [hfill]
    exact hrest

/-- Those that wait are those to look at in the next round. -/
theorem Found.next (h : Found g k [] s) :
    Found g (k + 1) s.waiting.reverse { s with waiting := [] } where
  graph := h.graph
  mergeKeys := h.mergeKeys
  chain := h.chain
  size := h.size
  means := fun id m hm => by
    obtain hid | hid | hmeans := h.means id m hm
    · cases hid
    · exact .inl (List.mem_reverse.mpr hid)
    · exact .inr (.inr hmeans)
  collection := fun id hid => by
    obtain hid | hid := hid
    · exact h.collection id (.inr (List.mem_reverse.mp hid))
    · cases hid
  todo_le := fun id hid => Nat.succ_le_succ (h.waiting_le id (List.mem_reverse.mp hid))
  waiting_le := fun _ hid => by cases hid

/-- **In the end no collection waits.** -/
theorem Found.rounds (hg : g.Plain) (fuel : Nat) (h : Found g k [] s) (hfuel : g.size ≤ fuel + k) :
    ∃ s' k', Interpret.rounds fuel s = .ok ((), s') ∧ Found g k' [] s' ∧ s'.waiting = [] ∧ Keeps s s' := by
  induction fuel generalizing k s with
  | zero =>
    -- no node has the number that one would have to have
    have hnone : s.waiting = [] := by
      refine List.eq_nil_iff_forall_not_mem.mpr fun id hid => ?_
      have hlt := (h.collection id (.inr hid)).1
      have hle := h.waiting_le id hid
      rw [Nat.zero_add] at hfuel
      exact absurd (Nat.lt_of_lt_of_le hlt hfuel) (Nat.not_lt.mpr hle)
    exact ⟨s, k, rfl, h, hnone, keeps_refl s⟩
  | succ fuel ih =>
    by_cases hnone : s.waiting = []
    · refine ⟨s, k, ?_, h, hnone, keeps_refl s⟩
      unfold Interpret.rounds
      show (if s.waiting.reverse.isEmpty = true then pure () else _ : Interpret Unit) s = _
      rw [hnone]
      rfl
    · have hsome : ¬s.waiting.reverse.isEmpty = true := by simpa using hnone
      obtain ⟨s₁, hfills, h₁, hkeeps₁⟩ := h.next.fills hg
      obtain ⟨s₂, k', hrounds, h₂, hwaiting, hkeeps₂⟩ := ih h₁ (by rwa [Nat.add_right_comm, Nat.add_assoc] at hfuel)
      refine ⟨s₂, k', ?_, h₂, hwaiting, fun id hid => hkeeps₂ id (hkeeps₁ id hid)⟩
      unfold Interpret.rounds
      show (if s.waiting.reverse.isEmpty = true then pure () else _ : Interpret Unit) s = _
      rw [if_neg hsome]
      show (s.waiting.reverse.forM Interpret.fill { s with waiting := [] } >>= fun r =>
        Interpret.rounds fuel r.2) = _
      rw [hfills]
      exact hrounds

/-- At the start nothing has been found. -/
theorem found_start (hg : g.Plain) {chain : Nat} (hchain : 0 < chain) :
    Found g 0 [] ⟨g, g.mergeCount, chain, Array.replicate g.size none, []⟩ where
  graph := rfl
  mergeKeys := hg.mergeCount_eq
  chain := hchain
  size := Array.size_replicate
  means := fun id m hm => by
    rw [Array.getElem?_replicate] at hm
    split at hm <;> cases hm
  collection := fun _ hid => absurd (or_self_iff.mp hid) List.not_mem_nil
  todo_le := fun _ hid => by cases hid
  waiting_le := fun _ hid => by cases hid

/-- When nothing waits, what has been found has its meaning. -/
theorem Found.means_of_done (h : Found g k [] s) (hwaiting : s.waiting = []) {m : Meaning}
    (hm : s.meanings[id]? = some (some m)) :
    g.Means id m ∧ ∀ part ∈ g.parts id, IsFound s part := by
  obtain hid | hid | hmeans := h.means id m hm
  · cases hid
  · rw [hwaiting] at hid
    cases hid
  · exact hmeans

/-- When nothing waits, all nodes have been found: each is a part of one before it. -/
theorem Found.isFound (hg : g.Plain) (h : Found g k [] s) (hwaiting : s.waiting = [])
    (hfirst : IsFound s 0) : ∀ id < g.size, IsFound s id := by
  intro id
  induction id using Nat.strongRecOn with
  | _ id ih =>
    intro hid
    by_cases hzero : id = 0
    · rwa [hzero]
    · obtain ⟨whole, hlt, hpart⟩ := hg.whole id hid (Nat.pos_of_ne_zero hzero)
      obtain ⟨m, hm⟩ := ih whole hlt (Nat.lt_trans hlt hid)
      exact (h.means_of_done hwaiting hm).2 id hpart

end Interpret

open Interpret in
/-- **The nodes of a plain graph mean what they are made of.** -/
theorem meanings_of_plain {chain : Nat} {p : Parsed} (hchain : 0 < chain) (hg : p.graph.Plain)
    (htop : p.top = 0) (hsize : 0 < p.graph.size) :
    ∃ meanings, p.meanings chain = .ok meanings ∧ meanings.size = p.graph.size ∧
      ∀ id < p.graph.size, ∃ m, meanings[id]? = some (some m) ∧ p.graph.Means id m := by
  obtain ⟨s₁, hvisit, h₁, -, hfound⟩ := (found_start hg hchain).visit hg hsize (Nat.zero_le 0)
  obtain ⟨s₂, k, hrounds, h₂, hwaiting, hkeeps⟩ := h₁.rounds hg (p.graph.size + 1) (Nat.le_succ _)
  have hmeanings : p.meanings chain = .ok s₂.meanings := by
    unfold Parsed.meanings
    rw [htop]
    show ((visit 0 ⟨p.graph, p.graph.mergeCount, chain, Array.replicate p.graph.size none, []⟩ >>= fun r =>
      rounds (p.graph.size + 1) r.2) >>= fun r => pure r.2.meanings) = _
    rw [hvisit]
    show (rounds (p.graph.size + 1) s₁ >>= fun r => pure r.2.meanings) = _
    rw [hrounds]
    rfl
  refine ⟨s₂.meanings, hmeanings, h₂.size, fun id hid => ?_⟩
  obtain ⟨m, hm⟩ := h₂.isFound hg hwaiting (hkeeps 0 hfound) id hid
  exact ⟨m, hm, (h₂.means_of_done hwaiting hm).1⟩

end Yaml
end Replatform
