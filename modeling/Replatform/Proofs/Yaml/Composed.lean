import Replatform.Proofs.Yaml.Scanned
import Replatform.Yaml.Composition

/-! # Composing a tree

The tokens of a tree are composed to nodes that stand in the order of the tree, each collection
in front of its parts; it is complete when they are.  The parser is followed step by step: a step
takes its tokens, adds its nodes and leaves the rest (`Composes`), and two steps one behind the
other do so with what both take and add.
-/
namespace Replatform
namespace Yaml

namespace Tree

/-! ## The nodes of a tree -/

mutual

/-- The number of nodes of a tree. -/
def nodeCount : Tree → Nat
  | .text _ => 1
  | .flag _ => 1
  | .list ts => itemCount ts + 1
  | .map es => entryCount es + 1

def itemCount : List Tree → Nat
  | [] => 0
  | t :: rest => nodeCount t + itemCount rest

def entryCount : List (String × Tree) → Nat
  | [] => 0
  | (_, t) :: rest => 1 + nodeCount t + entryCount rest

end

/-- The numbers of the items of a list, from a number on. -/
def itemIds (n : NodeId) : List Tree → List NodeId
  | [] => []
  | t :: rest => n :: itemIds (n + nodeCount t) rest

/-- The numbers of the keys and values of a map. -/
def entryIds (n : NodeId) : List (String × Tree) → List (NodeId × NodeId)
  | [] => []
  | (_, t) :: rest => (n, n + 1) :: entryIds (n + 1 + nodeCount t) rest

/-- The node of a text. -/
def textNode (s : String) : Node := ⟨.text, .scalar (Text.canonical s)⟩

mutual

/-- The nodes of a tree by number, from a number on. -/
def nodes (n : NodeId) : Tree → List Node
  | .text s => [textNode s]
  | .flag b => [⟨.bool, .scalar (String.ofList (flagText b))⟩]
  | .list ts => ⟨.list, .sequence (itemIds (n + 1) ts)⟩ :: itemNodes (n + 1) ts
  | .map es => ⟨.map, .mapping (entryIds (n + 1) es)⟩ :: entryNodes (n + 1) es

def itemNodes (n : NodeId) : List Tree → List Node
  | [] => []
  | t :: rest => nodes n t ++ itemNodes (n + nodeCount t) rest

def entryNodes (n : NodeId) : List (String × Tree) → List Node
  | [] => []
  | (k, t) :: rest => textNode k :: nodes (n + 1) t ++ entryNodes (n + 1 + nodeCount t) rest

end

mutual

/-- The nodes of a tree in the order in which they are complete. -/
def order (n : NodeId) : Tree → List NodeId
  | .text _ => [n]
  | .flag _ => [n]
  | .list ts => itemOrder (n + 1) ts ++ [n]
  | .map es => entryOrder (n + 1) es ++ [n]

def itemOrder (n : NodeId) : List Tree → List NodeId
  | [] => []
  | t :: rest => order n t ++ itemOrder (n + nodeCount t) rest

def entryOrder (n : NodeId) : List (String × Tree) → List NodeId
  | [] => []
  | (_, t) :: rest => n :: order (n + 1) t ++ entryOrder (n + 1 + nodeCount t) rest

end

mutual

theorem length_nodes (n : NodeId) : ∀ t, (nodes n t).length = nodeCount t
  | .text _ => by rw [nodes, nodeCount]; rfl
  | .flag _ => by rw [nodes, nodeCount]; rfl
  | .list ts => by rw [nodes, nodeCount, List.length_cons, length_itemNodes]
  | .map es => by rw [nodes, nodeCount, List.length_cons, length_entryNodes]

theorem length_itemNodes (n : NodeId) : ∀ ts, (itemNodes n ts).length = itemCount ts
  | [] => by rw [itemNodes, itemCount]; rfl
  | t :: rest => by rw [itemNodes, itemCount, List.length_append, length_nodes, length_itemNodes]

theorem length_entryNodes (n : NodeId) : ∀ es, (entryNodes n es).length = entryCount es
  | [] => by rw [entryNodes, entryCount]; rfl
  | (k, t) :: rest => by
    rw [entryNodes, entryCount, List.length_append, List.length_cons, length_nodes,
      length_entryNodes, Nat.add_comm 1]

end

end Tree

namespace Compose

open Scan (scalarToken)

/-! ## Steps -/

/-- A composition without names, directives and faults. -/
def composing (tokens : List Token) (nodes : List Node) (complete : List NodeId) (left : Nat) :
    Composition :=
  ⟨tokens, none, standardHandles, [], ⟨nodes.toArray⟩, complete, left⟩

/-- A step takes `tokens` and leaves `rest`; with `n` nodes before, it adds nodes and completes
some.  It opens no more than `room` collections inside one another. -/
def Composes {α : Type} (m : Compose α) (room : Nat) (tokens rest : List Token) (n : NodeId) (a : α)
    (more : List Node) (done : List NodeId) : Prop :=
  ∀ nodes complete left, nodes.length = n → room ≤ left →
    m (composing (tokens ++ rest) nodes complete left) =
      .ok (a, composing rest (nodes ++ more) (done.reverse ++ complete) left)

variable {α β : Type} {m : Compose α} {f : α → Compose β} {room fuel n : Nat}
  {tokens tokens' rest : List Token} {a : α} {b : β} {more more' : List Node}
  {done done' : List NodeId} {block indentless : Bool}

/-- Two steps one behind the other. -/
theorem Composes.bind (h : Composes m room tokens (tokens' ++ rest) n a more done)
    (h' : Composes (f a) room tokens' rest (n + more.length) b more' done') :
    Composes (m >>= f) room (tokens ++ tokens') rest n b (more ++ more') (done ++ done') := by
  intro nodes complete left hlength hleft
  have hfirst := h nodes complete left hlength hleft
  have hsecond := h' (nodes ++ more) (done.reverse ++ complete) left
    (by rw [List.length_append, hlength]) hleft
  have hbind : (m >>= f) (composing (tokens ++ (tokens' ++ rest)) nodes complete left) =
      f a (composing (tokens' ++ rest) (nodes ++ more) (done.reverse ++ complete) left) := by
    show (m (composing (tokens ++ (tokens' ++ rest)) nodes complete left) >>= fun r => f r.1 r.2) = _
    rw [hfirst]
    rfl
  rw [List.append_assoc, hbind, hsecond, List.append_assoc, List.reverse_append, List.append_assoc]

theorem Composes.map (h : Composes m room tokens rest n a more done) (g : α → β) :
    Composes (g <$> m) room tokens rest n (g a) more done := by
  intro nodes complete left hlength hleft
  show (do let r ← m (composing (tokens ++ rest) nodes complete left)
           pure (g r.1, r.2) : Except Fault (β × Composition)) = _
  rw [h nodes complete left hlength hleft]
  rfl

/-- A token in front of a step. -/
theorem Composes.behind {m' : Compose α} {t : Token}
    (h : Composes m room tokens rest n a more done)
    (hstep : ∀ nodes complete left, m' (composing (t :: (tokens ++ rest)) nodes complete left) =
      m (composing (tokens ++ rest) nodes complete left)) :
    Composes m' room (t :: tokens) rest n a more done := fun nodes complete left hlength hleft =>
  (hstep nodes complete left).trans (h nodes complete left hlength hleft)

/-! ## Nodes -/

/-- A scalar is complete at once. -/
theorem composes_scalar (plain : Bool) (text : String) :
    Composes (node block indentless (fuel + 1)) room [.scalar plain text] rest n n
      [⟨scalarTag none plain text, .scalar text⟩] [n] := by
  intro nodes complete left hlength _
  subst hlength
  show (.ok (nodes.toArray.size, ⟨rest, none, standardHandles, [],
    ⟨nodes.toArray.push ⟨scalarTag none plain text, .scalar text⟩⟩, nodes.toArray.size :: complete,
    left⟩) : Except Fault (NodeId × Composition)) = _
  rw [List.push_toArray, List.size_toArray]
  rfl

/-- A collection has its number before its parts have theirs and is complete behind them. -/
theorem composes_collection {parts : Compose Content} (tag : Tag) {content : Content}
    (h : Composes parts (room - 1) tokens rest (n + 1) content more done) (hroom : 0 < room) :
    Composes (collection none tag parts) room tokens rest n n (⟨tag, content⟩ :: more) (done ++ [n]) := by
  intro nodes complete left hlength hleft
  have hparts := h (nodes ++ [⟨tag, .sequence []⟩]) complete (left - 1)
    (by rw [List.length_append, hlength]; rfl) (by omega)
  have hlimit : ¬left = 0 := by omega
  have hcollection : collection none tag parts (composing (tokens ++ rest) nodes complete left) =
      (do
        let r ← parts ⟨tokens ++ rest, none, standardHandles, [],
          ⟨nodes.toArray.push ⟨tag, .sequence []⟩⟩, complete, left - 1⟩
        pure (nodes.toArray.size, { r.2 with
          graph := r.2.graph.put nodes.toArray.size ⟨tag, r.1⟩, room := left,
          complete := nodes.toArray.size :: r.2.complete }) : Except Fault (NodeId × Composition)) := by
    unfold collection
    show (if left = 0 then throw .depth else _ : Compose NodeId)
      (composing (tokens ++ rest) nodes complete left) = _
    rw [if_neg hlimit]
    rfl
  rw [hcollection, List.push_toArray]
  show (do
    let r ← parts (composing (tokens ++ rest) (nodes ++ [⟨tag, .sequence []⟩]) complete (left - 1))
    pure (nodes.toArray.size, { r.2 with
      graph := r.2.graph.put nodes.toArray.size ⟨tag, r.1⟩, room := left,
      complete := nodes.toArray.size :: r.2.complete }) : Except Fault (NodeId × Composition)) = _
  -- the node stood without its parts until they were there
  have hput : (Graph.mk (nodes ++ [Node.mk tag (.sequence [])] ++ more).toArray).put nodes.toArray.size
      ⟨tag, content⟩ = ⟨(nodes ++ Node.mk tag content :: more).toArray⟩ := by
    simp [Graph.put]
  rw [hparts]
  show (.ok (nodes.toArray.size, ⟨rest, none, standardHandles, [],
    (Graph.mk (nodes ++ [Node.mk tag (.sequence [])] ++ more).toArray).put nodes.toArray.size ⟨tag, content⟩,
    nodes.toArray.size :: (done.reverse ++ complete), left⟩) : Except Fault (NodeId × Composition)) = _
  rw [hput, List.size_toArray, List.reverse_append, hlength]
  rfl

/-- A node is not one of the tokens behind which nothing is written. -/
theorem composes_optional {ends : List Token} {t : Token} (ht : t ∉ ends)
    {id : NodeId} (h : Composes (node block indentless fuel) room (t :: tokens) rest n id more done) :
    Composes (optional block indentless ends (fuel + 1)) room (t :: tokens) rest n id more done := by
  intro nodes complete left hlength hleft
  have hnot : ¬ends.contains t = true := by simpa using ht
  show (if ends.contains t = true then nothing else node block indentless fuel)
    (composing (t :: (tokens ++ rest)) nodes complete left) = _
  rw [if_neg hnot]
  exact h nodes complete left hlength hleft

/-! ## Parts of collections -/

theorem composes_blockItems_nil : Composes (blockItems (fuel + 1)) room [.blockEnd] rest n [] [] [] := by
  intro nodes complete left _ _
  rw [List.append_nil]
  rfl

/-- A dash, an item and the items behind it. -/
theorem composes_blockItems_cons {id : NodeId} {ids : List NodeId}
    (h : Composes (optional true false [.blockEntry, .blockEnd] fuel) room tokens (tokens' ++ rest) n
      id more done)
    (hrest : Composes (blockItems fuel) room tokens' rest (n + more.length) ids more' done') :
    Composes (blockItems (fuel + 1)) room (.blockEntry :: (tokens ++ tokens')) rest n (id :: ids)
      (more ++ more') (done ++ done') :=
  @Composes.behind _ (do
    let id ← optional true false [.blockEntry, .blockEnd] fuel
    (id :: ·) <$> blockItems fuel) _ _ _ _ _ _ _ _ _ (h.bind (hrest.map _)) fun _ _ _ => by rfl

theorem composes_bareItems_nil (hrest : rest.head? ≠ some .blockEntry) :
    Composes (bareItems (fuel + 1)) room [] rest n [] [] [] := by
  intro nodes complete left _ _
  rw [List.append_nil]
  cases rest with
  | nil => rfl
  | cons t rest =>
    show (if some t = some .blockEntry then _ else pure [] : Compose (List NodeId))
      (composing (t :: rest) nodes complete left) = _
    have hne : ¬some t = some Token.blockEntry := hrest
    rw [if_neg hne]
    rfl

theorem composes_bareItems_cons {id : NodeId} {ids : List NodeId}
    (h : Composes (optional true false [.blockEntry, .key, .value, .blockEnd] fuel) room tokens
      (tokens' ++ rest) n id more done)
    (hrest : Composes (bareItems fuel) room tokens' rest (n + more.length) ids more' done') :
    Composes (bareItems (fuel + 1)) room (.blockEntry :: (tokens ++ tokens')) rest n (id :: ids)
      (more ++ more') (done ++ done') :=
  @Composes.behind _ (do
    let id ← optional true false [.blockEntry, .key, .value, .blockEnd] fuel
    (id :: ·) <$> bareItems fuel) _ _ _ _ _ _ _ _ _ (h.bind (hrest.map _)) fun _ _ _ => by rfl

theorem composes_blockEntries_nil :
    Composes (blockEntries (fuel + 1)) room [.blockEnd] rest n [] [] [] := by
  intro nodes complete left _ _
  rw [List.append_nil]
  rfl

theorem composes_blockValue {id : NodeId}
    (h : Composes (optional true true [.key, .value, .blockEnd] fuel) room tokens rest n id more done) :
    Composes (blockValue (fuel + 1)) room (.value :: tokens) rest n id more done :=
  h.behind fun _ _ _ => by rfl

/-- A key, its value and the entries behind them. -/
theorem composes_blockEntries_cons {id id' : NodeId} {ids : List (NodeId × NodeId)}
    {tokens'' : List Token} {more'' : List Node} {done'' : List NodeId}
    (hkey : Composes (optional true true [.key, .value, .blockEnd] fuel) room tokens
      (tokens' ++ (tokens'' ++ rest)) n id more done)
    (hvalue : Composes (blockValue fuel) room tokens' (tokens'' ++ rest) (n + more.length) id' more'
      done')
    (hrest : Composes (blockEntries fuel) room tokens'' rest (n + more.length + more'.length) ids more''
      done'') :
    Composes (blockEntries (fuel + 1)) room (.key :: (tokens ++ (tokens' ++ tokens''))) rest n
      ((id, id') :: ids) (more ++ (more' ++ more'')) (done ++ (done' ++ done'')) := by
  have hpair := hvalue.bind (f := fun v => ((id, v) :: ·) <$> blockEntries fuel) (hrest.map _)
  rw [← List.append_assoc] at hkey
  exact @Composes.behind _ (do
    let k ← optional true true [.key, .value, .blockEnd] fuel
    let v ← blockValue fuel
    ((k, v) :: ·) <$> blockEntries fuel) _ _ _ _ _ _ _ _ _ (hkey.bind hpair) fun _ _ _ => by rfl

theorem composes_flowItems : Composes (flowItems true (fuel + 1)) room [.flowSequenceEnd] rest n [] [] [] := by
  intro nodes complete left _ _
  rw [List.append_nil]
  rfl

theorem composes_flowEntries :
    Composes (flowEntries true (fuel + 1)) room [.flowMappingEnd] rest n [] [] [] := by
  intro nodes complete left _ _
  rw [List.append_nil]
  rfl

/-! ## Trees -/

/-- The kind of a scalar that was written for a text is the text. -/
theorem scalarTag_text (s : String) :
    scalarTag none (Style.isPlain s) (Text.canonical s) = .text := by
  by_cases h : Style.isPlain s = true
  · have htag : Tag.implicit s = .text := by
      simp only [Style.isPlain, Bool.and_eq_true, decide_eq_true_eq] at h
      exact h.2
    rw [canonical_of_isPlain h, h]
    exact htag
  · rw [Bool.eq_false_iff.mpr h]
    rfl

theorem scalarTag_flag (b : Bool) :
    scalarTag none true (String.ofList (Tree.flagText b)) = .bool := by
  cases b <;> decide

theorem composes_text (s : String) :
    Composes (node block indentless (fuel + 1)) room [scalarToken s] rest n n [Tree.textNode s] [n] := by
  have h := @composes_scalar room fuel n rest block indentless (Style.isPlain s) (Text.canonical s)
  rwa [scalarTag_text] at h

open Replatform.Yaml.Tree (nodeTokens itemTokens entryTokens nodes itemNodes entryNodes itemIds entryIds order
  itemOrder entryOrder nodeCount Legible LegibleItems LegibleEntries isSimpleKey)

/-- A node starts with a token of its own. -/
theorem nodeTokens_cons (bare : Bool) (t : Tree) : ∃ token more, nodeTokens bare t = token :: more ∧
    token ∉ [Token.key, .value, .blockEnd] ∧ (bare = false → token ≠ .blockEntry) := by
  cases t with
  | text s =>
    rw [nodeTokens]
    exact ⟨_, _, rfl, by simp [scalarToken], fun _ => by simp [scalarToken]⟩
  | flag b =>
    rw [nodeTokens]
    exact ⟨_, _, rfl, by simp, fun _ => by simp⟩
  | list ts =>
    cases ts with
    | nil =>
      rw [nodeTokens]
      exact ⟨_, _, rfl, by decide, fun _ => by decide⟩
    | cons t rest =>
      rw [nodeTokens]
      cases bare with
      | true => exact ⟨_, _, by rw [if_pos rfl, itemTokens]; rfl, by decide, fun h => by cases h⟩
      | false => exact ⟨_, _, by rw [if_neg Bool.false_ne_true]; rfl, by decide, fun _ => by decide⟩
  | map es =>
    cases es with
    | nil =>
      rw [nodeTokens]
      exact ⟨_, _, rfl, by decide, fun _ => by decide⟩
    | cons e rest =>
      rw [nodeTokens]
      exact ⟨_, _, rfl, by decide, fun _ => by decide⟩

/-- The value of an entry. -/
theorem composes_value {bare : Bool} {t : Tree} {id : NodeId}
    (h : Composes (node true true fuel) room (nodeTokens bare t) rest n id more done) :
    Composes (blockValue (fuel + 2)) room (.value :: nodeTokens bare t) rest n id more done := by
  obtain ⟨token, tokens, heq, hnot, -⟩ := nodeTokens_cons bare t
  rw [heq] at h ⊢
  exact composes_blockValue (composes_optional hnot h)

/-- An item that is no bare list. -/
theorem composes_item {ends : List Token} {t : Tree} {id : NodeId}
    (hends : ends ⊆ [.blockEntry, .key, .value, .blockEnd])
    (h : Composes (node true false fuel) room (nodeTokens false t) rest n id more done) :
    Composes (optional true false ends (fuel + 1)) room (nodeTokens false t) rest n id more done := by
  obtain ⟨token, tokens, heq, hnot, hentry⟩ := nodeTokens_cons false t
  rw [heq] at h ⊢
  refine composes_optional (fun hmem => ?_) h
  obtain rfl | hmem := List.mem_cons.mp (hends hmem)
  · exact hentry rfl rfl
  · exact hnot hmem

mutual

/-- **The tokens of a tree are composed to its nodes.** -/
theorem composes_node (bare indentless : Bool) (room fuel n : Nat) (rest : List Token) :
    ∀ t, Legible room t → (bare = true → indentless = true ∧ rest.head? ≠ some .blockEntry) →
      3 * (nodeTokens bare t).length + 2 ≤ fuel →
        Composes (node true indentless fuel) room (nodeTokens bare t) rest n n (nodes n t) (order n t)
  | .text s, _, _, hfuel => by
    obtain ⟨fuel, rfl⟩ : ∃ f, fuel = f + 1 := ⟨fuel - 1, by omega⟩
    rw [nodeTokens, nodes, order]
    exact composes_text s
  | .flag b, _, _, hfuel => by
    obtain ⟨fuel, rfl⟩ : ∃ f, fuel = f + 1 := ⟨fuel - 1, by omega⟩
    rw [nodeTokens, nodes, order, ← scalarTag_flag b]
    exact composes_scalar true _
  | .list [], h, _, hfuel => by
    obtain ⟨fuel, rfl⟩ : ∃ f, fuel = f + 2 := ⟨fuel - 2, by omega⟩
    rw [Legible] at h
    rw [nodeTokens, nodes, order, itemIds, itemNodes, itemOrder]
    have hitems := composes_collection .list
      ((@composes_flowItems (room - 1) fuel (n + 1) rest).map .sequence) h.1
    exact hitems.behind fun _ _ _ => by rfl
  | .list (t :: ts), h, hbare, hfuel => by
    rw [Legible] at h
    rw [nodes, order]
    obtain ⟨fuel, rfl⟩ : ∃ f, fuel = f + 1 := ⟨fuel - 1, by omega⟩
    cases bare with
    | true =>
      obtain ⟨rfl, hrest⟩ := hbare rfl
      rw [nodeTokens, if_pos rfl] at hfuel ⊢
      have hitems := composes_collection .list
        ((composes_bareItems (room - 1) fuel (n + 1) rest hrest (t :: ts) h.2 (by omega)).map .sequence) h.1
      -- the first dash is not taken before the items
      have hstep : ∀ nodes complete left, node true true (fuel + 1)
          (composing (itemTokens (t :: ts) ++ rest) nodes complete left) =
            collection none .list (.sequence <$> bareItems fuel)
              (composing (itemTokens (t :: ts) ++ rest) nodes complete left) := fun _ _ _ => by
        rw [itemTokens]
        rfl
      exact fun nodes complete left hlength hleft =>
        (hstep nodes complete left).trans (hitems nodes complete left hlength hleft)
    | false =>
      rw [nodeTokens, if_neg Bool.false_ne_true] at hfuel ⊢
      simp only [List.cons_append, List.length_cons, List.length_append] at hfuel
      have hitems := composes_collection .list
        ((composes_blockItems (room - 1) fuel (n + 1) rest (t :: ts) h.2 (by omega)).map .sequence) h.1
      exact hitems.behind fun _ _ _ => by rfl
  | .map [], h, _, hfuel => by
    obtain ⟨fuel, rfl⟩ : ∃ f, fuel = f + 2 := ⟨fuel - 2, by omega⟩
    rw [Legible] at h
    rw [nodeTokens, nodes, order, entryIds, entryNodes, entryOrder]
    have hentries := composes_collection .map
      ((@composes_flowEntries (room - 1) fuel (n + 1) rest).map .mapping) h.1
    exact hentries.behind fun _ _ _ => by rfl
  | .map (e :: es), h, _, hfuel => by
    rw [Legible] at h
    rw [nodeTokens] at hfuel ⊢
    rw [nodes, order]
    simp only [List.cons_append, List.length_cons, List.length_append] at hfuel
    obtain ⟨fuel, rfl⟩ : ∃ f, fuel = f + 1 := ⟨fuel - 1, by omega⟩
    have hentries := composes_collection .map
      ((composes_blockEntries (room - 1) fuel (n + 1) rest (e :: es) h.2 (by omega)).map .mapping) h.1
    exact hentries.behind fun _ _ _ => by rfl

theorem composes_blockItems (room fuel n : Nat) (rest : List Token) :
    ∀ ts, LegibleItems room ts → 3 * (itemTokens ts).length + 1 ≤ fuel →
      Composes (blockItems fuel) room (itemTokens ts ++ [.blockEnd]) rest n (itemIds n ts)
        (itemNodes n ts) (itemOrder n ts)
  | [], _, hfuel => by
    obtain ⟨fuel, rfl⟩ : ∃ f, fuel = f + 1 := ⟨fuel - 1, by omega⟩
    rw [itemTokens, itemIds, itemNodes, itemOrder]
    exact composes_blockItems_nil
  | t :: ts, h, hfuel => by
    rw [LegibleItems] at h
    rw [itemTokens] at hfuel ⊢
    rw [itemIds, itemNodes, itemOrder]
    simp only [List.cons_append, List.length_cons, List.length_append] at hfuel
    obtain ⟨fuel, rfl⟩ : ∃ f, fuel = f + 2 := ⟨fuel - 2, by omega⟩
    have hitem := composes_node false false room fuel n (itemTokens ts ++ [.blockEnd] ++ rest) t h.1
      (fun h => by cases h) (by omega)
    have hmore := composes_blockItems room (fuel + 1) (n + (nodes n t).length) rest ts h.2 (by omega)
    have hends : [Token.blockEntry, .blockEnd] ⊆ [.blockEntry, .key, .value, .blockEnd] := by simp
    have hcons := composes_blockItems_cons (composes_item hends hitem) hmore
    rw [Tree.length_nodes, ← List.append_assoc] at hcons
    exact hcons

theorem composes_bareItems (room fuel n : Nat) (rest : List Token)
    (hrest : rest.head? ≠ some .blockEntry) :
    ∀ ts, LegibleItems room ts → 3 * (itemTokens ts).length + 1 ≤ fuel →
      Composes (bareItems fuel) room (itemTokens ts) rest n (itemIds n ts) (itemNodes n ts)
        (itemOrder n ts)
  | [], _, hfuel => by
    obtain ⟨fuel, rfl⟩ : ∃ f, fuel = f + 1 := ⟨fuel - 1, by omega⟩
    rw [itemTokens, itemIds, itemNodes, itemOrder]
    exact composes_bareItems_nil hrest
  | t :: ts, h, hfuel => by
    rw [LegibleItems] at h
    rw [itemTokens] at hfuel ⊢
    rw [itemIds, itemNodes, itemOrder]
    simp only [List.cons_append, List.length_cons, List.length_append] at hfuel
    obtain ⟨fuel, rfl⟩ : ∃ f, fuel = f + 2 := ⟨fuel - 2, by omega⟩
    have hitem := composes_node false false room fuel n (itemTokens ts ++ rest) t h.1
      (fun h => by cases h) (by omega)
    have hmore := composes_bareItems room (fuel + 1) (n + (nodes n t).length) rest hrest ts h.2
      (by omega)
    have hcons := composes_bareItems_cons (composes_item (fun _ h => h) hitem) hmore
    rw [Tree.length_nodes] at hcons
    exact hcons

theorem composes_blockEntries (room fuel n : Nat) (rest : List Token) :
    ∀ es, LegibleEntries room es → 3 * (entryTokens es).length + 1 ≤ fuel →
      Composes (blockEntries fuel) room (entryTokens es ++ [.blockEnd]) rest n (entryIds n es)
        (entryNodes n es) (entryOrder n es)
  | [], _, hfuel => by
    obtain ⟨fuel, rfl⟩ : ∃ f, fuel = f + 1 := ⟨fuel - 1, by omega⟩
    rw [entryTokens, entryIds, entryNodes, entryOrder]
    exact composes_blockEntries_nil
  | (k, t) :: es, h, hfuel => by
    rw [LegibleEntries] at h
    rw [entryTokens] at hfuel ⊢
    rw [entryIds, entryNodes, entryOrder]
    simp only [List.cons_append, List.length_cons, List.length_append] at hfuel
    obtain ⟨fuel, rfl⟩ : ∃ f, fuel = f + 3 := ⟨fuel - 3, by omega⟩
    have hrest : (entryTokens es ++ [Token.blockEnd] ++ rest).head? ≠ some .blockEntry := by
      cases es with
      | nil =>
        rw [entryTokens]
        exact fun h => by cases h
      | cons e es =>
        rw [entryTokens]
        exact fun h => by cases h
    have hkey : Composes (optional true true [.key, .value, .blockEnd] (fuel + 2)) room [scalarToken k]
        (.value :: nodeTokens (isSimpleKey k) t ++ (entryTokens es ++ [.blockEnd] ++ rest)) n n
          [Tree.textNode k] [n] :=
      composes_optional (by simp [scalarToken]) (composes_text k)
    have hvalue := composes_value (composes_node (isSimpleKey k) true room fuel (n + 1)
      (entryTokens es ++ [.blockEnd] ++ rest) t h.2.1 (fun _ => ⟨rfl, hrest⟩) (by omega))
    have hmore := composes_blockEntries room (fuel + 2) (n + 1 + (nodes (n + 1) t).length) rest es
      h.2.2 (by omega)
    have hcons := composes_blockEntries_cons hkey hvalue hmore
    rw [Tree.length_nodes] at hcons
    simpa only [List.cons_append, List.nil_append, List.append_assoc, List.length_cons, List.length_nil,
      Nat.zero_add] using hcons

end

end Compose

/-! ## Documents -/

open Compose in
/-- A document that is a map ends with it. -/
theorem document_of_node {fuel : Nat} {tokens : List Token} {id : NodeId} {nodes : List Node}
    {complete : List NodeId} {left : Nat}
    (h : node true false (fuel + 1) (composing (.blockMappingStart :: tokens) [] [] left) =
      .ok (id, composing [] nodes complete left)) :
    document (fuel + 1) (composing (.blockMappingStart :: tokens) [] [] left) =
      .ok (some id, composing [] nodes complete left) := by
  show (do
    let r ← node true false (fuel + 1) (composing (.blockMappingStart :: tokens) [] [] left)
    let r' ← documentEnd (fuel + 1) r.2
    pure (some r.1, r'.2) : Except Fault (Option NodeId × Composition)) = _
  rw [h]
  rfl

open Compose in
/-- **The tokens of a map are composed to the nodes of the map.** -/
theorem ofTokens_map {room : Nat} {e : String × Tree} {es : List (String × Tree)}
    (h : Tree.Legible room (.map (e :: es))) {left : Nat} (hroom : room ≤ left) :
    Parsed.ofTokens? left ⟨.blockMappingStart :: Tree.entryTokens (e :: es) ++ [.blockEnd], none⟩ =
      .ok (some ⟨⟨(Tree.nodes 0 (.map (e :: es))).toArray⟩, Tree.order 0 (.map (e :: es)), 0⟩) := by
  have htokens : Tree.nodeTokens false (.map (e :: es)) =
      .blockMappingStart :: Tree.entryTokens (e :: es) ++ [.blockEnd] := by rw [Tree.nodeTokens]
  have hnode := composes_node false false room
    (3 * (Tree.nodeTokens false (.map (e :: es))).length + 3) 0 [] (.map (e :: es)) h
    (fun h => by cases h) (Nat.le_succ _) [] [] left rfl hroom
  rw [htokens, List.append_nil, List.nil_append, List.append_nil, List.cons_append] at hnode
  unfold Parsed.ofTokens?
  show (do
    let r ← document (3 * (Token.blockMappingStart :: Tree.entryTokens (e :: es) ++
      [Token.blockEnd]).length + 3)
        (composing (.blockMappingStart :: Tree.entryTokens (e :: es) ++ [.blockEnd]) [] [] left)
    pure (r.1.map fun id => ⟨r.2.graph, r.2.complete.reverse, id⟩) : Except Fault (Option Parsed)) = _
  rw [List.cons_append, document_of_node hnode]
  show (.ok (some ⟨⟨(Tree.nodes 0 (.map (e :: es))).toArray⟩,
    (Tree.order 0 (.map (e :: es))).reverse.reverse, 0⟩) : Except Fault (Option Parsed)) = _
  rw [List.reverse_reverse]

end Yaml
end Replatform
