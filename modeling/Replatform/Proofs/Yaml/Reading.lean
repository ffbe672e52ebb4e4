import Replatform.Proofs.Yaml.Broken
import Replatform.Proofs.Yaml.Composed
import Replatform.Proofs.Yaml.Meanings

/-! # A written tree is read back

The nodes of a tree are a plain graph, and unfolded in the order in which they were complete they
give the value of the tree: each collection comes behind its parts, so one pass is enough.  With
scanning and composing this closes the way from a tree to its text and back.  Texts are read in
their canonical form, in which a lone surrogate or the guard is spelled in one way only.
-/
namespace Replatform
namespace Yaml

namespace Graph

variable {g : Graph} {n m m' id : NodeId} {ns ns' : List Node} {roots roots' : List NodeId}

/-! ## Parts of a graph -/

/-- The nodes stand in the graph from a number on. -/
def Holds (g : Graph) (n : NodeId) (ns : List Node) : Prop :=
  ∀ i node, ns[i]? = some node → g.node (n + i) = node

theorem Holds.head {node : Node} (h : Holds g n (node :: ns)) : g.node n = node := h 0 node rfl

theorem Holds.left (h : Holds g n (ns ++ ns')) : Holds g n ns := fun i node hi =>
  h i node (by rw [List.getElem?_append_left (List.getElem?_eq_some_iff.mp hi).1, hi])

theorem Holds.right (h : Holds g n (ns ++ ns')) : Holds g (n + ns.length) ns' := fun i node hi => by
  rw [Nat.add_assoc]
  exact h (ns.length + i) node (by rw [List.getElem?_append_right (Nat.le_add_right _ _),
    Nat.add_sub_cancel_left, hi])

theorem Holds.tail {node : Node} (h : Holds g n (node :: ns)) : Holds g (n + 1) ns :=
  @Holds.right g n [node] ns h

theorem holds_toArray (ns : List Node) : Holds ⟨ns.toArray⟩ 0 ns := fun i node hi => by
  rw [Graph.node, List.getElem?_toArray, Nat.zero_add, hi]
  rfl

/-- From one number up to another the graph is plain, and each node there that is no root is a
part of another one there. -/
def PlainFrom (g : Graph) (n m : NodeId) (roots : List NodeId) : Prop :=
  ∀ id, n ≤ id → id < m → PlainNode g (g.node id) ∧ (∀ part ∈ g.parts id, id < part ∧ part < m) ∧
    (id ∈ roots ∨ ∃ whole, n ≤ whole ∧ whole < id ∧ id ∈ g.parts whole)

theorem PlainFrom.append (h : PlainFrom g n m roots) (h' : PlainFrom g m m' roots') (hn : n ≤ m)
    (hm : m ≤ m') : PlainFrom g n m' (roots ++ roots') := by
  intro id hid hid'
  by_cases hlt : id < m
  · obtain ⟨hnode, hparts, hwhole⟩ := h id hid hlt
    refine ⟨hnode, fun part hpart => ?_, hwhole.imp_left (List.mem_append_left _)⟩
    exact ⟨(hparts part hpart).1, Nat.lt_of_lt_of_le (hparts part hpart).2 hm⟩
  · obtain ⟨hnode, hparts, hwhole⟩ := h' id (Nat.not_lt.mp hlt) hid'
    refine ⟨hnode, hparts, hwhole.imp (List.mem_append_right _) ?_⟩
    rintro ⟨whole, hle, hlt, hpart⟩
    exact ⟨whole, Nat.le_trans hn hle, hlt, hpart⟩

/-- A node without parts. -/
theorem plainFrom_scalar (h : PlainNode g (g.node n)) (hparts : g.parts n = []) :
    PlainFrom g n (n + 1) [n] := by
  intro id hid hid'
  obtain rfl : id = n := Nat.le_antisymm (Nat.le_of_lt_succ hid') hid
  refine ⟨h, fun part hpart => ?_, .inl List.mem_cons_self⟩
  rw [hparts] at hpart
  cases hpart

/-- A collection in front of its parts. -/
theorem plainFrom_collection (h : PlainNode g (g.node n)) (hroots : PlainFrom g (n + 1) m (g.parts n))
    (hparts : ∀ part ∈ g.parts n, n < part ∧ part < m) : PlainFrom g n m [n] := by
  intro id hid hid'
  obtain rfl | hlt := Nat.eq_or_lt_of_le hid
  · exact ⟨h, hparts, .inl List.mem_cons_self⟩
  · obtain ⟨hnode, hparts', hwhole⟩ := hroots id hlt hid'
    refine ⟨hnode, hparts', .inr ?_⟩
    obtain hroot | ⟨whole, hle, hlt', hpart⟩ := hwhole
    · exact ⟨n, Nat.le_refl n, hlt, hroot⟩
    · exact ⟨whole, Nat.le_of_succ_le hle, hlt', hpart⟩

theorem plain_of_plainFrom (h : PlainFrom g 0 g.size [0]) : g.Plain where
  node := fun id hid => (h id (Nat.zero_le id) hid).1
  part := fun id hid => (h id (Nat.zero_le id) hid).2.1
  whole := fun id hid hpos => by
    obtain hroot | ⟨whole, -, hlt, hpart⟩ := (h id (Nat.zero_le id) hid).2.2
    · rw [List.mem_singleton.mp hroot] at hpos
      exact absurd hpos (Nat.lt_irrefl 0)
    · exact ⟨whole, hlt, hpart⟩

end Graph

namespace Tree

open Replatform.Yaml.Graph

variable {g : Graph} {n id : Nat}

/-! ## The graph of a tree -/

theorem nodeCount_pos (t : Tree) : 0 < nodeCount t := by
  cases t <;> exact Nat.succ_pos _

theorem mem_itemIds {ts : List Tree} : id ∈ itemIds n ts → n ≤ id ∧ id < n + itemCount ts := by
  induction ts generalizing n with
  | nil => exact fun h => absurd h List.not_mem_nil
  | cons t rest ih =>
    intro h
    have hpos := nodeCount_pos t
    rw [itemCount]
    obtain rfl | h := List.mem_cons.mp h
    · omega
    · have hrest := ih h
      omega

theorem mem_entryIds {es : List (String × Tree)} {e : Nat × Nat} :
    e ∈ entryIds n es → (n ≤ e.1 ∧ e.1 < n + entryCount es) ∧ n ≤ e.2 ∧ e.2 < n + entryCount es := by
  induction es generalizing n with
  | nil => exact fun h => absurd h List.not_mem_nil
  | cons p rest ih =>
    obtain ⟨k, t⟩ := p
    intro h
    have hpos := nodeCount_pos t
    rw [entryCount]
    obtain rfl | h := List.mem_cons.mp h
    · dsimp only
      omega
    · have hrest := ih h
      omega

/-- The keys of a map are its texts. -/
theorem exists_of_mem_entryIds {es : List (String × Tree)} (h : Holds g n (entryNodes n es))
    {e : NodeId × NodeId} (he : e ∈ entryIds n es) : ∃ p ∈ es, g.node e.1 = textNode p.1 := by
  induction es generalizing n with
  | nil => cases he
  | cons p rest ih =>
    obtain ⟨k, t⟩ := p
    rw [entryNodes] at h
    obtain rfl | he := List.mem_cons.mp he
    · exact ⟨(k, t), List.mem_cons_self, h.left.head⟩
    · have hrest := h.right
      rw [List.length_cons, length_nodes, ← Nat.add_assoc, Nat.add_right_comm] at hrest
      obtain ⟨p, hp, hnode⟩ := ih hrest he
      exact ⟨p, List.mem_cons_of_mem _ hp, hnode⟩

theorem textOf_textNode {k : String} (h : g.node id = textNode k) : g.textOf id = Text.canonical k := by
  rw [textOf, h]
  rfl

theorem plainKeys_entryIds {room : Nat} {es : List (String × Tree)} (h : Holds g n (entryNodes n es))
    (hes : LegibleEntries room es) : PlainKeys g (entryIds n es) where
  text := fun e he => by
    obtain ⟨p, -, hnode⟩ := exists_of_mem_entryIds h he
    rw [hnode]
    exact ⟨rfl, _, rfl⟩
  distinct := by
    induction es generalizing n with
    | nil => exact List.Pairwise.nil
    | cons p rest ih =>
      obtain ⟨k, t⟩ := p
      rw [LegibleEntries] at hes
      rw [entryNodes] at h
      have hrest := h.right
      rw [List.length_cons, length_nodes, ← Nat.add_assoc, Nat.add_right_comm] at hrest
      refine List.Pairwise.cons (fun e he => ?_) (ih hrest hes.2.2)
      obtain ⟨p, hp, hnode⟩ := exists_of_mem_entryIds hrest he
      rw [textOf_textNode h.left.head, textOf_textNode hnode]
      exact (hes.1 p hp).symm

theorem readBool_flagText (b : Bool) : readBool (String.ofList (flagText b)).toList = .ok b := by
  cases b <;> decide

theorem plainFrom_nil : PlainFrom g n n [] := fun _ hle hlt =>
  absurd hlt (Nat.not_lt.mpr hle)

/-- A text is a part of its own. -/
theorem plainFrom_text {k : String} (h : g.node n = textNode k) : PlainFrom g n (n + 1) [n] := by
  refine plainFrom_scalar ?_ (by rw [parts, h]; rfl)
  rw [h]
  exact .text _

mutual

/-- **The nodes of a tree are plain.** -/
theorem plainFrom_nodes (room n : Nat) :
    ∀ t, Legible room t → Holds g n (nodes n t) → PlainFrom g n (n + nodeCount t) [n]
  | .text s, _, hg => by
    rw [nodes] at hg
    rw [nodeCount]
    exact plainFrom_text hg.head
  | .flag b, _, hg => by
    rw [nodes] at hg
    rw [nodeCount]
    refine plainFrom_scalar ?_ (by rw [parts, hg.head])
    rw [hg.head]
    exact .flag (readBool_flagText b)
  | .list ts, h, hg => by
    rw [nodes] at hg
    rw [Legible] at h
    have hparts : g.parts n = itemIds (n + 1) ts := by rw [parts, hg.head]
    have hitems := plainFrom_items (room - 1) (n + 1) ts h.2 hg.tail
    rw [← hparts] at hitems
    rw [nodeCount, Nat.add_comm (itemCount ts), ← Nat.add_assoc]
    refine plainFrom_collection (by rw [hg.head]; exact .list _) hitems fun part hpart => ?_
    rw [hparts] at hpart
    exact mem_itemIds hpart
  | .map es, h, hg => by
    rw [nodes] at hg
    rw [Legible] at h
    have hparts : g.parts n = (entryIds (n + 1) es).flatMap fun e => [e.1, e.2] := by
      rw [parts, hg.head]
    have hentries := plainFrom_entries (room - 1) (n + 1) es h.2 hg.tail
    rw [← hparts] at hentries
    rw [nodeCount, Nat.add_comm (entryCount es), ← Nat.add_assoc]
    refine plainFrom_collection (by rw [hg.head]; exact .map (plainKeys_entryIds hg.tail h.2)) hentries
      fun part hpart => ?_
    rw [hparts] at hpart
    obtain ⟨e, he, hpart⟩ := List.mem_flatMap.mp hpart
    obtain ⟨hkey, hvalue⟩ := mem_entryIds he
    obtain rfl | hpart := List.mem_cons.mp hpart
    · exact hkey
    · rw [List.mem_singleton.mp hpart]
      exact hvalue

theorem plainFrom_items (room n : Nat) :
    ∀ ts, LegibleItems room ts → Holds g n (itemNodes n ts) →
      PlainFrom g n (n + itemCount ts) (itemIds n ts)
  | [], _, _ => by
    rw [itemCount, itemIds]
    exact plainFrom_nil
  | t :: rest, h, hg => by
    rw [itemNodes] at hg
    rw [LegibleItems] at h
    have hitem := plainFrom_nodes room n t h.1 hg.left
    have hrest := hg.right
    rw [length_nodes] at hrest
    have hitems := plainFrom_items room (n + nodeCount t) rest h.2 hrest
    rw [itemCount, itemIds, ← Nat.add_assoc]
    exact hitem.append hitems (Nat.le_add_right _ _) (Nat.le_add_right _ _)

theorem plainFrom_entries (room n : Nat) :
    ∀ es, LegibleEntries room es → Holds g n (entryNodes n es) →
      PlainFrom g n (n + entryCount es) ((entryIds n es).flatMap fun e => [e.1, e.2])
  | [], _, _ => by
    rw [entryCount, entryIds]
    exact plainFrom_nil
  | (k, t) :: rest, h, hg => by
    rw [entryNodes] at hg
    rw [LegibleEntries] at h
    have hkey := plainFrom_text hg.left.head
    have hvalue := plainFrom_nodes room (n + 1) t h.2.1 hg.left.tail
    have hrest := hg.right
    rw [List.length_cons, length_nodes, Nat.add_comm (nodeCount t), ← Nat.add_assoc] at hrest
    have hentries := plainFrom_entries room (n + 1 + nodeCount t) rest h.2.2 hrest
    rw [entryCount, entryIds, ← Nat.add_assoc, ← Nat.add_assoc]
    exact (hkey.append hvalue (Nat.le_succ n) (Nat.le_add_right _ _)).append hentries
      (Nat.le_trans (Nat.le_succ n) (Nat.le_add_right _ _)) (Nat.le_add_right _ _)

end

end Tree

/-! ## Unfolding -/

theorem Graph.Means.unique {g : Graph} {id : NodeId} {m m' : Meaning} (h : g.Means id m)
    (h' : g.Means id m') : m = m' := by
  cases h <;> cases h' <;> simp_all

/-- The meanings of the nodes of a graph are known. -/
def Knows (meanings : Array (Option Meaning)) (g : Graph) : Prop :=
  ∀ id < g.size, ∃ m, meanings[id]? = some (some m) ∧ g.Means id m

variable {sets : List Value → List Value} {meanings : Array (Option Meaning)} {values : Array Value}
  {g : Graph} {n : Nat}

theorem unfold_append (order order' : List NodeId) (values : Array Value) :
    unfold sets meanings (order ++ order') values =
      unfold sets meanings order' (unfold sets meanings order values) := List.foldl_append

theorem size_unfold (order : List NodeId) (values : Array Value) :
    (unfold sets meanings order values).size = values.size := by
  induction order generalizing values with
  | nil => rfl
  | cons id rest ih =>
    refine (ih _).trans ?_
    dsimp only
    split
    · exact Array.size_setIfInBounds
    · rfl

/-- A node whose parts are known gets its value, and no other one is changed. -/
theorem unfold_single {m : Meaning} (hknows : Knows meanings g) (hn : n < g.size)
    (hvalues : values.size = g.size) (hm : g.Means n m) :
    (unfold sets meanings [n] values)[n]? = some (m.value sets values) ∧
      ∀ i, i ≠ n → (unfold sets meanings [n] values)[i]? = values[i]? := by
  obtain ⟨m', hmeanings, hm'⟩ := hknows n hn
  obtain rfl := hm.unique hm'
  have hunfold : unfold sets meanings [n] values = values.setIfInBounds n (m.value sets values) := by
    rw [unfold, List.foldl_cons, hmeanings]
    rfl
  rw [hunfold]
  refine ⟨?_, fun i hi => Array.getElem?_setIfInBounds_ne (Ne.symm hi)⟩
  exact Array.getElem?_setIfInBounds_self_of_lt (hvalues.symm ▸ hn)

namespace Tree

open Replatform.Yaml.Graph

mutual

/-- The tree with the canonical form of each text. -/
def canonical : Tree → Tree
  | .text s => .text (Text.canonical s)
  | .flag b => .flag b
  | .list ts => .list (canonicalItems ts)
  | .map es => .map (canonicalEntries es)

def canonicalItems : List Tree → List Tree
  | [] => []
  | t :: rest => canonical t :: canonicalItems rest

def canonicalEntries : List (String × Tree) → List (String × Tree)
  | [] => []
  | (k, t) :: rest => (Text.canonical k, canonical t) :: canonicalEntries rest

end

theorem canonical_text (s : String) : canonical (.text s) = .text (Text.canonical s) := by rw [canonical]

theorem canonical_flag (b : Bool) : canonical (.flag b) = .flag b := by rw [canonical]

theorem canonical_list (ts : List Tree) : canonical (.list ts) = .list (ts.map canonical) := by
  have hitems : canonicalItems ts = ts.map canonical := by
    induction ts with
    | nil => rw [canonicalItems, List.map_nil]
    | cons t rest ih => rw [canonicalItems, List.map_cons, ih]
  rw [canonical, hitems]

theorem canonical_map (es : List (String × Tree)) :
    canonical (.map es) = .map (es.map fun e => (Text.canonical e.1, canonical e.2)) := by
  have hentries : canonicalEntries es = es.map fun e => (Text.canonical e.1, canonical e.2) := by
    induction es with
    | nil => rw [canonicalEntries, List.map_nil]
    | cons e rest ih => rw [canonicalEntries, List.map_cons, ih]
  rw [canonical, hentries]

/-- What says nothing does so in its canonical form only. -/
theorem isBlank_canonical (t : Tree) : (canonical t).isBlank = t.isBlank := by
  cases t with
  | text s =>
    rw [canonical_text, isBlank, isBlank, decide_eq_decide]
    exact Text.canonical_eq_empty
  | flag b => rw [canonical_flag]
  | list ts => rw [canonical_list, isBlank, isBlank, List.isEmpty_map]
  | map es => rw [canonical_map, isBlank, isBlank, List.isEmpty_map]

/-- From one number up to another nothing else is changed. -/
def Frames (n m : Nat) (values values' : Array Value) : Prop :=
  ∀ i, i < n ∨ m ≤ i → values'[i]? = values[i]?

theorem Frames.trans {n m n' m' : Nat} {values values' values'' : Array Value}
    (h : Frames n m values values') (h' : Frames n' m' values' values'') (hn : n ≤ n') (hm : m ≤ m') :
    Frames n m' values values'' := by
  intro i hi
  rw [h' i (by omega), h i (by omega)]

mutual

/-- **Unfolded in their order, the nodes of a tree give its value.** -/
theorem unfold_nodes (hknows : Knows meanings g) (n : Nat) : ∀ t, Holds g n (nodes n t) →
    n + nodeCount t ≤ g.size → ∀ values, values.size = g.size →
      (unfold sets meanings (order n t) values)[n]? = some t.canonical.toValue ∧
        Frames n (n + nodeCount t) values (unfold sets meanings (order n t) values)
  | .text s, hg, hsize, values, hvalues => by
    rw [nodes] at hg
    rw [nodeCount] at hsize ⊢
    rw [order, canonical, toValue]
    obtain ⟨hvalue, hframe⟩ := unfold_single hknows hsize hvalues (.text hg.head)
    exact ⟨hvalue, fun i hi => hframe i (by omega)⟩
  | .flag b, hg, hsize, values, hvalues => by
    rw [nodes] at hg
    rw [nodeCount] at hsize ⊢
    rw [order, canonical, toValue]
    obtain ⟨hvalue, hframe⟩ := unfold_single hknows hsize hvalues (.flag hg.head (readBool_flagText b))
    exact ⟨hvalue, fun i hi => hframe i (by omega)⟩
  | .list ts, hg, hsize, values, hvalues => by
    rw [nodes] at hg
    rw [nodeCount] at hsize ⊢
    rw [order, unfold_append, canonical, toValue]
    have hsize' : (unfold sets meanings (itemOrder (n + 1) ts) values).size = g.size := by
      rw [size_unfold, hvalues]
    obtain ⟨hitems, hframe⟩ := unfold_items hknows (n + 1) ts hg.tail (by omega) values hvalues
    obtain ⟨hvalue, hframe'⟩ := unfold_single hknows (by omega) hsize' (.list hg.head)
    refine ⟨?_, fun i hi => ?_⟩
    · rw [hvalue, Meaning.value, hitems]
    · rw [hframe' i (by omega), hframe i (by omega)]
  | .map es, hg, hsize, values, hvalues => by
    rw [nodes] at hg
    rw [nodeCount] at hsize ⊢
    rw [order, unfold_append, canonical, toValue]
    have hsize' : (unfold sets meanings (entryOrder (n + 1) es) values).size = g.size := by
      rw [size_unfold, hvalues]
    obtain ⟨hentries, hframe⟩ := unfold_entries hknows (n + 1) es hg.tail (by omega) values hvalues
    obtain ⟨hvalue, hframe'⟩ := unfold_single hknows (by omega) hsize' (.map hg.head)
    refine ⟨?_, fun i hi => ?_⟩
    · rw [hvalue, Meaning.value, List.map_map]
      exact congrArg (fun es => some (Value.map es)) hentries
    · rw [hframe' i (by omega), hframe i (by omega)]

theorem unfold_items (hknows : Knows meanings g) (n : Nat) : ∀ ts, Holds g n (itemNodes n ts) →
    n + itemCount ts ≤ g.size → ∀ values, values.size = g.size →
      (itemIds n ts).map (Meaning.value.of (unfold sets meanings (itemOrder n ts) values)) =
        toValues (canonicalItems ts) ∧
      Frames n (n + itemCount ts) values (unfold sets meanings (itemOrder n ts) values)
  | [], _, _, values, _ => by
    rw [itemOrder, itemIds, canonicalItems, toValues]
    exact ⟨rfl, fun _ _ => rfl⟩
  | t :: rest, hg, hsize, values, hvalues => by
    rw [itemNodes] at hg
    rw [itemCount, ← Nat.add_assoc] at hsize ⊢
    have hrest := hg.right
    rw [length_nodes] at hrest
    have hpos := nodeCount_pos t
    obtain ⟨hitem, hframe⟩ := unfold_nodes hknows n t hg.left (by omega) values hvalues
    have hsize' : (unfold sets meanings (order n t) values).size = g.size := by rw [size_unfold, hvalues]
    obtain ⟨hitems, hframe'⟩ := unfold_items hknows (n + nodeCount t) rest hrest (by omega) _ hsize'
    rw [itemOrder, itemIds, unfold_append, canonicalItems, toValues, List.map_cons, hitems,
      Meaning.value.of, hframe' n (by omega), hitem]
    exact ⟨rfl, hframe.trans hframe' (Nat.le_add_right _ _) (Nat.le_add_right _ _)⟩

theorem unfold_entries (hknows : Knows meanings g) (n : Nat) : ∀ es, Holds g n (entryNodes n es) →
    n + entryCount es ≤ g.size → ∀ values, values.size = g.size →
      (entryIds n es).map (fun e => ((g.keyOf e.1).value,
        Meaning.value.of (unfold sets meanings (entryOrder n es) values) e.2)) =
          toEntries (canonicalEntries es) ∧
      Frames n (n + entryCount es) values (unfold sets meanings (entryOrder n es) values)
  | [], _, _, values, _ => by
    rw [entryOrder, entryIds, canonicalEntries, toEntries]
    exact ⟨rfl, fun _ _ => rfl⟩
  | (k, t) :: rest, hg, hsize, values, hvalues => by
    rw [entryNodes] at hg
    rw [entryCount, ← Nat.add_assoc, ← Nat.add_assoc] at hsize ⊢
    have hrest := hg.right
    rw [List.length_cons, length_nodes, Nat.add_comm (nodeCount t), ← Nat.add_assoc] at hrest
    have hpos := nodeCount_pos t
    have hmeans : g.Means n (.scalar ⟨.text (Text.canonical k), some n⟩) := .text hg.left.head
    -- the key is complete first, then the value, then the entries behind them
    obtain ⟨-, hkeyFrame⟩ := unfold_single hknows (by omega) hvalues hmeans
    have hsize₁ : (unfold sets meanings [n] values).size = g.size := by rw [size_unfold, hvalues]
    obtain ⟨hvalue, hframe⟩ := unfold_nodes hknows (n + 1) t hg.left.tail (by omega) _ hsize₁
    have hsize₂ : (unfold sets meanings (order (n + 1) t) (unfold sets meanings [n] values)).size = g.size := by
      rw [size_unfold, hsize₁]
    obtain ⟨hentries, hframe'⟩ :=
      unfold_entries hknows (n + 1 + nodeCount t) rest hrest (by omega) _ hsize₂
    have horder : unfold sets meanings (entryOrder n ((k, t) :: rest)) values =
        unfold sets meanings (entryOrder (n + 1 + nodeCount t) rest)
          (unfold sets meanings (order (n + 1) t) (unfold sets meanings [n] values)) := by
      rw [entryOrder, List.cons_append, ← List.singleton_append, unfold_append, unfold_append]
    have hkey : (g.keyOf n).value = .text (Text.canonical k) := by
      rw [keyOf, textOf_textNode hg.left.head]
    rw [horder, entryIds, canonicalEntries, toEntries, List.map_cons, hentries, hkey]
    refine ⟨?_, fun i hi => ?_⟩
    · rw [Meaning.value.of, hframe' (n + 1) (by omega), hvalue]
      rfl
    · rw [hframe' i (by omega), hframe i (by omega), hkeyFrame i (by omega)]

end

/-! ## Documents -/

/-- The last pass gives the values, whatever was there before. -/
theorem size_passes (order : List NodeId) (n : Nat) (values : Array Value) :
    ((List.range n).foldl (fun values _ => unfold sets meanings order values) values).size = values.size := by
  induction n with
  | zero => rfl
  | succ n ih =>
    rw [List.range_succ, List.foldl_append]
    exact (size_unfold _ _).trans ih

/-- The value of the nodes of a tree is that of the tree. -/
theorem value_of_nodes {loader : Loader} {room : Nat} {t : Tree} (h : Legible room t) :
    Parsed.value loader ⟨⟨(nodes 0 t).toArray⟩, order 0 t, 0⟩ = .ok t.canonical.toValue := by
  have hholds := holds_toArray (nodes 0 t)
  have hsize : Graph.size ⟨(nodes 0 t).toArray⟩ = nodeCount t := by
    rw [Graph.size, List.size_toArray, length_nodes]
  have hplain : Graph.Plain ⟨(nodes 0 t).toArray⟩ := by
    have hfrom := plainFrom_nodes room 0 t h hholds
    rw [Nat.zero_add, ← hsize] at hfrom
    exact plain_of_plainFrom hfrom
  obtain ⟨meanings, hmeanings, -, hknows⟩ :=
    @meanings_of_plain loader.chain ⟨⟨(nodes 0 t).toArray⟩, order 0 t, 0⟩ loader.chain_pos hplain rfl (hsize.symm ▸ nodeCount_pos t)
  -- one pass is enough from any values, so only the last of them counts
  obtain ⟨hvalue, -⟩ := unfold_nodes hknows 0 t hholds (by rw [Nat.zero_add]; exact Nat.le_of_eq hsize.symm)
    ((List.range 11).foldl (fun values _ => unfold loader.sets meanings (order 0 t) values)
      (Array.replicate (Graph.size ⟨(nodes 0 t).toArray⟩) .null))
    (by rw [size_passes, Array.size_replicate])
  have hpasses : (List.range unfoldings).foldl (fun values _ => unfold loader.sets meanings (order 0 t) values)
      (Array.replicate (Graph.size ⟨(nodes 0 t).toArray⟩) .null) = unfold loader.sets meanings (order 0 t)
        ((List.range 11).foldl (fun values _ => unfold loader.sets meanings (order 0 t) values)
          (Array.replicate (Graph.size ⟨(nodes 0 t).toArray⟩) .null)) := by
    rw [unfoldings, List.range_succ, List.foldl_append]
    rfl
  unfold Parsed.value
  rw [hmeanings]
  show (.ok (((List.range unfoldings).foldl (fun values _ => unfold loader.sets meanings (order 0 t) values)
    (Array.replicate (Graph.size ⟨(nodes 0 t).toArray⟩) .null))[0]?.getD .null) : Except Fault Value) = _
  rw [hpasses, hvalue]
  rfl

theorem isAllowed_of_isSimple {c : Char} (h : Style.isSimple c = true) : isAllowed c = true := by
  rw [Style.isSimple, Bool.or_eq_true, decide_eq_true_eq] at h
  unfold isAllowed
  obtain rfl | h := h
  · rfl
  · rw [Bool.and_eq_true, decide_eq_true_eq, decide_eq_true_eq] at h
    simp [h]

theorem all_isAllowed_write (t : Tree) : (write t).all isAllowed = true :=
  List.all_eq_true.mpr fun c hc => isAllowed_of_isSimple (simple_write t c hc)

variable {loader : Loader} {room : Nat} {e : String × Tree} {es : List (String × Tree)}

/-- **What is written for a map whose keys fit is read as the map**: all texts come back, however
they had to be quoted, escaped and broken. -/
theorem read_write_of_fits (h : Legible room (.map (e :: es))) (hfits : fits (.map (e :: es)) = true)
    (hroom : 2 * room < Style.lineWidth) :
    Yaml.read loader (write (.map (e :: es))) = .ok (canonical (.map (e :: es))).toValue := by
  have hentries := h
  rw [Legible] at hentries
  rw [fits] at hfits
  have hwidth := @width_pred 0 room hentries.1 (by rwa [Nat.zero_add])
  rw [Nat.zero_add] at hwidth
  have hlimit : room ≤ loader.room := by
    have hle := loader.le_room
    unfold Style.lineWidth at hroom
    omega
  unfold Yaml.read
  rw [all_isAllowed_write, ofText_write hentries.2 hfits hwidth, ofTokens_map h hlimit]
  exact value_of_nodes h

/-- **Where a key does not fit, what is written for a map cannot be read.** -/
theorem read_write_error (h : Legible room (.map (e :: es))) (hfits : fits (.map (e :: es)) = false)
    (hroom : 2 * room < Style.lineWidth) : ∃ fault, Yaml.read loader (write (.map (e :: es))) = .error fault := by
  have hentries := h
  rw [Legible] at hentries
  rw [fits] at hfits
  have hwidth := @width_pred 0 room hentries.1 (by rwa [Nat.zero_add])
  rw [Nat.zero_add] at hwidth
  have hbroken := ofText_write_fault hentries.2 hfits hwidth
  unfold Yaml.read
  rw [all_isAllowed_write]
  cases hparsed : Parsed.ofTokens? loader.room (.ofText (write (.map (e :: es)))) with
  | error fault => exact ⟨fault, rfl⟩
  | ok p => exact absurd (fault_of_ofTokens hparsed) hbroken

end Tree
end Yaml
end Replatform
