import Replatform.Yaml.Composition

/-! # Texts that break off

Where the tokens of a text break off at a fault, the text holds no document: each step of the
parser leaves the fault behind the tokens that are left (`Keeps`), and a document ends only where
the parser has seen that nothing is left.
-/
namespace Replatform
namespace Yaml
namespace Compose

variable {α β : Type} {m : Compose α} {f : α → Compose β}

/-! ## Steps -/

/-- A step leaves the fault behind the tokens. -/
def Keeps (m : Compose α) : Prop := ∀ ⦃s a s'⦄, m s = .ok (a, s') → s'.fault = s.fault

theorem keeps_pure (a : α) : Keeps (pure a) := fun _ _ _ h => by
  cases h
  rfl

theorem keeps_throw (fault : Fault) : Keeps (throw fault : Compose α) := fun _ _ _ h => by cases h

theorem keeps_get : Keeps (get : Compose Composition) := fun _ _ _ h => by
  cases h
  rfl

theorem keeps_modify {f : Composition → Composition} (h : ∀ s, (f s).fault = s.fault) :
    Keeps (modify f : Compose Unit) := fun s _ _ hs => by
  cases hs
  exact h s

/-- A step that goes through is one step behind another. -/
theorem of_bind_ok {s s'' : Composition} {b : β} (h : (m >>= f) s = .ok (b, s'')) :
    ∃ a s', m s = .ok (a, s') ∧ f a s' = .ok (b, s'') := by
  have h : (m s >>= fun r => f r.1 r.2) = .ok (b, s'') := h
  cases hm : m s with
  | error fault =>
    rw [hm] at h
    cases h
  | ok r =>
    rw [hm] at h
    exact ⟨r.1, r.2, rfl, h⟩

theorem Keeps.bind (h : Keeps m) (h' : ∀ a, Keeps (f a)) : Keeps (m >>= f) := by
  intro s b s'' hs
  obtain ⟨a, s', hm, hf⟩ := of_bind_ok hs
  exact (h' a hf).trans (h hm)

theorem Keeps.map (h : Keeps m) (g : α → β) : Keeps (g <$> m) := by
  rw [map_eq_pure_bind]
  exact h.bind fun a => keeps_pure (g a)

theorem keeps_peek : Keeps peek := by
  unfold peek
  refine keeps_get.bind fun s => ?_
  split
  · exact keeps_pure _
  · exact keeps_throw _
  · exact keeps_pure _

theorem keeps_drop : Keeps drop := keeps_modify fun _ => rfl

theorem keeps_expect (t : Token) : Keeps (expect t) := by
  unfold expect
  refine keeps_peek.bind fun _ => ?_
  split
  · exact keeps_drop
  · exact keeps_throw _

theorem keeps_dereference (name : String) : Keeps (dereference name) := by
  unfold dereference
  refine keeps_get.bind fun s => ?_
  split
  · exact keeps_pure _
  · exact keeps_throw _

theorem keeps_add (anchor : Option String) (n : Node) : Keeps (add anchor n) := by
  unfold add
  refine keeps_get.bind fun s => Keeps.bind ?_ fun _ => Keeps.bind ?_ fun _ => keeps_pure _
  · exact keeps_modify fun _ => rfl
  · cases anchor with
    | none => exact keeps_pure _
    | some name => exact keeps_modify fun _ => rfl

theorem keeps_completed (id : NodeId) : Keeps (completed id) := by
  refine Keeps.bind ?_ fun _ => keeps_pure _
  exact keeps_modify fun _ => rfl

theorem keeps_scalar (anchor : Option String) (tag : Tag) (text : String) :
    Keeps (scalar anchor tag text) := (keeps_add _ _).bind keeps_completed

theorem keeps_nothing : Keeps nothing := (keeps_add _ _).bind keeps_completed

theorem keeps_fullName (t : TagName) : Keeps (fullName t) := by
  unfold fullName
  split
  · exact keeps_pure _
  · refine keeps_get.bind fun s => ?_
    split
    · exact keeps_pure _
    · exact keeps_throw _

theorem keeps_properties : Keeps properties := by
  unfold properties
  refine keeps_peek.bind fun t => ?_
  split
  · refine keeps_drop.bind fun _ => keeps_peek.bind fun t => ?_
    split
    · exact keeps_drop.bind fun _ => keeps_pure _
    · exact keeps_pure _
  · refine keeps_drop.bind fun _ => keeps_peek.bind fun t => ?_
    split
    · exact keeps_drop.bind fun _ => keeps_pure _
    · exact keeps_pure _
  · exact keeps_pure _

theorem keeps_collection (anchor : Option String) (tag : Tag) {parts : Compose Content}
    (h : Keeps parts) : Keeps (collection anchor tag parts) := by
  unfold collection
  refine keeps_get.bind fun s => ?_
  have hrest : Keeps (do
      let id ← add anchor ⟨tag, .sequence []⟩
      modify fun t => { t with room := s.room - 1 }
      let content ← parts
      modify fun t => { t with graph := t.graph.put id ⟨tag, content⟩, room := s.room }
      completed id) := by
    refine (keeps_add _ _).bind fun id => Keeps.bind ?_ fun _ => h.bind fun content =>
      Keeps.bind ?_ fun _ => keeps_completed id
    · exact keeps_modify fun _ => rfl
    · exact keeps_modify fun _ => rfl
  dsimp only
  split
  · exact (keeps_throw _).bind fun _ => hrest
  · exact hrest

theorem keeps_empty (anchor tag : Option String) : Keeps (empty anchor tag) := by
  rw [empty]
  dsimp only
  split
  · exact (keeps_throw _).bind fun _ => keeps_scalar _ _ _
  · exact keeps_scalar _ _ _

/-! ## Nodes -/

mutual

theorem keeps_node (block indentless : Bool) : ∀ fuel, Keeps (node block indentless fuel)
  | 0 => keeps_throw _
  | fuel + 1 => by
    rw [node]
    refine keeps_peek.bind fun t => ?_
    split
    · exact keeps_drop.bind fun _ => keeps_dereference _
    -- any other node has its properties in front and its content by the first token behind them
    refine keeps_properties.bind fun p => Keeps.bind ?_ fun tag => keeps_peek.bind fun start => ?_
    · cases p.2 with
      | none => exact keeps_pure _
      | some t => exact (keeps_fullName t).map some
    extract_lets sequence mapping content
    have hsequence : ∀ {parts}, Keeps parts → Keeps (sequence parts) := fun h =>
      keeps_collection _ _ (h.map _)
    have hmapping : ∀ {parts}, Keeps parts → Keeps (mapping parts) := fun h =>
      keeps_collection _ _ (h.map _)
    have hcontent : ∀ u, Keeps (content u) := fun _ => by
      dsimp only [content]
      split
      · exact keeps_drop.bind fun _ => keeps_scalar _ _ _
      · exact keeps_drop.bind fun _ => hsequence (keeps_flowItems true fuel)
      · exact keeps_drop.bind fun _ => hmapping (keeps_flowEntries true fuel)
      · split
        · exact keeps_drop.bind fun _ => hsequence (keeps_blockItems fuel)
        · exact keeps_throw _
      · split
        · exact keeps_drop.bind fun _ => hmapping (keeps_blockEntries fuel)
        · exact keeps_throw _
      · split
        · exact hsequence (keeps_bareItems fuel)
        · exact keeps_empty _ _
      · exact keeps_empty _ _
    split
    · refine keeps_get.bind fun s => ?_
      split
      · exact (keeps_throw _).bind hcontent
      · exact hcontent ()
    · exact hcontent ()

theorem keeps_optional (block indentless : Bool) (ends : List Token) :
    ∀ fuel, Keeps (optional block indentless ends fuel)
  | 0 => keeps_throw _
  | fuel + 1 => by
    rw [optional]
    refine keeps_peek.bind fun t => ?_
    split
    · split
      · exact keeps_nothing
      · exact keeps_node block indentless fuel
    · exact keeps_node block indentless fuel

theorem keeps_blockItems : ∀ fuel, Keeps (blockItems fuel)
  | 0 => keeps_throw _
  | fuel + 1 => by
    rw [blockItems]
    refine keeps_peek.bind fun t => ?_
    split
    · exact keeps_drop.bind fun _ => (keeps_optional _ _ _ fuel).bind fun _ =>
        (keeps_blockItems fuel).bind fun _ => keeps_pure _
    · exact (keeps_expect _).bind fun _ => keeps_pure _

theorem keeps_bareItems : ∀ fuel, Keeps (bareItems fuel)
  | 0 => keeps_throw _
  | fuel + 1 => by
    rw [bareItems]
    refine keeps_peek.bind fun t => ?_
    split
    · exact keeps_drop.bind fun _ => (keeps_optional _ _ _ fuel).bind fun _ =>
        (keeps_bareItems fuel).bind fun _ => keeps_pure _
    · exact keeps_pure _

theorem keeps_blockEntries : ∀ fuel, Keeps (blockEntries fuel)
  | 0 => keeps_throw _
  | fuel + 1 => by
    rw [blockEntries]
    refine keeps_peek.bind fun t => ?_
    split
    · exact keeps_drop.bind fun _ => (keeps_optional _ _ _ fuel).bind fun _ =>
        (keeps_blockValue fuel).bind fun _ => (keeps_blockEntries fuel).bind fun _ => keeps_pure _
    · exact (keeps_expect _).bind fun _ => keeps_pure _

theorem keeps_blockValue : ∀ fuel, Keeps (blockValue fuel)
  | 0 => keeps_throw _
  | fuel + 1 => by
    rw [blockValue]
    refine keeps_peek.bind fun t => ?_
    split
    · exact keeps_drop.bind fun _ => keeps_optional _ _ _ fuel
    · exact keeps_nothing

theorem keeps_flowItems (first : Bool) : ∀ fuel, Keeps (flowItems first fuel)
  | 0 => keeps_throw _
  | fuel + 1 => by
    rw [flowItems]
    refine keeps_peek.bind fun t => ?_
    split
    · exact keeps_drop.bind fun _ => keeps_pure _
    extract_lets item
    have hitem : ∀ u, Keeps (item u) := fun _ => by
      refine keeps_peek.bind fun t => ?_
      split
      · exact keeps_drop.bind fun _ => keeps_pure _
      · have hpair := (keeps_optional false false [.value, .flowEntry, .flowSequenceEnd] fuel).bind
          fun k => (keeps_flowValue [.flowEntry, .flowSequenceEnd] fuel).bind fun v =>
            keeps_pure (Content.mapping [(k, v)])
        exact keeps_drop.bind fun _ => (keeps_collection none .map hpair).bind fun _ =>
          (keeps_flowItems false fuel).bind fun _ => keeps_pure _
      · exact (keeps_node _ _ fuel).bind fun _ => (keeps_flowItems false fuel).bind fun _ => keeps_pure _
    split
    · exact (keeps_expect _).bind hitem
    · exact hitem ()

theorem keeps_flowEntries (first : Bool) : ∀ fuel, Keeps (flowEntries first fuel)
  | 0 => keeps_throw _
  | fuel + 1 => by
    rw [flowEntries]
    refine keeps_peek.bind fun t => ?_
    split
    · exact keeps_drop.bind fun _ => keeps_pure _
    extract_lets entry
    have hentry : ∀ u, Keeps (entry u) := fun _ => by
      refine keeps_peek.bind fun t => ?_
      split
      · exact keeps_drop.bind fun _ => keeps_pure _
      · exact keeps_drop.bind fun _ => (keeps_optional _ _ _ fuel).bind fun _ =>
          (keeps_flowValue _ fuel).bind fun _ => (keeps_flowEntries false fuel).bind fun _ => keeps_pure _
      · exact (keeps_node _ _ fuel).bind fun _ => keeps_nothing.bind fun _ =>
          (keeps_flowEntries false fuel).bind fun _ => keeps_pure _
    split
    · exact (keeps_expect _).bind hentry
    · exact hentry ()

theorem keeps_flowValue (ends : List Token) : ∀ fuel, Keeps (flowValue ends fuel)
  | 0 => keeps_throw _
  | fuel + 1 => by
    rw [flowValue]
    refine keeps_peek.bind fun t => ?_
    split
    · exact keeps_drop.bind fun _ => keeps_optional _ _ _ fuel
    · exact keeps_nothing

end

/-! ## Documents -/

theorem keeps_directives (versioned : Bool) (fuel : Nat) : Keeps (directives versioned fuel) := by
  induction fuel generalizing versioned with
  | zero => exact keeps_throw _
  | succ fuel ih =>
    rw [directives]
    refine keeps_peek.bind fun t => ?_
    split
    · refine keeps_drop.bind fun _ => ?_
      dsimp only
      split
      · exact (keeps_throw _).bind fun _ => ih true
      · exact ih true
    · refine keeps_drop.bind fun _ => keeps_get.bind fun s => ?_
      extract_lets next
      have hnext : ∀ u, Keeps (next u) := fun _ => by
        refine Keeps.bind ?_ fun _ => ih versioned
        exact keeps_modify fun _ => rfl
      split
      · exact (keeps_throw _).bind hnext
      · exact hnext ()
    · exact keeps_drop.bind fun _ => ih versioned
    · exact keeps_pure _

theorem keeps_skipDocumentEnds (fuel : Nat) : Keeps (skipDocumentEnds fuel) := by
  induction fuel with
  | zero => exact keeps_pure _
  | succ fuel ih =>
    rw [skipDocumentEnds]
    refine keeps_peek.bind fun t => ?_
    split
    · exact keeps_drop.bind fun _ => ih
    · exact keeps_pure _

theorem keeps_content (fuel : Nat) : Keeps (content fuel) := by
  unfold content
  refine keeps_peek.bind fun t => ?_
  split
  · exact keeps_nothing
  · exact keeps_nothing
  · exact keeps_nothing
  · exact keeps_nothing
  · exact keeps_node true false fuel

theorem keeps_explicitStart (fuel : Nat) : Keeps (explicitStart fuel) := by
  unfold explicitStart
  refine Keeps.bind ?_ fun _ => (keeps_directives false fuel).bind fun _ =>
    Keeps.bind ?_ fun _ => keeps_expect _
  · exact keeps_modify fun _ => rfl
  · exact keeps_modify fun _ => rfl

/-- A step goes through only if no fault is behind the tokens. -/
def Whole (m : Compose α) : Prop := ∀ ⦃s a s'⦄, m s = .ok (a, s') → s.fault = none

theorem Keeps.whole (h : Keeps m) (h' : ∀ a, Whole (f a)) : Whole (m >>= f) := by
  intro s b s'' hs
  obtain ⟨a, s', hm, hf⟩ := of_bind_ok hs
  exact (h hm).symm.trans (h' a hf)

theorem Whole.bind (h : Whole m) (f : α → Compose β) : Whole (m >>= f) := by
  intro s b s'' hs
  obtain ⟨a, s', hm, -⟩ := of_bind_ok hs
  exact h hm

theorem whole_throw (fault : Fault) : Whole (throw fault : Compose α) := fun _ _ _ h => by cases h

/-- Where the text is over, no fault is there. -/
theorem of_peek_none {s s' : Composition} (h : peek s = .ok (none, s')) : s.fault = none := by
  obtain ⟨tokens, fault, handles, anchors, graph, complete, room⟩ := s
  cases tokens with
  | cons t more => cases h
  | nil =>
    cases fault with
    | none => rfl
    | some fault => cases h

theorem whole_peek {f : Option Token → Compose β} (h : ∀ t, Whole (f (some t))) :
    Whole (peek >>= f) := by
  intro s b s'' hs
  obtain ⟨t, s', hpeek, hf⟩ := of_bind_ok hs
  cases t with
  | none => exact of_peek_none hpeek
  | some t => exact (keeps_peek hpeek).symm.trans (h t hf)

theorem whole_documentEnd (fuel : Nat) : Whole (documentEnd fuel) := by
  unfold documentEnd
  exact (keeps_skipDocumentEnds fuel).whole fun _ => whole_peek fun _ =>
    (keeps_explicitStart fuel).whole fun _ => whole_throw _

theorem whole_closed {fuel : Nat} {top : Compose NodeId} (h : Keeps top) :
    Whole (document.closed fuel top) :=
  h.whole fun _ => (whole_documentEnd fuel).bind _

theorem whole_document (fuel : Nat) : Whole (document fuel) := by
  have hexplicit : Whole (document.explicit fuel) :=
    (keeps_explicitStart fuel).whole fun _ => whole_closed (keeps_content fuel)
  -- without any token the text has been seen to be over; each other document has to end
  unfold document
  refine whole_peek fun t => ?_
  split
  · next h => cases h
  · exact hexplicit
  · exact hexplicit
  · exact whole_closed (keeps_node true false fuel)

end Compose

/-- **A text whose tokens break off at a fault holds no document.** -/
theorem fault_of_ofTokens {room : Nat} {stream : TokenStream} {p : Option Parsed}
    (h : Parsed.ofTokens? room stream = .ok p) : stream.fault = none := by
  unfold Parsed.ofTokens? at h
  dsimp only at h
  cases hdocument : (Compose.document (3 * stream.tokens.length + 3)).run
      ⟨stream.tokens, stream.fault, Compose.standardHandles, [], .empty, [], room⟩ with
  | error fault =>
    rw [hdocument] at h
    cases h
  | ok r => exact Compose.whole_document _ hdocument

end Yaml
end Replatform
