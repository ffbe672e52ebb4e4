import Replatform.Proofs.Yaml.Lines

/-! # Scanning a tree

The tokens that are scanned for a tree are read off the tree (`nodeTokens`).  A scan that stands
at what is written for an entry, an item or a value comes over its tokens to the next line if its
keys fit, and to a fault if one does not; so each list and map is scanned as its parts are, one
behind the other.
-/
namespace Replatform
namespace Yaml

open Style
open Scan (scalarToken)

namespace Tree

/-! ## Tokens -/

mutual

/-- The tokens of a tree.  A list is bare if its items stand at the column of the key above. -/
def nodeTokens (bare : Bool) : Tree → List Token
  | .text s => [scalarToken s]
  | .flag b => [.scalar true (String.ofList (flagText b))]
  | .list [] => [.flowSequenceStart, .flowSequenceEnd]
  | .list (t :: rest) =>
    if bare then itemTokens (t :: rest)
    else .blockSequenceStart :: itemTokens (t :: rest) ++ [.blockEnd]
  | .map [] => [.flowMappingStart, .flowMappingEnd]
  | .map (e :: rest) => .blockMappingStart :: entryTokens (e :: rest) ++ [.blockEnd]

/-- The tokens of the items of a list. -/
def itemTokens : List Tree → List Token
  | [] => []
  | t :: rest => .blockEntry :: nodeTokens false t ++ itemTokens rest

/-- The tokens of the entries of a map. -/
def entryTokens : List (String × Tree) → List Token
  | [] => []
  | (k, t) :: rest =>
    .key :: scalarToken k :: .value :: nodeTokens (isSimpleKey k) t ++ entryTokens rest

end

/-! ## Trees that can be read -/

mutual

/-- Each key fits in front of its colon. -/
def fits : Tree → Bool
  | .text _ => true
  | .flag _ => true
  | .list ts => fitsItems ts
  | .map es => fitsEntries es

def fitsItems : List Tree → Bool
  | [] => true
  | t :: rest => fits t && fitsItems rest

def fitsEntries : List (String × Tree) → Bool
  | [] => true
  | (k, t) :: rest => keyFits k && fits t && fitsEntries rest

end

mutual

/-- The keys of each map are different texts, and no more than `room` collections are inside one
another. -/
def Legible (room : Nat) : Tree → Prop
  | .text _ => True
  | .flag _ => True
  | .list ts => 0 < room ∧ LegibleItems (room - 1) ts
  | .map es => 0 < room ∧ LegibleEntries (room - 1) es

def LegibleItems (room : Nat) : List Tree → Prop
  | [] => True
  | t :: rest => Legible room t ∧ LegibleItems room rest

def LegibleEntries (room : Nat) : List (String × Tree) → Prop
  | [] => True
  | (k, t) :: rest =>
    (∀ e ∈ rest, Text.canonical e.1 ≠ Text.canonical k) ∧ Legible room t ∧ LegibleEntries room rest

end

section

variable {ts : List Tree} {es : List (String × Tree)} {room : Nat}

theorem fits_list : fits (.list ts) = true ↔ ∀ t ∈ ts, fits t = true := by
  rw [fits]
  induction ts with
  | nil => simp [fitsItems]
  | cons t rest ih => rw [fitsItems, Bool.and_eq_true, List.forall_mem_cons, ih]

theorem fits_map : fits (.map es) = true ↔ ∀ e ∈ es, keyFits e.1 = true ∧ fits e.2 = true := by
  rw [fits]
  induction es with
  | nil => simp [fitsEntries]
  | cons e rest ih =>
    rw [fitsEntries, Bool.and_eq_true, Bool.and_eq_true, List.forall_mem_cons, ih]

theorem legible_text (s : String) : Legible room (.text s) := by
  rw [Legible]
  trivial

theorem legible_flag (b : Bool) : Legible room (.flag b) := by
  rw [Legible]
  trivial

theorem legible_list : Legible (room + 1) (.list ts) ↔ ∀ t ∈ ts, Legible room t := by
  have hitems : LegibleItems room ts ↔ ∀ t ∈ ts, Legible room t := by
    induction ts with
    | nil => simp [LegibleItems]
    | cons t rest ih => rw [LegibleItems, List.forall_mem_cons, ih]
  rw [Legible, Nat.add_sub_cancel, hitems]
  exact and_iff_right (Nat.succ_pos room)

theorem legible_map : Legible (room + 1) (.map es) ↔
    (es.map fun e => Text.canonical e.1).Nodup ∧ ∀ e ∈ es, Legible room e.2 := by
  have hentries : LegibleEntries room es ↔
      (es.map fun e => Text.canonical e.1).Nodup ∧ ∀ e ∈ es, Legible room e.2 := by
    induction es with
    | nil => simp [LegibleEntries]
    | cons e rest ih =>
      rw [LegibleEntries, List.map_cons, List.nodup_cons, List.forall_mem_cons, ih, List.mem_map]
      grind
  rw [Legible, Nat.add_sub_cancel, hentries]
  exact and_iff_right (Nat.succ_pos room)

end

/-! ## How lines start -/

theorem starts_flag (b : Bool) (tail : List Char) : Scan.Starts (flagText b ++ tail) := by
  cases b <;> exact Scan.starts_cons (by decide) _

theorem ahead_itemLines (indent : Nat) (t : Tree) (rest : List Tree) (tail : List Char) :
    Scan.Ahead (itemLines indent (t :: rest) ++ tail) := by
  rw [itemLines.eq_def]
  refine ⟨Scan.starts_cons (by decide) _, fun c hc => ?_⟩
  have hdash := Scan.isBorder_of_next hc (by decide)
  have hdot : c.isBorder '.' = false := Scan.isBorder_of_ne (Cursor.peek_of_cons hc) (by decide)
  rw [Cursor.atBorder, hdash, hdot]
  rfl

/-- What is written for an entry of a map. -/
def entryText (indent : Nat) (k : String) (t : Tree) : List Char :=
  if isSimpleKey k then
    let key := scalar false (indent + indentStep) indent k
    key ++ ':' :: underKey indent (indent + key.length + 2) t
  else
    let inner := indent + indentStep
    '?' :: ' ' :: scalar true inner inner k ++ newLine indent ++ ':' :: ' ' :: inLine inner t

theorem entryLines_cons (indent : Nat) (k : String) (t : Tree) (rest : List (String × Tree)) :
    entryLines indent ((k, t) :: rest) = entryText indent k t ++
      (match rest with
       | [] => []
       | _ :: _ => newLine indent ++ entryLines indent rest) := by
  rw [entryLines.eq_def]
  rfl

theorem ahead_entryLines (indent : Nat) (e : String × Tree) (rest : List (String × Tree))
    (tail : List Char) : Scan.Ahead (entryLines indent (e :: rest) ++ tail) := by
  obtain ⟨k, t⟩ := e
  rw [entryLines_cons, List.append_assoc, entryText]
  by_cases hkey : isSimpleKey k = true
  · rw [if_pos hkey, List.append_assoc]
    exact ⟨Scan.starts_scalar _ _ _ _ _, Scan.borderless_key (notMem_of_isSimpleKey hkey) _ _ _⟩
  · rw [if_neg hkey]
    exact ⟨Scan.starts_cons (by decide) _, Scan.borderless_cons (by decide) _⟩

theorem starts_inLine (indent : Nat) (t : Tree) (tail : List Char) :
    Scan.Starts (inLine indent t ++ tail) := by
  cases t with
  | text s =>
    rw [inLine]
    exact Scan.starts_scalar _ _ _ s tail
  | flag b =>
    rw [inLine]
    exact starts_flag b tail
  | list ts =>
    cases ts with
    | nil =>
      rw [inLine]
      exact Scan.starts_cons (by decide) _
    | cons t rest =>
      rw [inLine]
      exact (ahead_itemLines indent t rest tail).starts
  | map es =>
    cases es with
    | nil =>
      rw [inLine]
      exact Scan.starts_cons (by decide) _
    | cons e rest =>
      rw [inLine]
      exact (ahead_entryLines indent e rest tail).starts

/-! ## Parts -/

/-- Behind the colon of a key at a column, a tree is scanned. -/
def ReadsUnder (i : Nat) (t : Tree) : Prop :=
  ∀ ⦃c : Cursor⦄ ⦃floors : List Nat⦄ ⦃emitted : List Token⦄ ⦃column j : Nat⦄ ⦃tail : List Char⦄,
    c.rest = underKey i column t ++ (newLine j ++ tail) → i < c.column → j < i + 1 → Scan.Ahead tail →
      Scan.Ends (Scan.block c (i + 1) floors false emitted) (fits t) (i + 1) floors
        ((nodeTokens true t).reverse ++ emitted) tail j

/-- Where a line starts, or behind a mark, a tree is scanned. -/
def ReadsLine (i : Nat) (t : Tree) : Prop :=
  ∀ ⦃s : Scan⦄ ⦃floor : Nat⦄ ⦃floors : List Nat⦄ ⦃emitted : List Token⦄ ⦃j : Nat⦄ ⦃tail : List Char⦄,
    Scan.Stands s floor floors true emitted (inLine i t ++ (newLine j ++ tail)) i → floor ≤ i →
      j < floor → Scan.Ahead tail →
        Scan.Ends s (fits t) floor floors ((nodeTokens false t).reverse ++ emitted) tail j

/-- The items of a list are scanned. -/
def ReadsItems (i : Nat) (ts : List Tree) : Prop :=
  ∀ ⦃s : Scan⦄ ⦃floor : Nat⦄ ⦃floors floors' : List Nat⦄ ⦃emitted start : List Token⦄ ⦃j : Nat⦄
    ⦃tail : List Char⦄, ts ≠ [] →
      Scan.Stands s floor floors true emitted (itemLines i ts ++ (newLine j ++ tail)) i →
        Scan.Opening .blockSequenceStart i floor floors floors' start → j < i + 1 → Scan.Ahead tail →
          Scan.Ends s (fitsItems ts) (i + 1) floors' ((itemTokens ts).reverse ++ (start ++ emitted))
            tail j

/-- The entries of a map are scanned. -/
def ReadsEntries (i : Nat) (es : List (String × Tree)) : Prop :=
  ∀ ⦃s : Scan⦄ ⦃floor : Nat⦄ ⦃floors floors' : List Nat⦄ ⦃emitted start : List Token⦄ ⦃j : Nat⦄
    ⦃tail : List Char⦄, es ≠ [] →
      Scan.Stands s floor floors true emitted (entryLines i es ++ (newLine j ++ tail)) i →
        Scan.Opening .blockMappingStart i floor floors floors' start → j < i + 1 → Scan.Ahead tail →
          Scan.Ends s (fitsEntries es) (i + 1) floors'
            ((entryTokens es).reverse ++ (start ++ emitted)) tail j

variable {s : Scan} {c : Cursor} {floor i j : Nat} {floors floors' : List Nat}
  {emitted start : List Token} {tail : List Char} {t : Tree} {ts : List Tree} {k : String}
  {es : List (String × Tree)}

/-- A mark of one character and the space behind it. -/
theorem stands_mark {ch : Char} {text : List Char} {emitted' : List Token}
    (hs : Scan.Stands s floor floors true emitted (ch :: ' ' :: text) i)
    (hch : isPrinted ch = true) (hfloor : floor ≤ i + 1) (htext : Scan.Starts text)
    (htake : ∀ c : Cursor, c.rest = ch :: ' ' :: text → c.column = i →
      (Scan.block c floor floors true emitted).takeToken =
        .ok (Scan.block c.next (i + 1) floors' true emitted')) :
    ∃ s', Scan.Leads s s' ∧ Scan.Stands s' (i + 1) floors' true emitted' text (i + indentStep) := by
  obtain ⟨c, hat, hrest, hcolumn⟩ := hs
  have hpeek : c.peek ≠ textEnd := by
    rw [Cursor.peek_of_cons hrest]
    exact ne_of_isPrinted hch (by decide)
  have hnext := Cursor.next_of_cons hrest
  have hcolumn' : c.next.column = c.column + 1 :=
    congrArg Cursor.column (@Cursor.skip_printed c [ch] _ hrest fun d hd => by
      rw [List.mem_singleton.mp hd]
      exact hch)
  have hspace := @Scan.stands_space c.next (i + 1) floors' true emitted' text hnext htext
  rw [hcolumn', hcolumn] at hspace
  refine ⟨_, hat.take (hcolumn ▸ hfloor) hpeek (htake c hrest hcolumn) ?_, hspace⟩
  show c.next.rest.length < c.rest.length
  rw [hnext, hrest]
  exact Nat.lt_succ_self _

/-! ### Items -/

/-- A dash and an item. -/
theorem ends_item (ht : ReadsLine (i + indentStep) t)
    (hs : Scan.Stands s floor floors true emitted
      ('-' :: ' ' :: inLine (i + indentStep) t ++ (newLine j ++ tail)) i)
    (hopen : Scan.Opening .blockSequenceStart i floor floors floors' start) (hj : j < i + 1)
    (htail : Scan.Ahead tail) :
    Scan.Ends s (fits t) (i + 1) floors'
      ((.blockEntry :: nodeTokens false t).reverse ++ (start ++ emitted)) tail j := by
  obtain ⟨s', hleads, hstands⟩ := stands_mark hs (by decide) hopen.floor_le (starts_inLine _ t _)
    fun c hrest hcolumn => Scan.takeToken_dash hrest hcolumn hopen
  rw [List.reverse_cons, List.append_assoc]
  exact hleads.ends (ht hstands (Nat.le_succ _) hj htail)

theorem readsItems_cons (ht : ReadsLine (i + indentStep) t) (hts : ReadsItems i ts) :
    ReadsItems i (t :: ts) := by
  intro s floor floors floors' emitted start j tail _ hs hopen hj htail
  rw [itemLines.eq_def] at hs
  cases ts with
  | nil =>
    rw [itemTokens, itemTokens, List.append_nil, fitsItems, fitsItems, Bool.and_true]
    simp only [List.append_nil] at hs
    exact ends_item ht hs hopen hj htail
  | cons u rest =>
    dsimp only at hs
    rw [List.append_assoc, List.append_assoc] at hs
    have hitem := ends_item ht hs hopen (Nat.lt_succ_self i) (ahead_itemLines i u rest _)
    rw [itemTokens, List.reverse_append, List.append_assoc, fitsItems]
    exact hitem.bind fun s' hstands => @hts s' (i + 1) floors' floors' _ [] j tail
      (List.cons_ne_nil _ _) hstands (.goesOn floors') hj htail

/-! ### Entries -/

theorem isBlankOrEnd_underKey (i column : Nat) (t : Tree) (tail : List Char) :
    isBlankOrEnd ((underKey i column t ++ tail).headD textEnd) = true := by
  cases t with
  | text s => rw [underKey]; rfl
  | flag b => rw [underKey]; rfl
  | list ts => cases ts <;> (rw [underKey]; rfl)
  | map es => cases es <;> (rw [underKey]; rfl)

/-- A key that is not announced, its colon and its value. -/
theorem ends_simpleEntry (hkey : isSimpleKey k = true) (hwidth : i + indentStep < lineWidth)
    (ht : ReadsUnder i t) {column : Nat}
    (hs : Scan.Stands s floor floors true emitted (scalar false (i + indentStep) i k ++
      ':' :: (underKey i column t ++ (newLine j ++ tail))) i)
    (hopen : Scan.Opening .blockMappingStart i floor floors floors' start) (hj : j < i + 1)
    (htail : Scan.Ahead tail) :
    Scan.Ends s (keyFits k && fits t) (i + 1) floors'
      ((.key :: scalarToken k :: .value :: nodeTokens true t).reverse ++ (start ++ emitted)) tail j := by
  have hblank := isBlankOrEnd_underKey i column t (newLine j ++ tail)
  cases hfits : keyFits k with
  | false => exact Scan.fails_key hkey hfits hs hopen.floor_le hblank hwidth
  | true =>
    obtain ⟨c, hleads, hrest, hcolumn⟩ := Scan.leads_key hkey hfits hs hopen hblank hwidth
    have hvalue := @ht c floors' (.value :: scalarToken k :: .key :: (start ++ emitted)) column j tail
      hrest hcolumn hj htail
    rw [List.reverse_cons, List.reverse_cons, List.reverse_cons]
    simp only [List.append_assoc, List.cons_append, List.nil_append]
    exact hleads.ends hvalue

/-- A key behind a question mark, and its value behind a colon. -/
theorem ends_announcedEntry (hwidth : i + indentStep < lineWidth)
    (ht : ReadsLine (i + indentStep) t)
    (hs : Scan.Stands s floor floors true emitted
      ('?' :: ' ' :: (scalar true (i + indentStep) (i + indentStep) k ++ (newLine i ++
        ':' :: ' ' :: (inLine (i + indentStep) t ++ (newLine j ++ tail))))) i)
    (hopen : Scan.Opening .blockMappingStart i floor floors floors' start) (hj : j < i + 1)
    (htail : Scan.Ahead tail) :
    Scan.Ends s (fits t) (i + 1) floors'
      ((.key :: scalarToken k :: .value :: nodeTokens false t).reverse ++ (start ++ emitted)) tail j := by
  obtain ⟨s₁, hmark, hs₁⟩ := stands_mark hs (by decide) hopen.floor_le (Scan.starts_scalar _ _ _ k _)
    fun c hrest hcolumn => Scan.takeToken_question hrest hcolumn hopen
  obtain ⟨s₂, hscalar, hs₂⟩ := Scan.reaches_scalar hs₁ (Nat.le_succ _) (Nat.le_succ _)
    (Nat.lt_succ_self _) hwidth
    ⟨Scan.starts_cons (by decide) _, Scan.borderless_cons (by decide) _⟩
  obtain ⟨s₃, hcolon, hs₃⟩ := stands_mark hs₂ (by decide) (Nat.le_refl _) (starts_inLine _ t _)
    fun c hrest hcolumn => Scan.takeToken_colon hrest hcolumn rfl
  have hvalue := ht hs₃ (Nat.le_succ _) hj htail
  rw [List.reverse_cons, List.reverse_cons, List.reverse_cons]
  simp only [List.append_assoc, List.cons_append, List.nil_append]
  exact (hmark.trans (hscalar.trans hcolon)).ends hvalue

theorem keyFits_of_announced (h : ¬isSimpleKey k = true) : keyFits k = true := by
  rw [keyFits, Bool.eq_false_iff.mpr h]
  rfl

theorem ends_entry (hwidth : i + indentStep < lineWidth)
    (hunder : ReadsUnder i t) (hline : ReadsLine (i + indentStep) t)
    (hs : Scan.Stands s floor floors true emitted (entryText i k t ++ (newLine j ++ tail)) i)
    (hopen : Scan.Opening .blockMappingStart i floor floors floors' start) (hj : j < i + 1)
    (htail : Scan.Ahead tail) :
    Scan.Ends s (keyFits k && fits t) (i + 1) floors' ((.key :: scalarToken k :: .value ::
      nodeTokens (isSimpleKey k) t).reverse ++ (start ++ emitted)) tail j := by
  unfold entryText at hs
  by_cases hkey : isSimpleKey k = true
  · rw [if_pos hkey] at hs
    dsimp only at hs
    rw [List.append_assoc] at hs
    rw [hkey]
    exact ends_simpleEntry hkey hwidth hunder hs hopen hj htail
  · rw [if_neg hkey] at hs
    dsimp only at hs
    simp only [List.append_assoc, List.cons_append] at hs
    rw [keyFits_of_announced hkey, Bool.true_and, Bool.eq_false_iff.mpr hkey]
    exact ends_announcedEntry hwidth hline hs hopen hj htail

theorem readsEntries_cons (hwidth : i + indentStep < lineWidth) (hunder : ReadsUnder i t)
    (hline : ReadsLine (i + indentStep) t) (hes : ReadsEntries i es) :
    ReadsEntries i ((k, t) :: es) := by
  intro s floor floors floors' emitted start j tail _ hs hopen hj htail
  rw [entryLines_cons, List.append_assoc] at hs
  cases es with
  | nil =>
    rw [entryTokens, entryTokens, List.append_nil, fitsEntries, fitsEntries, Bool.and_true]
    exact ends_entry hwidth hunder hline hs hopen hj htail
  | cons e rest =>
    dsimp only at hs
    rw [List.append_assoc] at hs
    have hentry := ends_entry hwidth hunder hline hs hopen (Nat.lt_succ_self i)
      (ahead_entryLines i e rest _)
    rw [entryTokens, List.reverse_append, List.append_assoc, fitsEntries]
    exact hentry.bind fun s' hstands => @hes s' (i + 1) floors' floors' _ [] j tail
      (List.cons_ne_nil _ _) hstands (.goesOn floors') hj htail

/-! ### Values -/

theorem plainText_flag (b : Bool) : PlainText (flagText b) := by
  cases b <;>
    refine ⟨⟨by decide, by decide, by decide, by decide, by decide, by decide, by decide, by decide,
      by decide, by decide, by decide, by decide, ?_⟩, by decide, by decide, by decide⟩
  · exact ⟨by decide, by decide, by decide, trivial⟩
  · trivial

theorem plainStart_flag (b : Bool) : Scan.PlainStart (flagText b) := by
  cases b with
  | false => exact ⟨'f', "alse".toList, by decide, by decide, fun h => absurd h (by decide)⟩
  | true => exact ⟨'t', "rue".toList, by decide, by decide, fun h => absurd h (by decide)⟩

/-- A truth value as the value of an entry or as an item. -/
theorem reaches_flag {b allowed : Bool} {place : Nat}
    (hs : Scan.Stands s floor floors allowed emitted (flagText b ++ (newLine j ++ tail)) place)
    (hplace : floor ≤ place) (hj : j < floor) (htail : Scan.Ahead tail) :
    Scan.Reaches s floor floors (.scalar true (String.ofList (flagText b)) :: emitted) tail j := by
  have hwrap : wrap false true floor none 0 (flagText b) = flagText b := by cases b <;> rfl
  rw [← hwrap] at hs
  exact Scan.reaches_plain (plainText_flag b) (plainStart_flag b) hs hplace (Nat.le_refl _) hj htail

/-- A list as a block of its own. -/
theorem ends_list (hts : ReadsItems i ts) (hne : ts ≠ []) {floor' : Nat}
    (hs : Scan.Stands s floor' floors true emitted (itemLines i ts ++ (newLine j ++ tail)) i)
    (hfloor : floor' ≤ i) (hj : j < i) (htail : Scan.Ahead tail) :
    Scan.Ends s (fitsItems ts) floor' floors
      ((Token.blockSequenceStart :: itemTokens ts ++ [Token.blockEnd]).reverse ++ emitted) tail j := by
  have hitems := hts hne hs (.opens floors hfloor) (Nat.lt_succ_of_lt hj) htail
  rw [List.reverse_append, List.reverse_cons]
  simp only [List.reverse_cons, List.reverse_nil, List.nil_append, List.append_assoc, List.cons_append]
  exact hitems.close hj

theorem ends_map (hes : ReadsEntries i es) (hne : es ≠ []) {floor' : Nat}
    (hs : Scan.Stands s floor' floors true emitted (entryLines i es ++ (newLine j ++ tail)) i)
    (hfloor : floor' ≤ i) (hj : j < i) (htail : Scan.Ahead tail) :
    Scan.Ends s (fitsEntries es) floor' floors
      ((Token.blockMappingStart :: entryTokens es ++ [Token.blockEnd]).reverse ++ emitted) tail j := by
  have hentries := hes hne hs (.opens floors hfloor) (Nat.lt_succ_of_lt hj) htail
  rw [List.reverse_append, List.reverse_cons]
  simp only [List.reverse_cons, List.reverse_nil, List.nil_append, List.append_assoc, List.cons_append]
  exact hentries.close hj

/-- On the line below a key. -/
theorem stands_below {text : List Char} {n : Nat} (hrest : c.rest = newLine n ++ text)
    (htext : Scan.Starts text) :
    Scan.Stands (Scan.block c floor floors false emitted) floor floors true emitted text n :=
  @Scan.stands_newLine text floor floors none false emitted c 0 n hrest htext
    fun _ h => by cases h

/-- A collection takes the place of a level. -/
theorem width_pred {room : Nat} (hroom : 0 < room) (hwidth : i + 2 * room < lineWidth) :
    i + indentStep + 2 * (room - 1) < lineWidth := by
  have hstep : indentStep = 2 := rfl
  omega

mutual

/-- **What is written for a tree behind a key is scanned as its tokens.** -/
theorem readsUnder (room : Nat) (i : Nat) (hwidth : i + indentStep + 2 * room < lineWidth) :
    ∀ t, Legible room t → ReadsUnder i t
  | .text s, _ => by
    intro c floors emitted column j tail hrest hcolumn hj htail
    rw [underKey] at hrest
    rw [nodeTokens]
    exact Scan.reaches_scalar (Scan.stands_space hrest (Scan.starts_scalar _ _ _ s _)) (by omega)
      (Nat.le_succ _) hj (by omega) htail
  | .flag b, _ => by
    intro c floors emitted column j tail hrest hcolumn hj htail
    rw [underKey] at hrest
    rw [nodeTokens]
    exact reaches_flag (Scan.stands_space hrest (starts_flag b _)) (by omega) hj htail
  | .list [], _ => by
    intro c floors emitted column j tail hrest hcolumn hj htail
    rw [underKey] at hrest
    rw [nodeTokens]
    exact Scan.reaches_brackets .list (Scan.stands_space hrest (Scan.starts_cons (by decide) _))
      (by omega) htail.starts
  | .list (t :: rest), h => by
    intro c floors emitted column j tail hrest hcolumn hj htail
    rw [underKey, List.append_assoc] at hrest
    rw [Legible] at h
    rw [nodeTokens, if_pos rfl]
    -- the dashes stand at the column of the key, whose block goes on
    exact readsItems (room - 1) i (by omega) (t :: rest) h.2 (List.cons_ne_nil _ _)
      (stands_below hrest (ahead_itemLines i t rest _).starts) (.goesOn floors) hj htail
  | .map [], _ => by
    intro c floors emitted column j tail hrest hcolumn hj htail
    rw [underKey] at hrest
    rw [nodeTokens]
    exact Scan.reaches_brackets .map (Scan.stands_space hrest (Scan.starts_cons (by decide) _))
      (by omega) htail.starts
  | .map (e :: rest), h => by
    intro c floors emitted column j tail hrest hcolumn hj htail
    rw [underKey, List.append_assoc] at hrest
    rw [Legible] at h
    rw [nodeTokens]
    exact ends_map (readsEntries (room - 1) (i + indentStep) (width_pred h.1 hwidth) (e :: rest) h.2)
      (List.cons_ne_nil _ _) (stands_below hrest (ahead_entryLines (i + indentStep) e rest _).starts)
      (Nat.le_succ _) (Nat.lt_succ_of_lt hj) htail

/-- What is written for a tree on a line is scanned as its tokens. -/
theorem readsLine (room : Nat) (i : Nat) (hwidth : i + 2 * room < lineWidth) :
    ∀ t, Legible room t → ReadsLine i t
  | .text s, _ => by
    intro s' floor floors emitted j tail hs hfloor hj htail
    rw [inLine] at hs
    rw [nodeTokens]
    exact Scan.reaches_scalar hs hfloor hfloor hj (by omega) htail
  | .flag b, _ => by
    intro s floor floors emitted j tail hs hfloor hj htail
    rw [inLine] at hs
    rw [nodeTokens]
    exact reaches_flag hs hfloor hj htail
  | .list [], _ => by
    intro s floor floors emitted j tail hs hfloor hj htail
    rw [inLine] at hs
    rw [nodeTokens]
    exact Scan.reaches_brackets .list hs hfloor htail.starts
  | .list (t :: rest), h => by
    intro s floor floors emitted j tail hs hfloor hj htail
    rw [inLine] at hs
    rw [Legible] at h
    rw [nodeTokens, if_neg Bool.false_ne_true]
    -- here the list is a block of its own, which ends with it
    exact ends_list (readsItems (room - 1) i (width_pred h.1 hwidth) (t :: rest) h.2)
      (List.cons_ne_nil _ _) hs hfloor (Nat.lt_of_lt_of_le hj hfloor) htail
  | .map [], _ => by
    intro s floor floors emitted j tail hs hfloor hj htail
    rw [inLine] at hs
    rw [nodeTokens]
    exact Scan.reaches_brackets .map hs hfloor htail.starts
  | .map (e :: rest), h => by
    intro s floor floors emitted j tail hs hfloor hj htail
    rw [inLine] at hs
    rw [Legible] at h
    rw [nodeTokens]
    exact ends_map (readsEntries (room - 1) i (width_pred h.1 hwidth) (e :: rest) h.2)
      (List.cons_ne_nil _ _) hs hfloor (Nat.lt_of_lt_of_le hj hfloor) htail

theorem readsItems (room : Nat) (i : Nat) (hwidth : i + indentStep + 2 * room < lineWidth) :
    ∀ ts, LegibleItems room ts → ReadsItems i ts
  | [], _ => by
    intro _ _ _ _ _ _ _ _ hne
    exact absurd rfl hne
  | t :: rest, h => by
    rw [LegibleItems] at h
    exact readsItems_cons (readsLine room (i + indentStep) hwidth t h.1)
      (readsItems room i hwidth rest h.2)

theorem readsEntries (room : Nat) (i : Nat) (hwidth : i + indentStep + 2 * room < lineWidth) :
    ∀ es, LegibleEntries room es → ReadsEntries i es
  | [], _ => by
    intro _ _ _ _ _ _ _ _ hne
    exact absurd rfl hne
  | (k, t) :: rest, h => by
    rw [LegibleEntries] at h
    exact readsEntries_cons (by omega) (readsUnder room i hwidth t h.2.1)
      (readsLine room (i + indentStep) hwidth t h.2.1) (readsEntries room i hwidth rest h.2.2)

end

/-! ## Documents -/

theorem ahead_nil : Scan.Ahead [] where
  starts := fun _ h => by cases h
  borderless := fun c hc => by
    rw [Cursor.atBorder, Cursor.isBorder, Cursor.isBorder, hc]
    rfl

/-- At the end of the text the outermost block is closed. -/
theorem run_textEnd {fuel : Nat}
    (h : Scan.At s (Scan.block c 1 [0] true emitted)) (hrest : c.rest = []) :
    s.run (fuel + 1) = ⟨(.blockEnd :: emitted).reverse, none⟩ := by
  have hpeek : (Scan.block c 1 [0] true emitted).cursor.peek = textEnd := Cursor.peek_of_nil hrest
  have hunwind : (Scan.block c 1 [0] true emitted).unwind
      ((Scan.block c 1 [0] true emitted).cursor.column + 1) = Scan.block c 1 [0] true emitted :=
    Scan.unwind_holding (Nat.succ_le_succ (Nat.zero_le _))
  have hact : (Scan.block c 1 [0] true emitted).act =
      .ok (Scan.block c 0 [] true (.blockEnd :: emitted), true) := by
    unfold Scan.act
    simp only [hunwind, hpeek]
    rfl
  rw [Scan.run_succ, h.advance.trans hact]
  rfl

/-- The text of a map is scanned to its end if the keys fit, and to a fault if one does not. -/
theorem ends_write {room : Nat} {e : String × Tree} {rest : List (String × Tree)}
    (h : LegibleEntries room (e :: rest)) (hwidth : indentStep + 2 * room < lineWidth) :
    Scan.Ends (.start (write (.map (e :: rest)))) (fitsEntries (e :: rest)) 1 [0]
      ((entryTokens (e :: rest)).reverse ++ [.blockMappingStart]) [] 0 := by
  have hwrite : write (.map (e :: rest)) = entryLines 0 (e :: rest) ++ (newLine 0 ++ []) := by
    rw [write, inLine]
    rfl
  have hahead := ahead_entryLines 0 e rest (newLine 0 ++ [])
  rw [← hwrite] at hahead
  have hstart : Scan.Stands (.start (write (.map (e :: rest)))) 0 [] true []
      (entryLines 0 (e :: rest) ++ (newLine 0 ++ [])) 0 :=
    ⟨.start (write (.map (e :: rest))),
      @Scan.at_spaces (.start (write (.map (e :: rest)))) _ 0 [] none none true [] 0 rfl hahead.starts rfl,
      hwrite, rfl⟩
  exact readsEntries room 0 (by omega) (e :: rest) h (List.cons_ne_nil _ _) hstart
    (.opens [] (Nat.le_refl 0)) Nat.one_pos ahead_nil

/-- **The text of a map whose keys fit is scanned as its tokens.** -/
theorem ofText_write {room : Nat} {e : String × Tree} {rest : List (String × Tree)}
    (h : LegibleEntries room (e :: rest)) (hfits : fitsEntries (e :: rest) = true)
    (hwidth : indentStep + 2 * room < lineWidth) :
    TokenStream.ofText (write (.map (e :: rest))) =
      ⟨.blockMappingStart :: entryTokens (e :: rest) ++ [.blockEnd], none⟩ := by
  have hends := ends_write h hwidth
  rw [hfits] at hends
  obtain ⟨s', ⟨n, hn, hrun⟩, c, hat, hrest, -⟩ := hends
  -- each token took a character at least, so a step is left for the end of the text
  obtain ⟨fuel, hfuel⟩ : ∃ fuel, (write (.map (e :: rest))).length.succ = fuel + 1 + n := by
    have hlength : n ≤ (write (.map (e :: rest))).length := Nat.le_of_add_left_le hn
    exact ⟨(write (.map (e :: rest))).length - n, by omega⟩
  rw [TokenStream.ofText, hfuel, hrun, run_textEnd hat hrest]
  simp

/-- **The text of a map with a key that does not fit is scanned to a fault.** -/
theorem ofText_write_fault {room : Nat} {e : String × Tree} {rest : List (String × Tree)}
    (h : LegibleEntries room (e :: rest)) (hfits : fitsEntries (e :: rest) = false)
    (hwidth : indentStep + 2 * room < lineWidth) :
    (TokenStream.ofText (write (.map (e :: rest)))).fault ≠ none := by
  have hends := ends_write h hwidth
  rw [hfits] at hends
  exact Scan.Fails.run hends (Nat.lt_succ_self _)

end Tree
end Yaml
end Replatform
