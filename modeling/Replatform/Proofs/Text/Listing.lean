import Replatform.Proofs.Text.Surrogate
import Replatform.Text.Blank

/-! # Lists in a text

A text lists items if they stand in it in order, with white space around each, and a line ends
between any two neighbours; blank lines and white space in a line do not matter, nor does which of
the line ends is used.  Reading the filled lines of such a text gives the items back.  The lines
are followed through what they still hold when they are trimmed, so that it does not matter at
which of the line ends in a gap a line is taken to end.
-/
namespace Replatform
namespace Text

/-- The text is white space alone. -/
def IsGap (cs : List Char) : Prop := ∀ c ∈ cs, isBlank c = true

/-- The text can be an item: it is in one line, it is not empty, and no white space is around it. -/
structure IsItem (item : List Char) : Prop where
  nonempty : item ≠ []
  unbroken : ∀ c ∈ item, isLineEnd c = false
  start : ∀ c ∈ item.head?, isBlank c = false
  stop : ∀ c ∈ item.getLast?, isBlank c = false

/-- Items behind a first gap, each with the gap behind it. -/
def listing (first : List Char) (rows : List (List Char × List Char)) : List Char :=
  first ++ rows.flatMap fun row => row.1 ++ row.2

/-- Gaps are white space, and a line ends in each gap between two items. -/
structure IsListing (first : List Char) (rows : List (List Char × List Char)) : Prop where
  first : IsGap first
  items : ∀ row ∈ rows, IsItem row.1
  gaps : ∀ row ∈ rows, IsGap row.2
  breaks : ∀ row ∈ rows.dropLast, ∃ c ∈ row.2, isLineEnd c = true

-- A quantifier over the characters of a text must not be decided over all characters there are.
instance (cs : List Char) : Decidable (IsGap cs) :=
  decidable_of_iff (cs.all isBlank = true) List.all_eq_true

instance (item : List Char) : Decidable (IsItem item) :=
  decidable_of_iff (item ≠ [] ∧ item.all (!isLineEnd ·) = true ∧
      item.head?.all (!isBlank ·) = true ∧ item.getLast?.all (!isBlank ·) = true)
    ⟨fun ⟨hnonempty, hunbroken, hstart, hstop⟩ =>
      ⟨hnonempty, by simpa using hunbroken, by simpa [Option.all_eq_true] using hstart,
        by simpa [Option.all_eq_true] using hstop⟩,
      fun h => ⟨h.nonempty, by simpa using h.unbroken, by simpa [Option.all_eq_true] using h.start,
        by simpa [Option.all_eq_true] using h.stop⟩⟩

instance (first : List Char) (rows : List (List Char × List Char)) :
    Decidable (IsListing first rows) :=
  decidable_of_iff (IsGap first ∧ (∀ row ∈ rows, IsItem row.1) ∧ (∀ row ∈ rows, IsGap row.2) ∧
      ∀ row ∈ rows.dropLast, row.2.any isLineEnd = true)
    ⟨fun ⟨hfirst, hitems, hgaps, hbreaks⟩ =>
      ⟨hfirst, hitems, hgaps, fun row hrow => List.any_eq_true.mp (hbreaks row hrow)⟩,
      fun h => ⟨h.first, h.items, h.gaps, fun row hrow => List.any_eq_true.mpr (h.breaks row hrow)⟩⟩

/-! ## Trimming -/

theorem isGap_nil : IsGap [] := fun _ hc => absurd hc List.not_mem_nil

theorem IsGap.reverse {gap : List Char} (h : IsGap gap) : IsGap gap.reverse :=
  fun c hc => h c (List.mem_reverse.mp hc)

theorem IsGap.head {c : Char} {gap : List Char} (h : IsGap (c :: gap)) : isBlank c = true :=
  h c List.mem_cons_self

theorem IsGap.tail {c : Char} {gap : List Char} (h : IsGap (c :: gap)) : IsGap gap :=
  fun d hd => h d (List.mem_cons_of_mem c hd)

theorem trim_gap {gap : List Char} (h : IsGap gap) : trim gap = [] := by
  have hstart : trimStart gap = [] := by
    rw [trimStart, ← List.append_nil gap, List.dropWhile_append_of_pos h, List.dropWhile_nil]
  rw [trim, hstart]
  rfl

/-- White space at the end of a line is trimmed off. -/
theorem trim_concat {c : Char} (h : isBlank c = true) (cs : List Char) :
    trim (cs ++ [c]) = trim cs := by
  unfold trim trimStart
  rw [List.dropWhile_append]
  split
  · rename_i hnil
    rw [List.isEmpty_iff.mp hnil, List.dropWhile_cons_of_pos h]
    rfl
  · rw [trimEnd, List.reverse_append, List.reverse_singleton, List.singleton_append,
      List.dropWhile_cons_of_pos h]
    rfl

theorem IsItem.trim_eq {item : List Char} (h : IsItem item) {gap : List Char} (hgap : IsGap gap) :
    trim (gap ++ item) = item := by
  have hstart : trimStart (gap ++ item) = item := by
    obtain ⟨c, cs, rfl⟩ := List.exists_cons_of_ne_nil h.nonempty
    have hc : ¬isBlank c = true := by simp [h.start c rfl]
    rw [trimStart, List.dropWhile_append_of_pos hgap, List.dropWhile_cons_of_neg hc]
  have hlast : ¬isBlank (item.getLast h.nonempty) = true := by
    simp [h.stop _ (List.getLast?_eq_some_getLast h.nonempty)]
  rw [trim, hstart, trimEnd, ← List.dropLast_concat_getLast h.nonempty, List.reverse_append,
    List.reverse_singleton, List.singleton_append, List.dropWhile_cons_of_neg hlast,
    List.reverse_cons, List.reverse_reverse]

/-! ## Lines -/

/-- A carriage return and the line feed behind it are one line end. -/
theorem linesFrom_pair (line rest : List Char) :
    linesFrom line ('\r' :: '\n' :: rest) = line.reverse :: linesFrom [] rest := rfl

theorem linesFrom_cons {c : Char} {rest : List Char} (h : ¬(c = '\r' ∧ rest.head? = some '\n'))
    (line : List Char) : linesFrom line (c :: rest) =
      if isLineEnd c then line.reverse :: linesFrom [] rest else linesFrom (c :: line) rest := by
  -- only on the left: the right side cuts lines as well
  conv => lhs; unfold linesFrom
  split
  · rename_i heq
    cases heq
  · rename_i heq
    obtain ⟨rfl, rfl⟩ := List.cons.inj heq
    exact absurd ⟨rfl, rfl⟩ h
  · rename_i heq
    obtain ⟨rfl, rfl⟩ := List.cons.inj heq
    rfl

/-- What a line still holds when it is trimmed, if anything; `line` is in reverse. -/
def kept (line : List Char) : List (List Char) := [trim line.reverse].filter fun l => !l.isEmpty

/-- The filled lines of a text behind the part of a line that has been read, which is in reverse. -/
def filledFrom (line cs : List Char) : List (List Char) :=
  ((linesFrom line cs).map trim).filter fun l => !l.isEmpty

theorem kept_gap {line : List Char} (h : IsGap line) : kept line = [] := by
  rw [kept, trim_gap h.reverse]
  rfl

theorem kept_cons {c : Char} (h : isBlank c = true) (line : List Char) :
    kept (c :: line) = kept line := by
  rw [kept, List.reverse_cons, trim_concat h]
  rfl

theorem IsItem.kept_eq {item line : List Char} (h : IsItem item) (hline : IsGap line) :
    kept (item.reverse ++ line) = [item] := by
  rw [kept, List.reverse_append, List.reverse_reverse, h.trim_eq hline.reverse]
  simp [h.nonempty]

theorem filledFrom_nil (line : List Char) : filledFrom line [] = kept line := by
  cases line with
  | nil => rfl
  | cons c line => rfl

theorem filledFrom_unbroken {c : Char} (h : isLineEnd c = false) (line rest : List Char) :
    filledFrom line (c :: rest) = filledFrom (c :: line) rest := by
  have hreturn : ¬(c = '\r' ∧ rest.head? = some '\n') := by
    rintro ⟨rfl, -⟩
    exact absurd h (by decide)
  rw [filledFrom, linesFrom_cons hreturn, h]
  rfl

theorem filledFrom_of_lines {line cs rest : List Char}
    (h : linesFrom line cs = line.reverse :: linesFrom [] rest) :
    filledFrom line cs = kept line ++ filledFrom [] rest := by
  rw [filledFrom, h, List.map_cons, ← List.singleton_append, List.filter_append]
  rfl

/-- It does not matter whether a line feed behind a carriage return ends a line of its own: that
line would be blank. -/
theorem filledFrom_lineEnd {c : Char} (h : isLineEnd c = true) (line rest : List Char) :
    filledFrom line (c :: rest) = kept line ++ filledFrom [] rest := by
  by_cases hpair : c = '\r' ∧ rest.head? = some '\n'
  · obtain ⟨rfl, hfeed⟩ := hpair
    obtain ⟨rest', rfl⟩ := List.head?_eq_some_iff.mp hfeed
    have hblank : filledFrom [] ('\n' :: rest') = kept [] ++ filledFrom [] rest' :=
      filledFrom_of_lines (linesFrom_cons (fun hreturn => absurd hreturn.1 (by decide)) [])
    rw [hblank, kept_gap isGap_nil, List.nil_append]
    exact filledFrom_of_lines (linesFrom_pair line rest')
  · refine filledFrom_of_lines ?_
    rw [linesFrom_cons hpair, if_pos h]

theorem filledFrom_run {run : List Char} (h : ∀ c ∈ run, isLineEnd c = false)
    (line rest : List Char) :
    filledFrom line (run ++ rest) = filledFrom (run.reverse ++ line) rest := by
  induction run generalizing line with
  | nil => rfl
  | cons c run ih =>
    rw [List.cons_append, filledFrom_unbroken (h c List.mem_cons_self),
      ih (fun d hd => h d (List.mem_cons_of_mem c hd)), List.reverse_cons, List.append_assoc,
      List.singleton_append]

/-! ## Gaps -/

/-- A gap in a blank line leaves a blank line. -/
theorem exists_filledFrom_gap {line gap : List Char} (hline : IsGap line) (h : IsGap gap)
    (rest : List Char) :
    ∃ pad, IsGap pad ∧ filledFrom line (gap ++ rest) = filledFrom pad rest := by
  induction gap generalizing line with
  | nil => exact ⟨line, hline, rfl⟩
  | cons c gap ih =>
    rw [List.cons_append]
    cases hc : isLineEnd c with
    | true =>
      rw [filledFrom_lineEnd hc, kept_gap hline, List.nil_append]
      exact ih isGap_nil h.tail
    | false =>
      rw [filledFrom_unbroken hc]
      exact ih (List.forall_mem_cons.mpr ⟨h.head, hline⟩) h.tail

/-- A gap in which a line ends gives what the line held, and leaves a blank line. -/
theorem exists_filledFrom_break {gap : List Char} (h : IsGap gap)
    (hbreak : ∃ c ∈ gap, isLineEnd c = true) (line rest : List Char) :
    ∃ pad, IsGap pad ∧ filledFrom line (gap ++ rest) = kept line ++ filledFrom pad rest := by
  induction gap generalizing line with
  | nil =>
    obtain ⟨c, hc, -⟩ := hbreak
    exact absurd hc List.not_mem_nil
  | cons c gap ih =>
    rw [List.cons_append]
    cases hc : isLineEnd c with
    | true =>
      obtain ⟨pad, hpad, heq⟩ := exists_filledFrom_gap isGap_nil h.tail rest
      exact ⟨pad, hpad, by rw [filledFrom_lineEnd hc, heq]⟩
    | false =>
      have hlater : ∃ d ∈ gap, isLineEnd d = true := by
        obtain ⟨d, hd, hend⟩ := hbreak
        rcases List.mem_cons.mp hd with rfl | hd
        · rw [hc] at hend
          cases hend
        · exact ⟨d, hd, hend⟩
      -- the white space before the line end adds nothing to what the line holds
      obtain ⟨pad, hpad, heq⟩ := ih h.tail hlater (c :: line)
      exact ⟨pad, hpad, by rw [filledFrom_unbroken hc, heq, kept_cons h.head]⟩

/-- A gap at the end gives what the line held, whether a line ends in it or not. -/
theorem filledFrom_gap {gap : List Char} (h : IsGap gap) (line : List Char) :
    filledFrom line gap = kept line := by
  induction gap generalizing line with
  | nil => exact filledFrom_nil line
  | cons c gap ih =>
    cases hc : isLineEnd c with
    | true =>
      rw [filledFrom_lineEnd hc, ih h.tail, kept_gap isGap_nil, List.append_nil]
    | false => rw [filledFrom_unbroken hc, ih h.tail, kept_cons h.head]

/-! ## Listings -/

/-- The items behind a blank line are read one after the other: the gap behind each but the last
ends its line. -/
theorem filledFrom_rows {rows : List (List Char × List Char)} (hitems : ∀ row ∈ rows, IsItem row.1)
    (hgaps : ∀ row ∈ rows, IsGap row.2)
    (hbreaks : ∀ row ∈ rows.dropLast, ∃ c ∈ row.2, isLineEnd c = true)
    {line : List Char} (hline : IsGap line) :
    filledFrom line (rows.flatMap fun row => row.1 ++ row.2) = rows.map Prod.fst := by
  -- the gap behind an item leaves a blank line, of whatever width, in which the next item stands
  induction rows generalizing line with
  | nil => rw [List.flatMap_nil, filledFrom_nil, kept_gap hline, List.map_nil]
  | cons row rows ih =>
    obtain ⟨item, gap⟩ := row
    have hitem : IsItem item := hitems _ List.mem_cons_self
    have hgap : IsGap gap := hgaps _ List.mem_cons_self
    rw [List.flatMap_cons, List.append_assoc, filledFrom_run hitem.unbroken, List.map_cons]
    cases rows with
    | nil => rw [List.flatMap_nil, List.append_nil, filledFrom_gap hgap, hitem.kept_eq hline,
        List.map_nil]
    | cons next rows =>
      have hbreak : ∃ c ∈ gap, isLineEnd c = true := hbreaks (item, gap) List.mem_cons_self
      obtain ⟨pad, hpad, heq⟩ := exists_filledFrom_break hgap hbreak (item.reverse ++ line)
        ((next :: rows).flatMap fun row => row.1 ++ row.2)
      rw [heq, hitem.kept_eq hline, List.singleton_append,
        ih (fun row hrow => hitems row (List.mem_cons_of_mem _ hrow))
          (fun row hrow => hgaps row (List.mem_cons_of_mem _ hrow))
          (fun row hrow => hbreaks row (List.mem_cons_of_mem _ hrow)) hpad]

/-- **The filled lines of a listing are its items**, in order. -/
theorem filledLines_listing {first : List Char} {rows : List (List Char × List Char)}
    (h : IsListing first rows) : filledLines (listing first rows) = rows.map Prod.fst := by
  obtain ⟨pad, hpad, heq⟩ := exists_filledFrom_gap isGap_nil h.first
    (rows.flatMap fun row => row.1 ++ row.2)
  exact heq.trans (filledFrom_rows h.items h.gaps h.breaks hpad)

/-! ## Decoded texts

What has been decoded has line feeds for all line ends, and the guard stands in it twice.  Neither
makes a difference to the filled lines. -/

theorem filledFrom_plainLines (line cs : List Char) :
    filledFrom line (plainLines cs) = filledFrom line cs := by
  have hreturn : isLineEnd '\r' = true := rfl
  have hfeed : isLineEnd '\n' = true := rfl
  induction cs using plainLines.induct generalizing line with
  | case1 rest ih =>
    rw [plainLines, filledFrom_lineEnd hfeed, filledFrom_lineEnd hreturn, filledFrom_lineEnd hfeed,
      kept_gap isGap_nil, List.nil_append, ih]
  | case2 rest hpair ih =>
    rw [plainLines, filledFrom_lineEnd hfeed, filledFrom_lineEnd hreturn, ih]
    exact hpair
  | case3 c rest hpair hc ih =>
    rw [plainLines]
    · cases hend : isLineEnd c with
      | true => rw [filledFrom_lineEnd hend, filledFrom_lineEnd hend, ih]
      | false => rw [filledFrom_unbroken hend, filledFrom_unbroken hend, ih]
    · exact hpair
    · exact hc
  | case4 => rfl

theorem ofChars_cons (c : Char) (cs : List Char) :
    ofChars (c :: cs) = (if c = guard then [guard, guard] else [c]) ++ ofChars cs := rfl

theorem ofChars_reverse (cs : List Char) : ofChars cs.reverse = (ofChars cs).reverse := by
  induction cs with
  | nil => rfl
  | cons c cs ih =>
    have hsame : (ofChars [c]).reverse = ofChars [c] := by
      rw [ofChars_cons]
      split <;> rfl
    rw [List.reverse_cons, ofChars_append, ih, ← hsame, ← List.reverse_append, ← ofChars_append,
      List.singleton_append]

theorem dropWhile_isBlank_ofChars (cs : List Char) :
    (ofChars cs).dropWhile isBlank = ofChars (cs.dropWhile isBlank) := by
  induction cs with
  | nil => rfl
  | cons c cs ih =>
    rw [ofChars_cons]
    by_cases hc : c = guard
    · subst hc
      rfl
    · rw [if_neg hc, List.singleton_append]
      cases hblank : isBlank c with
      | true => rw [List.dropWhile_cons_of_pos hblank, List.dropWhile_cons_of_pos hblank, ih]
      | false =>
        have hkept : ¬isBlank c = true := by simp [hblank]
        rw [List.dropWhile_cons_of_neg hkept, List.dropWhile_cons_of_neg hkept, ofChars_cons,
          if_neg hc, List.singleton_append]

theorem trim_ofChars (cs : List Char) : trim (ofChars cs) = ofChars (trim cs) := by
  rw [trim, trimStart, trimEnd, dropWhile_isBlank_ofChars, ← ofChars_reverse,
    dropWhile_isBlank_ofChars, ← ofChars_reverse]
  rfl

theorem kept_ofChars (line : List Char) : kept (ofChars line) = (kept line).map ofChars := by
  rw [kept, ← ofChars_reverse, trim_ofChars, kept]
  cases trim line.reverse with
  | nil => rfl
  | cons c cs =>
    have hfilled : ofChars (c :: cs) ≠ [] := by
      rw [ofChars_cons]
      split <;> exact List.cons_ne_nil _ _
    simp [hfilled]

theorem filledFrom_ofChars (line cs : List Char) :
    filledFrom (ofChars line) (ofChars cs) = (filledFrom line cs).map ofChars := by
  induction cs generalizing line with
  | nil => exact (filledFrom_nil _).trans ((kept_ofChars line).trans (by rw [filledFrom_nil]))
  | cons c cs ih =>
    rw [ofChars_cons]
    by_cases hc : c = guard
    · have hguard : isLineEnd guard = false := by decide
      subst hc
      rw [if_pos rfl, List.cons_append, List.singleton_append, filledFrom_unbroken hguard,
        filledFrom_unbroken hguard, filledFrom_unbroken hguard, ← ih]
      rfl
    · rw [if_neg hc, List.singleton_append]
      cases hend : isLineEnd c with
      | true =>
        rw [filledFrom_lineEnd hend, filledFrom_lineEnd hend, List.map_append, kept_ofChars, ← ih]
        rfl
      | false =>
        rw [filledFrom_unbroken hend, filledFrom_unbroken hend, ← ih, ofChars_cons, if_neg hc,
          List.singleton_append]

/-- The filled lines of a decoded text are those of the text. -/
theorem filledLines_decoded (cs : List Char) :
    filledLines (ofChars (plainLines cs)) = (filledLines cs).map ofChars :=
  (filledFrom_ofChars [] (plainLines cs)).trans (by rw [filledFrom_plainLines]; rfl)

end Text
end Replatform
