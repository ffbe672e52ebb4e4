/-! # Surrogates in texts

A text is made of codes, and an escape in a file may put a surrogate among them: half of
a pair, and the code of no character.  Such a text is kept as a string all the same.
The last character there is serves as a guard: before a stand-in it says that a surrogate
is meant, and a guard that is meant itself is written twice.  So each text has one
string (`codes_ofCodes`), and in all other texts a character stands for itself.
-/
namespace Replatform
namespace Text

/-- The character in front of a stand-in. -/
def guard : Char := Char.ofNat 0x10FFFF

/-- The code is half of a pair. -/
def isSurrogate (code : Nat) : Bool := 0xD800 ≤ code && code < 0xE000

/-- The code of the stand-in for a surrogate lies this far above that of the surrogate. -/
def standInOffset : Nat := 0xF0000 - 0xD800

/-- The characters of a code. -/
def ofCode (code : Nat) : List Char :=
  if isSurrogate code then [guard, Char.ofNat (code + standInOffset)]
  else if code = guard.toNat then [guard, guard]
  else [Char.ofNat code]

/-- The string of a text. -/
def ofCodes (ns : List Nat) : List Char := ns.flatMap ofCode

/-- The string of a text without surrogates. -/
def ofChars (cs : List Char) : List Char := cs.flatMap fun c => if c = guard then [guard, guard] else [c]

/-- The text of a string. -/
def codes : List Char → List Nat
  | [] => []
  | [c] => [c.toNat]
  | c :: d :: rest =>
    if c = guard then (if d = guard then d.toNat else d.toNat - standInOffset) :: codes rest
    else c.toNat :: codes (d :: rest)

/-- The text holds a surrogate. -/
def hasSurrogate (cs : List Char) : Bool := (codes cs).any isSurrogate

/-- The characters of a text; a surrogate is none. -/
def chars (cs : List Char) : List Char :=
  ((codes cs).filter (!isSurrogate ·)).map Char.ofNat

/-- A text as one of characters: for a surrogate, whose three bytes are no character, stand three
replacement characters. -/
def mended (s : String) : String :=
  String.ofList ((codes s.toList).flatMap fun n =>
    if isSurrogate n then List.replicate 3 '\ufffd' else ofCode n)

theorem codes_guard (d : Char) (rest : List Char) :
    codes (guard :: d :: rest) = (if d = guard then d.toNat else d.toNat - standInOffset) :: codes rest := by
  simp [codes]

theorem codes_cons {c : Char} (h : c ≠ guard) (rest : List Char) :
    codes (c :: rest) = c.toNat :: codes rest := by
  cases rest <;> simp [codes, h]

theorem toNat_ofNat_of_isValidChar {n : Nat} (h : n.isValidChar) : (Char.ofNat n).toNat = n := by
  rw [Char.ofNat, dif_pos h]
  rfl

theorem codes_ofCode_append {n : Nat} (h : n < 0x110000) (rest : List Char) :
    codes (ofCode n ++ rest) = n :: codes rest := by
  have hguard : guard.toNat = 0x10FFFF := by decide
  unfold ofCode
  by_cases hs : isSurrogate n = true
  · have hn : 0xD800 ≤ n ∧ n < 0xE000 := by simpa [isSurrogate] using hs
    have hv : (n + standInOffset).isValidChar := by unfold standInOffset Nat.isValidChar; omega
    have hd : (Char.ofNat (n + standInOffset)).toNat = n + standInOffset := toNat_ofNat_of_isValidChar hv
    have hne : Char.ofNat (n + standInOffset) ≠ guard := by
      intro e
      rw [e, hguard] at hd
      unfold standInOffset at hd
      omega
    simp [hs, codes_guard, hne, hd]
  · simp only [hs, Bool.false_eq_true, if_false]
    by_cases hg : n = guard.toNat
    · simp [hg, codes_guard]
    · have hn : ¬(0xD800 ≤ n ∧ n < 0xE000) := by simpa [isSurrogate] using hs
      have hd : (Char.ofNat n).toNat = n :=
        toNat_ofNat_of_isValidChar (by unfold Nat.isValidChar; omega)
      have hne : Char.ofNat n ≠ guard := fun e => hg (by rw [← e, hd])
      simp [hg, codes_cons hne, hd]

/-- The string of a text gives the text back. -/
theorem codes_ofCodes {ns : List Nat} (h : ∀ n ∈ ns, n < 0x110000) : codes (ofCodes ns) = ns := by
  induction ns with
  | nil => rfl
  | cons n rest ih =>
    have hn := h n (by simp)
    have hrest := ih fun m hm => h m (by simp [hm])
    simp only [ofCodes, List.flatMap_cons] at hrest ⊢
    rw [codes_ofCode_append hn, hrest]

end Text
end Replatform
