import Mathlib.Tactic.Common
import Replatform.Text.Blank
import Replatform.Text.Utf8

/-! # Texts in files

A text and its bytes determine one another: bytes are decoded to a text exactly if they are
those of the text, so decoding refuses all that encoding does not give.  A text without a
carriage return has plain lines already.
-/
namespace Replatform

namespace Utf8

/-! ### Classes of bytes by their values -/

theorem toNat_ofNat_of_lt {n : Nat} (h : n < 256) : (UInt8.ofNat n).toNat = n := by
  rw [UInt8.toNat_ofNat']
  omega

theorem isContinuation_iff {b : UInt8} : isContinuation b = true ↔ 0x80 ≤ b.toNat ∧ b.toNat < 0xC0 := by
  simp [isContinuation, UInt8.le_iff_toNat_le, UInt8.lt_iff_toNat_lt]

theorem isSecond_iff {b c : UInt8} : isSecond b c = true ↔
    0x80 ≤ c.toNat ∧ c.toNat < 0xC0 ∧ (b.toNat = 0xE0 → 0xA0 ≤ c.toNat) ∧
      (b.toNat = 0xED → c.toNat < 0xA0) ∧ (b.toNat = 0xF0 → 0x90 ≤ c.toNat) ∧
      (b.toNat = 0xF4 → c.toNat < 0x90) := by
  have heq : ∀ n : Nat, n < 256 → (b = UInt8.ofNat n ↔ b.toNat = n) := by
    intro n hn
    rw [← UInt8.toNat_inj, toNat_ofNat_of_lt hn]
  have h₁ : (b = 0xE0) ↔ b.toNat = 0xE0 := heq 0xE0 (by decide)
  have h₂ : (b = 0xED) ↔ b.toNat = 0xED := heq 0xED (by decide)
  have h₃ : (b = 0xF0) ↔ b.toNat = 0xF0 := heq 0xF0 (by decide)
  have h₄ : (b = 0xF4) ↔ b.toNat = 0xF4 := heq 0xF4 (by decide)
  simp only [isSecond, Bool.and_eq_true, isContinuation_iff, h₁, h₂, h₃, h₄]
  split_ifs <;> simp [UInt8.le_iff_toNat_le, UInt8.lt_iff_toNat_lt] <;> omega

theorem following?_iff {b : UInt8} {more : Nat} : following? b = some more ↔
    (b.toNat < 0x80 ∧ more = 0) ∨ (0xC2 ≤ b.toNat ∧ b.toNat < 0xE0 ∧ more = 1) ∨
      (0xE0 ≤ b.toNat ∧ b.toNat < 0xF0 ∧ more = 2) ∨ (0xF0 ≤ b.toNat ∧ b.toNat < 0xF5 ∧ more = 3) := by
  simp only [following?, UInt8.lt_iff_toNat_lt]
  split_ifs <;> simp at * <;> omega

theorem startValue_eq (b : UInt8) : startValue b =
    if b.toNat < 0x80 then b.toNat else if b.toNat < 0xE0 then b.toNat - 0xC0
    else if b.toNat < 0xF0 then b.toNat - 0xE0 else b.toNat - 0xF0 := rfl


/-! ### Characters -/

/-- A further byte is read if it may stand there. -/
theorem decodeTail_succ {b : UInt8} {more seen value n : Nat} {bs : List UInt8} :
    decodeTail b (more + 1) seen value bs = .ok n ↔ ∃ c rest, bs = c :: rest ∧
      (if seen = 1 then isSecond b c else isContinuation c) = true ∧
        decodeTail b more (seen + 1) (value * 64 + (c.toNat - 0x80)) rest = .ok n := by
  cases bs with
  | nil => simp [decodeTail]
  | cons c rest =>
    rw [decodeTail]
    by_cases hc : (if seen = 1 then isSecond b c else isContinuation c) = true
    · rw [if_pos hc]
      refine ⟨fun h => ⟨c, rest, rfl, hc, h⟩, ?_⟩
      rintro ⟨_, _, h, -, hn⟩
      cases h
      exact hn
    · rw [if_neg hc]
      refine ⟨fun h => (by cases h), ?_⟩
      rintro ⟨_, _, h, hc', -⟩
      cases h
      exact absurd hc' hc

/-- The bytes of a character, with the powers worked out. -/
theorem encodeChar_eq (c : Char) : encodeChar c =
    if c.toNat < 0x80 then [.ofNat c.toNat]
    else if c.toNat < 0x800 then [.ofNat (0xC0 + c.toNat / 64), .ofNat (0x80 + c.toNat / 1 % 64)]
    else if c.toNat < 0x10000 then
      [.ofNat (0xE0 + c.toNat / 4096), .ofNat (0x80 + c.toNat / 64 % 64),
        .ofNat (0x80 + c.toNat / 1 % 64)]
    else
      [.ofNat (0xF0 + c.toNat / 262144), .ofNat (0x80 + c.toNat / 4096 % 64),
        .ofNat (0x80 + c.toNat / 64 % 64), .ofNat (0x80 + c.toNat / 1 % 64)] := rfl

/-- The bytes of a character are a start byte and as many bytes as it announces, from which the
code is read. -/
theorem decodeTail_encodeChar (c : Char) : ∃ b tail, encodeChar c = b :: tail ∧
    following? b = some tail.length ∧
      ∀ rest, decodeTail b tail.length 1 (startValue b) (tail ++ rest) = .ok c.toNat := by
  have hvalid : c.toNat < 0xD800 ∨ 0xDFFF < c.toNat ∧ c.toNat < 0x110000 := c.valid
  generalize hn : c.toNat = n at hvalid ⊢
  have hbyte : ∀ m, m < 256 → ∃ b : UInt8, UInt8.ofNat m = b ∧ b.toNat = m := fun m hm =>
    ⟨_, rfl, toNat_ofNat_of_lt hm⟩
  obtain ⟨t₀, ht₀, hv₀⟩ := hbyte (0x80 + n / 1 % 64) (by omega)
  obtain ⟨t₁, ht₁, hv₁⟩ := hbyte (0x80 + n / 64 % 64) (by omega)
  obtain ⟨t₂, ht₂, hv₂⟩ := hbyte (0x80 + n / 4096 % 64) (by omega)
  rw [encodeChar_eq, hn, ht₀, ht₁, ht₂]
  split_ifs with h₁ h₂ h₃
  · obtain ⟨b, hb, hv⟩ := hbyte n (by omega)
    refine ⟨b, [], by rw [hb], following?_iff.mpr (by simp; omega), fun rest => ?_⟩
    rw [startValue_eq, if_pos (by omega), hv]
    rfl
  · obtain ⟨b, hb, hv⟩ := hbyte (0xC0 + n / 64) (by omega)
    refine ⟨b, [t₀], by rw [hb], following?_iff.mpr (by simp; omega), fun rest => ?_⟩
    rw [startValue_eq, if_neg (by omega), if_pos (by omega)]
    refine decodeTail_succ.mpr ⟨t₀, rest, rfl, ?_, congrArg Except.ok ?_⟩
    · exact isSecond_iff.mpr (by omega)
    · omega
  · obtain ⟨b, hb, hv⟩ := hbyte (0xE0 + n / 4096) (by omega)
    refine ⟨b, [t₁, t₀], by rw [hb], following?_iff.mpr (by simp; omega), fun rest => ?_⟩
    rw [startValue_eq, if_neg (by omega), if_neg (by omega), if_pos (by omega)]
    refine decodeTail_succ.mpr ⟨t₁, _, rfl, ?_, decodeTail_succ.mpr ⟨t₀, rest, rfl, ?_,
      congrArg Except.ok ?_⟩⟩
    · exact isSecond_iff.mpr (by omega)
    · exact isContinuation_iff.mpr (by omega)
    · omega
  · obtain ⟨b, hb, hv⟩ := hbyte (0xF0 + n / 262144) (by omega)
    refine ⟨b, [t₂, t₁, t₀], by rw [hb], following?_iff.mpr (by simp; omega), fun rest => ?_⟩
    rw [startValue_eq, if_neg (by omega), if_neg (by omega), if_neg (by omega)]
    refine decodeTail_succ.mpr ⟨t₂, _, rfl, ?_, decodeTail_succ.mpr ⟨t₁, _, rfl, ?_,
      decodeTail_succ.mpr ⟨t₀, rest, rfl, ?_, congrArg Except.ok ?_⟩⟩⟩
    · exact isSecond_iff.mpr (by omega)
    · exact isContinuation_iff.mpr (by omega)
    · exact isContinuation_iff.mpr (by omega)
    · omega

/-- What is read as a character are its bytes. -/
theorem encodeChar_of_decodeTail {b : UInt8} {more n : Nat} {bs : List UInt8}
    (hmore : following? b = some more) (hn : decodeTail b more 1 (startValue b) bs = .ok n) :
    b :: bs.take more = encodeChar (Char.ofNat n) := by
  have hbyte : ∀ (c : UInt8) (m : Nat), m = c.toNat → c = UInt8.ofNat m := by
    rintro c _ rfl
    exact UInt8.ofNat_toNat.symm
  have hchar : n < 0xD800 ∨ 0xDFFF < n ∧ n < 0x110000 → (Char.ofNat n).toNat = n := fun h =>
    Text.toNat_ofNat_of_isValidChar h
  rw [startValue_eq] at hn
  obtain ⟨hb, rfl⟩ | ⟨hlow, hhigh, rfl⟩ | ⟨hlow, hhigh, rfl⟩ | ⟨hlow, hhigh, rfl⟩ :=
    following?_iff.mp hmore
  · rw [if_pos hb] at hn
    obtain rfl : b.toNat = n := Except.ok.inj hn
    rw [encodeChar_eq, hchar (by omega), if_pos hb, UInt8.ofNat_toNat]
    rfl
  · rw [if_neg (by omega), if_pos hhigh] at hn
    obtain ⟨c, rest, rfl, hc, hn⟩ := decodeTail_succ.mp hn
    replace hc := isSecond_iff.mp hc
    have hn := Except.ok.inj hn
    rw [encodeChar_eq, hchar (by omega)]
    rw [if_neg (by omega), if_pos (by omega), ← hbyte b _ (by omega), ← hbyte c _ (by omega)]
    rfl
  · rw [if_neg (by omega), if_neg (by omega), if_pos hhigh] at hn
    obtain ⟨c, _, rfl, hc, hn⟩ := decodeTail_succ.mp hn
    obtain ⟨d, rest, rfl, hd, hn⟩ := decodeTail_succ.mp hn
    replace hc := isSecond_iff.mp hc
    replace hd := isContinuation_iff.mp hd
    have hn := Except.ok.inj hn
    rw [encodeChar_eq, hchar (by omega)]
    rw [if_neg (by omega), if_neg (by omega), if_pos (by omega), ← hbyte b _ (by omega),
      ← hbyte c _ (by omega), ← hbyte d _ (by omega)]
    rfl
  · rw [if_neg (by omega), if_neg (by omega), if_neg (by omega)] at hn
    obtain ⟨c, _, rfl, hc, hn⟩ := decodeTail_succ.mp hn
    obtain ⟨d, _, rfl, hd, hn⟩ := decodeTail_succ.mp hn
    obtain ⟨e, rest, rfl, he, hn⟩ := decodeTail_succ.mp hn
    replace hc := isSecond_iff.mp hc
    replace hd := isContinuation_iff.mp hd
    replace he := isContinuation_iff.mp he
    have hn := Except.ok.inj hn
    rw [encodeChar_eq, hchar (by omega)]
    rw [if_neg (by omega), if_neg (by omega), if_neg (by omega), ← hbyte b _ (by omega),
      ← hbyte c _ (by omega), ← hbyte d _ (by omega), ← hbyte e _ (by omega)]
    rfl

/-! ### Texts -/

/-- The bytes of a character are passed over once it has been read. -/
theorem decodeFrom_skip (pos skip : Nat) (bs : List UInt8) :
    decodeFrom pos skip bs = decodeFrom (pos + skip) 0 (bs.drop skip) := by
  induction skip generalizing pos bs with
  | zero => rfl
  | succ skip ih =>
    cases bs with
    | nil => rfl
    | cons b rest =>
      rw [decodeFrom, ih (pos + 1) rest]
      congr 1
      omega

/-- Bytes are decoded to a text exactly if they are those of the text. -/
theorem decodeFrom_eq_ok {pos : Nat} {bs : List UInt8} {cs : List Char} :
    decodeFrom pos 0 bs = .ok cs ↔ bs = encode cs := by
  constructor
  · intro h
    induction hlen : bs.length using Nat.strongRecOn generalizing pos bs cs with
    | _ len ih =>
      cases bs with
      | nil =>
        obtain rfl : [] = cs := Except.ok.inj h
        rfl
      | cons b rest =>
        rw [decodeFrom] at h
        cases hmore : following? b with
        | none =>
          rw [hmore] at h
          cases h
        | some more =>
          simp only [hmore] at h
          cases hn : decodeTail b more 1 (startValue b) rest with
          | error e =>
            rw [hn] at h
            cases h
          | ok n =>
            simp only [hn] at h
            cases hcs : decodeFrom (pos + 1) more rest with
            | error e =>
              rw [hcs] at h
              cases h
            | ok ds =>
              rw [hcs] at h
              obtain rfl : Char.ofNat n :: ds = cs := Except.ok.inj h
              rw [decodeFrom_skip] at hcs
              have hrest := ih _ (by rw [← hlen, List.length_drop, List.length_cons]; omega) hcs rfl
              rw [encode, List.flatMap_cons, ← encodeChar_of_decodeTail hmore hn]
              exact congrArg (b :: ·) ((List.take_append_drop more rest).symm.trans
                (congrArg (rest.take more ++ ·) hrest))
  · rintro rfl
    induction cs generalizing pos with
    | nil => rfl
    | cons c rest ih =>
      obtain ⟨b, tail, hbytes, hmore, hread⟩ := decodeTail_encodeChar c
      rw [encode, List.flatMap_cons, hbytes, List.cons_append, decodeFrom, hmore]
      simp only [hread, decodeFrom_skip (pos + 1) tail.length, List.drop_left]
      have hrest : decodeFrom (pos + 1 + tail.length) 0 (rest.flatMap encodeChar) = .ok rest := ih
      rw [hrest, Char.ofNat_toNat]
      rfl

theorem decode_eq_ok {bs : List UInt8} {cs : List Char} : decode bs = .ok cs ↔ bs = encode cs :=
  decodeFrom_eq_ok

theorem decode_encode (cs : List Char) : decode (encode cs) = .ok cs := decode_eq_ok.mpr rfl

theorem encode_injective {cs ds : List Char} (h : encode cs = encode ds) : cs = ds :=
  Except.ok.inj ((decode_eq_ok.mpr rfl).symm.trans (decode_eq_ok.mpr h))

end Utf8

namespace Text

theorem plainLines_of_notMem {cs : List Char} (h : '\r' ∉ cs) : plainLines cs = cs := by
  induction cs with
  | nil => rfl
  | cons c rest ih =>
    obtain ⟨hc, hrest⟩ := List.ne_and_not_mem_of_not_mem_cons h
    rw [plainLines, ih hrest]
    · rintro rest' rfl
      exact absurd rfl hc
    · rintro rfl
      exact hc rfl

end Text
end Replatform
