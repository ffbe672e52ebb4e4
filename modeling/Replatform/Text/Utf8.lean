import Replatform.Text.Quoted

/-! # UTF-8

Texts as bytes and back.  A text with a surrogate has no bytes.  Decoding refuses
over-long forms, surrogates and code points beyond the last, and says where the first
fault is and how many bytes it spans.
-/
namespace Replatform
namespace Utf8

/-- Why bytes are not UTF-8. -/
inductive Reason where
  | invalidStart
  | invalidContinuation
  | unexpectedEnd
  deriving DecidableEq, Repr

/-- The wording of a reason. -/
def Reason.message : Reason → String
  | .invalidStart => "invalid start byte"
  | .invalidContinuation => "invalid continuation byte"
  | .unexpectedEnd => "unexpected end of data"

/-- The first fault of a byte string: the bytes from `start` on, `span` of them. -/
structure Fault where
  start : Nat
  span : Nat
  firstByte : UInt8
  reason : Reason
  deriving DecidableEq, Repr

/-- The wording of a fault of bytes in the encoding that goes by the name `codec`.  One byte is
shown by its value, several by their positions. -/
def undecodable (codec : String) (start span : Nat) (firstByte : UInt8) (reason : String) : String :=
  let place :=
    if span = 1 then
      "byte 0x" ++ String.ofList (Text.hex 2 firstByte.toNat) ++ " in position " ++ toString start
    else "bytes in position " ++ toString start ++ "-" ++ toString (start + span - 1)
  quoted codec ++ " codec can't decode " ++ place ++ ": " ++ reason

/-- The wording of a fault. -/
def Fault.message (f : Fault) : String := undecodable "utf-8" f.start f.span f.firstByte f.reason.message

/-- The first surrogates of a text: the codes from `start` on, `code` and `more` behind it. -/
structure Obstacle where
  start : Nat
  code : Nat
  more : Nat
  deriving DecidableEq, Repr

/-- The wording of the fault that a text has no bytes. -/
def Obstacle.message (o : Obstacle) : String :=
  let place :=
    if o.more = 0 then
      "character " ++ String.ofList (Text.quoted (Text.ofCode o.code)) ++ " in position " ++
        toString o.start
    else "characters in position " ++ toString o.start ++ "-" ++ toString (o.start + o.more)
  "'utf-8' codec can't encode " ++ place ++ ": surrogates not allowed"

/-- What keeps a text from having bytes. -/
def obstacle? (cs : List Char) : Option Obstacle :=
  let ns := Text.codes cs
  match ns.dropWhile (!Text.isSurrogate ·) with
  | [] => none
  | code :: rest =>
    some ⟨(ns.takeWhile (!Text.isSurrogate ·)).length, code, (rest.takeWhile Text.isSurrogate).length⟩

/-- The bytes of one character. -/
def encodeChar (c : Char) : List UInt8 :=
  let n := c.toNat
  let tail (k : Nat) : UInt8 := UInt8.ofNat (0x80 + n / Nat.pow 64 k % 64)
  if n < 0x80 then [UInt8.ofNat n]
  else if n < 0x800 then [UInt8.ofNat (0xC0 + n / 64), tail 0]
  else if n < 0x10000 then [UInt8.ofNat (0xE0 + n / Nat.pow 64 2), tail 1, tail 0]
  else [UInt8.ofNat (0xF0 + n / Nat.pow 64 3), tail 2, tail 1, tail 0]

/-- The bytes of characters. -/
def encode (cs : List Char) : List UInt8 := cs.flatMap encodeChar

/-- `b` continues a character. -/
def isContinuation (b : UInt8) : Bool := 0x80 ≤ b && b < 0xC0

/-- The bytes that may follow the start byte `b`: a narrower range than that of
continuation bytes where a form would be over-long, a surrogate or too big. -/
def isSecond (b second : UInt8) : Bool :=
  isContinuation second &&
    (if b = 0xE0 then 0xA0 ≤ second
     else if b = 0xED then second < 0xA0
     else if b = 0xF0 then 0x90 ≤ second
     else if b = 0xF4 then second < 0x90
     else true)

/-- How many bytes follow the start byte `b`, or `none` if none starts with it. -/
def following? (b : UInt8) : Option Nat :=
  if b < 0x80 then some 0
  else if b < 0xC2 then none
  else if b < 0xE0 then some 1
  else if b < 0xF0 then some 2
  else if b < 0xF5 then some 3
  else none

/-- The value that a start byte contributes. -/
def startValue (b : UInt8) : Nat :=
  if b < 0x80 then b.toNat
  else if b < 0xE0 then b.toNat - 0xC0
  else if b < 0xF0 then b.toNat - 0xE0
  else b.toNat - 0xF0

/-- Reads `more` further bytes of the character that starts with `b`; `seen` bytes have
been read and `value` is their value. -/
def decodeTail (b : UInt8) : Nat → Nat → Nat → List UInt8 → Except (Nat × Reason) Nat
  | 0, _, value, _ => .ok value
  | _ + 1, seen, _, [] => .error (seen, .unexpectedEnd)
  | more + 1, seen, value, c :: rest =>
    if (if seen = 1 then isSecond b c else isContinuation c) then
      decodeTail b more (seen + 1) (value * 64 + (c.toNat - 0x80)) rest
    else .error (seen, .invalidContinuation)

/-- Decodes the bytes from position `pos` on; the first `skip` of them belong to the
character before. -/
def decodeFrom (pos : Nat) : Nat → List UInt8 → Except Fault (List Char)
  | _, [] => .ok []
  | skip + 1, _ :: rest => decodeFrom (pos + 1) skip rest
  | 0, b :: rest =>
    match following? b with
    | none => .error ⟨pos, 1, b, .invalidStart⟩
    | some more =>
      match decodeTail b more 1 (startValue b) rest with
      | .error (span, reason) => .error ⟨pos, span, b, reason⟩
      | .ok value => do
        let cs ← decodeFrom (pos + 1) more rest
        return Char.ofNat value :: cs

/-- The characters of a byte string. -/
def decode (bs : List UInt8) : Except Fault (List Char) := decodeFrom 0 0 bs

end Utf8
end Replatform
