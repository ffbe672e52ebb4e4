import Replatform.Text.CodePage
import Replatform.Text.Utf8

/-! # Encodings by name

The encodings that a text may be kept in, and how bytes are decoded by each.  Where bytes
have no text, the first fault is told, as for UTF-8.
-/
namespace Replatform
namespace Text

/-- The order of the bytes of a number. -/
inductive ByteOrder where
  | little
  | big
  deriving DecidableEq, Repr

/-- An encoding of texts as bytes. -/
inductive Encoding where
  | utf8
  /-- UTF-8 with an order mark in front of the text, which may be missing. -/
  | markedUtf8
  | ascii
  | page (page : CodePage)
  /-- Units of two bytes; without an order, the text has to start with an order mark. -/
  | utf16 (order : Option ByteOrder)
  /-- Units of four bytes; without an order, the text has to start with an order mark. -/
  | utf32 (order : Option ByteOrder)

namespace Encoding

/-- Why bytes have no text. -/
inductive Reason where
  | notAscii
  | undefined
  /-- The bytes end within a unit. -/
  | truncated
  /-- The bytes end behind the first half of a pair. -/
  | unexpectedEnd
  /-- The second half of a pair comes first. -/
  | halfPair
  /-- The first half of a pair is followed by something else. -/
  | brokenPair
  | surrogate
  | tooBig
  deriving DecidableEq, Repr

/-- The wording of a reason. -/
def Reason.message : Reason → String
  | .notAscii => "ordinal not in range(128)"
  | .undefined => "character maps to <undefined>"
  | .truncated => "truncated data"
  | .unexpectedEnd => "unexpected end of data"
  | .halfPair => "illegal encoding"
  | .brokenPair => "illegal UTF-16 surrogate"
  | .surrogate => "code point in surrogate code point range(0xd800, 0xe000)"
  | .tooBig => "code point not in range(0x110000)"

/-- Where and why bytes have no text: the bytes from `start` on, `span` of them. -/
structure Place where
  start : Nat
  span : Nat
  firstByte : UInt8
  reason : Reason
  deriving DecidableEq, Repr

/-- Why there is no text. -/
inductive Fault where
  /-- No encoding has the name. -/
  | unknown (name : String)
  /-- What has the name makes bytes of bytes. -/
  | notText (name : String)
  | utf8 (fault : Utf8.Fault)
  /-- Bytes have no text in the encoding that goes by the name `codec`. -/
  | undecodable (codec : String) (place : Place)
  /-- Units have no order mark in front of them. -/
  | unmarked (codec : String)
  deriving DecidableEq, Repr

/-- The wording of a fault. -/
def Fault.message : Fault → String
  | .unknown name => "unknown encoding: " ++ name
  | .notText name =>
    "'" ++ name ++ "' is not a text encoding; use codecs.open() to handle arbitrary codecs"
  | .utf8 fault => fault.message
  | .undecodable codec p => Utf8.undecodable codec p.start p.span p.firstByte p.reason.message
  | .unmarked codec => codec ++ " stream does not start with BOM"

/-! ### Decoding -/

/-- Decodes single bytes from position `pos` on. -/
def decodeBytes (page : CodePage) (reason : Reason) : Nat → List UInt8 → Except Place (List Char)
  | _, [] => .ok []
  | pos, b :: rest =>
    match page.charOf? b with
    | some c => (decodeBytes page reason (pos + 1) rest).map (c :: ·)
    | none => .error ⟨pos, 1, b, reason⟩

/-- The number of some bytes. -/
def unit (order : ByteOrder) (bs : List UInt8) : Nat :=
  let inOrder := match order with
    | .little => bs.reverse
    | .big => bs
  inOrder.foldl (fun n b => n * 256 + b.toNat) 0

/-- The number is the first half of a pair. -/
def isFirstHalf (n : Nat) : Bool := 0xD800 ≤ n && n < 0xDC00

/-- The number is the second half of a pair. -/
def isSecondHalf (n : Nat) : Bool := 0xDC00 ≤ n && n < 0xE000

/-- Decodes units of two bytes from position `pos` on. -/
def decode16 (order : ByteOrder) : Nat → List UInt8 → Except Place (List Char)
  | _, [] => .ok []
  | pos, [a] => .error ⟨pos, 1, a, .truncated⟩
  | pos, a :: b :: rest =>
    let n := unit order [a, b]
    if isSecondHalf n then .error ⟨pos, 2, a, .halfPair⟩
    else if isFirstHalf n then
      match rest with
      | c :: d :: tail =>
        let m := unit order [c, d]
        if isSecondHalf m then
          (decode16 order (pos + 4) tail).map
            (Char.ofNat (0x10000 + (n - 0xD800) * 0x400 + (m - 0xDC00)) :: ·)
        else .error ⟨pos, 2, a, .brokenPair⟩
      | _ => .error ⟨pos, 2 + rest.length, a, .unexpectedEnd⟩
    else (decode16 order (pos + 2) rest).map (Char.ofNat n :: ·)

/-- Decodes units of four bytes from position `pos` on. -/
def decode32 (order : ByteOrder) : Nat → List UInt8 → Except Place (List Char)
  | _, [] => .ok []
  | pos, a :: b :: c :: d :: rest =>
    let n := unit order [a, b, c, d]
    if isSurrogate n then .error ⟨pos, 4, a, .surrogate⟩
    else if 0x110000 ≤ n then .error ⟨pos, 4, a, .tooBig⟩
    else (decode32 order (pos + 4) rest).map (Char.ofNat n :: ·)
  | pos, a :: rest => .error ⟨pos, 1 + rest.length, a, .truncated⟩

/-- The byte order that an order mark tells, and what stands behind it. -/
def takeMark (width : Nat) (bs : List UInt8) : Option (ByteOrder × Nat × List UInt8) :=
  let first := bs.take width
  if first.length < width then none
  else
    ([ByteOrder.little, .big].find? fun o => unit o first = 0xFEFF).map fun o => (o, width, bs.drop width)

/-- Decodes units of `width` bytes, whose order may have to be found. -/
def decodeUnits (codec : String) (width : Nat)
    (decode : ByteOrder → Nat → List UInt8 → Except Place (List Char)) (order : Option ByteOrder)
    (bs : List UInt8) : Except Fault (List Char) :=
  let read (o : ByteOrder) (pos : Nat) (bs : List UInt8) : Except Fault (List Char) :=
    let ending := match o with
      | .little => "-le"
      | .big => "-be"
    (decode o pos bs).mapError (.undecodable (codec ++ ending))
  match order, takeMark width bs with
  | some o, _ => read o 0 bs
  | none, some (o, pos, bs) => read o pos bs
  | none, none => do
    let cs ← read .little 0 bs
    if cs.isEmpty then return cs else throw (.unmarked (codec.map Char.toUpper))

/-- The characters of a byte string. -/
def decode (e : Encoding) (bs : List UInt8) : Except Fault (List Char) :=
  match e with
  | .utf8 => (Utf8.decode bs).mapError .utf8
  | .markedUtf8 => (Utf8.decode (if bs.take 3 = [0xEF, 0xBB, 0xBF] then bs.drop 3 else bs)).mapError .utf8
  | .ascii => (decodeBytes .ascii .notAscii 0 bs).mapError (.undecodable "ascii")
  | .page p => (decodeBytes p .undefined 0 bs).mapError (.undecodable "charmap")
  | .utf16 order => decodeUnits "utf-16" 2 decode16 order bs
  | .utf32 order => decodeUnits "utf-32" 4 decode32 order bs

/-! ### Names -/

/-- The encodings with the names that they go by. -/
def names : List (Encoding × List String) := [
  (.utf8, ["utf_8", "u8", "utf", "utf8", "utf8_ucs2", "utf8_ucs4", "cp65001", "locale"]),
  (.markedUtf8, ["utf_8_sig"]),
  (.ascii, [
    "ascii", "646", "ansi_x3.4_1968", "ansi_x3_4_1968", "ansi_x3.4_1986", "cp367", "csascii",
    "ibm367", "iso646_us", "iso_646.irv_1991", "iso_ir_6", "us", "us_ascii"]),
  (.utf16 none, ["utf_16", "u16", "utf16"]),
  (.utf16 (some .little), ["utf_16_le", "unicodelittleunmarked", "utf_16le"]),
  (.utf16 (some .big), ["utf_16_be", "unicodebigunmarked", "utf_16be"]),
  (.utf32 none, ["utf_32", "u32", "utf32"]),
  (.utf32 (some .little), ["utf_32_le", "utf_32le"]),
  (.utf32 (some .big), ["utf_32_be", "utf_32be"])] ++
  CodePage.names.map fun (p, ns) => (.page p, ns)

/-- A name in its usual form: the case of letters does not count, and what stands between letters,
digits and points counts as one underscore. -/
def usualName (cs : List Char) : List Char :=
  let word (c : Char) : Bool := c.isAlphanum || c = '.'
  let rec words : Bool → List Char → List Char
    | _, [] => []
    | gap, c :: rest =>
      if word c then (if gap then ['_'] else []) ++ c.toLower :: words false rest else words true rest
  words false (cs.dropWhile fun c => !word c)

/-- The names of encodings of bytes as bytes. -/
def byteNames : List (List String) := [
  ["base64_codec", "base64", "base_64"], ["bz2_codec", "bz2"], ["hex_codec", "hex"],
  ["quopri_codec", "quopri", "quoted_printable", "quotedprintable"], ["rot_13", "rot13"],
  ["uu_codec", "uu"], ["zlib_codec", "zip", "zlib"]]

/-- The name is among the names that something goes by.  But for the first of them, a point
counts as an underscore. -/
def isAmong (name : String) (names : List String) : Bool :=
  let usual := usualName name.toList
  names.contains (String.ofList usual) ||
    names.tail.contains (String.ofList (usual.map fun c => if c = '.' then '_' else c))

/-- The encoding of a name. -/
def ofName (name : String) : Except Fault Encoding :=
  match names.find? fun e => isAmong name e.2 with
  | some e => .ok e.1
  | none => .error (if byteNames.any (isAmong name) then .notText name else .unknown name)

end Encoding
end Text
end Replatform
