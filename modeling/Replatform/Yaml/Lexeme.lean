import Replatform.Text.Hex
import Replatform.Text.Utf8
import Replatform.Yaml.Cursor
import Replatform.Yaml.Fault
import Replatform.Yaml.Token

/-! # YAML lexemes other than scalars

Names, tags and directives.  Each function reads one lexeme at the cursor and returns it
with the cursor behind it.
-/
namespace Replatform
namespace Yaml

/-- `c` is an ASCII letter or digit, a hyphen or an underscore. -/
def isWord (c : Char) : Bool := c.isAlphanum || c = '-' || c = '_'

/-- `c` can stand in a tag, if a percent sign does not come first. -/
def isUriChar (c : Char) : Bool := c.isAlphanum || "-;/?:@&=+$,_.!~*'()[]".toList.contains c

/-- `c` can stand behind the name of an anchor. -/
def endsAnchor (c : Char) : Bool := isBlankOrEnd c || "?:,]\x7d%@\x60".toList.contains c

namespace Cursor

/-- The name of an anchor or an alias, behind its mark. -/
def takeAnchor (c : Cursor) : Except Fault (String × Cursor) :=
  let name := c.next.span isWord
  let c := c.next.skip name.length
  if name.isEmpty || !endsAnchor c.peek then .error .malformed
  else .ok (String.ofList name, c)

/-- The number that `n` hexadecimal digits spell. -/
def takeHex : Nat → Nat → Cursor → Except Fault (Nat × Cursor)
  | 0, value, c => .ok (value, c)
  | n + 1, value, c =>
    match Text.hexValue? c.peek with
    | some d => takeHex n (value * 16 + d) c.next
    | none => .error .malformed

/-- The bytes that percent signs with two hexadecimal digits spell. -/
def takeEscapes : Nat → Cursor → Except Fault (List UInt8 × Cursor)
  | 0, c => .ok ([], c)
  | fuel + 1, c =>
    if c.peek = '%' then do
      let (byte, c) ← takeHex 2 0 c.next
      let (bytes, c) ← takeEscapes fuel c
      return (UInt8.ofNat byte :: bytes, c)
    else .ok ([], c)

/-- The characters of a tag, the escaped ones as UTF-8. -/
def takeUriChars : Nat → Cursor → Except Fault (List Char × Cursor)
  | 0, c => .ok ([], c)
  | fuel + 1, c =>
    if c.peek = '%' then do
      let (bytes, c) ← takeEscapes c.rest.length c
      match Utf8.decode bytes with
      | .error _ => .error .malformed
      | .ok cs =>
        let (more, c) ← takeUriChars fuel c
        return (cs ++ more, c)
    else if isUriChar c.peek then do
      let (more, c') ← takeUriChars fuel c.next
      return (c.peek :: more, c')
    else .ok ([], c)

/-- The text of a tag; it has a character at least. -/
def takeUri (c : Cursor) : Except Fault (String × Cursor) := do
  let (cs, c) ← takeUriChars c.rest.length c
  if cs.isEmpty then .error .malformed else .ok (String.ofList cs, c)

/-- A tag handle: a word between exclamation marks, or one mark before a space. -/
def takeHandle (c : Cursor) : Except Fault (String × Cursor) :=
  if c.peek ≠ '!' then .error .malformed
  else if c.next.peek = ' ' then .ok ("!", c.next)
  else
    let word := c.next.span isWord
    let c := c.next.skip word.length
    if c.peek = '!' then .ok (String.ofList ('!' :: word ++ ['!']), c.next) else .error .malformed

/-- The tag written at the cursor, whatever stands behind it. -/
def takeTagName (c : Cursor) : Except Fault (TagName × Cursor) := do
  if c.next.peek = '<' then
    let (uri, c) ← takeUri (c.skip 2)
    if c.peek = '>' then return (⟨none, uri⟩, c.next) else .error .malformed
  else if isBlankOrEnd c.next.peek then return (⟨none, "!"⟩, c.next)
  else if (c.next.span (!isSpaceOrEnd ·)).contains '!' then
    let (handle, c) ← takeHandle c
    let (uri, c) ← takeUri c
    return (⟨some handle, uri⟩, c)
  else
    let (uri, c) ← takeUri c.next
    return (⟨some "!", uri⟩, c)

/-- The tag written at the cursor; a space or a line end has to follow. -/
def takeTag (c : Cursor) : Except Fault (TagName × Cursor) := do
  let (name, c) ← takeTagName c
  if isSpaceOrEnd c.peek then .ok (name, c) else .error .malformed

/-- A decimal number. -/
def takeNumber (c : Cursor) : Except Fault (Nat × Cursor) :=
  let ds := c.span Char.isDigit
  if ds.isEmpty then .error .malformed
  else if digitLimit < ds.length then .error (.size ds.length)
  else .ok (ds.foldl (fun n d => n * 10 + (d.toNat - '0'.toNat)) 0, c.skip ds.length)

/-- The two numbers of a version with a point between them. -/
def takeVersion (c : Cursor) : Except Fault (Directive × Cursor) := do
  let (major, c) ← takeNumber c.skipSpaces
  if c.peek ≠ '.' then .error .malformed
  let (minor, c) ← takeNumber c.next
  if isSpaceOrEnd c.peek then .ok (.version major minor, c) else .error .malformed

/-- A tag handle and what it stands for. -/
def takeTagHandle (c : Cursor) : Except Fault (Directive × Cursor) := do
  let (handle, c) ← takeHandle c.skipSpaces
  if c.peek ≠ ' ' then .error .malformed
  let (target, c) ← takeUri c.skipSpaces
  if isSpaceOrEnd c.peek then .ok (.tagHandle handle target, c) else .error .malformed

/-- The rest of a line that may hold a comment only. -/
def takeLineEnd (c : Cursor) : Except Fault Cursor :=
  let c := c.skipSpaces.skipComment
  if isLineEnd c.peek then .ok c.takeBreak.2 else .error .malformed

/-- The directive at the cursor, with its line.  One with an unknown name has no effect. -/
def takeDirective (c : Cursor) : Except Fault (Directive × Cursor) := do
  let name := c.next.span isWord
  let c := c.next.skip name.length
  if name.isEmpty || !isSpaceOrEnd c.peek then .error .malformed
  let (d, c) ←
    if name = "YAML".toList then takeVersion c
    else if name = "TAG".toList then takeTagHandle c
    else .ok (.other, c.skipWhile (!isBreak ·))
  return (d, ← c.takeLineEnd)

end Cursor
end Yaml
end Replatform
