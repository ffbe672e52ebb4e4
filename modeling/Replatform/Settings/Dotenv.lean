import Replatform.OrderedMap
import Replatform.Text.Blank

/-! # Files of variables

A line of such a file names a variable and gives its value behind an equals sign, with
`export` in front of the name if one likes.  A value may stand between quotes, also over
several lines; a number sign behind white space starts a comment.  A value may refer to
other variables.  A line of another form is skipped.
-/
namespace Replatform
namespace Settings
namespace Dotenv

/-- White space within a line. -/
def isGap (c : Char) : Bool := Text.isBlank c && c != '\n' && c != '\r'

/-- The text behind the white space at its start. -/
def skipGap (cs : List Char) : List Char := cs.dropWhile isGap

/-- The rest of the line, and what stands behind its line end. -/
def restOfLine (cs : List Char) : List Char := (cs.dropWhile (· ≠ '\n')).drop 1

/-- What stands behind the mark in front of a name. -/
def skipExport (cs : List Char) : List Char :=
  let behind := cs.drop 6
  if cs.take 6 = "export".toList && (behind.head?.map isGap).getD false then skipGap behind else cs

/-- The name at the start of a text, if there is one, and what stands behind it.  In front of a
comment there is none. -/
def takeName (cs : List Char) : Option (Option (List Char) × List Char) :=
  match cs with
  | '#' :: _ => some (none, cs)
  | '\'' :: rest =>
    let name := rest.takeWhile (· ≠ '\'')
    match rest.drop name.length with
    | _ :: tail => if name.isEmpty then none else some (some name, tail)
    | [] => none
  | _ =>
    let name := cs.takeWhile fun c => c ≠ '=' && c ≠ '#' && !Text.isBlank c
    if name.isEmpty then none else some (some name, cs.drop name.length)

/-- What stands before the closing quote and behind it.  The character behind a backslash closes
nothing. -/
def closeQuote (quote : Char) : List Char → Option (List Char × List Char)
  | [] => none
  | ['\\'] => none
  | '\\' :: c :: rest => (closeQuote quote rest).map fun (value, tail) => ('\\' :: c :: value, tail)
  | c :: rest =>
    if c = quote then some ([], rest)
    else (closeQuote quote rest).map fun (value, tail) => (c :: value, tail)

/-- The characters that escapes between single quotes stand for. -/
def singleEscapes : List (Char × Char) := [('\\', '\\'), ('\'', '\'')]

/-- The characters that escapes between double quotes stand for. -/
def doubleEscapes : List (Char × Char) := [
  ('\\', '\\'), ('\'', '\''), ('"', '"'), ('a', '\x07'), ('b', '\x08'), ('f', '\x0c'), ('n', '\n'),
  ('r', '\r'), ('t', '\t'), ('v', '\x0b')]

/-- A value with its escapes replaced; a backslash in front of another character stays. -/
def unescape (escapes : List (Char × Char)) : List Char → List Char
  | [] => []
  | '\\' :: c :: rest =>
    match escapes.lookup c with
    | some d => d :: unescape escapes rest
    | none => '\\' :: unescape escapes (c :: rest)
  | c :: rest => c :: unescape escapes rest

/-- A value without quotes, before the comment. -/
def beforeComment : List Char → List Char
  | [] => []
  | c :: rest =>
    if isGap c && ((rest.dropWhile isGap).head? = some '#') then [] else c :: beforeComment rest

/-- The value behind an equals sign, and what stands behind it. -/
def takeValue (cs : List Char) : Option (List Char × List Char) :=
  match skipGap cs with
  | '\'' :: rest => (closeQuote '\'' rest).map fun (v, tail) => (unescape singleEscapes v, tail)
  | '"' :: rest => (closeQuote '"' rest).map fun (v, tail) => (unescape doubleEscapes v, tail)
  | _ =>
    let line := cs.takeWhile (· ≠ '\n')
    some (Text.trimEnd (skipGap (beforeComment line)), cs.drop line.length)

/-- Behind a comment and the end of the line, if nothing else is left of the line. -/
def takeLineEnd (cs : List Char) : Option (List Char) :=
  let cs := skipGap cs
  let cs := if cs.head? = some '#' then cs.dropWhile (· ≠ '\n') else cs
  match cs with
  | [] => some []
  | '\n' :: rest => some rest
  | _ => none

/-- A name with its value, if it has one. -/
abbrev Binding := List Char × Option (List Char)

/-- The binding at the start of a text and what stands behind its line, or only that if the line
has another form. -/
def takeBinding (cs : List Char) : Option Binding × List Char :=
  match takeName (skipExport cs) with
  | none => (none, restOfLine (skipExport cs))
  | some (name, rest) =>
    let rest := skipGap rest
    let found : Option (Option (List Char) × List Char) :=
      match rest with
      | '=' :: tail => (takeValue tail).map fun (v, tail) => (some v, tail)
      | _ => some (none, rest)
    match found with
    | none => (none, restOfLine rest)
    | some (value, tail) =>
      match takeLineEnd tail with
      | some behind => (name.map fun n => (n, value), behind)
      | none => (none, restOfLine tail)

/-- The bindings of a text, in order. -/
def bindingsFrom : Nat → List Char → List Binding
  | 0, _ => []
  | fuel + 1, cs =>
    match cs.dropWhile Text.isBlank with
    | [] => []
    | c :: rest =>
      let (binding, behind) := takeBinding (c :: rest)
      match binding with
      | some b => b :: bindingsFrom fuel behind
      | none => bindingsFrom fuel behind

/-! ### References -/

/-- The name and the default of a reference, behind its opening brace, and what stands behind
the closing one. -/
def takeReference (cs : List Char) : Option (List Char × List Char × List Char) :=
  let name := cs.takeWhile fun c => c ≠ '\x7d' && c ≠ ':'
  match cs.drop name.length with
  | '\x7d' :: rest => some (name, [], rest)
  | ':' :: '-' :: rest =>
    let default := rest.takeWhile (· ≠ '\x7d')
    match rest.drop default.length with
    | _ :: tail => some (name, default, tail)
    | [] => none
  | _ => none

/-- The value with its references replaced; `known` tells the value of a name, which a variable
without a value has too. -/
def expand (known : List Char → Option (Option (List Char))) : Nat → List Char → List Char
  | 0, cs => cs
  | _, [] => []
  | fuel + 1, c :: rest =>
    let reference :=
      match c, rest with
      | '$', '\x7b' :: tail => takeReference tail
      | _, _ => none
    match reference with
    | some (name, default, tail) =>
      let value :=
        match known name with
        | some v => v.getD []
        | none => default
      value ++ expand known fuel tail
    | none => c :: expand known fuel rest

/-- The bindings with references replaced.  A reference is to the latest binding before it, or
else to the environment. -/
def resolve (env : List Binding) : List Binding → List Binding → List Binding
  | _, [] => []
  | before, (name, value) :: rest =>
    let known (n : List Char) : Option (Option (List Char)) := (before ++ env).lookup n
    let b : Binding := (name, value.map fun v => expand known v.length v)
    b :: resolve env (b :: before) rest

/-- The text behind a byte order mark. -/
def skipOrderMark : List Char → List Char
  | '\ufeff' :: rest => rest
  | cs => cs

/-- The variables of a text in an environment. -/
def read (env : List (String × String)) (text : String) : OrderedMap String (Option String) :=
  let cs := Text.plainLines (skipOrderMark text.toList)
  let env := env.map fun e => (e.1.toList, some e.2.toList)
  let bindings := resolve env [] (bindingsFrom cs.length.succ cs)
  .ofList (bindings.map fun b => (String.ofList b.1, b.2.map String.ofList))

end Dotenv
end Settings
end Replatform
