import Replatform.Yaml.Timestamp

/-! # YAML tags

The kind of a node.  A plain scalar without a tag has the kind that its text looks
like; a text that looks like nothing else is a text.
-/
namespace Replatform
namespace Yaml

/-- The kind of a node. -/
inductive Tag where
  | null
  | bool
  | int
  | float
  | binary
  | timestamp
  | text
  | merge
  | value
  | list
  | map
  | set
  | orderedMap
  | pairs
  | other
  deriving DecidableEq, Repr

namespace Tag

/-- What the names of all kinds begin with. -/
def standard : String := "tag:yaml.org,2002:"

/-- The kinds by name. -/
def names : List (String × Tag) := [
  ("null", .null), ("bool", .bool), ("int", .int), ("float", .float), ("binary", .binary),
  ("timestamp", .timestamp), ("str", .text), ("merge", .merge), ("value", .value), ("seq", .list),
  ("map", .map), ("set", .set), ("omap", .orderedMap), ("pairs", .pairs)]

/-- The kind of a full name. -/
def ofName (name : String) : Tag :=
  ((names.find? fun (short, _) => standard ++ short = name).map Prod.snd).getD .other

/-- The kind is one of scalars. -/
def isScalar : Tag → Bool
  | .null => true
  | .bool => true
  | .int => true
  | .float => true
  | .binary => true
  | .timestamp => true
  | .text => true
  | _ => false

/-! ### What a plain scalar looks like -/

def nullWords : List String := ["", "~", "null", "Null", "NULL"]

def boolWords : List String := [
  "yes", "Yes", "YES", "no", "No", "NO", "true", "True", "TRUE", "false", "False", "FALSE",
  "on", "On", "ON", "off", "Off", "OFF"]

/-- The text without a sign in front. -/
def dropSign : List Char → List Char
  | '+' :: rest => rest
  | '-' :: rest => rest
  | cs => cs

def isDigitOrLine (c : Char) : Bool := c.isDigit || c = '_'

/-- Behind the groups of a number to the base sixty: a colon each and one digit, or two of
which the first is below six.  There has to be a group. -/
def dropSixties : Nat → List Char → Option (List Char)
  | fuel + 1, ':' :: rest =>
    let ds := rest.takeWhile Char.isDigit
    let fits := ds.length = 1 || (ds.length = 2 && ds.headD '9' ≤ '5')
    let tail := rest.drop ds.length
    if !fits then none else if tail.headD ' ' = ':' then dropSixties fuel tail else some tail
  | _, _ => none

/-- The text is empty or an exponent with a sign. -/
def isExponent : List Char → Bool
  | [] => true
  | e :: sign :: ds =>
    (e = 'e' || e = 'E') && (sign = '+' || sign = '-') && !ds.isEmpty && ds.all Char.isDigit
  | _ => false

/-- The text looks like a whole number: digits of the base two, eight, ten, sixteen or sixty,
with underscores among them. -/
def isInt (cs : List Char) : Bool :=
  let body := dropSign cs
  let filled (p : Char → Bool) (ds : List Char) : Bool := !ds.isEmpty && ds.all fun c => p c || c = '_'
  match body with
  | [] => false
  | '0' :: 'b' :: ds => filled (fun c => c = '0' || c = '1') ds
  | '0' :: 'x' :: ds => filled (fun c => (Text.hexValue? c).isSome) ds
  | ['0'] => true
  | '0' :: ds => filled (fun c => '0' ≤ c && c ≤ '7') ds
  | c :: rest =>
    c.isDigit &&
      (let tail := rest.dropWhile isDigitOrLine
       tail.isEmpty || dropSixties tail.length tail = some [])

/-- The text looks like a decimal fraction: with a point among digits, with the last group to
the base sixty having one, or the name of a number that is not finite. -/
def isFloat (cs : List Char) : Bool :=
  let body := dropSign cs
  if [".inf", ".Inf", ".INF"].any (·.toList = body) then true
  else if [".nan", ".NaN", ".NAN"].any (·.toList = cs) then true
  else
    match cs with
    | '.' :: d :: rest => d.isDigit && isExponent (rest.dropWhile isDigitOrLine)
    | _ =>
      match body with
      | d :: rest =>
        d.isDigit &&
          (match rest.dropWhile isDigitOrLine with
           | '.' :: tail => isExponent (tail.dropWhile isDigitOrLine)
           | tail =>
             match dropSixties tail.length tail with
             | some ('.' :: tail) => tail.all isDigitOrLine
             | _ => false)
      | [] => false

/-- The text without a line feed at its end, which the look of a scalar disregards. -/
def dropLineFeed (cs : List Char) : List Char := if cs.getLast? = some '\n' then cs.dropLast else cs

/-- The kind that a plain scalar looks like. -/
def implicit (s : String) : Tag :=
  let cs := dropLineFeed s.toList
  if s = "" then .null
  else if boolWords.any (·.toList = cs) then .bool
  else if isFloat cs then .float
  else if isInt cs then .int
  else if cs = ['<', '<'] then .merge
  else if cs ≠ [] ∧ nullWords.any (·.toList = cs) then .null
  else if Timestamp.isImplicit cs then .timestamp
  else if cs = ['='] then .value
  else if cs = ['!'] ∨ cs = ['&'] ∨ cs = ['*'] then .other
  else .text

end Tag
end Yaml
end Replatform
