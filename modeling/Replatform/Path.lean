import Replatform.Text.Split

/-! # File paths

A path is a root and the parts below it.  Parsing a text drops empty parts and parts
that are a single dot, and keeps double dots; exactly two leading slashes are a root of
their own.  The normal form of a path also takes back a part for each double dot, as
far as there is one; it looks at the text alone, not at any file tree.
-/
namespace Replatform

/-- Where a path starts. -/
inductive Path.Root where
  | relative
  | slash
  | doubleSlash
  deriving DecidableEq, Repr

/-- A file path. -/
structure Path where
  root : Path.Root
  parts : List String
  deriving DecidableEq, Repr

namespace Path

/-- The text of a root. -/
def Root.text : Root → List Char
  | .relative => []
  | .slash => ['/']
  | .doubleSlash => ['/', '/']

/-- The root that a text begins with. -/
def rootOf : List Char → Root
  | '/' :: '/' :: '/' :: _ => .slash
  | '/' :: '/' :: _ => .doubleSlash
  | '/' :: _ => .slash
  | _ => .relative

/-- A piece between slashes that names something. -/
def isPart (piece : List Char) : Bool := piece ≠ [] && piece ≠ ['.']

/-- The path of a text. -/
def parse (s : String) : Path where
  root := rootOf s.toList
  parts := ((Text.splitAt '/' s.toList).filter isPart).map String.ofList

/-- The text of a path; the empty relative path is a dot. -/
def text (p : Path) : String :=
  if p.root = .relative ∧ p.parts = [] then "."
  else String.ofList (p.root.text ++ Text.joinWith '/' (p.parts.map String.toList))

/-- The path starts at the root of the file tree. -/
def isAbsolute (p : Path) : Bool := p.root ≠ .relative

/-- The path `q` seen from `p`. -/
def join (p q : Path) : Path := if q.isAbsolute then q else ⟨p.root, p.parts ++ q.parts⟩

/-- The path without its last part. -/
def parent (p : Path) : Path := ⟨p.root, p.parts.dropLast⟩

/-- One part more behind the normal parts `above`, innermost first. -/
def ascend (absolute : Bool) (above : List String) (part : String) : List String :=
  if part = ".." then
    match above with
    | [] => if absolute then [] else [".."]
    | last :: rest => if last = ".." then ".." :: above else rest
  else part :: above

/-- The path with one part more. -/
def below (p : Path) (part : String) : Path := ⟨p.root, p.parts ++ [part]⟩

/-- The path in normal form one part further up. -/
def up (p : Path) : Path := ⟨p.root, (ascend p.isAbsolute p.parts.reverse "..").reverse⟩

/-- The normal form. -/
def normal (p : Path) : Path := ⟨p.root, (p.parts.foldl (ascend p.isAbsolute) []).reverse⟩

/-- The normal form of a path as seen from the directory `dir`. -/
def resolve (dir p : Path) : Path := (dir.join p).normal

/-- The parts that lead from the parts `base` to the parts `target`: up to where they part,
then down. -/
def steps : List String → List String → List String
  | b :: base, t :: target =>
    if b = t then steps base target else List.replicate (base.length + 1) ".." ++ t :: target
  | base, target => List.replicate base.length ".." ++ target

/-- The relative path from the directory `base` to `target`, both seen from `dir`. -/
def relativeTo (dir target base : Path) : Path :=
  ⟨.relative, steps (dir.resolve base).parts (dir.resolve target).parts⟩

end Path
end Replatform
