import Replatform.Yaml.Style
import Replatform.Yaml.Tree

/-! # Writing a tree as YAML

Lists and maps are written as blocks, two columns further right for each level; a list
under a key is not moved to the right.  A key that is long, empty or of several lines is
announced by a question mark.
-/
namespace Replatform
namespace Yaml
namespace Tree

/-- The columns by which a block is moved to the right. -/
def indentStep : Nat := 2

/-- A key of this length is too long to be followed by its colon without announcement. -/
def longKey : Nat := 123

/-- The key can be followed by its colon without announcement. -/
def isSimpleKey (k : String) : Bool :=
  let cs := k.toList
  (Text.codes cs).length < longKey && !cs.isEmpty && !cs.any isBreak

/-- A truth value as a scalar. -/
def flagText (b : Bool) : List Char := if b then "true".toList else "false".toList

mutual

/-- The lines of the entries of a map, the first without its indentation. -/
def entryLines (indent : Nat) : List (String × Tree) → List Char
  | [] => []
  | (k, t) :: rest =>
    (if isSimpleKey k then
      let key := Style.scalar false (indent + indentStep) indent k
      key ++ ':' :: underKey indent (indent + key.length + 2) t
    else
      let inner := indent + indentStep
      '?' :: ' ' :: Style.scalar true inner inner k ++ Style.newLine indent ++
        ':' :: ' ' :: inLine inner t) ++
      (match rest with
       | [] => []
       | _ :: _ => Style.newLine indent ++ entryLines indent rest)

/-- A tree under a key whose colon stands before `column`; the key starts at `indent`. -/
def underKey (indent column : Nat) : Tree → List Char
  | .text s => ' ' :: Style.scalar true (indent + indentStep) column s
  | .flag b => ' ' :: flagText b
  | .list [] => " []".toList
  | .list (t :: rest) => Style.newLine indent ++ itemLines indent (t :: rest)
  | .map [] => " \x7b\x7d".toList
  | .map (e :: rest) =>
    Style.newLine (indent + indentStep) ++ entryLines (indent + indentStep) (e :: rest)

/-- A tree that starts on a line at the column `indent`. -/
def inLine (indent : Nat) : Tree → List Char
  | .text s => Style.scalar true indent indent s
  | .flag b => flagText b
  | .list [] => "[]".toList
  | .list (t :: rest) => itemLines indent (t :: rest)
  | .map [] => "\x7b\x7d".toList
  | .map (e :: rest) => entryLines indent (e :: rest)

/-- The lines of the items of a list, the first without its indentation. -/
def itemLines (indent : Nat) : List Tree → List Char
  | [] => []
  | t :: rest =>
    '-' :: ' ' :: inLine (indent + indentStep) t ++
      (match rest with
       | [] => []
       | _ :: _ => Style.newLine indent ++ itemLines indent rest)

end

/-- The text of a document with the tree. -/
def write (t : Tree) : List Char := inLine 0 t ++ ['\n']

end Tree
end Yaml
end Replatform
