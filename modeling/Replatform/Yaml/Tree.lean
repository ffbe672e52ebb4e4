import Replatform.Value

/-! # Trees of texts

What is written to a YAML file: texts and truth values, lists, and maps with texts as
keys in a given order.
-/
namespace Replatform
namespace Yaml

/-- A tree of texts and truth values. -/
inductive Tree where
  | text (s : String)
  | flag (b : Bool)
  | list (items : List Tree)
  | map (entries : List (String × Tree))

namespace Tree

instance : Inhabited Tree := ⟨.text ""⟩

mutual

/-- A tree as a plain value. -/
def toValue : Tree → Value
  | .text s => .text s
  | .flag b => .bool b
  | .list items => .list (toValues items)
  | .map entries => .map (toEntries entries)

def toValues : List Tree → List Value
  | [] => []
  | t :: rest => toValue t :: toValues rest

def toEntries : List (String × Tree) → List (Value × Value)
  | [] => []
  | (k, t) :: rest => (.text k, toValue t) :: toEntries rest

end

/-- The tree says nothing: an empty text, list or map, or a truth value that is false. -/
def isBlank : Tree → Bool
  | .text s => s = ""
  | .flag b => !b
  | .list items => items.isEmpty
  | .map entries => entries.isEmpty

end Tree
end Yaml
end Replatform
