import Replatform.ArtifactMap

/-! # Artifact maps in memory

An artifact map is changed in place.  It refers to one list of paths for each kind that has been
mentioned, and what is added under the kind is appended to this list; whatever else refers to the
list would have it as well.  So a map that is made from others has lists of its own, which take the
paths over one by one.  Here are the maps in memory, and programs that make and change them by name.
-/
namespace Replatform

/-- The lists of paths and the maps that have been made, each by its number.  A map refers to its
lists by their numbers. -/
structure Memory (κ : Type) where
  lists : Array (List String)
  maps : Array (OrderedMap κ Nat)

namespace Memory

variable {κ : Type}

def empty : Memory κ := ⟨#[], #[]⟩

/-- The paths in a list. -/
def list (h : Memory κ) (l : Nat) : List String := (h.lists[l]?).getD []

/-- The lists of a map by kind. -/
def map (h : Memory κ) (m : Nat) : OrderedMap κ Nat := (h.maps[m]?).getD .empty

/-- Appends a path to a list. -/
def append (h : Memory κ) (l : Nat) (p : String) : Memory κ :=
  { h with lists := h.lists.setIfInBounds l (h.list l ++ [p]) }

/-- Makes a map that mentions no kind. -/
def make (h : Memory κ) : Memory κ × Nat := ({ h with maps := h.maps.push .empty }, h.maps.size)

/-! ### Looking -/

/-- The kinds in the order of first mention. -/
def kinds (h : Memory κ) (m : Nat) : List κ := (h.map m).keys

/-- The kinds with their paths. -/
def items (h : Memory κ) (m : Nat) : List (κ × List String) :=
  (h.map m).entries.map fun e => (e.1, h.list e.2)

variable [DecidableEq κ]

/-- The paths under a kind, none if it is not mentioned. -/
def get (h : Memory κ) (m : Nat) (k : κ) : List String :=
  match (h.map m).get? k with
  | some l => h.list l
  | none => []

/-- The first path under a kind. -/
def first? (h : Memory κ) (m : Nat) (k : κ) : Option String := (h.get m k).head?

/-! ### Changing -/

/-- The list under a kind of a map.  For a kind that is new an empty one is made. -/
def setDefault (h : Memory κ) (m : Nat) (k : κ) : Memory κ × Nat :=
  match (h.map m).get? k with
  | some l => (h, l)
  | none =>
    (⟨h.lists.push [], h.maps.setIfInBounds m ((h.map m).insert k h.lists.size)⟩, h.lists.size)

/-- Adds a path under a kind of a map. -/
def add (h : Memory κ) (m : Nat) (k : κ) (p : String) : Memory κ :=
  let (h, l) := h.setDefault m k
  if p ∈ h.list l then h else h.append l p

/-- Adds paths under a kind of a map, which is mentioned even if there are none. -/
def extend (h : Memory κ) (m : Nat) (k : κ) (ps : List String) : Memory κ :=
  ps.foldl (fun h p => h.add m k p) (h.setDefault m k).1

/-- Adds entries to a map, one after the other. -/
def extendAll (h : Memory κ) (m : Nat) (es : List (κ × List String)) : Memory κ :=
  es.foldl (fun h e => h.extend m e.1 e.2) h

/-- Adds the entries of another map to a map.  The lists of the other map are read when their turn
comes. -/
def takeIn (h : Memory κ) (m other : Nat) : Memory κ :=
  (h.map other).entries.foldl (fun h e => h.extend m e.1 (h.list e.2)) h

/-! ### Making -/

/-- Makes a map of some entries. -/
def construct (h : Memory κ) (es : List (κ × List String)) : Memory κ × Nat :=
  let (h, m) := h.make
  (h.extendAll m es, m)

/-- Makes a map of the entries of another. -/
def copy (h : Memory κ) (source : Nat) : Memory κ × Nat :=
  let (h, m) := h.make
  (h.takeIn m source, m)

/-- Makes a map of the paths of one map followed by the new ones of another. -/
def union (h : Memory κ) (left right : Nat) : Memory κ × Nat :=
  let (h, m) := h.copy left
  (h.takeIn m right, m)

end Memory

namespace ArtifactMap

variable {ν κ : Type}

/-- What is done with maps that have names. -/
inductive Statement (ν κ : Type) where
  | construct (into : ν) (entries : List (κ × List String))
  | add (into : ν) (k : κ) (p : String)
  | extend (into : ν) (k : κ) (ps : List String)
  | union (into left right : ν)
  | copy (into source : ν)

/-- A memory, and which map in it has which name. -/
structure Scope (ν κ : Type) where
  memory : Memory κ
  names : ν → Option Nat

/-- The scope in which nothing has a name. -/
def Scope.empty : Scope ν κ := ⟨.empty, fun _ => none⟩

variable [DecidableEq ν]

/-- Gives a name to a map that has been made. -/
def Scope.bind (s : Scope ν κ) (name : ν) (made : Memory κ × Nat) : Scope ν κ :=
  ⟨made.1, fun other => if other = name then some made.2 else s.names other⟩

variable [DecidableEq κ]

namespace Statement

/-- The scope after a statement, if it only uses names that have been given. -/
def exec (s : Scope ν κ) : Statement ν κ → Option (Scope ν κ)
  | construct into entries => return s.bind into (s.memory.construct entries)
  | add into k p => do
    let m ← s.names into
    return { s with memory := s.memory.add m k p }
  | extend into k ps => do
    let m ← s.names into
    return { s with memory := s.memory.extend m k ps }
  | union into left right => do
    let l ← s.names left
    let r ← s.names right
    return s.bind into (s.memory.union l r)
  | copy into source => do
    let m ← s.names source
    return s.bind into (s.memory.copy m)

/-- The scope after statements, from the one without names. -/
def run (statements : List (Statement ν κ)) : Option (Scope ν κ) := statements.foldlM exec .empty

end Statement
end ArtifactMap
end Replatform
