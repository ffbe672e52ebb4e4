import Replatform.OrderedMap
import Replatform.Path
import Replatform.Text.Native
import Replatform.Text.Quoted

/-! # File trees

A tree of directories, files and symbolic links, as a value: an operation that changes
the tree returns the new one.  With the tree come the rights that the process has at its
places, and what the device does with bytes that are to be written.  A path is walked part
by part from the working directory or from the root: every part but the last has to be a
directory that may be searched, a double dot leads up, and a link is replaced by its target.
-/
namespace Replatform

/-- What a process may do with the content of a file or the names in a directory.  What may be
written may be read. -/
inductive FileTree.Access where
  | none
  | read
  | write
  deriving DecidableEq, Repr

/-- What a process may do with a directory. -/
structure FileTree.Rights where
  access : FileTree.Access
  /-- It may be entered on the way to something. -/
  search : Bool
  deriving DecidableEq, Repr

/-- The path reaches the operating system: each part of it can be handed over. -/
def Path.Usable (p : Path) : Prop := ∀ part ∈ p.parts, Text.unusable? part = none

instance (p : Path) : Decidable p.Usable :=
  inferInstanceAs (Decidable (∀ part ∈ p.parts, Text.unusable? part = none))

/-- Where a link leads to.  It was handed over when the link was made. -/
structure FileTree.Target where
  path : Path
  usable : path.Usable
  deriving DecidableEq

/-- What stands at a place of a file tree. -/
inductive FileTree.Node where
  | directory (rights : FileTree.Rights)
  | file (access : FileTree.Access) (content : List UInt8)
  | link (target : FileTree.Target)
  deriving DecidableEq

/-- Why an operation on a file tree is refused. -/
inductive FileTree.Refusal where
  | notFound
  | permissionDenied
  | fileExists
  | notADirectory
  | isADirectory
  | nameTooLong
  | tooManyLinks
  /-- The device does not take the bytes; its error has a number and a wording. -/
  | device (number : Nat) (wording : String)
  /-- The path never reaches the operating system. -/
  | unusable (why : Text.Unusable)
  deriving DecidableEq, Repr

/-- How writing a file breaks off: so many bytes have been taken. -/
structure FileTree.Break where
  taken : Nat
  refusal : FileTree.Refusal

/-- A file tree: the places below the root at which something stands, the rights at the root, and
where writing a content at a place breaks off, if it does. -/
structure FileTree where
  nodes : OrderedMap (List String) FileTree.Node
  top : FileTree.Rights
  device : List String → List UInt8 → Option FileTree.Break

namespace FileTree

/-- The number and wording of a refusal by the operating system. -/
def Refusal.label? : Refusal → Option (Nat × String)
  | .notFound => some (2, "No such file or directory")
  | .permissionDenied => some (13, "Permission denied")
  | .fileExists => some (17, "File exists")
  | .notADirectory => some (20, "Not a directory")
  | .isADirectory => some (21, "Is a directory")
  | .nameTooLong => some (36, "File name too long")
  | .tooManyLinks => some (40, "Too many levels of symbolic links")
  | .device number wording => some (number, wording)
  | .unusable _ => none

/-- A refusal about the path that the operation was given. -/
structure Fault where
  refusal : Refusal
  path : String
  deriving DecidableEq, Repr

/-- The wording of a fault.  The device does not know the path. -/
def Fault.message (f : Fault) : String :=
  match f.refusal, f.refusal.label? with
  | .unusable why, _ => why.message
  | .device number wording, _ => Text.errno number wording
  | _, some (number, wording) => Text.errno number wording ++ ": " ++ quoted f.path
  | _, none => ""

/-- A directory stands there. -/
def Node.isDirectory : Node → Bool
  | .directory _ => true
  | _ => false

/-- All rights: those to what the process makes itself. -/
def Rights.all : Rights := ⟨.write, true⟩

/-- The tree in which only the root stands, with all rights and a device that takes everything. -/
def empty : FileTree := ⟨.empty, .all, fun _ _ => none⟩

/-- What stands at a place; the root is a directory. -/
def node? (t : FileTree) (place : List String) : Option Node :=
  if place = [] then some (.directory t.top) else t.nodes.get? place

/-- The process may make something in the directory at the place. -/
def mayMake (t : FileTree) (dir : List String) : Bool :=
  match t.node? dir with
  | some (.directory rights) => rights.access = .write
  | _ => false

/-- The tree with `n` at a place. -/
def set (t : FileTree) (place : List String) (n : Node) : FileTree :=
  { t with nodes := t.nodes.insert place n }

/-! ### Walks -/

/-- A part of a path may have this many bytes at most. -/
def nameLimit : Nat := 255

/-- One part further from the place `dir`: a directory has to stand there that may be searched, and
the part must not be too long. -/
def step (t : FileTree) (dir : List String) (part : String) : Except Refusal (List String) :=
  match t.node? dir with
  | none => .error .notFound
  | some (.directory rights) =>
    if !rights.search then .error .permissionDenied
    else if part = ".." then .ok dir.dropLast
    else if nameLimit < (Text.native part).length then .error .nameTooLong
    else .ok (dir ++ [part])
  | some _ => .error .notADirectory

/-- The walk along some parts from `dir`.  At a link it goes on as `follow` does: from where the
target starts, along its parts and those that are left. -/
def walkOn (t : FileTree) (follow : List String → List String → Except Refusal (List String)) :
    List String → List String → Except Refusal (List String)
  | dir, [] => .ok dir
  | dir, part :: rest => do
    let here ← t.step dir part
    match t.node? here with
    | some (.link ⟨target, _⟩) =>
      follow (if target.isAbsolute then [] else dir) (target.parts ++ rest)
    | _ => walkOn t follow here rest

/-- A walk on which so many links are followed at most. -/
def walk (t : FileTree) : Nat → List String → List String → Except Refusal (List String)
  | 0 => t.walkOn fun _ _ => .error .tooManyLinks
  | links + 1 => t.walkOn (t.walk links)

/-- The operating system follows this many links on one way. -/
def linkLimit : Nat := 40

/-- Where walks of relative and absolute paths start. -/
def start (cwd p : Path) : List String := if p.isAbsolute then [] else cwd.parts

/-- The path reaches the operating system: nothing keeps a part of it from being handed over.  The
fault is that of the whole text. -/
def accept (p : Path) : Except Refusal Unit :=
  match p.parts.findSome? Text.unusable? with
  | none => .ok ()
  | some why => .error (.unusable ((Text.unusable? p.text).getD why))

/-- The place that a path leads to.  Nothing needs to stand there yet. -/
def place (t : FileTree) (cwd p : Path) : Except Refusal (List String) := do
  accept p
  t.walk linkLimit (start cwd p) p.parts

/-- The place of what a path names, which may be a link itself. -/
def entry (t : FileTree) (cwd p : Path) : Except Refusal (List String) := do
  accept p
  match p.parts.getLast? with
  | none => return start cwd p
  | some last => t.step (← t.walk linkLimit (start cwd p) p.parts.dropLast) last

/-! ### Looking -/

/-- What a path leads to. -/
def stat (t : FileTree) (cwd p : Path) : Except Refusal Node := do
  match t.node? (← t.place cwd p) with
  | none => .error .notFound
  | some n => .ok n

/-- A directory stands where the path leads. -/
def isDirectory (t : FileTree) (cwd p : Path) : Bool :=
  match t.stat cwd p with
  | .ok n => n.isDirectory
  | .error _ => false

/-- A directory stands where the path leads that may be read and searched. -/
def isOpen (t : FileTree) (cwd p : Path) : Bool :=
  match t.stat cwd p with
  | .ok (.directory rights) => rights.access ≠ .none && rights.search
  | _ => false

/-- The content of the file that a path leads to. -/
def contentAt (t : FileTree) (cwd p : Path) : Except Refusal (List UInt8) := do
  match ← t.stat cwd p with
  | .file access content => if access = .none then .error .permissionDenied else .ok content
  | .directory rights => .error (if rights.access = .none then .permissionDenied else .isADirectory)
  | .link _ => .error .tooManyLinks

/-! ### Paths without links -/

/-- What the path names, which may be a link itself, if no part before it is one. -/
def lstat (t : FileTree) (cwd p : Path) : Except Refusal Node := do
  accept p
  match t.node? (← p.parts.foldlM t.step (start cwd p)) with
  | none => .error .notFound
  | some n => .ok n

/-- Resolves some parts behind the path `here`, in which there is no link.  What does not exist or
cannot be seen counts as no link; the target of a link is resolved by `inner`. -/
def realOn (t : FileTree) (cwd : Path) (inner : Path → List String → Except Refusal Path) :
    Path → List String → Except Refusal Path
  | here, [] => .ok here
  | here, part :: rest =>
    if part = ".." then realOn t cwd inner here.up rest
    else
      let next := here.below part
      match t.lstat cwd next with
      | .ok (.link ⟨target, _⟩) => do
        let real ← inner (if target.isAbsolute then ⟨.slash, []⟩ else here) target.parts
        realOn t cwd inner real rest
      | .error (.unusable why) => .error (.unusable why)
      | _ => realOn t cwd inner next rest

/-- Resolves some parts, with links that are nested so deep at most. -/
def realFrom (t : FileTree) (cwd : Path) : Nat → Path → List String → Except Refusal Path
  | 0 => t.realOn cwd fun _ _ => .error .tooManyLinks
  | depth + 1 => t.realOn cwd (t.realFrom cwd depth)

/-- Links that are nested deeper than this lead in a circle: there are not so many. -/
def linkDepth (t : FileTree) : Nat := t.nodes.size + linkLimit

/-- The absolute path without links to where a path leads, of which the last parts need not
exist. -/
def realPath (t : FileTree) (cwd p : Path) : Except Refusal Path := do
  let top : Path := if p.isAbsolute then ⟨.slash, []⟩ else ⟨.relative, []⟩
  return cwd.resolve (← t.realFrom cwd t.linkDepth top p.parts)

/-! ### Changing -/

/-- Makes a directory in an existing one. -/
def makeDirectory (t : FileTree) (cwd p : Path) : Except Refusal FileTree := do
  let here ← t.entry cwd p
  match t.node? here with
  | some _ => .error .fileExists
  | none =>
    if t.mayMake here.dropLast then .ok (t.set here (.directory .all)) else .error .permissionDenied

/-- What is left of a refusal to make a directory: nothing if one stands there. -/
def settled (t : FileTree) (cwd p : Path) (refusal : Refusal) : Option Fault :=
  match t.stat cwd p with
  | .ok (.directory _) => none
  | .error .permissionDenied => some ⟨.permissionDenied, p.text⟩
  | .error .nameTooLong => some ⟨.nameTooLong, p.text⟩
  | _ => some ⟨refusal, p.text⟩

/-- Makes a directory and those above it that are missing, at most `depth` of them.  One that
stands already is no fault.  The tree is returned as it is left, also after a fault. -/
def makeDirectories (t : FileTree) (cwd : Path) : Nat → Path → FileTree × Option Fault
  | depth, p =>
    match t.makeDirectory cwd p with
    | .ok t' => (t', none)
    | .error .notFound =>
      match depth with
      | 0 => (t, some ⟨.notFound, p.text⟩)
      | depth + 1 =>
        match t.makeDirectories cwd depth p.parent with
        | (t', some fault) => (t', some fault)
        | (t', none) =>
          match t'.makeDirectory cwd p with
          | .ok t'' => (t'', none)
          | .error r => (t', t'.settled cwd p r)
    | .error r => (t, t.settled cwd p r)

/-- Makes the directory of a path with all those above it. -/
def makeParents (t : FileTree) (cwd p : Path) : FileTree × Option Fault :=
  t.makeDirectories cwd p.parent.parts.length p.parent

/-- The place of a file that is opened to be written anew. -/
def openFile (t : FileTree) (cwd p : Path) : Except Refusal (List String) := do
  let here ← t.place cwd p
  match t.node? here with
  | some (.directory _) => .error .isADirectory
  | some (.link _) => .error .tooManyLinks
  | some (.file access _) => if access = .write then .ok here else .error .permissionDenied
  | none => if t.mayMake here.dropLast then .ok here else .error .permissionDenied

/-- Writes a file, in place of one that stands there, into an existing directory.  The old content
is gone once the file is open, and of the new one there is as much as the device has taken. -/
def storeFile (t : FileTree) (cwd p : Path) (content : List UInt8) : FileTree × Option Refusal :=
  match t.openFile cwd p with
  | .error refusal => (t, some refusal)
  | .ok here =>
    match t.device here content with
    | none => (t.set here (.file .write content), none)
    | some b => (t.set here (.file .write (content.take b.taken)), some b.refusal)

/-- The tree with `n` at a place and directories at all places above it. -/
def plant (t : FileTree) (place : List String) (n : Node) : FileTree :=
  let above := (List.range place.length).filterMap fun k => if k = 0 then none else some (place.take k)
  (above.foldl (fun t dir => if (t.node? dir).isSome then t else t.set dir (.directory .all)) t).set place n

end FileTree
end Replatform
