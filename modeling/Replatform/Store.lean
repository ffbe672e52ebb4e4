import Replatform.Document.Mapping
import Replatform.Document.Written
import Replatform.FileTree
import Replatform.Log.Journal
import Replatform.Text.Blank
import Replatform.Yaml.Meaning
import Replatform.Yaml.Printer

/-! # The plan store

Plans as YAML files in a file tree.  In a file, paths are relative to the root of the
plan, and a root that was given as a relative path is relative to the directory of the
file, without links; so a plan can move together with its source tree.
-/
namespace Replatform
namespace Store

/-- Why a plan is not written or read. -/
inductive Fault where
  /-- The plan is no valid document. -/
  | invalid (issues : List Schema.Issue)
  /-- The path never reaches the operating system. -/
  | unusablePath (why : Text.Unusable)
  /-- The directory of the file is not found, as links on the way to it lead in a circle. -/
  | linkLoop
  | writing (path : String) (fault : FileTree.Fault)
  | missing (path : String)
  | reading (path : String) (fault : FileTree.Fault)
  | encoding (fault : Utf8.Fault)
  | notYaml (path : String)
  /-- A scalar of the file has no value. -/
  | scalar (fault : Yaml.Fault)
  | notMapping (path : String)
  /-- The file is no valid document, and why cannot be said. -/
  | wording (obstacle : Utf8.Obstacle)
  /-- The file is no valid document. -/
  | schema (path : String) (issues : List Schema.Issue)

/-- The wording of a fault, as far as it is the store's own. -/
def Fault.message : Fault → String
  | .invalid _ => ""
  | .unusablePath why => why.message
  | .linkLoop => "Symlink loop"
  | .writing path fault => "Cannot write plan to '" ++ path ++ "': " ++ fault.message
  | .missing path => "Plan file '" ++ path ++ "' not found"
  | .reading path fault => "Cannot read plan '" ++ path ++ "': " ++ fault.message
  | .encoding fault => fault.message
  | .notYaml path => "Plan '" ++ path ++ "' is not valid YAML"
  | .scalar fault => fault.message
  | .notMapping path => "Plan '" ++ path ++ "' must be a YAML mapping"
  | .wording obstacle => obstacle.message
  | .schema path _ => "Plan '" ++ path ++ "' does not match the plan schema"

/-- The path starts at the root of the file tree. -/
def isAbsolute (path : String) : Bool := (Path.parse path).isAbsolute

/-- The directory of the file, without links. -/
def directoryOf (t : FileTree) (cwd path : Path) : Except Fault Path :=
  match t.realPath cwd path.parent with
  | .ok base => .ok base
  | .error (.unusable why) => .error (.unusablePath why)
  | .error _ => .error .linkLoop

/-- What a root is relative to in the file: its directory, which is only looked for if that is
needed. -/
def baseOf (t : FileTree) (cwd path : Path) (needed : Bool) : Except Fault Path :=
  if needed then directoryOf t cwd path else .ok cwd

/-! ### Writing -/

/-- The root of a plan as an absolute path, if it has one. -/
def rootOf (cwd : Path) (root : String) : Option Path :=
  if root = "" then none else some (cwd.resolve (.parse root))

/-- A path as the file holds it: an absolute one relative to the root. -/
def toRelative (cwd : Path) (root : Option Path) (value : String) : String :=
  match root with
  | none => value
  | some root => if isAbsolute value then (cwd.relativeTo (.parse value) root).text else value

/-- The root as a file in the directory `base` holds it. -/
def storedRoot (cwd base : Path) (root : String) : String :=
  match rootOf cwd root with
  | none => root
  | some absolute => if isAbsolute root then root else (cwd.relativeTo absolute base).text

/-- The root is stored relative to the directory of the file. -/
def isRelativeRoot (root : String) : Bool := root ≠ "" && !isAbsolute root

/-- The plan as a document, with the root as it was given. -/
def converted (cwd : Path) (p : Plan) : Schema.Checked Document :=
  Document.ofPlan? (toRelative cwd (rootOf cwd p.rootDir)) p

/-- The document of a plan for a file in the directory `base`. -/
def document (cwd base : Path) (p : Plan) : Schema.Checked Document :=
  (converted cwd p).map fun d => { d with rootDir := storedRoot cwd base p.rootDir }

/-- The document that is written for a plan to the file at `path`. -/
def draft (t : FileTree) (cwd path : Path) (p : Plan) : Except Fault Document :=
  match converted cwd p with
  | .faulty issues => .error (.invalid issues)
  | .ok d => do
    let base ← baseOf t cwd path (isRelativeRoot p.rootDir)
    return { d with rootDir := storedRoot cwd base p.rootDir }

/-- The fault that an operation on the file tree was refused. -/
def refusal (other : FileTree.Fault → Fault) (fault : FileTree.Fault) : Fault :=
  match fault.refusal with
  | .unusable why => .unusablePath why
  | _ => other fault

/-- The file tree after a plan has been written, and whether it has. -/
def save (t : FileTree) (cwd path : Path) (p : Plan) : FileTree × Except Fault Unit :=
  match draft t cwd path p with
  | .error fault => (t, .error fault)
  | .ok d =>
    let refuse := refusal (.writing path.text)
    match t.makeParents cwd path with
    | (t', some fault) => (t', .error (refuse fault))
    | (t', none) =>
      match t'.storeFile cwd path (Utf8.encode d.tree.write) with
      | (t'', some r) => (t'', .error (refuse ⟨r, path.text⟩))
      | (t'', none) => (t'', .ok ())

/-- Writes a plan and reports it. -/
def write (t : FileTree) (cwd path : Path) (p : Plan) : FileTree × Log.Activity Fault Unit :=
  let shown := ("path", Value.text path.text)
  match save t cwd path p with
  | (t', .ok ()) => (t', Log.report .info "Plan written" [shown, ("services", .int p.serviceCount)])
  | (t', .error fault) => (t', do
      if let .writing _ cause := fault then
        Log.report .error "Failed to write plan" [shown, ("error", .text cause.message)]
      throw fault)

/-! ### Reading -/

/-- The entries of the mapping that a file holds. -/
def readEntries (loader : Yaml.Loader) (path : String) (content : List UInt8) : Except Fault Schema.Entries :=
  match Utf8.decode content with
  | .error fault => .error (.encoding fault)
  | .ok cs =>
    match Yaml.read loader (Text.plainLines cs) with
    | .error .malformed => .error (.notYaml path)
    | .error fault => .error (.scalar fault)
    | .ok (.map es) => .ok es
    | .ok _ => .error (.notMapping path)

/-- The document that a file holds. -/
def readDocument (loader : Yaml.Loader) (path : String) (content : List UInt8) :
    Except Fault Document := do
  match Document.readEntries (← readEntries loader path content) with
  | .ok d => return d
  | .faulty issues =>
    match issues.findSome? Schema.Issue.obstacle? with
    | some obstacle => throw (.wording obstacle)
    | none => throw (.schema path issues)

/-- The absolute root of a document in a file in the directory `base`, if it has one. -/
def loadedRoot (base : Path) (root : String) : Option Path :=
  if root = "" then none else some (base.resolve (.parse root))

/-- A path of the file as an absolute one, if there is a root. -/
def toAbsolute (root : Option Path) (value : String) : String :=
  match root with
  | none => value
  | some root => if isAbsolute value then value else (root.resolve (.parse value)).text

/-- The plan of a document in a file in the directory `base`. -/
def planOf (base : Path) (d : Document) : Plan :=
  let root := loadedRoot base d.rootDir
  { Document.toPlan (toAbsolute root) d with rootDir := (root.map Path.text).getD "" }

/-- The plan in the file at `path`. -/
def load (loader : Yaml.Loader) (t : FileTree) (cwd path : Path) : Except Fault Plan :=
  match t.contentAt cwd path with
  | .error .notFound => .error (.missing path.text)
  | .error r => .error (refusal (.reading path.text) ⟨r, path.text⟩)
  | .ok content => do
    let d ← readDocument loader path.text content
    let base ← baseOf t cwd path (d.rootDir ≠ "")
    return planOf base d

/-- Reads a plan and reports it. -/
def read (loader : Yaml.Loader) (t : FileTree) (cwd path : Path) : Log.Activity Fault Plan := do
  let shown := ("path", Value.text path.text)
  match load loader t cwd path with
  | .ok p =>
    Log.report .info "Plan loaded" [shown, ("services", .int p.serviceCount)]
    return p
  | .error fault =>
    if let .schema _ issues := fault then
      Log.report .warning "Plan failed schema validation" [shown, ("errors", .int issues.length)]
    throw fault

end Store
end Replatform
