import Replatform.Path
import Replatform.Settings.Dotenv
import Replatform.Text.Case
import Replatform.Text.Encoding
import Replatform.Value

/-! # Where settings come from

A setting comes from the first of these sources that has it: the values that are given,
the environment, a file of variables.  Some of the given values are no settings but say
how variables are looked for.
-/
namespace Replatform
namespace Settings

/-- The values that are given, by name. -/
abbrev Given := List (String × Value)

/-- Variables; one of a file may have no value. -/
abbrev Variables := List (String × Option String)

/-- The value that is given for a setting; the case of the name does not count. -/
def givenValue? (given : Given) (setting : String) : Option Value :=
  (given.find? fun g => lowered g.1 = setting).map Prod.snd

/-- How variables are looked for. -/
structure Search where
  /-- What the names of variables begin with. -/
  start : String
  /-- The names of the variables for settings begin so. -/
  prefixed : Bool
  /-- The case of names counts. -/
  exact : Bool
  /-- A variable with an empty text counts as not set. -/
  skipsEmpty : Bool
  /-- The text that stands for null. -/
  nullText : Option String
  /-- The file of variables is looked at. -/
  readsFile : Bool
  /-- The name of the encoding of the file. -/
  encoding : String
  deriving DecidableEq, Repr

namespace Search

/-- The path of the file of variables. -/
def file : Path := .parse ".env"

/-- The value is the path of the file of variables, or a list with it. -/
def namesFile : Value → Bool
  | .text s => Path.parse s = file
  | .list items => items.any fun
    | .text s => Path.parse s = file
    | _ => false
  | _ => false

/-- What a given value says, if it is a text. -/
def textOf? (given : Given) (name : String) : Option String :=
  match given.lookup name with
  | some (.text s) => some s
  | _ => none

/-- How variables are looked for according to given values. -/
def ofGiven (given : Given) : Search where
  start := (textOf? given "_env_prefix").getD "KUBEPLAN_"
  prefixed := ["variable", "all"].contains ((textOf? given "_env_prefix_target").getD "variable")
  exact := ((given.lookup "_case_sensitive").map Value.holds).getD false
  skipsEmpty := ((given.lookup "_env_ignore_empty").map Value.holds).getD false
  nullText := textOf? given "_env_parse_none_str"
  readsFile := ((given.lookup "_env_file").map namesFile).getD true
  encoding := ((textOf? given "_env_file_encoding").filter (· ≠ "")).getD "utf-8"

/-- A name as it is compared. -/
def compared (s : Search) (name : String) : String := if s.exact then name else lowered name

/-- The latest value of a variable. -/
def valueOf? (s : Search) (name : String) (vars : Variables) : Option (Option String) :=
  vars.reverse.findSome? fun v =>
    if (s.skipsEmpty && v.2 = some "") || s.compared v.1 ≠ s.compared name then none else some v.2

/-- The value of the variable for a setting. -/
def read? (s : Search) (setting : String) (vars : Variables) : Option Value :=
  match s.valueOf? (if s.prefixed then s.start ++ setting else setting) vars with
  | some (some text) => some (if s.nullText = some text then .null else .text text)
  | _ => none

/-- The value of a variable whose name begins as others do, where those for settings do not.  An
empty text is none. -/
def readOther? (s : Search) (setting : String) (vars : Variables) : Option Value :=
  if s.prefixed || s.start = "" then none
  else
    match s.valueOf? (s.start ++ setting) vars with
    | some (some text) => if text = "" then none else some (.text text)
    | _ => none

/-- The variables in the bytes of a file, if the file is looked at. -/
def variablesOf (s : Search) (env : List (String × String)) (bytes : Option (List UInt8)) :
    Except Text.Encoding.Fault Variables :=
  match s.readsFile, bytes with
  | true, some bs => do
    let encoding ← Text.Encoding.ofName s.encoding
    let cs ← encoding.decode bs
    return (Dotenv.read env (String.ofList (Text.ofChars cs))).entries
  | _, _ => return []

end Search

/-- The value of a setting, from the first source that has it. -/
def source? (search : Search) (given : Given) (env file : Variables) (setting : String) : Option Value :=
  givenValue? given setting <|> search.read? setting env <|> search.readOther? setting file <|>
    search.read? setting file

/-- The settings that some source has, of those with the names. -/
def sources (names : List String) (given : Given) (env : List (String × String))
    (file : Option (List UInt8)) : Except Text.Encoding.Fault (List (Value × Value)) := do
  let search := Search.ofGiven given
  let vars ← search.variablesOf env file
  let env := env.map fun v => (v.1, some v.2)
  return names.filterMap fun name =>
    (source? search given env vars name).map fun v => (.text name, v)

end Settings
end Replatform
