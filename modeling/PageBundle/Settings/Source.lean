import PageBundle.Decimal.Read
import PageBundle.File.Disk
import PageBundle.Text.Blank
import PageBundle.Text.Letter
import PageBundle.Text.Search
import PageBundle.Text.Utf8
import PageBundle.Value.Toml

/-!
# Sources of settings

Settings are read from a file, whose extension tells its format, and from variables of the
environment. What a source gives is a list of keys and values.
-/

namespace PageBundle.Settings

/-- The format of a file of settings. -/
inductive Format where
  | toml
  | json
  deriving DecidableEq, Repr

namespace Format

/-- Every format, in the order in which files are looked for. -/
def all : List Format := [.toml, .json]

/-- The extension of files of a format. -/
def extension : Format → String
  | .toml => "toml"
  | .json => "json"

/-- The entries of a text in a format; nothing if it does not write a table. -/
def read? (f : Format) (cs : List Char) : Option (List (String × Value)) :=
  let v := match f with
    | .toml => Toml.parse cs
    | .json => Json.parse cs
  match v with
  | some (.table entries) => some entries
  | _ => none

end Format

/-- The extension of the file that a path leads to. -/
def extensionOf? (path : String) : Option String := do
  let name := (← ((File.namesOf path).filter (· != ".")).getLast?).toList
  let extension := (name.reverse.takeWhile (· != '.')).reverse
  if name == "..".toList || extension.length + 1 ≥ name.length then none
  else some (String.ofList extension)

/-- The format of the file that a path leads to. -/
def formatOf? (path : String) : Option Format := do
  let extension ← extensionOf? path
  Format.all.find? (·.extension == extension)

/-- The files to look for when there is none at a path, each with its format. -/
def alternatives (path : String) : List (String × Format) :=
  let stem := String.ofList (Text.dropEnd (· == '/') path.toList)
  Format.all.map fun f => (stem ++ "." ++ f.extension, f)

/-- The text of a file without a byte order mark at its start. -/
def textOf (contents : Bytes) : List Char :=
  match contents with
  | 0xEF :: 0xBB :: 0xBF :: rest => Utf8.decodeLossy rest
  | contents => Utf8.decodeLossy contents

/-- The value of a variable: a truth value, a number or a text. -/
def valueOfVariable (text : String) : Value :=
  if Text.lower text == "true" then .bool true
  else if Text.lower text == "false" then .bool false
  else
    match Decimal.integer? text.toList with
    | some n => if Decimal.isWord64 n then .int n else realOrText
    | none => realOrText
where
  /-- A text that writes no integer. -/
  realOrText : Value :=
    match Decimal.float? text.toList with
    | some x => .real x
    | none => .text text

/-- The beginning of the names of variables that are settings, whatever its case. -/
def variablePrefix : List Char := "wpo_".toList

/-- The key of a variable; two underscores lead into an inner table. -/
def keyOfVariable? (name : String) : Option String :=
  (Text.dropPattern? variablePrefix (Text.lower name).toList).map fun cs =>
    String.ofList (Text.replaceAll ['_', '_'] ['.'] cs)

/-- The entries that variables give; the others are not settings. -/
def entriesOfVariables (environment : List (String × String)) : List (String × Value) :=
  environment.filterMap fun (name, text) =>
    (keyOfVariable? name).map fun key => (key, valueOfVariable text)

end PageBundle.Settings
