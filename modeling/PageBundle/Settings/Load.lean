import PageBundle.File.System
import PageBundle.Settings.Basic
import PageBundle.Settings.Source

/-!
# Loading settings

The variables of the environment are laid over the file, if one is given, and the settings are read
from the result, leniently. A charset that is not supported is found last.
-/

namespace PageBundle.Settings

/-- Why settings cannot be loaded. -/
inductive LoadError where
  /-- There is no file at the path or none that can be read. -/
  | missingFile
  /-- The file is not written in the format of its extension. -/
  | malformedFile
  /-- A setting has a value of another type. -/
  | illTyped
  | unsupportedCharset (label : String)
  deriving DecidableEq, Repr

/-- The wording of an error; what is wrong with the sources is not told. -/
def LoadError.message : LoadError → String
  | .missingFile | .malformedFile | .illTyped => "configuration error"
  | .unsupportedCharset label => s!"unsupported charset: {label}"

/-- The settings that the sources give together. -/
def ofSources (sources : List (List (String × Value))) : Except LoadError Settings :=
  match Settings.ofValue? .lenient (sources.foldl Value.overlaySource (.table [])) with
  | none => .error .illTyped
  | some settings =>
    if (Charset.nameOf? settings.charsetLabel).isSome then .ok settings
    else .error (.unsupportedCharset settings.charsetLabel)

variable {m : Type → Type} [Monad m]

/-- The first of some files that exists. -/
def firstFile? (files : File.System m) : List (String × Format) → m (Option (String × Format))
  | [] => pure none
  | candidate :: rest => do
    if ← files.isFile candidate.1 then return some candidate else firstFile? files rest

/-- The file that a path stands for, and its format. -/
def findFile? (files : File.System m) (path : String) : m (Option (String × Format)) := do
  if ← files.isFile path then return (formatOf? path).map (path, ·)
  else firstFile? files (alternatives path)

/-- The entries of the file that a path stands for. -/
def readFile (files : File.System m) (path : String) :
    m (Except LoadError (List (String × Value))) := do
  match ← findFile? files path with
  | none => return .error .missingFile
  | some (path, format) =>
    match ← files.read path with
    | .error _ => return .error .missingFile
    | .ok contents =>
      match format.read? (textOf contents) with
      | some entries => return .ok entries
      | none => return .error .malformedFile

/-- Loads settings from a file, if a path is given, and from variables. -/
def load (files : File.System m) (path : Option String) (environment : List (String × String)) :
    m (Except LoadError Settings) := do
  let overriding := entriesOfVariables environment
  match path with
  | none => return ofSources [overriding]
  | some path =>
    match ← readFile files path with
    | .error e => return .error e
    | .ok entries => return ofSources [entries, overriding]

end PageBundle.Settings
