import PageBundle.Decimal.Shortest
import PageBundle.Text.Letter

/-!
# Structured values

What a JSON text, a TOML text or an environment variable gives. A typed reading takes a value apart
in one of two manners: the exact one accepts only the type that is asked for, the lenient one, which
is used for settings, also converts between numbers, truth values and texts.
-/

namespace PageBundle

/-- A structured value. -/
inductive Value where
  | null
  | bool (b : Bool)
  | int (n : Int)
  | real (x : Float)
  | text (s : String)
  | list (items : List Value)
  | table (entries : List (String × Value))
  deriving Inhabited

namespace Value

/-- How willing a reading is to convert. -/
inductive Manner where
  | exact
  | lenient
  deriving DecidableEq, Repr

/-- An optional text, for which null stands when there is none. -/
def ofOption : Option String → Value
  | none => .null
  | some s => .text s

/-- The list of some texts. -/
def ofTexts (texts : List String) : Value :=
  .list (texts.map .text)

/-- The truth value that a word names. -/
def boolOfWord? (word : String) : Option Bool :=
  match Text.lower word with
  | "1" | "true" | "on" | "yes" => some true
  | "0" | "false" | "off" | "no" => some false
  | _ => none

/-- The value as a truth value. -/
def bool? (manner : Manner) : Value → Option Bool
  | .bool b => some b
  | .int n => if manner = .lenient then some (n != 0) else none
  | .real x => if manner = .lenient then some (!(x == 0)) else none
  | .text s => if manner = .lenient then boolOfWord? s else none
  | _ => none

/-- The value as a text. -/
def text? (manner : Manner) : Value → Option String
  | .text s => some s
  | .bool b => if manner = .lenient then some (toString b) else none
  | .int n => if manner = .lenient then some (toString n) else none
  | .real x => if manner = .lenient then some (Decimal.text x) else none
  | _ => none

/-- The value as an optional text, for which null stands when there is none. -/
def optionalText? (manner : Manner) : Value → Option (Option String)
  | .null => some none
  | v => (v.text? manner).map some

/-- The value as a list of texts. -/
def texts? (manner : Manner) : Value → Option (List String)
  | .list items => items.mapM (text? manner)
  | _ => none

/-- The value as one of `names`, alone or as the only key of a table. A table's value must be null
in the exact manner. -/
def choice? (manner : Manner) (names : List String) : Value → Option String
  | .text s => if names.contains s then some s else none
  | .table [(key, v)] =>
    let fits := match v with
      | .null => true
      | _ => manner = .lenient
    if fits && names.contains key then some key else none
  | _ => none

/-- The entry of a table; of equal keys the last counts. -/
def valueAt? (entries : List (String × Value)) (key : String) : Option Value :=
  (entries.reverse.find? fun e => e.1 == key).map (·.2)

/-- The fields of a record, each given or not: the entries of a table under their names, or the
items of a list in order. A list that is too long is refused in the exact manner. -/
def fields? (manner : Manner) (names : List String) : Value → Option (List (Option Value))
  | .table entries => some (names.map (valueAt? entries))
  | .list items =>
    if items.length > names.length && manner = .exact then none
    else some ((List.range names.length).map fun i => items[i]?)
  | _ => none

/-- A field that takes `default` when it is not given. -/
def fieldOr {α : Type} (default : α) (read : Value → Option α) : Option Value → Option α
  | none => some default
  | some v => read v

end Value

end PageBundle
