import PageBundle.Value.Basic

/-!
# Log events

An event has a level, the target that it comes from, a message and further fields.
-/

namespace PageBundle.Log

/-- How important an event is. -/
inductive Level where
  | error
  | warn
  | info
  | debug
  | trace
  deriving DecidableEq, Repr

namespace Level

/-- Every level, the most important first. -/
def all : List Level := [.error, .warn, .info, .debug, .trace]

/-- The place of a level, from one for the most important. -/
def rank : Level → Nat
  | .error => 1
  | .warn => 2
  | .info => 3
  | .debug => 4
  | .trace => 5

/-- The name of a level in settings. -/
def name : Level → String
  | .error => "error"
  | .warn => "warn"
  | .info => "info"
  | .debug => "debug"
  | .trace => "trace"

/-- The name of a level in a log. -/
def label (level : Level) : String :=
  String.ofList (level.name.toList.map Char.toUpper)

end Level

/-- Something worth telling. -/
structure Event where
  level : Level
  target : String
  message : String
  /-- The further fields. One without a value differs from run to run, and only its name is known. -/
  fields : List (String × Option Value)

namespace Event

/-- The names of all fields, of which the message is one. -/
def fieldNames (e : Event) : List String :=
  "message" :: e.fields.map (·.1)

/-- The further fields with a value. -/
def told (e : Event) : List (String × Value) :=
  e.fields.filterMap fun (name, value) => value.map fun value => (name, value)

/-- The event as a value. -/
def toValue (e : Event) : Value :=
  .table [("level", .text e.level.label), ("target", .text e.target),
    ("fields", .table (("message", .text e.message) :: e.told))]

/-- The event as a line to be read by people. -/
def line (e : Event) : String :=
  let field (f : String × Value) : String :=
    " " ++ f.1 ++ "=" ++ (f.2.text? .lenient).getD ""
  e.level.label ++ " " ++ e.target ++ ": " ++ e.message ++ String.join (e.told.map field)

end Event

end PageBundle.Log
