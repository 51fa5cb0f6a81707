import PageBundle.Decimal.Read
import PageBundle.Log.Event
import PageBundle.Log.Pattern
import PageBundle.Text.Letter
import PageBundle.Text.Offset

/-!
# Directives of a log filter

A directive sets how far events are let through that come from targets with a certain beginning and,
if it names a field, that have the field. It is written as a level, a target, or both with an equals
sign between them; in square brackets after the target, a span may be named and, in braces, a field,
which may be given a value.

Blanks around a directive do not matter for where its parts begin and end, but these places are
counted from the start of the text with its blanks. So blanks in front shift every part, and a part
may come to end within a character.
-/

namespace PageBundle.Log

/-- How far some events are let through. -/
structure Directive where
  /-- The beginning of the targets that the directive is for. -/
  target : String
  /-- The field that an event needs for the directive to be for it, if it needs one. -/
  field : Option String
  /-- The rank of the least important level that is let through; nothing is at zero. -/
  limit : Nat
  deriving DecidableEq, Repr

/-- Why a text writes no filter. -/
inductive ParseFault where
  /-- It is not formed like one. -/
  | malformed
  /-- A part of it begins or ends within a character. -/
  | torn
  deriving DecidableEq, Repr

/-- The limit that a text names: a level, `off`, or a number up to five. -/
def limitOf? (text : String) : Option Nat :=
  let digits := match text.toList with
    | '+' :: cs => cs
    | cs => cs
  if !digits.isEmpty && digits.all Char.isDigit then
    let n := (digits.dropWhile (· == '0')).foldl (fun n c => n * 10 + (c.toNat - 48)) 0
    if n ≤ 5 then some n else none
  else if Text.sameLetters text "off" then some 0
  else (Level.all.find? fun level => Text.sameLetters text level.name).map Level.rank

namespace Directive

/-- Whether the directive is for an event. -/
def appliesTo (d : Directive) (e : Event) : Bool :=
  d.target.toList.isPrefixOf e.target.toList && d.field.all e.fieldNames.contains

/-- Whether a directive counts before another one that was given before it and is for the same
event: its target is longer, or as long and it names a field while the other does not or names one
that is not greater. -/
def overrides (d other : Directive) : Bool :=
  if d.target.length == other.target.length then
    match other.field, d.field with
    | none, _ => true
    | some _, none => false
    | some field, some own => field ≤ own
  else other.target.length < d.target.length

/-- The part of a text between two offsets. -/
def part (text : List Char) (start stop : Nat) : Except ParseFault (List Char) :=
  match (Text.cut? stop text).bind fun (before, _) => Text.cut? start before with
  | some (_, part) => .ok part
  | none => .error .torn

/-- The limit that a text names from an offset on; everything is let through if the text ends
there. -/
def limitFrom (text : List Char) (start : Nat) : Except ParseFault Nat :=
  match Text.cut? start text with
  | none => .error .torn
  | some (_, []) => .ok Level.trace.rank
  | some (_, limit) =>
    match limitOf? (String.ofList limit) with
    | some limit => .ok limit
    | none => .error .malformed

/-- The limit after a closing bracket that ends at an offset, where `cs` is left of the directive. -/
def limitAfter (text : List Char) (offset : Nat) : List Char → Except ParseFault Nat
  | [] => .ok Level.trace.rank
  | '=' :: _ => limitFrom text (offset + 1)
  | _ => .error .malformed

/-- The field that a text names; none if the text also gives it a value, which must be a number or a
regular expression. -/
def fieldOf (text : List Char) : Except ParseFault (Option String) :=
  match text.splitOn '=' with
  | _ :: value :: _ =>
    if (Decimal.float? value).isSome || Pattern.isValid value then .ok none
    else .error .malformed
  | _ => if text.isEmpty then .error .malformed else .ok (some (String.ofList text))

/-- The directive for a target whose bracket opens before an offset, where `cs` is left. -/
def bracketed (text : List Char) (target : String) (start : Nat) (cs : List Char) :
    Except ParseFault (Option Directive) :=
  let isSpan (c : Char) := c != ']' && c != '{'
  let stop := start + Text.byteLength (cs.takeWhile isSpan)
  match cs.dropWhile isSpan with
  | [] => .error .malformed
  | ']' :: rest => do
    let _ ← part text start stop
    let _ ← limitAfter text (stop + 1) rest
    return none
  | _ :: cs => do
    let span ← part text start stop
    let fieldStop := stop + 1 + Text.byteLength (cs.takeWhile (· != '}'))
    match cs.dropWhile (· != '}') with
    | [] => .error .malformed
    | _ :: rest =>
      let field ← fieldOf (← part text (stop + 1) fieldStop)
      match rest with
      | ']' :: rest =>
        let limit ← limitAfter text (fieldStop + 2) rest
        return if span.isEmpty then field.map fun field => ⟨target, some field, limit⟩ else none
      | _ => .error .malformed

/-- The directive of a text without signs: one for all targets if the text names a limit, otherwise
one that lets everything through for the target that it names. -/
def bare (text : String) : Directive :=
  match limitOf? text with
  | some limit => ⟨"", none, limit⟩
  | none => ⟨text, none, Level.trace.rank⟩

/-- Whether a character may begin a directive without a bracket. -/
def isStart (c : Char) : Bool :=
  ['-', ':', '_'].contains c || Text.isAlphanumeric c

/-- The directive that a text writes. One for a span or for a value of a field is for no event,
since nothing is logged in a span; such a directive is none. -/
def parse (text : List Char) : Except ParseFault (Option Directive) :=
  match Text.dropEnds Text.isBlank text with
  | [] => .error .malformed
  | '[' :: cs => bracketed text "" 1 cs
  | c :: cs =>
    let isTarget (c : Char) := c != '=' && c != '['
    let stop := Text.byteLength ((c :: cs).takeWhile isTarget)
    if !isStart c then .error .malformed
    else
      match (c :: cs).dropWhile isTarget with
      | [] => .ok (some (bare (String.ofList text)))
      | '=' :: _ => do
        let target ← part text 0 stop
        let limit ← limitFrom text (stop + 1)
        return some ⟨String.ofList target, none, limit⟩
      | _ :: cs => do
        let target ← part text 0 stop
        bracketed text (String.ofList target) (stop + 1) cs

end Directive

end PageBundle.Log
