import PageBundle.Value.Json
import PageBundle.Value.Overlay

/-!
# TOML

`Toml.parse` reads a TOML text: comments, headers of tables, and keys with values, which are texts
on one line, integers, floating-point numbers, truth values, lists and inline tables. A key may be
given once, and a table may be opened once.
-/

namespace PageBundle.Toml

/-- The text without the blanks at its start. -/
def skipBlanks (cs : List Char) : List Char :=
  cs.dropWhile fun c => c == ' ' || c == '\t'

/-- Whether a character may stand in a comment or a text. -/
def isPrintable (c : Char) : Bool :=
  c == '\t' || (0x20 ≤ c.toNat && c.toNat != 0x7F)

/-- The text without a comment at its start. -/
def skipComment : List Char → List Char
  | '#' :: cs => cs.dropWhile isPrintable
  | cs => cs

/-- What follows the end of a line, with the blanks and the comment before it; nothing if the line
does not end. -/
def endOfLine? (cs : List Char) : Option (List Char) :=
  match skipComment (skipBlanks cs) with
  | [] => some []
  | '\n' :: cs => some cs
  | '\r' :: '\n' :: cs => some cs
  | _ => none

/-- The text without the blanks, comments and ends of lines at its start. -/
def skipLines : Nat → List Char → List Char
  | 0, cs => cs
  | fuel + 1, cs =>
    match skipComment (skipBlanks cs) with
    | '\n' :: cs => skipLines fuel cs
    | '\r' :: '\n' :: cs => skipLines fuel cs
    | cs => cs

/-- The character that follows a backslash stands for, and the rest. -/
def escape? : List Char → Option (Char × List Char)
  | 'u' :: cs => Hex.char? 4 cs
  | 'U' :: cs => Hex.char? 8 cs
  | '/' :: _ => none
  | c :: cs => (Json.simpleEscape? c).map (·, cs)
  | [] => none

/-- Reads a text with escapes up to its closing quote, after `read`, held backwards. -/
def basicFrom : Nat → List Char → List Char → Option (String × List Char)
  | 0, _, _ => none
  | _ + 1, _, [] => none
  | _ + 1, read, '"' :: rest => some (String.ofList read.reverse, rest)
  | fuel + 1, read, '\\' :: rest =>
    match escape? rest with
    | some (c, rest) => basicFrom fuel (c :: read) rest
    | none => none
  | fuel + 1, read, c :: rest => if isPrintable c then basicFrom fuel (c :: read) rest else none

/-- The text in quotes of either sort at the start of a text, and the rest. -/
def quoted? : List Char → Option (String × List Char)
  | '"' :: cs => basicFrom (cs.length + 1) [] cs
  | '\'' :: cs =>
    match cs.dropWhile fun c => isPrintable c && c != '\'' with
    | '\'' :: rest =>
      some (String.ofList (cs.takeWhile fun c => isPrintable c && c != '\''), rest)
    | _ => none
  | _ => none

/-- The part of a key at the start of a text, and the rest. -/
def simpleKey? (cs : List Char) : Option (String × List Char) :=
  match cs with
  | '"' :: _ => quoted? cs
  | '\'' :: _ => quoted? cs
  | cs =>
    let key := cs.takeWhile Value.isKeyChar
    if key.isEmpty then none else some (String.ofList key, cs.dropWhile Value.isKeyChar)

/-- The key at the start of a text, as a path, and the rest after the blanks that follow it. -/
def key? : Nat → List Char → Option (List String × List Char)
  | 0, _ => none
  | fuel + 1, cs =>
    match simpleKey? (skipBlanks cs) with
    | none => none
    | some (part, rest) =>
      match skipBlanks rest with
      | '.' :: rest => (key? fuel rest).map fun (path, rest) => (part :: path, rest)
      | rest => some ([part], rest)

/-- The digits without the underscores between them; nothing if one stands elsewhere. -/
def ungrouped? (isDigit : Char → Bool) (cs : List Char) : Option (List Char) :=
  let groups := cs.splitOn '_'
  if groups.all fun g => !g.isEmpty && g.all isDigit then some groups.flatten else none

/-- The decimal digits of a number that does not begin with a needless zero. -/
def whole? (cs : List Char) : Option (List Char) := do
  let digits ← ungrouped? Char.isDigit cs
  if digits.length > 1 && digits.head? == some '0' then none else some digits

/-- The integer that digits of a base write. -/
def based? (base : Nat) (cs : List Char) : Option Int := do
  let value (c : Char) : Nat := if c.isDigit then c.toNat - 48 else c.toLower.toNat - 87
  let isDigit (c : Char) : Bool :=
    (c.isDigit || ('a' ≤ c.toLower && c.toLower ≤ 'f')) && value c < base
  let digits ← ungrouped? isDigit cs
  some (digits.foldl (fun n c => n * base + value c) 0 : Nat)

/-- The floating-point number that a word without its sign writes. -/
def unsigned? (cs : List Char) : Option Float := do
  if cs == "inf".toList then return 1.0 / 0.0
  if cs == "nan".toList then return 0.0 / 0.0
  let mantissa := cs.takeWhile fun c => c != 'e' && c != 'E'
  let exponent ← match cs.drop mantissa.length with
    | [] => some 0
    | e :: r =>
      let (negative, digits) := Decimal.takeSign r
      (ungrouped? Char.isDigit digits).bind fun digits =>
        Decimal.exponent? (e :: (if negative then ['-'] else []) ++ digits)
  let whole ← whole? (mantissa.takeWhile (· != '.'))
  let fraction ← match mantissa.dropWhile (· != '.') with
    | [] => some []
    | _ :: digits => ungrouped? Char.isDigit digits
  return Decimal.ofDecimal (Decimal.ofDigits (whole ++ fraction)) (exponent - fraction.length)

/-- The integer that a word writes. -/
def integer? (word : List Char) : Option Int :=
  match word with
  | '0' :: 'x' :: cs => based? 16 cs
  | '0' :: 'o' :: cs => based? 8 cs
  | '0' :: 'b' :: cs => based? 2 cs
  | word =>
    let (negative, cs) := Decimal.takeSign word
    (whole? cs).map fun digits =>
      if negative then -(Decimal.ofDigits digits : Int) else Decimal.ofDigits digits

/-- The value of a word without quotes. -/
def wordValue? (word : List Char) : Option Value :=
  if word == "true".toList then some (.bool true)
  else if word == "false".toList then some (.bool false)
  else
    match integer? word with
    | some n => if Decimal.isWord64 n then some (.int n) else none
    | none =>
      let (negative, cs) := Decimal.takeSign word
      (unsigned? cs).map fun x => .real (Decimal.signed negative x)

/-- The characters of words without quotes. -/
def isWordChar (c : Char) : Bool :=
  c.isAlphanum || c == '_' || c == '-' || c == '+' || c == '.'

/-- Puts a value at the end of a path; nothing if something is in the way. -/
def put? (root : Value) (v : Value) : List String → Option Value
  | [] => none
  | [key] =>
    if (Value.valueAt? (Value.entriesOf root) key).isSome then none else some (root.replace key v)
  | key :: path =>
    match root.tableAt key with
    | .table inner => (put? (.table inner) v path).map (root.replace key)
    | _ => none

mutual

/-- The value at the start of a text, and the rest. -/
def value? (fuel : Nat) (cs : List Char) : Option (Value × List Char) :=
  match fuel with
  | 0 => none
  | fuel + 1 =>
    match cs with
    | '"' :: '"' :: '"' :: _ => none
    | '\'' :: '\'' :: '\'' :: _ => none
    | '"' :: _ => (quoted? cs).map fun (s, rest) => (.text s, rest)
    | '\'' :: _ => (quoted? cs).map fun (s, rest) => (.text s, rest)
    | '[' :: rest => items? fuel [] rest
    | '{' :: rest =>
      match skipBlanks rest with
      | '}' :: rest => some (.table [], rest)
      | rest => entries? fuel (.table []) rest
    | cs => (wordValue? (cs.takeWhile isWordChar)).map (·, cs.dropWhile isWordChar)

/-- The rest of a list after its items `read`, held backwards. -/
def items? (fuel : Nat) (read : List Value) (cs : List Char) : Option (Value × List Char) :=
  match fuel with
  | 0 => none
  | fuel + 1 =>
    match skipLines cs.length cs with
    | ']' :: rest => some (.list read.reverse, rest)
    | cs =>
      match value? fuel cs with
      | none => none
      | some (v, rest) =>
        match skipLines rest.length rest with
        | ',' :: rest => items? fuel (v :: read) rest
        | ']' :: rest => some (.list (v :: read).reverse, rest)
        | _ => none

/-- The rest of an inline table after the entries of `root`. -/
def entries? (fuel : Nat) (root : Value) (cs : List Char) : Option (Value × List Char) :=
  match fuel with
  | 0 => none
  | fuel + 1 =>
    match key? cs.length cs with
    | some (path, '=' :: rest) =>
      match value? fuel (skipBlanks rest) with
      | none => none
      | some (v, rest) =>
        match put? root v path, skipBlanks rest with
        | some root, ',' :: rest => entries? fuel root rest
        | some root, '}' :: rest => some (root, rest)
        | _, _ => none
    | _ => none

end

/-- A line of a text that is not empty. -/
inductive Statement where
  /-- Opens a table. -/
  | header (path : List String)
  /-- Gives a value to a key of the table that is open. -/
  | entry (path : List String) (v : Value)

/-- The statement at the start of a text, and the rest. -/
def statement? (cs : List Char) : Option (Statement × List Char) :=
  match cs with
  | '[' :: cs =>
    match key? cs.length cs with
    | some (path, ']' :: rest) => (endOfLine? rest).map (.header path, ·)
    | _ => none
  | cs =>
    match key? cs.length cs with
    | some (path, '=' :: rest) =>
      match value? (2 * rest.length + 2) (skipBlanks rest) with
      | some (v, rest) => (endOfLine? rest).map (.entry path v, ·)
      | none => none
    | _ => none

/-- The statements of a text. -/
def statements? : Nat → List Char → Option (List Statement)
  | 0, _ => none
  | fuel + 1, cs =>
    match skipLines cs.length cs with
    | [] => some []
    | cs =>
      match statement? cs with
      | some (s, rest) => (statements? fuel rest).map (s :: ·)
      | none => none

/-- What the statements up to some point have made. -/
structure Document where
  root : Value := .table []
  /-- The table that is open. -/
  table : List String := []
  /-- The tables that headers have opened. -/
  opened : List (List String) := []
  /-- The tables that keys with points have made, and those that are values. -/
  closed : List (List String) := []
  /-- The keys that have values. -/
  given : List (List String) := []

/-- Whether a path is the start of another. -/
def leadsTo (path longer : List String) : Bool :=
  path.isPrefixOf longer

/-- The paths that a key with points makes tables of. -/
def innerPaths (table path : List String) : List (List String) :=
  (List.range (path.length - 1)).map fun n => table ++ path.take (n + 1)

namespace Document

/-- Opens a table, unless it was made before or a value is in the way. -/
def header? (d : Document) (path : List String) : Option Document :=
  if d.opened.contains path || d.closed.contains path || d.given.any (leadsTo · path) then none
  else
    some { d with
      root := d.root.overlayAt (.table []) path
      table := path
      opened := path :: d.opened }

/-- Gives a value to a key, unless it has one or something is in the way. -/
def assign? (d : Document) (path : List String) (v : Value) : Option Document :=
  let full := d.table ++ path
  let inner := innerPaths d.table path
  if d.given.any (leadsTo · full) || (d.opened ++ d.closed).any (leadsTo full) ||
      inner.any d.opened.contains then none
  else
    some { d with
      root := d.root.overlayAt v full
      closed := inner ++ d.closed
      given := full :: d.given }

/-- Adds a statement. -/
def add? (d : Document) : Statement → Option Document
  | .header path => d.header? path
  | .entry path v => d.assign? path v

end Document

/-- The table that a TOML text writes. -/
def parse (cs : List Char) : Option Value := do
  let statements ← statements? (cs.length + 1) cs
  let d ← statements.foldlM Document.add? {}
  some d.root

end PageBundle.Toml
