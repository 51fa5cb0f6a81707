import PageBundle.Decimal.Read
import PageBundle.Text.Hex
import PageBundle.Text.Utf8
import PageBundle.Value.Basic

/-!
# JSON

`Json.parse` reads a JSON text strictly: one value, with nothing after it but white space, and no
more than 127 brackets inside each other. `Json.pretty` writes a value over several lines, indented
by two spaces, with the keys of tables in order; `Json.compact` writes it on one line.
-/

namespace PageBundle.Json

/-- The text without the white space at its start. -/
def skip (cs : List Char) : List Char :=
  cs.dropWhile fun c => c == ' ' || c == '\t' || c == '\n' || c == '\r'

/-- The character of an escape that begins with `u`, and the rest. Characters above U+FFFF are
written as a pair of surrogates; a surrogate alone is refused. -/
def unicodeEscape? (cs : List Char) : Option (Char × List Char) :=
  match Hex.number? 4 cs with
  | none => none
  | some (n, rest) =>
    if 0xDC00 ≤ n && n < 0xE000 then none
    else if 0xD800 ≤ n && n < 0xDC00 then
      match rest with
      | '\\' :: 'u' :: rest =>
        match Hex.number? 4 rest with
        | some (low, rest) =>
          if 0xDC00 ≤ low && low < 0xE000 then
            some (Char.ofNat (0x10000 + (n - 0xD800) * 0x400 + (low - 0xDC00)), rest)
          else none
        | none => none
      | _ => none
    else some (Char.ofNat n, rest)

/-- The character that a backslash and `c` stand for, if no digits follow. -/
def simpleEscape? : Char → Option Char
  | '"' => some '"'
  | '\\' => some '\\'
  | '/' => some '/'
  | 'b' => some '\x08'
  | 'f' => some '\x0c'
  | 'n' => some '\n'
  | 'r' => some '\r'
  | 't' => some '\t'
  | _ => none

/-- Reads a string up to its closing quote, after `read`, held backwards. -/
def stringFrom : Nat → List Char → List Char → Option (String × List Char)
  | 0, _, _ => none
  | _ + 1, _, [] => none
  | _ + 1, read, '"' :: rest => some (String.ofList read.reverse, rest)
  | fuel + 1, read, '\\' :: 'u' :: rest =>
    match unicodeEscape? rest with
    | some (c, rest) => stringFrom fuel (c :: read) rest
    | none => none
  | fuel + 1, read, '\\' :: e :: rest =>
    match simpleEscape? e with
    | some c => stringFrom fuel (c :: read) rest
    | none => none
  | fuel + 1, read, c :: rest =>
    if c.toNat < 0x20 || c == '\\' then none else stringFrom fuel (c :: read) rest

/-- The string whose opening quote is already read, and the rest. -/
def string? (cs : List Char) : Option (String × List Char) :=
  stringFrom (cs.length + 1) [] cs

/-- A significand with more digits after it as long as it fits 64 bits, and the digits that are left
over. -/
def gather (significand : Nat) : List Char → Nat × List Char
  | [] => (significand, [])
  | c :: cs =>
    let next := significand * 10 + (c.toNat - 48)
    if next < 1 <<< 64 then gather next cs else (significand, c :: cs)

/-- The number `x * 10 ^ exponent`, unless it is too large. The power is rounded before it is
applied, and one below `10 ^ -308` is applied in several divisions, so that the result need not be
the number nearest to the decimal. -/
def scaled? (x : Float) (exponent : Int) : Option Float :=
  let power (n : Nat) := Decimal.nearest (Nat.pow 10 n) 1
  if x == 0 then some x
  else if 308 < exponent then none
  else if 0 ≤ exponent then
    let y := x * power exponent.natAbs
    if y.isInf then none else some y
  else if -308 ≤ exponent then some (x / power exponent.natAbs)
  else scaled? (x / power 308) (exponent + 308)
termination_by exponent.natAbs
decreasing_by omega

/-- The number that digits before and after a point and an exponent write. Digits that do not fit
the significand are left out; before the point they still count as places. -/
def real? (whole fraction : List Char) (exponent : Int) : Option Float :=
  let (significand, places) := gather 0 whole
  let (significand, dropped) := gather significand fraction
  scaled? (Decimal.nearest significand 1)
    (exponent + places.length - (fraction.length - dropped.length : Nat))

/-- The number at the start of a text, and the rest. -/
def number? (cs : List Char) : Option (Value × List Char) :=
  let (negative, cs) := match cs with
    | '-' :: cs => (true, cs)
    | cs => (false, cs)
  let (whole, rest) := Decimal.takeDigits cs
  if whole.isEmpty || (whole.length > 1 && whole.head? == some '0') then none else
  let (fraction?, rest) := match rest with
    | '.' :: r => let (d, r) := Decimal.takeDigits r; (some d, r)
    | r => (none, r)
  if fraction? == some [] then none else
  let (exponent?, rest) := match rest with
    | e :: r =>
      if e == 'e' || e == 'E' then
        let (_, digits) := Decimal.takeSign r
        let after := (Decimal.takeDigits digits).2
        (Decimal.exponent? ((e :: r).take (r.length + 1 - after.length)), after)
      else (some 0, e :: r)
    | [] => (some 0, [])
  match exponent? with
  | none => none
  | some exponent =>
    let isWhole := fraction?.isNone && rest.length + whole.length == cs.length
    let n : Int := if negative then -(Decimal.ofDigits whole : Int) else Decimal.ofDigits whole
    if isWhole && Decimal.isWord64 n && !(negative && n == 0) then some (.int n, rest)
    else
      (real? whole (fraction?.getD []) exponent).map fun x =>
        (.real (Decimal.signed negative x), rest)

/-- What follows `word` if the text begins with it. -/
def word? (word : String) (v : Value) (cs : List Char) : Option (Value × List Char) :=
  if word.toList.isPrefixOf cs then some (v, cs.drop word.length) else none

/-- The entries of a table in order, when they are held backwards; of equal keys the last counts. -/
def lastOfEach (read : List (String × Value)) : List (String × Value) :=
  read.foldl (fun kept e => if kept.any (·.1 == e.1) then kept else e :: kept) []

mutual

/-- The value at the start of a text with at most `depth` brackets inside each other. -/
def value? (fuel depth : Nat) (cs : List Char) : Option (Value × List Char) :=
  match fuel with
  | 0 => none
  | fuel + 1 =>
    match skip cs with
    | 'n' :: r => word? "null" .null ('n' :: r)
    | 't' :: r => word? "true" (.bool true) ('t' :: r)
    | 'f' :: r => word? "false" (.bool false) ('f' :: r)
    | '"' :: r => (string? r).map fun (s, r) => (.text s, r)
    | '[' :: r =>
      match depth, skip r with
      | 0, _ => none
      | _ + 1, ']' :: r => some (.list [], r)
      | depth + 1, r => items? fuel depth [] r
    | '{' :: r =>
      match depth, skip r with
      | 0, _ => none
      | _ + 1, '}' :: r => some (.table [], r)
      | depth + 1, r => entries? fuel depth [] r
    | r => number? r

/-- The rest of a list after its items `read`, held backwards. -/
def items? (fuel depth : Nat) (read : List Value) (cs : List Char) : Option (Value × List Char) :=
  match fuel with
  | 0 => none
  | fuel + 1 =>
    match value? fuel depth cs with
    | none => none
    | some (v, rest) =>
      match skip rest with
      | ',' :: rest => items? fuel depth (v :: read) rest
      | ']' :: rest => some (.list (v :: read).reverse, rest)
      | _ => none

/-- The rest of a table after its entries `read`, held backwards. -/
def entries? (fuel depth : Nat) (read : List (String × Value)) (cs : List Char) :
    Option (Value × List Char) :=
  match fuel with
  | 0 => none
  | fuel + 1 =>
    match skip cs with
    | '"' :: rest =>
      match string? rest with
      | none => none
      | some (key, rest) =>
        match skip rest with
        | ':' :: rest =>
          match value? fuel depth rest with
          | none => none
          | some (v, rest) =>
            match skip rest with
            | ',' :: rest => entries? fuel depth ((key, v) :: read) rest
            | '}' :: rest => some (.table (lastOfEach ((key, v) :: read)), rest)
            | _ => none
        | _ => none
    | _ => none

end

/-- The value that a JSON text writes. -/
def parse (cs : List Char) : Option Value :=
  match value? (2 * cs.length + 2) 127 cs with
  | some (v, rest) => if (skip rest).isEmpty then some v else none
  | none => none

/-- A character as it is written inside a string. -/
def escape (c : Char) : List Char :=
  match c with
  | '"' => ['\\', '"']
  | '\\' => ['\\', '\\']
  | '\x08' => ['\\', 'b']
  | '\x0c' => ['\\', 'f']
  | '\n' => ['\\', 'n']
  | '\r' => ['\\', 'r']
  | '\t' => ['\\', 't']
  | c => if c.toNat < 0x20 then ['\\', 'u', '0', '0'] ++ Hex.ofByte c.toUInt8 else [c]

/-- A text between quotes. -/
def quote (s : String) : String :=
  "\"" ++ String.ofList (s.toList.flatMap escape) ++ "\""

/-- Lines of `parts` between brackets, one part a line. -/
def block (opening closing : String) (indent : Nat) (parts : List String) : String :=
  if parts.isEmpty then opening ++ closing
  else
    let pad (n : Nat) := "\n" ++ String.ofList (List.replicate (2 * n) ' ')
    opening ++ String.intercalate "," (parts.map (pad (indent + 1) ++ ·)) ++ pad indent ++ closing

mutual

/-- The text of a value that stands at an indentation. -/
def prettyAt (indent : Nat) : Value → String
  | .null => "null"
  | .bool b => toString b
  | .int n => toString n
  | .real x => Decimal.text x
  | .text s => quote s
  | .list items => block "[" "]" indent (prettyItems (indent + 1) items)
  | .table entries =>
    block "\x7b" "\x7d" indent (((prettyEntries (indent + 1) entries).mergeSort
      fun a b => a.1 ≤ b.1).map (·.2))

/-- The texts of the items of a list. -/
def prettyItems (indent : Nat) : List Value → List String
  | [] => []
  | v :: rest => prettyAt indent v :: prettyItems indent rest

/-- The keys and the texts of the entries of a table. -/
def prettyEntries (indent : Nat) : List (String × Value) → List (String × String)
  | [] => []
  | (key, v) :: rest =>
    (key, quote key ++ ": " ++ prettyAt indent v) :: prettyEntries indent rest

end

/-- The text of a value over several lines. -/
def pretty (v : Value) : String :=
  prettyAt 0 v

mutual

/-- The text of a value on one line. -/
def compact : Value → String
  | .null => "null"
  | .bool b => toString b
  | .int n => toString n
  | .real x => Decimal.text x
  | .text s => quote s
  | .list items => "[" ++ String.intercalate "," (compactItems items) ++ "]"
  | .table entries => "\x7b" ++ String.intercalate "," (compactEntries entries) ++ "\x7d"

/-- The texts of the items of a list. -/
def compactItems : List Value → List String
  | [] => []
  | v :: rest => compact v :: compactItems rest

/-- The texts of the entries of a table. -/
def compactEntries : List (String × Value) → List String
  | [] => []
  | (key, v) :: rest => (quote key ++ ":" ++ compact v) :: compactEntries rest

end

end PageBundle.Json
