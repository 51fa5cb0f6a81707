import PageBundle.Text.Alphanumeric
import PageBundle.Text.Blank
import PageBundle.Text.Hex

/-!
# Regular expressions

Which texts without closing braces are regular expressions. A pattern is read from left to right;
`Place` is what has to be known of the part that has been read. Every step takes at least one
character, so that the length of a pattern bounds their number.
-/

namespace PageBundle.Log.Pattern

/-- What a character or an escape in a pattern stands for. -/
inductive Item where
  /-- One character. -/
  | literal (c : Char)
  /-- Any character of a class. -/
  | set
  /-- A place between characters. -/
  | edge
  deriving DecidableEq, Repr

/-- The control characters that are written as a backslash and a letter. -/
def controls : List (Char × Char) :=
  [('a', '\x07'), ('f', '\x0c'), ('t', '\t'), ('n', '\n'), ('r', '\r'), ('v', '\x0b')]

/-- What is written after a backslash, and the rest. A letter or a digit that means nothing is
refused, and so is an edge of a word. -/
def escape? : List Char → Option (Item × List Char)
  | [] => none
  | 'x' :: cs => (Hex.char? 2 cs).map fun (c, rest) => (.literal c, rest)
  | 'u' :: cs => (Hex.char? 4 cs).map fun (c, rest) => (.literal c, rest)
  | 'U' :: cs => (Hex.char? 8 cs).map fun (c, rest) => (.literal c, rest)
  | c :: cs =>
    if c == 'p' || c == 'P' then
      match cs with
      | category :: rest =>
        if "clmnpsz".toList.contains category.toLower then some (.set, rest) else none
      | [] => none
    else if "dswDSW".toList.contains c then some (.set, cs)
    else if c == 'A' || c == 'z' then some (.edge, cs)
    else
      match controls.lookup c with
      | some control => some (.literal control, cs)
      | none =>
        if c.isAlphanum || c == '<' || c == '>' || 0x80 ≤ c.toNat then none
        else some (.literal c, cs)

/-- The item at the start of a text, and the rest. -/
def item? : List Char → Option (Item × List Char)
  | [] => none
  | '\\' :: cs => escape? cs
  | c :: cs => some (.literal c, cs)

/-- The text without the blanks and the comments at its start; the flag says whether the text begins
within a comment. -/
def dropComments : Bool → List Char → List Char
  | _, [] => []
  | true, c :: cs => dropComments (c != '\n') cs
  | false, c :: cs =>
    if Text.isBlank c then dropComments false cs
    else if c == '#' then dropComments true cs
    else c :: cs

/-- The next text that counts: in a loose pattern blanks and comments do not. -/
def next (loose : Bool) (cs : List Char) : List Char :=
  if loose then dropComments false cs else cs

/-- The rest after what may begin a class: a caret, and then hyphens or else a closing bracket that
stand for themselves. -/
def classStart (loose : Bool) (cs : List Char) : List Char :=
  let members := match next loose cs with
    | '^' :: rest => next loose rest
    | rest => rest
  match members with
  | ']' :: rest => rest
  | '-' :: rest => rest.dropWhile fun c => c == '-' || (loose && Text.isBlank c)
  | _ => members

/-- The rest after a member of a class: an item that is no edge, or a range of two characters in
order. -/
def member? (loose : Bool) (cs : List Char) : Option (List Char) :=
  match item? cs with
  | none => none
  | some (.edge, _) => none
  | some (first, rest) =>
    match next loose rest with
    | '-' :: more =>
      match next loose more with
      | ']' :: _ => some rest
      | '-' :: _ => some rest
      | more =>
        match first, item? more with
        | .literal first, some (.literal last, rest) => if first ≤ last then some rest else none
        | _, _ => none
    | _ => some rest

/-- The rest after a class with so many classes around it. Classes are combined by two ampersands,
hyphens or tildes. -/
def classEnd? (loose : Bool) : (fuel depth : Nat) → List Char → Option (List Char)
  | 0, _, _ => none
  | fuel + 1, depth, cs =>
    match next loose cs with
    | [] => none
    | '[' :: cs => classEnd? loose fuel (depth + 1) (classStart loose cs)
    | ']' :: cs =>
      match depth with
      | 0 => some cs
      | depth + 1 => classEnd? loose fuel depth cs
    | '&' :: '&' :: cs => classEnd? loose fuel depth cs
    | '-' :: '-' :: cs => classEnd? loose fuel depth cs
    | '~' :: '~' :: cs => classEnd? loose fuel depth cs
    | cs => (member? loose cs).bind (classEnd? loose fuel depth)

/-- What is known of the part of a pattern that has been read. -/
structure Place where
  /-- Whether blanks and comments are left out. -/
  loose : Bool := false
  /-- For each open group, the inner ones first, whether the pattern is loose outside it. -/
  groups : List Bool := []
  /-- The names of groups. -/
  names : List (List Char) := []
  /-- Whether there is something before the place that can be repeated. -/
  repeatable : Bool := false
  deriving DecidableEq, Repr

namespace Place

/-- The place after something that can be repeated. -/
def past (p : Place) : Place :=
  { p with repeatable := true }

/-- The place at the start of a group in which the pattern is loose or not. -/
def within (p : Place) (loose : Bool) : Place :=
  { p with loose, groups := p.loose :: p.groups, repeatable := false }

/-- The place after the name of a group, and the rest. -/
def named? (p : Place) (cs : List Char) : Option (Place × List Char) :=
  let isPart (c : Char) := ['_', '.', '[', ']'].contains c || Text.isAlphanumeric c
  match cs.takeWhile (· != '>'), cs.dropWhile (· != '>') with
  | c :: name, _ :: rest =>
    if (c == '_' || Text.isAlphabetic c) && name.all isPart && !p.names.contains (c :: name) then
      some ({ p.within p.loose with names := (c :: name) :: p.names }, rest)
    else none
  | _, _ => none

/-- The place after flags, each of which is given once, those that are taken back after a hyphen.
They are for a group if a colon follows, otherwise for what is left of the group around them. -/
def flagged? (p : Place) (cs : List Char) : Option (Place × List Char) :=
  let isFlag (c : Char) := c != ':' && c != ')'
  let flags := cs.takeWhile isFlag
  let loose := if flags.contains 'x' then (flags.takeWhile (· != '-')).contains 'x' else p.loose
  if !flags.all "-imsUuRx".toList.contains || flags.eraseDups != flags ||
      flags.getLast? == some '-' then none
  else
    match cs.dropWhile isFlag with
    | ':' :: rest => some (p.within loose, rest)
    | ')' :: rest =>
      if flags.isEmpty then none else some ({ p with loose, repeatable := false }, rest)
    | _ => none

/-- The place after the start of a group, and the rest. -/
def open? (p : Place) (cs : List Char) : Option (Place × List Char) :=
  match next p.loose cs with
  | '?' :: 'P' :: '<' :: rest => p.named? rest
  | '?' :: '<' :: rest => p.named? rest
  | '?' :: rest => p.flagged? rest
  | rest => some (p.within p.loose, rest)

/-- The place after the end of a group. -/
def close? (p : Place) : Option Place :=
  match p.groups with
  | loose :: groups => some { p with loose, groups, repeatable := true }
  | [] => none

/-- The place after the next piece of a pattern, and the rest. A counted repetition would need a
closing brace, so that there is none. -/
def step? (p : Place) : List Char → Option (Place × List Char)
  | [] => none
  | '(' :: cs => p.open? cs
  | ')' :: cs => p.close?.map fun p => (p, cs)
  | '|' :: cs => some ({ p with repeatable := false }, cs)
  | '[' :: cs => (classEnd? p.loose (cs.length + 1) 0 (classStart p.loose cs)).map fun rest =>
      (p.past, rest)
  | '\\' :: cs => (escape? cs).map fun (_, rest) => (p.past, rest)
  | '{' :: _ => none
  | c :: cs =>
    if c == '*' || c == '+' || c == '?' then
      if !p.repeatable then none
      else
        match cs with
        | '?' :: rest => some (p, rest)
        | _ => some (p, cs)
    else some (p.past, cs)

/-- Whether a text completes the pattern whose first part has been read. -/
def accepts : (fuel : Nat) → Place → List Char → Bool
  | 0, _, _ => false
  | fuel + 1, p, cs =>
    match next p.loose cs with
    | [] => p.groups.isEmpty
    | cs =>
      match p.step? cs with
      | none => false
      | some (p, rest) => accepts fuel p rest

end Place

/-- Whether a text is a regular expression. -/
def isValid (cs : List Char) : Bool :=
  Place.accepts (cs.length + 1) {} cs

end PageBundle.Log.Pattern
