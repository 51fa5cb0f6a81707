import PageBundle.Text.Utf8

/-!
# The script minifier as a machine over bytes

The machine reads a script byte by byte and writes the bytes that are kept. Only ASCII bytes matter
to it, so a character of several bytes is written or dropped whole.

A slash is ambiguous: it may divide, open a comment or open a regular expression. It is held back
until the next byte decides. Where the last significant byte allows a regular expression, the rest
of the line is copied as it stands. A space between two tokens is owed until the next byte is
written, so that a line break that may end a statement takes its place and no space ends the output.

`Machine.step` reads one byte, `Machine.feed` reads several; both give the bytes written meanwhile.
-/

namespace PageBundle.Script

/-- The line feed, which stands for every line terminator. -/
def newline : UInt8 := 0x0A

/-- The space, which stands for a tab outside literals. -/
def space : UInt8 := 0x20

/-- The horizontal tab. -/
def tab : UInt8 := 0x09

/-- The carriage return. -/
def carriageReturn : UInt8 := 0x0D

/-- The byte of an ASCII character. -/
def ascii (c : Char) : UInt8 := c.toUInt8

/-- Whether `b` is one of the ASCII characters `cs`. -/
def isOneOf (cs : List Char) (b : UInt8) : Bool :=
  cs.any fun c => ascii c == b

/-- The bytes after which a slash may open a regular expression. -/
def precedesRegex (b : UInt8) : Bool :=
  isOneOf ['(', ',', '=', ':', '[', '!', '&', '|', '?', '{', '}', ';', '\n'] b

/-- The bytes after which white space never matters. -/
def swallowsSpace (b : UInt8) : Bool :=
  isOneOf [' ', '{', ',', ';', ':', '=', '(', '[', '!', '&', '|', '?'] b

/-- The bytes of names and numbers. -/
def isWord (b : UInt8) : Bool :=
  (ascii 'a' ≤ b && b ≤ ascii 'z') || (ascii 'A' ≤ b && b ≤ ascii 'Z') ||
  (ascii '0' ≤ b && b ≤ ascii '9') || isOneOf ['_', '$'] b || 0x80 ≤ b

/-- Whether `b` written directly after `a` would make one token of two. -/
def fuses (a b : UInt8) : Bool :=
  (isWord a && isWord b) || (isOneOf ['+', '-'] b && a == b)

/-- The quotes that open a string or template literal. -/
def isQuote (b : UInt8) : Bool :=
  isOneOf ['\'', '"', '\x60'] b

/-- Where in plain text the machine is, which decides what white space does. -/
inductive TextMode where
  /-- After a byte that a space may follow. -/
  | solid
  /-- After a space, or a byte after which space never matters. -/
  | spaced
  /-- After a line feed. -/
  | fresh
  deriving DecidableEq, Repr

/-- What the machine is reading. -/
inductive State where
  | text (mode : TextMode)
  /-- A slash is held back that divides or opens a comment. -/
  | slash
  /-- A slash is held back that opens a regular expression or a comment. -/
  | regexSlash
  /-- The rest of a line with a regular expression. -/
  | regexLine
  | lineComment
  | blockComment (atStart : Bool)
  /-- Inside a block comment, after a star. -/
  | blockCommentStar
  /-- A block comment that begins with an at sign and is kept. -/
  | keptComment
  /-- Inside a kept comment, after a star. -/
  | keptCommentStar
  | quoted (quote : UInt8) (escaped : Bool)
  deriving DecidableEq, Repr

/-- The states in which what is read is copied as it stands, tabs included. -/
def State.isVerbatim : State → Bool
  | .quoted _ _ | .regexLine | .keptComment | .keptCommentStar => true
  | _ => false

/-- The states in which a comment is read that is dropped or kept. -/
def State.isComment : State → Bool
  | .lineComment | .blockComment _ | .blockCommentStar | .keptComment | .keptCommentStar => true
  | _ => false

/-- The minifier between two bytes. -/
structure Machine where
  state : State := .text .spaced
  /-- The text mode to which the end of a block comment returns. -/
  resume : TextMode := .spaced
  /-- The last byte read other than a space, in any state. -/
  lastRead : UInt8 := newline
  /-- The last byte written other than a space. -/
  lastWritten : Option UInt8 := none
  /-- Whether a space is owed before the next byte that is not a line feed. -/
  spaceOwed : Bool := false
  /-- Whether a block comment was just dropped after solid text. -/
  commentGap : Bool := false
  /-- Whether the last byte was a carriage return. -/
  afterReturn : Bool := false
  deriving DecidableEq, Repr

namespace Machine

/-- The machine before the first byte. -/
def start : Machine := {}

/-- Whether what is written so far may end a statement. -/
def mayEndStatement (m : Machine) : Bool :=
  match m.lastWritten with
  | none => false
  | some b => b != newline && !swallowsSpace b

/-- Writes `c`, after the space that is owed unless `c` is a line feed. -/
def write (m : Machine) (c : UInt8) : Machine × Bytes :=
  ({ m with
      spaceOwed := false
      lastWritten := if c == space then m.lastWritten else some c },
    if m.spaceOwed && c != newline then [space, c] else [c])

/-- The machine in another state. -/
def enter (m : Machine) (state : State) : Machine :=
  { m with state }

/-- The machine in plain text, to which a block comment will return. -/
def enterText (m : Machine) (mode : TextMode) : Machine :=
  { m with state := .text mode, resume := mode }

/-- Writes the slash that was held back, then goes on. -/
def releaseSlash (m : Machine) (go : Machine → Machine × Bytes) : Machine × Bytes :=
  let (m, slash) := m.write (ascii '/')
  let (m, rest) := go m
  (m, slash ++ rest)

/-- Reads a byte of plain text. -/
def readText (m : Machine) (c : UInt8) : Machine × Bytes :=
  let m := { m with
    spaceOwed := m.spaceOwed || (m.commentGap && m.lastWritten.any (fuses · c))
    commentGap := false }
  if c == space then
    ({ m with spaceOwed := true }.enterText .spaced, [])
  else if c == ascii '/' then
    (m.enter (if precedesRegex m.lastRead then .regexSlash else .slash), [])
  else
    let (m, out) := m.write c
    if isQuote c then (m.enter (.quoted c false), out)
    else if c == newline then (m.enterText .fresh, out)
    else if swallowsSpace c then (m.enterText .spaced, out)
    else (m.enterText .solid, out)

/-- Ends a line comment; its line feed survives only where it may end a statement. -/
def endLineComment (m : Machine) : Machine × Bytes :=
  if m.mayEndStatement then
    let (m, out) := m.write newline
    (m.enterText .fresh, out)
  else
    (m.enterText .spaced, [])

/-- Reads the byte after a slash that was held back; `otherwise` tells what follows if it opened
no comment. -/
def afterSlash (m : Machine) (c : UInt8) (otherwise : Machine → Machine × Bytes) :
    Machine × Bytes :=
  if c == ascii '*' then (m.enter (.blockComment true), [])
  else if c == ascii '/' then (m.enter .lineComment, [])
  else m.releaseSlash otherwise

/-- Reads a byte that is not dropped everywhere, with line terminators and tabs made uniform. -/
def read (m : Machine) (c : UInt8) : Machine × Bytes :=
  match m.state with
  | .text .solid => m.readText c
  | .text .spaced =>
    if c == newline then
      if m.spaceOwed && m.mayEndStatement then
        let (m, out) := m.write c
        (m.enterText .fresh, out)
      else (m, [])
    else if c == space then (m, [])
    else m.readText c
  | .text .fresh =>
    if c == newline || c == space then (m, []) else m.readText c
  | .slash => m.afterSlash c fun m => (m.enter (.text .solid)).readText c
  | .regexSlash => m.afterSlash c fun m =>
    let (m, out) := m.write c
    (m.enter (if c == newline then .text .fresh else .regexLine), out)
  | .regexLine =>
    let (m, out) := m.write c
    (m.enter (if c == newline then .text .fresh else .regexLine), out)
  | .lineComment => if c == newline then m.endLineComment else (m, [])
  | .blockComment atStart =>
    if c == ascii '*' then (m.enter .blockCommentStar, [])
    else if atStart && c == ascii '@' then
      m.releaseSlash fun m =>
        let (m, star) := m.write (ascii '*')
        let (m, sign) := m.write c
        (m.enter .keptComment, star ++ sign)
    else (m.enter (.blockComment false), [])
  | .blockCommentStar =>
    if c == ascii '/' then
      ({ m with state := .text m.resume, commentGap := m.resume == .solid }, [])
    else if c == ascii '*' then (m, [])
    else (m.enter (.blockComment false), [])
  | .keptComment =>
    let (m, out) := m.write c
    (if c == ascii '*' then m.enter .keptCommentStar else m, out)
  | .keptCommentStar =>
    let (m, out) := m.write c
    (m.enter (if c == ascii '/' then .text m.resume
      else if c == ascii '*' then .keptCommentStar else .keptComment), out)
  | .quoted quote escaped =>
    let (m, out) := m.write c
    if escaped then (m.enter (.quoted quote false), out)
    else if c == ascii '\\' then (m.enter (.quoted quote true), out)
    else if c == quote then (m.enterText .solid, out)
    else (m, out)

/-- What a byte means in a state: every line terminator is one line feed, a tab is a space outside
literals, and the other control bytes mean nothing. -/
def meaning (m : Machine) (b : UInt8) : Option UInt8 :=
  if b == newline then if m.afterReturn then none else some newline
  else if b == carriageReturn then some newline
  else if b == tab then some (if m.state.isVerbatim then tab else space)
  else if b < 0x20 then none
  else some b

/-- Reads one byte. -/
def step (m : Machine) (b : UInt8) : Machine × Bytes :=
  let meaning := m.meaning b
  let m := { m with afterReturn := b == carriageReturn }
  match meaning with
  | none => (m, [])
  | some c =>
    let (m, out) := m.read c
    ({ m with lastRead := if c == space then m.lastRead else c }, out)

/-- Reads several bytes. -/
def feed (m : Machine) (bs : Bytes) : Machine × Bytes :=
  let (m, out) := bs.foldl
    (fun (r : Machine × Bytes) b => ((r.1.step b).1, (r.1.step b).2.reverse ++ r.2)) (m, [])
  (m, out.reverse)

/-- What is written at the end of the input: the slash that was held back, if there is one. -/
def finish (m : Machine) : Bytes :=
  match m.state with
  | .slash | .regexSlash => (m.write (ascii '/')).2
  | _ => []

end Machine

end PageBundle.Script
