import PageBundle.Text.Blank
import PageBundle.Text.Search

/-!
# Tokens of style sheets

A style sheet is names, hash names, single characters and white space. A comment leaves no token;
one that is never closed ends the sheet. Comments at the start of a sheet that begin with an
exclamation mark are notices, which are to be kept.
-/

namespace PageBundle.StyleSheet

/-- A token of a style sheet. -/
inductive Token where
  | name (text : List Char)
  /-- A number sign with the name after it. -/
  | hash (text : List Char)
  | blank
  | char (c : Char)
  deriving DecidableEq, Repr

/-- The white space of style sheets. -/
def isSpace (c : Char) : Bool :=
  c == ' ' || c == '\t' || c == '\n' || c == '\r' || c == '\x0c'

/-- The characters that names begin with, but for hyphens. -/
def isNameStart (c : Char) : Bool :=
  c.isAlpha || c == '_' || 0x80 ≤ c.toNat

/-- The characters of names. -/
def isNameChar (c : Char) : Bool :=
  isNameStart c || c == '-' || c.isDigit

/-- Whether a text begins with a name. A hyphen at the start of a name is followed by another one or
by a character that could begin the name itself. -/
def beginsName : List Char → Bool
  | '-' :: c :: _ => c == '-' || isNameStart c
  | c :: _ => isNameStart c
  | [] => false

/-- The text after a comment that is already opened. -/
def afterComment (cs : List Char) : List Char :=
  match Text.breakOn? ['*', '/'] cs with
  | some (_, rest) => rest
  | none => []

theorem length_afterComment_le (cs : List Char) : (afterComment cs).length ≤ cs.length := by
  unfold afterComment
  split
  · rename_i h
    have := congrArg List.length (Text.eq_append_of_breakOn? h)
    simp only [List.length_append] at this
    omega
  · simp

/-- The text of a comment that is already opened. -/
def commentText (cs : List Char) : List Char :=
  match Text.breakOn? ['*', '/'] cs with
  | some (text, _) => text
  | none => cs

/-- The texts of the notices at the start of a style sheet. -/
def notices (cs : List Char) : List (List Char) :=
  match cs with
  | '/' :: '*' :: '!' :: rest => ('!' :: commentText rest) :: notices (afterComment rest)
  | c :: rest => if isSpace c then notices rest else []
  | [] => []
termination_by cs.length
decreasing_by
  · have := length_afterComment_le rest
    simp only [List.length_cons]
    omega
  · simp

/-- The tokens of a style sheet. -/
def tokens (cs : List Char) : List Token :=
  match cs with
  | [] => []
  | '/' :: '*' :: rest => tokens (afterComment rest)
  | '#' :: rest =>
    if beginsName rest then
      .hash (rest.takeWhile isNameChar) :: tokens (rest.dropWhile isNameChar)
    else .char '#' :: tokens rest
  | c :: rest =>
    if isSpace c then .blank :: tokens (rest.dropWhile isSpace)
    else if beginsName (c :: rest) then
      .name (c :: rest.takeWhile isNameChar) :: tokens (rest.dropWhile isNameChar)
    else .char c :: tokens rest
termination_by cs.length
decreasing_by
  · have := length_afterComment_le rest
    simp only [List.length_cons]
    omega
  · have := Text.length_dropWhile_le isNameChar rest
    simp only [List.length_cons]
    omega
  · simp
  · have := Text.length_dropWhile_le isSpace rest
    simp only [List.length_cons]
    omega
  · have := Text.length_dropWhile_le isNameChar rest
    simp only [List.length_cons]
    omega
  · simp

/-- The tokens without the blanks at their start. -/
def skipBlanks (ts : List Token) : List Token :=
  ts.dropWhile (· == .blank)

/-- The tokens without the blanks around them. -/
def trimBlanks (ts : List Token) : List Token :=
  (skipBlanks (skipBlanks ts).reverse).reverse

/-- The tokens with one blank in the place of several. -/
def squeezeBlanks : List Token → List Token
  | .blank :: .blank :: ts => squeezeBlanks (.blank :: ts)
  | t :: ts => t :: squeezeBlanks ts
  | [] => []

/-- The text of a token. -/
def Token.text : Token → List Char
  | .name text => text
  | .hash text => '#' :: text
  | .blank => [' ']
  | .char c => [c]

end PageBundle.StyleSheet
