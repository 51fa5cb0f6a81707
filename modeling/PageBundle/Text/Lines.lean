/-!
# Lines

A line ends at a line feed, together with one carriage return before it. What follows the last line
feed is a line of its own if it is not empty; a carriage return at its end belongs to it.
-/

namespace PageBundle.Text

/-- The characters of a line, read backwards and ended by a line feed, in order. -/
def endLine : List Char → List Char
  | '\r' :: line => line.reverse
  | line => line.reverse

/-- The lines of a text whose first line begins with `line`, read backwards. -/
def linesFrom (line : List Char) : List Char → List (List Char)
  | [] => if line.isEmpty then [] else [line.reverse]
  | '\n' :: cs => endLine line :: linesFrom [] cs
  | c :: cs => linesFrom (c :: line) cs

/-- The lines of a text, without their ends. -/
def lines (cs : List Char) : List (List Char) :=
  linesFrom [] cs

/-- The text with every line ended by one line feed. -/
def endLines (cs : List Char) : List Char :=
  (lines cs).flatMap (· ++ ['\n'])

end PageBundle.Text
