/-!
# Letter case

Names and media types are compared without regard to the case of ASCII letters. Element names in
markup are matched more loosely: a letter also matches the other characters that Unicode's simple
case folding sends to it, which concerns `k` (KELVIN SIGN) and `s` (LATIN SMALL LETTER LONG S).
-/

namespace PageBundle.Text

/-- The text with its ASCII capitals made small. -/
def lower (s : String) : String :=
  String.ofList (s.toList.map Char.toLower)

/-- Equality of two texts up to the case of ASCII letters. -/
def sameLetters (a b : String) : Bool :=
  lower a == lower b

/-- Simple case folding, as far as it can end in an ASCII letter. -/
def fold (c : Char) : Char :=
  if c == '\u017f' then 's' else if c == '\u212a' then 'k' else c.toLower

/-- Whether `cs` begins with the small-letter word `word` up to case folding; the rest if so. -/
def dropWord? : List Char → List Char → Option (List Char)
  | [], cs => some cs
  | _ :: _, [] => none
  | w :: word, c :: cs => if fold c == w then dropWord? word cs else none

end PageBundle.Text
