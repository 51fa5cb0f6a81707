import PageBundle.Text.Lines
import Mathlib.Data.List.Basic

/-!
# Ends of lines

`endFrom` ends the lines of a text character by character, without collecting them: it drops the
carriage returns that stand before line feeds and puts a line feed behind an open line. By
`endLines_eq` this is what ending the lines means, so a text is compared with its ended form by
going through both at once.
-/

namespace PageBundle.Text

/-- The text with its lines ended, after the beginning of a line or not. -/
def endFrom (begun : Bool) : List Char → List Char
  | [] => if begun then ['\n'] else []
  | '\n' :: cs => '\n' :: endFrom false cs
  | '\r' :: '\n' :: cs => '\n' :: endFrom false cs
  | c :: cs => c :: endFrom true cs

/-- Nothing follows the last line feed of the text. -/
def Ended (cs : List Char) : Prop :=
  cs = [] ∨ cs.getLast? = some '\n'

instance : DecidablePred Ended :=
  fun _ => inferInstanceAs (Decidable (_ ∨ _))

theorem Ended.append {xs ys : List Char} (first : Ended xs) (second : Ended ys) :
    Ended (xs ++ ys) := by
  rcases second with rfl | last
  · rwa [List.append_nil]
  · exact .inr (by rw [List.getLast?_append, last]; rfl)

theorem ended_flatMap {α : Type} {f : α → List Char} (ended : ∀ x, Ended (f x)) (xs : List α) :
    Ended (xs.flatMap f) := by
  induction xs with
  | nil => exact .inl rfl
  | cons x xs ih => exact (ended x).append ih

theorem ended_concat (cs : List Char) : Ended (cs ++ ['\n']) :=
  .inr List.getLast?_concat

/-- The text with a line feed behind it, unless nothing follows its last one. -/
def closed (cs : List Char) : List Char :=
  if Ended cs then cs else cs ++ ['\n']

theorem ended_closed (cs : List Char) : Ended (closed cs) := by
  unfold closed
  split
  next ended => exact ended
  next => exact ended_concat cs

/-- What a text lacks at its end, after the beginning of a line or not. -/
def missingEnd (begun : Bool) (cs : List Char) : List Char :=
  if cs.getLast?.elim begun (· != '\n') then ['\n'] else []

theorem closed_eq (cs : List Char) : closed cs = cs ++ missingEnd false cs := by
  rw [closed, missingEnd]
  cases last : cs.getLast? with
  | none => simp [List.getLast?_eq_none_iff.1 last, Ended]
  | some c =>
    have filled : cs ≠ [] := by
      rintro rfl
      cases last
    have ended : Ended cs ↔ c = '\n' := by simp [Ended, filled, last]
    by_cases isBreak : c = '\n' <;> simp [ended, isBreak]

theorem missingEnd_cons (begun : Bool) (c : Char) (cs : List Char) :
    missingEnd begun (c :: cs) = missingEnd (c != '\n') cs := by
  rw [missingEnd, missingEnd, List.getLast?_cons]
  cases cs.getLast? <;> rfl

/-- The lines of a text, the first of which begins with `line`, are ended as `endFrom` says. The
carriage return of a line terminator is not yet in the line. -/
theorem flatMap_linesFrom (line cs : List Char)
    (apart : line.head? = some '\r' → cs.head? ≠ some '\n') :
    (linesFrom line cs).flatMap (· ++ ['\n']) = line.reverse ++ endFrom (!line.isEmpty) cs := by
  generalize same : (!line.isEmpty) = begun
  fun_induction endFrom begun cs generalizing line with
  | case1 =>
    have begun : line.isEmpty = false := by simpa using same
    simp [linesFrom, begun]
  | case2 begun unbegun =>
    have empty : line = [] := by simpa [unbegun] using same
    simp [linesFrom, empty]
  | case3 begun cs ih =>
    have ended : endLine line = line.reverse := by
      unfold endLine
      split
      · exact absurd rfl (apart rfl)
      · rfl
    have rest := ih [] nofun rfl
    simp [linesFrom, ended, rest]
  | case4 begun cs ih =>
    have rest := ih [] nofun rfl
    simp [linesFrom, endLine, rest]
  | case5 begun c cs noBreak noPair ih =>
    have further : linesFrom line (c :: cs) = linesFrom (c :: line) cs := by
      simp [linesFrom]
    have apart' : (c :: line).head? = some '\r' → cs.head? ≠ some '\n' := by
      intro isReturn pair
      obtain ⟨cs, rfl⟩ : ∃ rest, cs = '\n' :: rest := List.head?_eq_some_iff.1 pair
      exact noPair cs (Option.some.inj isReturn) rfl
    rw [further, ih _ apart' rfl]
    simp

theorem endLines_eq (cs : List Char) : endLines cs = endFrom false cs :=
  flatMap_linesFrom [] cs nofun

theorem ended_endLines (cs : List Char) : Ended (endLines cs) :=
  ended_flatMap ended_concat (lines cs)

end PageBundle.Text
