import PageBundle.Proofs.Script.Alike
import PageBundle.Proofs.Script.LineBreak
import PageBundle.Proofs.Script.Literal

/-!
# Where the output ends

Outside literals no space is ever the last byte written (`getLast?_written`). What the machine owes
and where a comment returns to go by the last byte (`Edged`): a space is owed only where white space
is skipped, and text is solid only after what may end a statement. There is one exception. A line
with a regular expression ends in a line feed and leaves the mode to return to as it was before, so
a comment that is dropped after it may lead to solid text at the start of a line.
-/

namespace PageBundle.Script

namespace Machine

/-- How the modes of the machine go by what is written. -/
structure Edged (m : Machine) : Prop where
  /-- A space is owed where white space is skipped. -/
  owed : m.spaceOwed = true → m.resume = .spaced ∧ m.state.isVerbatim = false
  /-- Text is solid after what may end a statement, or after a line feed by mistake. -/
  solid : m.resume = .solid → m.state.isVerbatim = false →
    m.mayEndStatement = true ∨ m.lastWritten = some newline

theorem Edged.mark {m : Machine} (edged : Edged m) (returned : Bool) :
    Edged { m with afterReturn := returned } :=
  ⟨edged.owed, edged.solid⟩

theorem Edged.of_unowed {m : Machine} (free : m.spaceOwed = false)
    (solid : m.resume = .solid → m.state.isVerbatim = false →
      m.mayEndStatement = true ∨ m.lastWritten = some newline) : Edged m :=
  ⟨fun owed => by simp [free] at owed, solid⟩

/-- Where nothing is copied, the state does not matter. -/
theorem Edged.enter {m : Machine} (edged : Edged m) (plain : m.state.isVerbatim = false)
    {state : State} (plain' : state.isVerbatim = false) : Edged (m.enter state) :=
  ⟨fun owed => ⟨(edged.owed owed).1, plain'⟩, fun solid _ => edged.solid solid plain⟩

theorem ReadsText.edged {m m' : Machine} {c : UInt8} {out : Bytes} (h : ReadsText m c m' out)
    (edged : Edged m) (plain : m.state.isVerbatim = false) : Edged m' := by
  cases h with
  | owe => exact ⟨fun _ => ⟨rfl, rfl⟩, nofun⟩
  | hold =>
    have free : Edged { m with commentGap := false } := ⟨edged.owed, edged.solid⟩
    exact free.enter plain (by split <;> rfl)
  | quote => exact .of_unowed rfl fun _ plain => by cases plain
  | plain noSpace =>
    refine .of_unowed rfl fun solid _ => .inl ?_
    rw [mayEndStatement_enterText, mayEndStatement_wrote _ _ noSpace]
    exact ends_of_solid solid

theorem Reads.edged {m m' : Machine} {c : UInt8} {out : Bytes} (h : Reads m c m' out)
    (edged : Edged m) (settled : Settled m) : Edged m' := by
  cases h with
  | skip | lineSkip => exact edged
  | text _ here _ reads => exact reads.edged edged (by rw [here]; rfl)
  | divide _ _ _ reads =>
    refine reads.edged (.of_unowed rfl fun _ _ => .inl ?_) rfl
    exact mayEndStatement_wrote m (ascii '/') (by decide)
  | openLine here | openBlock here =>
    exact edged.enter (by rcases here with here | here <;> rw [here] <;> rfl) rfl
  | blockSkip here =>
    refine edged.enter (by rcases here with ⟨_, here⟩ | here <;> rw [here] <;> rfl) ?_
    split <;> rfl
  | blockEnd here =>
    exact ⟨fun owed => ⟨(edged.owed owed).1, rfl⟩,
      fun solid _ => edged.solid solid (by rw [here]; rfl)⟩
  | breakLine | lineBreak => exact .of_unowed rfl nofun
  | lineEnd => exact ⟨fun _ => ⟨rfl, rfl⟩, nofun⟩
  | openRegex | regexLine =>
    refine .of_unowed rfl fun _ plain => .inr ?_
    by_cases isBreak : c = newline
    · subst isBreak
      rfl
    · simp only [Machine.enter, isBreak, if_false] at plain
      cases plain
  | keep => exact .of_unowed rfl fun _ plain => by cases plain
  | keptMore =>
    refine .of_unowed rfl fun _ plain => ?_
    by_cases isStar : c = ascii '*' <;>
    · simp only [Machine.enter, isStar, if_true, if_false] at plain
      cases plain
  | keptEnd _ isSlash =>
    subst isSlash
    exact .of_unowed rfl fun _ _ => .inl (mayEndStatement_wrote m (ascii '/') (by decide))
  | quotedMore => exact .of_unowed rfl fun _ plain => by cases plain
  | quotedEnd here =>
    have opens := settled.quotes c false here
    refine .of_unowed rfl fun _ _ => .inl ?_
    rw [mayEndStatement_enterText, mayEndStatement_wrote _ _ (quote_facts opens).2.1.1]
    exact ends_of_isQuote opens

/-- Unless the machine goes on copying, what it writes ends in a byte other than a space. -/
theorem Reads.exists_last {m m' : Machine} {c : UInt8} {out : Bytes} (h : Reads m c m' out)
    (settled : Settled m) (plain : m'.state.isVerbatim = false) :
    out = [] ∧ m.state.isVerbatim = false ∨ ∃ lead d, out = lead ++ [d] ∧ d ≠ space := by
  have notSpace : ascii '/' ≠ space ∧ newline ≠ space := by decide
  have text {k k' : Machine} {out : Bytes} (reads : ReadsText k c k' out)
      (plain : k'.state.isVerbatim = false) :
      out = [] ∨ ∃ lead d, out = lead ++ [d] ∧ d ≠ space := by
    cases reads with
    | owe | hold => exact .inl rfl
    | quote => cases plain
    | plain noSpace => exact .inr ⟨_, c, rfl, noSpace⟩
  cases h with
  | skip _ here | lineSkip here | lineEnd here | blockEnd here =>
    exact .inl ⟨rfl, by rw [here]; rfl⟩
  | openLine here | openBlock here =>
    exact .inl ⟨rfl, by rcases here with here | here <;> rw [here] <;> rfl⟩
  | blockSkip here => exact .inl ⟨rfl, by rcases here with ⟨_, here⟩ | here <;> rw [here] <;> rfl⟩
  | breakLine | lineBreak => exact .inr ⟨[], newline, rfl, notSpace.2⟩
  | text _ here _ reads => exact (text reads plain).imp (⟨·, by rw [here]; rfl⟩) id
  | divide _ _ _ reads =>
    right
    rcases text reads plain with rfl | ⟨lead, d, rfl, visible⟩
    · exact ⟨_, ascii '/', rfl, notSpace.1⟩
    · exact ⟨m.lead (ascii '/') ++ ascii '/' :: lead, d, by simp, visible⟩
  | openRegex =>
    by_cases isBreak : c = newline
    · exact .inr ⟨m.lead (ascii '/') ++ [ascii '/'], c, by simp, isBreak ▸ notSpace.2⟩
    · simp only [Machine.enter, isBreak, if_false] at plain
      cases plain
  | regexLine =>
    by_cases isBreak : c = newline
    · exact .inr ⟨_, c, rfl, isBreak ▸ notSpace.2⟩
    · simp only [Machine.enter, isBreak, if_false] at plain
      cases plain
  | keep | quotedMore => cases plain
  | keptMore =>
    by_cases isStar : c = ascii '*' <;>
    · simp only [Machine.enter, isStar, if_true, if_false] at plain
      cases plain
  | keptEnd _ isSlash => exact .inr ⟨_, c, rfl, isSlash ▸ notSpace.1⟩
  | quotedEnd here => exact .inr ⟨_, c, rfl, (quote_facts (settled.quotes c false here)).2.1.1⟩

/-- After a line feed, the next one changes nothing; it is written only where it is copied. -/
theorem Reads.newline_again {m m' : Machine} {out : Bytes} (h : Reads m newline m' out)
    (settled : Settled m) :
    m'.read newline = (m', if m'.state.isVerbatim then [newline] else []) := by
  have plain (mode : TextMode) : (State.text mode).isVerbatim = false := rfl
  have fresh {k : Machine} (here : k.state = .text .fresh) :
      k.read newline = (k, if k.state.isVerbatim then [newline] else []) := by
    simp [read, here, plain]
  have unended {k : Machine} (here : k.state = .text .spaced)
      (free : (k.spaceOwed && k.mayEndStatement) = false) :
      k.read newline = (k, if k.state.isVerbatim then [newline] else []) := by
    simp [read, here, free, plain]
  have noStar : newline ≠ ascii '*' := by decide
  have noEscape : (newline == ascii '\\') = false := by decide
  cases h with
  | skip mode here soft _ free =>
    cases mode with
    | solid => exact absurd rfl soft
    | spaced => exact unended here (free rfl rfl)
    | fresh => exact fresh here
  | text _ _ _ reads => exact fresh reads.of_newline.1
  | divide _ _ _ reads => exact fresh reads.of_newline.1
  | breakLine | lineBreak | openRegex | regexLine => exact fresh rfl
  | lineEnd _ _ free =>
    exact unended rfl (Bool.and_eq_false_iff.2 (.inr free))
  | quotedEnd here => exact absurd (settled.quotes newline false here) (by decide)
  | openLine _ isSlash | keptEnd _ isSlash | blockEnd _ isSlash => exact absurd isSlash (by decide)
  | openBlock _ isStar => exact absurd isStar (by decide)
  | keep _ isSign => exact absurd isSign (by decide)
  | lineSkip _ noBreak => exact absurd rfl noBreak
  | blockSkip =>
    rw [if_neg noStar]
    rfl
  | keptMore =>
    rw [if_neg noStar]
    rfl
  | quotedMore quote escaped here =>
    have noQuote : (newline == quote) = false := by
      refine beq_false_of_ne ?_
      rintro rfl
      exact absurd (settled.quotes newline escaped here) (by decide)
    have noSpace : newline ≠ space := by decide
    have verbatim : (State.quoted quote false).isVerbatim = true := rfl
    rw [noEscape, Bool.and_false]
    simp [read, enter, write_eq, noEscape, noQuote, verbatim, lead, wrote, noSpace]

end Machine

open Machine

theorem edged_after (p : Bytes) : Edged (after p) := by
  refine run_induction (P := fun _ m _ => Edged m) ⟨nofun, nofun⟩ ?_ p
  intro p b m' out ih stepped _ _
  cases stepped with
  | nothing => exact ih.mark _
  | reads _ reads =>
    have := reads.edged (ih.mark _) ((settled_after p).mark _)
    exact ⟨this.owed, this.solid⟩

/-- **Outside literals no space is the last byte written.** -/
theorem getLast?_written (p : Bytes) (plain : (after p).state.isVerbatim = false) :
    (written p).getLast? = lastVisible (written p) := by
  revert plain
  refine run_induction
    (P := fun _ m out => m.state.isVerbatim = false → out.getLast? = lastVisible out)
    (fun _ => rfl) ?_ p
  intro p b m' out ih stepped _ _ plain
  cases stepped with
  | nothing => rw [List.append_nil, ih plain]
  | reads _ reads =>
    rcases reads.exists_last ((settled_after p).mark _) plain with
      ⟨rfl, before⟩ | ⟨lead, d, rfl, visible⟩
    · rw [List.append_nil, ih before]
    · rw [← List.append_assoc, List.getLast?_concat, lastVisible_append, lastVisible_cons]
      simp [visible]

/-- The line feed that completes a line terminator would change nothing; it would be written only
where it is copied. -/
theorem read_newline_of_afterReturn (p : Bytes) : (after p).afterReturn = true →
    (after p).read newline =
      (after p, if (after p).state.isVerbatim then [newline] else []) := by
  refine run_induction (P := fun _ m _ => m.afterReturn = true →
    m.read newline = (m, if m.state.isVerbatim then [newline] else [])) nofun ?_ p
  intro p b m' out _ stepped _ _ returned
  obtain ⟨n, reads, rfl⟩ := stepped.of_afterReturn returned
  have again := reads.newline_again ((settled_after p).mark _)
  exact (read_withMemory n.afterReturn newline fun isSlash => absurd isSlash (by decide)).trans
    (by rw [again]; rfl)

theorem read_newline_of_isText {p : Bytes} (returned : (after p).afterReturn = true)
    (inText : (after p).state.isText = true) : (after p).read newline = (after p, []) := by
  rw [read_newline_of_afterReturn p returned, State.isVerbatim_of_isText inText]
  rfl

/-- A line feed in solid text is written, so no carriage return leads there. -/
theorem unreturned_of_solid {p : Bytes} (here : (after p).state = .text .solid) :
    (after p).afterReturn = false := by
  by_contra returned
  have silent := read_newline_of_isText (p := p) (by simpa using returned) (by rw [here]; rfl)
  rw [Machine.read, here] at silent
  have wrote := congrArg Prod.snd silent
  simp [readText_token _ (show newline ≠ space by decide)
    (show newline ≠ ascii '/' by decide)] at wrote

theorem unowed_of_solid {p : Bytes} (here : (after p).state = .text .solid) :
    (after p).spaceOwed = false := by
  have mode := (settled_after p).resumes .solid here (by simp)
  by_contra owed
  have spaced := ((edged_after p).owed (by simpa using owed)).1
  simp [mode] at spaced

theorem lastWritten_of_solid {p : Bytes} (here : (after p).state = .text .solid) :
    (after p).lastWritten = (written p).getLast? := by
  rw [lastWritten_after, getLast?_written p (by rw [here]; rfl)]

end PageBundle.Script
