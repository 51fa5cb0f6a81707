import PageBundle.Script.Minify

/-!
# What the script machine does with a byte

`Reads` lists everything that reading one byte can do to the machine, with the bytes written, and
`reads_read` says that `Machine.read` does nothing else. Each invariant of the machine is a case
analysis of `Reads`, so the functions that read are opened only here.
-/

namespace PageBundle.Script

/-- The states of plain text. -/
def State.isText : State → Bool
  | .text _ => true
  | _ => false

/-- The states from a slash in plain text to the last star of a block comment that is dropped. -/
def State.opensBlock : State → Bool
  | .slash | .regexSlash | .blockComment _ | .blockCommentStar => true
  | _ => false

/-- Plain text is not copied as it stands. -/
theorem State.isVerbatim_of_isText {state : State} (inText : state.isText = true) :
    state.isVerbatim = false := by
  cases state with
  | text => rfl
  | _ => cases inText

/-- The text mode after `c` is written as plain text. -/
def TextMode.of (c : UInt8) : TextMode :=
  if c = newline then .fresh else if swallowsSpace c then .spaced else .solid

/-- What holds of the characters `cs` holds of each byte that is one of them. -/
theorem of_isOneOf {cs : List Char} {p : UInt8 → Bool} (all : cs.all (p <| ascii ·) = true)
    {c : UInt8} (one : isOneOf cs c = true) : p c = true := by
  obtain ⟨d, mem, same⟩ := List.any_eq_true.1 one
  rw [← beq_iff_eq.1 same]
  exact List.all_eq_true.1 all d mem

/-- No token is continued by a byte that is neither part of a word nor a sign. -/
theorem fuses_of_apart {c : UInt8} (apart : (isWord c || isOneOf ['+', '-'] c) = false)
    (b : UInt8) : fuses b c = false := by
  simp only [Bool.or_eq_false_iff] at apart
  simp [fuses, apart.1, apart.2]

/-- No token is continued by a slash. -/
theorem fuses_slash (b : UInt8) : fuses b (ascii '/') = false :=
  fuses_of_apart (by decide) b

namespace Machine

/-- The space written before `c`, if one is owed and `c` is no line feed. -/
def lead (m : Machine) (c : UInt8) : Bytes :=
  if m.spaceOwed && c != newline then [space] else []

/-- The machine that has written `c`. -/
def wrote (m : Machine) (c : UInt8) : Machine :=
  { m with spaceOwed := false, lastWritten := if c == space then m.lastWritten else some c }

/-- The machine that has settled whether a dropped comment leaves a space before `c`. -/
def settle (m : Machine) (c : UInt8) : Machine :=
  { m with
    spaceOwed := m.spaceOwed || (m.commentGap && m.lastWritten.any (fuses · c))
    commentGap := false }

theorem write_eq (m : Machine) (c : UInt8) : m.write c = (m.wrote c, m.lead c ++ [c]) := by
  rw [write, wrote, lead]
  cases m.spaceOwed && c != newline <;> rfl

@[simp] theorem lead_wrote (m : Machine) (c d : UInt8) : (m.wrote c).lead d = [] := rfl

/-- Before a byte at most the space that is owed is written. -/
theorem lead_cases (m : Machine) (c : UInt8) :
    m.lead c = [] ∨ m.lead c = [space] ∧ m.spaceOwed = true := by
  unfold lead
  split
  next owed => exact .inr ⟨rfl, (Bool.and_eq_true_iff.1 owed).1⟩
  next => exact .inl rfl

@[simp] theorem lead_newline (m : Machine) : m.lead newline = [] := by
  simp [lead]

/-- A byte that continues no token needs no space after a dropped comment. -/
theorem settle_eq (m : Machine) {c : UInt8} (apart : ∀ b, fuses b c = false) :
    m.settle c = { m with commentGap := false } := by
  simp [settle, apart]

/-- What a byte of plain text does. -/
inductive ReadsText (m : Machine) (c : UInt8) : Machine → Bytes → Prop
  /-- A space is owed. -/
  | owe (isSpace : c = space) :
      ReadsText m c ({ m with spaceOwed := true, commentGap := false }.enterText .spaced) []
  /-- A slash is held back. -/
  | hold (isSlash : c = ascii '/') :
      ReadsText m c ({ m with commentGap := false }.enter
        (if precedesRegex m.lastRead then .regexSlash else .slash)) []
  /-- A literal is opened. -/
  | quote (noSpace : c ≠ space) (noSlash : c ≠ ascii '/') (opens : isQuote c = true) :
      ReadsText m c (((m.settle c).wrote c).enter (.quoted c false)) ((m.settle c).lead c ++ [c])
  /-- Any other byte is written. -/
  | plain (noSpace : c ≠ space) (noSlash : c ≠ ascii '/') (noQuote : isQuote c = false) :
      ReadsText m c (((m.settle c).wrote c).enterText (.of c)) ((m.settle c).lead c ++ [c])

theorem readText_space (m : Machine) : m.readText space =
    ({ m with spaceOwed := true, commentGap := false }.enterText .spaced, []) := rfl

theorem readText_slash (m : Machine) : m.readText (ascii '/') =
    ({ m with commentGap := false }.enter
      (if precedesRegex m.lastRead then .regexSlash else .slash), []) := by
  rw [← settle_eq m fuses_slash]
  rfl

theorem readText_token (m : Machine) {c : UInt8} (noSpace : c ≠ space) (noSlash : c ≠ ascii '/') :
    m.readText c =
      (if isQuote c then ((m.settle c).wrote c).enter (.quoted c false)
        else ((m.settle c).wrote c).enterText (.of c), (m.settle c).lead c ++ [c]) := by
  have written := write_eq (m.settle c) c
  rw [settle] at written
  simp only [readText, beq_iff_eq, noSpace, noSlash, if_false, written, TextMode.of]
  cases isQuote c <;> by_cases isBreak : c = newline <;> cases swallowsSpace c <;>
    simp [isBreak, settle]

theorem readsText_readText (m : Machine) (c : UInt8) :
    ReadsText m c (m.readText c).1 (m.readText c).2 := by
  by_cases isSpace : c = space
  · subst isSpace
    exact .owe rfl
  by_cases isSlash : c = ascii '/'
  · subst isSlash
    rw [readText_slash]
    exact .hold rfl
  rw [readText_token m isSpace isSlash]
  cases opens : isQuote c with
  | false => exact .plain isSpace isSlash opens
  | true => exact .quote isSpace isSlash opens

/-- What reading a byte does: the machine afterwards and the bytes written. -/
inductive Reads (m : Machine) (c : UInt8) : Machine → Bytes → Prop
  /-- White space is dropped where it never matters. -/
  | skip (mode : TextMode) (here : m.state = .text mode) (soft : mode ≠ .solid)
      (blank : c = space ∨ c = newline)
      (free : mode = .spaced → c = newline → (m.spaceOwed && m.mayEndStatement) = false) :
      Reads m c m []
  /-- A line feed takes the place of an owed space. -/
  | breakLine (here : m.state = .text .spaced) (isBreak : c = newline) (owed : m.spaceOwed = true)
      (ends : m.mayEndStatement = true) :
      Reads m c ((m.wrote newline).enterText .fresh) [newline]
  | text (mode : TextMode) (here : m.state = .text mode)
      (solid : c = space ∨ c = newline → mode = .solid) {m' : Machine} {out : Bytes}
      (reads : ReadsText m c m' out) : Reads m c m' out
  /-- The slash that was held back divides. -/
  | divide (here : m.state = .slash) (noStar : c ≠ ascii '*') (noSlash : c ≠ ascii '/')
      {m' : Machine} {out : Bytes}
      (reads : ReadsText ((m.wrote (ascii '/')).enter (.text .solid)) c m' out) :
      Reads m c m' (m.lead (ascii '/') ++ ascii '/' :: out)
  /-- The slash that was held back opens a regular expression. -/
  | openRegex (here : m.state = .regexSlash) (noStar : c ≠ ascii '*') (noSlash : c ≠ ascii '/') :
      Reads m c (((m.wrote (ascii '/')).wrote c).enter
        (if c = newline then .text .fresh else .regexLine)) (m.lead (ascii '/') ++ [ascii '/', c])
  | openLine (here : m.state = .slash ∨ m.state = .regexSlash) (isSlash : c = ascii '/') :
      Reads m c (m.enter .lineComment) []
  | openBlock (here : m.state = .slash ∨ m.state = .regexSlash) (isStar : c = ascii '*') :
      Reads m c (m.enter (.blockComment true)) []
  | regexLine (here : m.state = .regexLine) :
      Reads m c ((m.wrote c).enter (if c = newline then .text .fresh else .regexLine))
        (m.lead c ++ [c])
  | lineSkip (here : m.state = .lineComment) (noBreak : c ≠ newline) : Reads m c m []
  /-- The line feed after a line comment survives. -/
  | lineBreak (here : m.state = .lineComment) (isBreak : c = newline)
      (ends : m.mayEndStatement = true) :
      Reads m c ((m.wrote newline).enterText .fresh) [newline]
  | lineEnd (here : m.state = .lineComment) (isBreak : c = newline)
      (free : m.mayEndStatement = false) : Reads m c (m.enterText .spaced) []
  | blockSkip (here : (∃ first, m.state = .blockComment first) ∨ m.state = .blockCommentStar)
      (unkept : m.state = .blockComment true → c ≠ ascii '@')
      (unended : m.state = .blockCommentStar → c ≠ ascii '/') :
      Reads m c (m.enter (if c = ascii '*' then .blockCommentStar else .blockComment false)) []
  /-- A block comment ends that was dropped. -/
  | blockEnd (here : m.state = .blockCommentStar) (isSlash : c = ascii '/') :
      Reads m c { m with state := .text m.resume, commentGap := m.resume == .solid } []
  /-- A block comment turns out to be kept. -/
  | keep (here : m.state = .blockComment true) (isSign : c = ascii '@') :
      Reads m c ((((m.wrote (ascii '/')).wrote (ascii '*')).wrote c).enter .keptComment)
        (m.lead (ascii '/') ++ [ascii '/', ascii '*', c])
  | keptMore (here : m.state = .keptComment ∨ m.state = .keptCommentStar)
      (unended : m.state = .keptCommentStar → c ≠ ascii '/') :
      Reads m c ((m.wrote c).enter (if c = ascii '*' then .keptCommentStar else .keptComment))
        (m.lead c ++ [c])
  | keptEnd (here : m.state = .keptCommentStar) (isSlash : c = ascii '/') :
      Reads m c ((m.wrote c).enter (.text m.resume)) (m.lead c ++ [c])
  | quotedMore (quote : UInt8) (escaped : Bool) (here : m.state = .quoted quote escaped)
      (unended : escaped = false → c ≠ ascii '\\' → c ≠ quote) :
      Reads m c ((m.wrote c).enter (.quoted quote (!escaped && c == ascii '\\')))
        (m.lead c ++ [c])
  | quotedEnd (here : m.state = .quoted c false) (noEscape : c ≠ ascii '\\') :
      Reads m c ((m.wrote c).enterText .solid) (m.lead c ++ [c])

/-- Entering the state the machine is in changes nothing. -/
theorem enter_state (m : Machine) {state : State} (here : m.state = state) : m.enter state = m := by
  subst here
  rfl

/-- In plain text only white space is ever skipped. -/
theorem read_text {m : Machine} {c : UInt8} (inText : m.state.isText = true)
    (noSpace : c ≠ space) (noBreak : c ≠ newline) : m.read c = m.readText c := by
  cases here : m.state with
  | text mode => cases mode <;> simp [read, here, noSpace, noBreak]
  | _ => simp [here, State.isText] at inText

theorem afterSlash_star (m : Machine) (go : Machine → Machine × Bytes) :
    m.afterSlash (ascii '*') go = (m.enter (.blockComment true), []) := rfl

theorem afterSlash_slash (m : Machine) (go : Machine → Machine × Bytes) :
    m.afterSlash (ascii '/') go = (m.enter .lineComment, []) := rfl

theorem afterSlash_other (m : Machine) {c : UInt8} (go : Machine → Machine × Bytes)
    (noStar : c ≠ ascii '*') (noSlash : c ≠ ascii '/') :
    m.afterSlash c go = ((go (m.wrote (ascii '/'))).1,
      m.lead (ascii '/') ++ ascii '/' :: (go (m.wrote (ascii '/'))).2) := by
  simp [afterSlash, noStar, noSlash, releaseSlash, write_eq]

section Reading

variable (m : Machine) (c : UInt8)

theorem reads_text {mode : TextMode} (here : m.state = .text mode) :
    Reads m c (m.read c).1 (m.read c).2 := by
  cases mode with
  | solid =>
    simp only [read, here]
    exact .text .solid here (fun _ => rfl) (readsText_readText m c)
  | spaced =>
    simp only [read, here, beq_iff_eq]
    split
    next isBreak =>
      split
      next owed =>
        simp only [Bool.and_eq_true] at owed
        subst isBreak
        rw [write_eq, lead_newline]
        exact .breakLine here rfl owed.1 owed.2
      next free =>
        exact .skip .spaced here (by simp) (.inr isBreak) (fun _ _ => by simpa using free)
    next noBreak =>
      split
      next isSpace =>
        exact .skip .spaced here (by simp) (.inl isSpace) (fun _ h => absurd h noBreak)
      next noSpace =>
        exact .text .spaced here (fun h => by simp_all) (readsText_readText m c)
  | fresh =>
    simp only [read, here, Bool.or_eq_true, beq_iff_eq]
    split
    next blank => exact .skip .fresh here (by simp) blank.symm (by simp)
    next token => exact .text .fresh here (fun h => absurd h.symm token) (readsText_readText m c)

theorem reads_slash (here : m.state = .slash ∨ m.state = .regexSlash) :
    Reads m c (m.read c).1 (m.read c).2 := by
  by_cases isStar : c = ascii '*'
  · have : m.read c = (m.enter (.blockComment true), []) := by
      subst isStar
      rcases here with here | here <;> simp only [read, here, afterSlash_star]
    rw [this]
    exact .openBlock here isStar
  by_cases isSlash : c = ascii '/'
  · have : m.read c = (m.enter .lineComment, []) := by
      subst isSlash
      rcases here with here | here <;> simp only [read, here, afterSlash_slash]
    rw [this]
    exact .openLine here isSlash
  rcases here with here | here
  · simp only [read, here, afterSlash_other m _ isStar isSlash]
    exact .divide here isStar isSlash (readsText_readText _ c)
  · simp only [read, here, afterSlash_other m _ isStar isSlash, write_eq, beq_iff_eq]
    exact .openRegex here isStar isSlash

theorem reads_lineComment (here : m.state = .lineComment) :
    Reads m c (m.read c).1 (m.read c).2 := by
  simp only [read, here, beq_iff_eq]
  split
  next isBreak =>
    cases ends : m.mayEndStatement with
    | false =>
      simp only [endLineComment, ends]
      exact .lineEnd here isBreak ends
    | true =>
      simp only [endLineComment, ends, write_eq, lead_newline]
      exact .lineBreak here isBreak ends
  next noBreak => exact .lineSkip here noBreak

theorem reads_blockComment {first : Bool} (here : m.state = .blockComment first) :
    Reads m c (m.read c).1 (m.read c).2 := by
  have skip (unkept : first = true → c ≠ ascii '@') :=
    Reads.blockSkip (c := c) (.inl ⟨first, here⟩) (by simpa [here] using unkept) (by simp [here])
  simp only [read, here, beq_iff_eq, Bool.and_eq_true]
  split
  next isStar =>
    subst isStar
    exact skip (fun _ => by decide)
  next noStar =>
    simp only [noStar, if_false] at skip
    split
    next isSign =>
      obtain ⟨rfl, rfl⟩ := isSign
      have kept := Reads.keep here (c := ascii '@') rfl
      simpa [releaseSlash, write_eq] using kept
    next noSign => exact skip (fun h h' => noSign ⟨h, h'⟩)

theorem reads_blockCommentStar (here : m.state = .blockCommentStar) :
    Reads m c (m.read c).1 (m.read c).2 := by
  have skip (unended : c ≠ ascii '/') :=
    Reads.blockSkip (c := c) (.inr here) (by simp [here]) (fun _ => unended)
  simp only [read, here, beq_iff_eq]
  split
  next isSlash => exact .blockEnd here isSlash
  next noSlash =>
    split
    next isStar => simpa [isStar, enter_state m here] using skip noSlash
    next noStar => simpa [noStar] using skip noSlash

theorem reads_kept (here : m.state = .keptComment ∨ m.state = .keptCommentStar) :
    Reads m c (m.read c).1 (m.read c).2 := by
  by_cases ends : m.state = .keptCommentStar ∧ c = ascii '/'
  · obtain ⟨star, rfl⟩ := ends
    simp only [read, star, write_eq]
    exact .keptEnd star rfl
  have more := Reads.keptMore here (fun star isSlash => ends ⟨star, isSlash⟩)
  rcases here with here | here
  · have : m.read c =
        ((m.wrote c).enter (if c = ascii '*' then .keptCommentStar else .keptComment),
          m.lead c ++ [c]) := by
      simp only [read, here, write_eq, beq_iff_eq]
      split
      next => rfl
      next => rw [enter_state (m.wrote c) here]
    rw [this]
    exact more
  · have noSlash : c ≠ ascii '/' := fun isSlash => ends ⟨here, isSlash⟩
    simpa only [read, here, write_eq, beq_iff_eq, noSlash, if_false] using more

theorem reads_quoted {quote : UInt8} {escaped : Bool} (here : m.state = .quoted quote escaped) :
    Reads m c (m.read c).1 (m.read c).2 := by
  by_cases ends : escaped = false ∧ c ≠ ascii '\\' ∧ c = quote
  · obtain ⟨rfl, noEscape, rfl⟩ := ends
    simp only [read, here, write_eq, beq_iff_eq, noEscape, if_false, if_true]
    exact .quotedEnd here noEscape
  have more := Reads.quotedMore (c := c) quote escaped here (fun h h' h'' => ends ⟨h, h', h''⟩)
  have : m.read c = ((m.wrote c).enter (.quoted quote (!escaped && c == ascii '\\')),
      m.lead c ++ [c]) := by
    simp only [read, here, write_eq]
    cases escaped with
    | true => rfl
    | false =>
      by_cases escape : c = ascii '\\'
      · simp [escape]
      · have other : c ≠ quote := fun same => ends ⟨rfl, escape, same⟩
        have plain : (c == ascii '\\') = false := by simpa using escape
        simp only [plain, Bool.not_false, Bool.and_false, beq_iff_eq, other, if_false]
        rw [enter_state (m.wrote c) here]
        rfl
  rw [this]
  exact more

/-- **`read` does what `Reads` lists.** -/
theorem reads_read : Reads m c (m.read c).1 (m.read c).2 := by
  cases here : m.state with
  | text mode => exact reads_text m c here
  | slash => exact reads_slash m c (.inl here)
  | regexSlash => exact reads_slash m c (.inr here)
  | regexLine =>
    simp only [read, here, write_eq, beq_iff_eq]
    exact .regexLine here
  | lineComment => exact reads_lineComment m c here
  | blockComment first => exact reads_blockComment m c here
  | blockCommentStar => exact reads_blockCommentStar m c here
  | keptComment => exact reads_kept m c (.inl here)
  | keptCommentStar => exact reads_kept m c (.inr here)
  | quoted quote escaped => exact reads_quoted m c here

end Reading

end Machine

end PageBundle.Script
