import PageBundle.Proofs.Script.Run

/-!
# What is copied as it stands

In literals, lines with a regular expression and kept comments the machine copies what it reads.
`State.copy` is the state it goes to, `literalMeanings` are the bytes it reads, and `feed_copies`
says that it writes them as long as it stays in these states.
-/

namespace PageBundle.Script

/-- The state after a byte is copied. -/
def State.copy (resume : TextMode) (state : State) (c : UInt8) : State :=
  match state with
  | .quoted quote escaped =>
    if escaped then .quoted quote false
    else if c = ascii '\\' then .quoted quote true
    else if c = quote then .text .solid else .quoted quote false
  | .regexLine => if c = newline then .text .fresh else .regexLine
  | .keptComment => if c = ascii '*' then .keptCommentStar else .keptComment
  | .keptCommentStar =>
    if c = ascii '/' then .text resume
    else if c = ascii '*' then .keptCommentStar else .keptComment
  | .text _ | .slash | .regexSlash | .lineComment | .blockComment _ | .blockCommentStar => state

theorem State.verbatim_cases {state : State} (verbatim : state.isVerbatim = true) :
    (∃ quote escaped, state = .quoted quote escaped) ∨ state = .regexLine ∨
      state = .keptComment ∨ state = .keptCommentStar := by
  cases state with
  | quoted quote escaped => exact .inl ⟨quote, escaped, rfl⟩
  | regexLine => exact .inr (.inl rfl)
  | keptComment => exact .inr (.inr (.inl rfl))
  | keptCommentStar => exact .inr (.inr (.inr rfl))
  | _ => cases verbatim

/-- From one state to another every byte is copied. -/
inductive Copies (resume : TextMode) : State → Bytes → State → Prop
  | nil (state : State) : Copies resume state [] state
  | cons {state state' : State} {c : UInt8} {bs : Bytes} (verbatim : state.isVerbatim = true)
      (rest : Copies resume (state.copy resume c) bs state') : Copies resume state (c :: bs) state'

/-- What a byte means where it is copied, after a carriage return or not. -/
def literalMeaning (returned : Bool) (b : UInt8) : Option UInt8 :=
  if b = newline then if returned then none else some newline
  else if b = carriageReturn then some newline
  else if b < 0x20 ∧ b ≠ tab then none
  else some b

/-- What bytes mean where they are copied. -/
def literalMeanings : Bool → Bytes → Bytes
  | _, [] => []
  | returned, b :: bs =>
    (literalMeaning returned b).toList ++ literalMeanings (b == carriageReturn) bs

/-- The bytes that mean themselves where they are copied. -/
def isLiteral (b : UInt8) : Bool :=
  b == newline || b == tab || !(b < 0x20)

theorem isLiteral_of_printable {b : UInt8} (printable : b = tab ∨ ¬ b < 0x20) :
    isLiteral b = true := by
  rcases printable with rfl | printable
  · rfl
  · simp [isLiteral, UInt8.not_lt.1 printable]

theorem literalMeaning_of_isLiteral {b : UInt8} (literal : isLiteral b = true) :
    literalMeaning false b = some b ∧ b ≠ carriageReturn := by
  have noReturn : b ≠ carriageReturn := by
    rintro rfl
    exact absurd literal (by decide)
  simp only [isLiteral, Bool.or_eq_true, beq_iff_eq, Bool.not_eq_true',
    decide_eq_false_iff_not] at literal
  exact ⟨by unfold literalMeaning; grind, noReturn⟩

theorem literalMeanings_of_isLiteral {bs : Bytes} (literal : ∀ b ∈ bs, isLiteral b = true) :
    literalMeanings false bs = bs := by
  induction bs with
  | nil => rfl
  | cons b bs ih =>
    obtain ⟨same, noReturn⟩ := literalMeaning_of_isLiteral (literal b (by simp))
    rw [literalMeanings, same, beq_false_of_ne noReturn,
      ih fun c mem => literal c (List.mem_cons_of_mem b mem)]
    rfl

/-- Bytes that are no line feeds mean themselves after a carriage return, too. -/
theorem literalMeanings_append (returned : Bool) (w : Bytes) {bs : Bytes}
    (literal : ∀ b ∈ bs, isLiteral b = true) (noBreak : bs.head? ≠ some newline) :
    literalMeanings returned (w ++ bs) = literalMeanings returned w ++ bs := by
  induction w generalizing returned with
  | nil =>
    rw [List.nil_append, literalMeanings, List.nil_append]
    refine .trans ?_ (literalMeanings_of_isLiteral literal)
    cases bs with
    | nil => rfl
    | cons b bs =>
      have other : b ≠ newline := fun isBreak => noBreak (by simp [isBreak])
      simp [literalMeanings, literalMeaning, other]
  | cons b w ih => simp [literalMeanings, ih]

namespace Machine

theorem meaning_verbatim {m : Machine} (verbatim : m.state.isVerbatim = true) (b : UInt8) :
    m.meaning b = literalMeaning m.afterReturn b := by
  simp only [meaning, literalMeaning, verbatim, beq_iff_eq]
  grind

/-- Whether a byte means anything does not depend on the state. -/
theorem meaning_none {m : Machine} {b : UInt8}
    (meaningless : literalMeaning m.afterReturn b = none) : m.meaning b = none := by
  unfold literalMeaning at meaningless
  unfold meaning
  grind

theorem Reads.copy {m m' : Machine} {c : UInt8} {out : Bytes} (h : Reads m c m' out)
    (verbatim : m.state.isVerbatim = true) :
    out = m.lead c ++ [c] ∧ m'.spaceOwed = false ∧ m'.state = m.state.copy m.resume c ∧
      (m'.state.isVerbatim = true → m'.resume = m.resume) := by
  have place := State.verbatim_cases verbatim
  cases h with
  | regexLine here => exact ⟨rfl, rfl, by simp [enter, here, State.copy], fun _ => rfl⟩
  | keptMore here unended =>
    refine ⟨rfl, rfl, ?_, fun _ => rfl⟩
    rcases here with here | here
    · simp [enter, here, State.copy]
    · simp [enter, here, State.copy, unended here]
  | keptEnd here isSlash =>
    exact ⟨rfl, rfl, by simp [enter, here, State.copy, isSlash], fun _ => rfl⟩
  | quotedMore quote escaped here unended =>
    refine ⟨rfl, rfl, ?_, fun _ => rfl⟩
    cases escaped with
    | true => simp [enter, here, State.copy]
    | false =>
      by_cases escape : c = ascii '\\'
      · simp [enter, here, State.copy, escape]
      · simp [enter, here, State.copy, escape, unended rfl escape]
  | quotedEnd here noEscape =>
    exact ⟨rfl, rfl, by simp [enterText, here, State.copy, noEscape],
      fun verbatim => by cases verbatim⟩
  | _ => grind

theorem step_copy {m : Machine} {b c : UInt8} (free : m.spaceOwed = false)
    (verbatim : m.state.isVerbatim = true) (means : m.meaning b = some c) :
    (m.step b).2 = [c] ∧ (m.step b).1.spaceOwed = false ∧
      (m.step b).1.state = m.state.copy m.resume c ∧
      ((m.step b).1.state.isVerbatim = true → (m.step b).1.resume = m.resume) := by
  rw [step_of_meaning means]
  have reads := reads_read { m with afterReturn := b == carriageReturn } c
  obtain ⟨out, owed, state, resume⟩ := reads.copy verbatim
  exact ⟨by rw [out]; simp [lead, free], owed, state, resume⟩

/-- **What is copied is written as it stands.** -/
theorem feed_copies {m : Machine} {w : Bytes} {resume : TextMode} {state : State}
    (free : m.spaceOwed = false) (resumes : m.state.isVerbatim = true → m.resume = resume)
    (copies : Copies resume m.state (literalMeanings m.afterReturn w) state) :
    (m.feed w).2 = literalMeanings m.afterReturn w ∧ (m.feed w).1.state = state := by
  induction w generalizing m with
  | nil =>
    cases copies
    exact ⟨rfl, rfl⟩
  | cons b w ih =>
    simp only [feed_cons, literalMeanings] at copies ⊢
    cases means : literalMeaning m.afterReturn b with
    | none =>
      -- The machine may already have left these states: such a byte means nothing in any.
      rw [means] at copies
      rw [step_of_meaningless (meaning_none means)]
      exact ih free resumes copies
    | some c =>
      rw [means] at copies
      cases copies with
      | cons verbatim rest =>
        have readAs : m.meaning b = some c := by rw [meaning_verbatim verbatim, means]
        obtain ⟨out, owed, state, kept⟩ := step_copy free verbatim readAs
        rw [resumes verbatim] at state kept
        rw [← state, ← afterReturn_step m b] at rest
        obtain ⟨total, ended⟩ := ih owed kept rest
        rw [out, total, afterReturn_step]
        exact ⟨rfl, ended⟩

end Machine

end PageBundle.Script
