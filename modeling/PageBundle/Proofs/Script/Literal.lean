import PageBundle.Proofs.Script.Verbatim

/-!
# Literals and kept comments survive

Wherever plain text has been read, a string literal and a comment that begins with an at sign are
written as they stand, apart from what `normalise` does to line terminators and control bytes.
`copies_quoted` and `copies_kept` say that nothing inside ends them early: quotes only where they
are escaped, and a star only where no slash follows it.
-/

namespace PageBundle.Script

/-- Each carriage return and line feed made one line feed. -/
def joinPairs : Bytes → Bytes
  | [] => []
  | [b] => [b]
  | b :: c :: bs =>
    if b = carriageReturn ∧ c = newline then newline :: joinPairs bs else b :: joinPairs (c :: bs)

/-- Every line terminator made a line feed, and the other control bytes but tabs dropped. -/
def normalise (bs : Bytes) : Bytes :=
  ((joinPairs bs).map shown).filter isLiteral

/-- Whether bytes after an opening quote, or after a backslash, neither end the literal nor escape
what follows them. -/
def literalBody (quote : UInt8) : Bool → Bytes → Bool
  | escaped, [] => !escaped
  | true, _ :: bs => literalBody quote false bs
  | false, b :: bs => b != quote && literalBody quote (b == ascii '\\') bs

theorem joinPairs_cons {b : UInt8} (noReturn : b ≠ carriageReturn) (bs : Bytes) :
    joinPairs (b :: bs) = b :: joinPairs bs := by
  cases bs with
  | nil => rfl
  | cons c bs => simp [joinPairs, noReturn]

theorem joinPairs_return {c : UInt8} (noBreak : c ≠ newline) (bs : Bytes) :
    joinPairs (carriageReturn :: c :: bs) = carriageReturn :: joinPairs (c :: bs) := by
  simp [joinPairs, noBreak]

/-- One byte of a normalised text. -/
theorem normalise_cons {b : UInt8} (noReturn : b ≠ carriageReturn) (bs : Bytes) :
    normalise (b :: bs) = (literalMeaning false b).toList ++ normalise bs := by
  have keeps : [b].filter isLiteral = (literalMeaning false b).toList := by
    unfold literalMeaning isLiteral
    grind
  rw [normalise, joinPairs_cons noReturn, List.map_cons, ← List.singleton_append,
    List.filter_append, shown, if_neg noReturn, keeps]
  rfl

/-- **Copied bytes mean their normalised text.** -/
theorem literalMeanings_eq (bs : Bytes) : literalMeanings false bs = normalise bs ∧
    newline :: literalMeanings true bs = normalise (carriageReturn :: bs) := by
  induction bs with
  | nil => decide
  | cons b bs ih =>
    have whole : literalMeanings false (b :: bs) = normalise (b :: bs) := by
      by_cases isReturn : b = carriageReturn
      · subst isReturn
        exact ih.2
      · rw [normalise_cons isReturn, literalMeanings, beq_false_of_ne isReturn, ih.1]
    refine ⟨whole, ?_⟩
    by_cases isBreak : b = newline
    · subst isBreak
      have pair : joinPairs (carriageReturn :: newline :: bs) = newline :: joinPairs bs := rfl
      have empty : literalMeanings true (newline :: bs) = literalMeanings false bs := rfl
      rw [empty, ih.1, normalise, normalise, pair]
      rfl
    · have same : literalMeanings true (b :: bs) = literalMeanings false (b :: bs) := by
        simp [literalMeanings, literalMeaning, isBreak]
      rw [same, whole, normalise, normalise, joinPairs_return isBreak]
      rfl

theorem isQuote_cases {quote : UInt8} (opens : isQuote quote = true) :
    quote = ascii '\'' ∨ quote = ascii '"' ∨ quote = ascii '\x60' := by
  simp only [isQuote, isOneOf, List.any_cons, List.any_nil, Bool.or_false, Bool.or_eq_true,
    beq_iff_eq] at opens
  exact opens.imp Eq.symm (Or.imp Eq.symm Eq.symm)

/-- A literal is copied up to its closing quote. -/
theorem copies_quoted {resume : TextMode} {quote : UInt8} (noEscape : quote ≠ ascii '\\')
    (escaped : Bool) {w : Bytes} (body : literalBody quote escaped w = true) :
    Copies resume (.quoted quote escaped) (w ++ [quote]) (.text .solid) := by
  induction w generalizing escaped with
  | nil =>
    obtain rfl : escaped = false := by simpa [literalBody] using body
    refine .cons rfl ?_
    simp only [State.copy, noEscape, if_false, if_true]
    exact .nil _
  | cons c w ih =>
    refine .cons rfl ?_
    cases escaped with
    | true => exact ih false body
    | false =>
      simp only [literalBody, Bool.and_eq_true, bne_iff_ne, ne_eq] at body
      by_cases escape : c = ascii '\\'
      · simp only [State.copy, escape, if_true]
        exact ih true (by simpa [escape] using body.2)
      · simp only [State.copy, escape, body.1, if_false]
        exact ih false (beq_false_of_ne escape ▸ body.2)

/-- A kept comment is copied up to its end. -/
theorem copies_kept {resume : TextMode} {b : Bytes} (inside : ¬ [ascii '*', ascii '/'] <:+: b) :
    Copies resume .keptComment (b ++ [ascii '*', ascii '/']) (.text resume) ∧
      (b.head? ≠ some (ascii '/') →
        Copies resume .keptCommentStar (b ++ [ascii '*', ascii '/']) (.text resume)) := by
  induction b with
  | nil =>
    have close : Copies resume .keptCommentStar [ascii '/'] (.text resume) := .cons rfl (.nil _)
    exact ⟨.cons rfl close, fun _ => .cons rfl close⟩
  | cons c b ih =>
    have rest := ih fun within => inside (within.trans (List.suffix_cons c b).isInfix)
    -- After a star no slash follows, since the comment does not end here.
    have next : Copies resume (if c = ascii '*' then .keptCommentStar else .keptComment)
        (b ++ [ascii '*', ascii '/']) (.text resume) := by
      split
      next isStar =>
        refine rest.2 fun isSlash => inside ?_
        obtain ⟨b, rfl⟩ := List.head?_eq_some_iff.1 isSlash
        exact isStar ▸ (List.prefix_append [ascii '*', ascii '/'] b).isInfix
      next => exact rest.1
    refine ⟨.cons rfl next, fun noSlash => .cons rfl ?_⟩
    have other : c ≠ ascii '/' := fun isSlash => noSlash (by simp [isSlash])
    simp only [State.copy, other, if_false]
    exact next

/-- What matters about a quote to the machine. -/
theorem quote_facts {quote : UInt8} (opens : isQuote quote = true) :
    (quote ≠ ascii '\\' ∧ ¬ quote < 0x20) ∧ (quote ≠ space ∧ quote ≠ newline ∧ quote ≠ ascii '/') ∧
      isWord quote = false ∧ isOneOf ['+', '-'] quote = false := by
  rcases isQuote_cases opens with rfl | rfl | rfl <;> decide

theorem ends_of_isQuote {c : UInt8} (opens : isQuote c = true) :
    (c != newline && !swallowsSpace c) = true := by
  rcases isQuote_cases opens with rfl | rfl | rfl <;> decide

theorem fuses_quote {quote : UInt8} (opens : isQuote quote = true) (b : UInt8) :
    fuses b quote = false := by
  obtain ⟨-, -, noWord, noSign⟩ := quote_facts opens
  exact fuses_of_apart (by simp [noWord, noSign]) b

namespace Machine

/-- A quote in plain text opens a literal. -/
theorem step_quote {m : Machine} (inText : m.state.isText = true) {quote : UInt8}
    (opens : isQuote quote = true) :
    (m.step quote).2 = m.lead quote ++ [quote] ∧ (m.step quote).1.spaceOwed = false ∧
      (m.step quote).1.state = .quoted quote false := by
  obtain ⟨⟨-, printable⟩, ⟨noSpace, noBreak, noSlash⟩, -⟩ := quote_facts opens
  have place : ({ m with afterReturn := quote == carriageReturn } : Machine).state.isText := inText
  rw [step_of_meaning (meaning_printable m printable), read_text place noSpace noBreak,
    readText_token _ noSpace noSlash, settle_eq _ (fuses_quote opens), if_pos opens]
  exact ⟨rfl, rfl, rfl⟩

theorem step_star {m : Machine} (here : m.state = .slash ∨ m.state = .regexSlash) :
    m.step (ascii '*') = ({ m with
      state := .blockComment true, afterReturn := false, lastRead := ascii '*' }, []) := by
  rw [step_of_meaning (meaning_printable m (by decide))]
  rcases here with here | here <;> (simp only [read, here, afterSlash_star]; rfl)

/-- A comment that begins with an at sign is kept. -/
theorem step_sign {m : Machine} (here : m.state = .blockComment true) :
    m.step (ascii '@') = ({ m with
        state := .keptComment, afterReturn := false, lastRead := ascii '@'
        spaceOwed := false, lastWritten := some (ascii '@') },
      m.lead (ascii '/') ++ [ascii '/', ascii '*', ascii '@']) := by
  rw [step_of_meaning (meaning_printable m (by decide))]
  simp only [read, here, releaseSlash, write_eq, List.append_assoc]
  rfl

/-- A literal is written from quote to quote. -/
theorem feed_quoted {m : Machine} (inText : m.state.isText = true) {quote : UInt8} {w : Bytes}
    (opens : isQuote quote = true) (body : literalBody quote false (normalise w) = true) :
    (m.feed (quote :: (w ++ [quote]))).2 = m.lead quote ++ quote :: (normalise w ++ [quote]) ∧
      (m.feed (quote :: (w ++ [quote]))).1.state = .text .solid := by
  obtain ⟨⟨noEscape, printable⟩, ⟨-, noBreak, -⟩, -⟩ := quote_facts opens
  obtain ⟨out, owed, state⟩ := step_quote inText opens
  have noReturn : quote ≠ carriageReturn := ne_of_printable printable (by decide)
  have literal : ∀ b ∈ [quote], isLiteral b = true := by
    simpa using isLiteral_of_printable (.inr printable)
  have meant : literalMeanings (m.step quote).1.afterReturn (w ++ [quote]) =
      normalise w ++ [quote] := by
    rw [afterReturn_step, beq_false_of_ne noReturn,
      literalMeanings_append _ _ literal (by simpa using noBreak), (literalMeanings_eq w).1]
  have copies : Copies (m.step quote).1.resume (m.step quote).1.state
      (literalMeanings (m.step quote).1.afterReturn (w ++ [quote])) (.text .solid) := by
    rw [state, meant]
    exact copies_quoted noEscape false body
  obtain ⟨total, ended⟩ := feed_copies owed (fun _ => rfl) copies
  rw [feed_cons, out, total, meant]
  exact ⟨by simp, ended⟩

/-- The machine that has read the at sign of a kept comment. -/
def openKept (m : Machine) : Machine :=
  { m with
    state := .keptComment
    lastRead := ascii '@'
    lastWritten := some (ascii '@')
    spaceOwed := false
    commentGap := false
    afterReturn := false }

theorem feed_openKept {m : Machine} (inText : m.state.isText = true) (bs : Bytes) :
    m.feed (['/', '*', '@'].map ascii ++ bs) =
      ((m.openKept.feed bs).1,
        m.lead (ascii '/') ++ ['/', '*', '@'].map ascii ++ (m.openKept.feed bs).2) := by
  rw [List.map_cons, List.cons_append, feed_slash inText, List.map_cons, List.cons_append,
    feed_cons, step_star m.holdSlash_cases, List.map_cons, List.cons_append, feed_cons,
    step_sign rfl]
  simp [holdSlash, openKept, lead]

/-- A comment that begins with an at sign is written from its slash to its slash. -/
theorem feed_kept {m : Machine} (inText : m.state.isText = true) {b : Bytes}
    (inside : ¬ ['*', '/'].map ascii <:+: normalise b) :
    (m.feed (['/', '*', '@'].map ascii ++ (b ++ ['*', '/'].map ascii))).2 =
        m.lead (ascii '/') ++ (['/', '*', '@'].map ascii ++ (normalise b ++ ['*', '/'].map ascii)) ∧
      (m.feed (['/', '*', '@'].map ascii ++ (b ++ ['*', '/'].map ascii))).1.state =
        .text m.resume := by
  have literal : ∀ c ∈ ['*', '/'].map ascii, isLiteral c = true := List.all_eq_true.1 (by decide)
  have meant : literalMeanings m.openKept.afterReturn (b ++ ['*', '/'].map ascii) =
      normalise b ++ ['*', '/'].map ascii := by
    rw [literalMeanings_append _ _ literal (by decide)]
    exact congrArg (· ++ _) (literalMeanings_eq b).1
  have copies : Copies m.resume m.openKept.state
      (literalMeanings m.openKept.afterReturn (b ++ ['*', '/'].map ascii)) (.text m.resume) := by
    rw [meant]
    exact (copies_kept inside).1
  obtain ⟨total, ended⟩ := feed_copies (m := m.openKept) rfl (fun _ => rfl) copies
  rw [feed_openKept inText, total, meant]
  exact ⟨by simp, ended⟩

end Machine

open Machine

/-- **Literals and kept comments survive** wherever they stand in plain text. -/
theorem writes_literal_and_kept {p : Bytes} (inText : (after p).state.isText = true) :
    (∀ quote w, isQuote quote = true → literalBody quote false (normalise w) = true →
      (after p).Writes (quote :: (w ++ [quote])) (quote :: (normalise w ++ [quote])) ∧
        (after (p ++ quote :: (w ++ [quote]))).state = .text .solid) ∧
    ∀ b, ¬ ['*', '/'].map ascii <:+: normalise b →
      (after p).Writes (['/', '*', '@'].map ascii ++ (b ++ ['*', '/'].map ascii))
        (['/', '*', '@'].map ascii ++ (normalise b ++ ['*', '/'].map ascii)) ∧
      (after (p ++ (['/', '*', '@'].map ascii ++ (b ++ ['*', '/'].map ascii)))).state.isText =
        true := by
  constructor
  · intro quote w opens body
    obtain ⟨out, state⟩ := feed_quoted inText opens body
    rw [after_append]
    exact ⟨⟨_, lead_cases _ _, out⟩, state⟩
  · intro b inside
    obtain ⟨out, state⟩ := feed_kept inText inside
    rw [after_append, state]
    exact ⟨⟨_, lead_cases _ _, out⟩, rfl⟩

/-- An escaped quote and a broken line in a literal, and a star and tab in a kept comment. -/
theorem writes_assigned_literal :
    let p := ['x', ' ', '=', ' '].map ascii
    let w := ['a', '\\', '"', '\\', '\r', '\n', 'b'].map ascii
    let b := ['\t', '*', ' ', 'x', '*'].map ascii
    (after p).state.isText = true ∧ isQuote (ascii '"') = true ∧
      literalBody (ascii '"') false (normalise w) = true ∧
      ¬ ['*', '/'].map ascii <:+: normalise b ∧
      (after p).Writes (ascii '"' :: (w ++ [ascii '"']))
        (ascii '"' :: (normalise w ++ [ascii '"'])) ∧
      (after p).Writes (['/', '*', '@'].map ascii ++ (b ++ ['*', '/'].map ascii))
        (['/', '*', '@'].map ascii ++ (normalise b ++ ['*', '/'].map ascii)) := by
  intro p w b
  have inText : (after p).state.isText = true := by decide
  have opens : isQuote (ascii '"') = true := by decide
  have body : literalBody (ascii '"') false (normalise w) = true := by decide
  have inside : ¬ ['*', '/'].map ascii <:+: normalise b := by decide
  have survive := writes_literal_and_kept inText
  exact ⟨inText, opens, body, inside, (survive.1 _ w opens body).1, (survive.2 b inside).1⟩

end PageBundle.Script
