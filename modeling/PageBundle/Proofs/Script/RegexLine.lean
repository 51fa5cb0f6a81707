import PageBundle.Proofs.Script.Verbatim

/-!
# Regular expressions are copied to the end of their line

A slash opens a regular expression where the last byte read allows one. `precedesRegex_lastRead`
compares that byte with the last byte written: where a regular expression may follow what is
written, the slash is taken for its start unless a dropped comment stands in between, since the
machine remembers the slash that ended the comment. `copiesRegex_iff` says that regular expressions
are copied as they stand except after such comments, and that a tab at the start of one never is.
-/

namespace PageBundle.Script

/-- What may stand between the slash of a regular expression and the end of its line. -/
structure RegexBody (r : Bytes) : Prop where
  nonempty : r ≠ []
  printable : ∀ b ∈ r, b = tab ∨ ¬ b < 0x20
  noComment : r.head? ≠ some (ascii '/') ∧ r.head? ≠ some (ascii '*')

instance (r : Bytes) : Decidable (RegexBody r) :=
  decidable_of_iff (r ≠ [] ∧ (r.all fun b => b == tab || !(b < 0x20)) = true ∧
      r.head? ≠ some (ascii '/') ∧ r.head? ≠ some (ascii '*'))
    ⟨fun h => ⟨h.1, by simpa using h.2.1, h.2.2⟩,
      fun h => ⟨h.nonempty, by simpa using h.printable, h.noComment⟩⟩

/-- After `p` the regular expression with body `r` is written as it stands, after one space at
most. -/
def CopiesRegex (p r : Bytes) : Prop :=
  (after p).Writes (ascii '/' :: (r ++ [newline])) (ascii '/' :: (r ++ [newline]))

/-- The blanks and the control bytes that mean nothing. -/
def isFaint (b : UInt8) : Bool :=
  b ≤ space && b != newline && b != carriageReturn

theorem isFaint_of_control {b : UInt8} (control : b < 0x20) (noBreak : b ≠ newline)
    (noReturn : b ≠ carriageReturn) : isFaint b = true := by
  simp [isFaint, noBreak, noReturn, space, UInt8.le_of_lt control]

/-- What means a space is faint. -/
theorem isFaint_of_meaning {m : Machine} {b : UInt8} (means : m.meaning b = some space) :
    isFaint b = true := by
  rcases Machine.shown_of_meaning means with ⟨noSpace, -⟩ | ⟨-, rfl | rfl⟩
  · exact absurd rfl noSpace
  · decide
  · decide

/-- The script ends in a block comment that is dropped and bytes that leave no trace. -/
def EndsInDroppedComment (p : Bytes) : Prop :=
  ∃ q s, p = q ++ ascii '/' :: s ∧ (after q).state = .blockCommentStar ∧
    ∀ b ∈ s, isFaint b = true

theorem EndsInDroppedComment.snoc {p : Bytes} (h : EndsInDroppedComment p) {b : UInt8}
    (faint : isFaint b = true) : EndsInDroppedComment (p ++ [b]) := by
  obtain ⟨q, s, rfl, star, rest⟩ := h
  refine ⟨q, s ++ [b], by simp, star, fun c mem => ?_⟩
  rcases List.mem_append.1 mem with mem | mem
  · exact rest c mem
  · rwa [List.mem_singleton.1 mem]

namespace Machine

theorem ReadsText.context {m m' : Machine} {c : UInt8} {out : Bytes} (h : ReadsText m c m' out)
    (inText : m'.state.isText = true) (context : ∀ d ∈ m'.lastWritten, precedesRegex d = true) :
    precedesRegex c = true ∨ c = space ∧ m'.lastWritten = m.lastWritten := by
  cases h with
  | owe isSpace => exact .inr ⟨isSpace, rfl⟩
  | hold =>
    cases isRegex : precedesRegex m.lastRead <;> simp [enter, isRegex, State.isText] at inText
  | quote => simp [enter, State.isText] at inText
  | plain noSpace => exact .inl (context c (by simp [enterText, wrote, noSpace]))

/-- Where a byte leads to plain text that a regular expression may follow, the byte allows one
itself, unless it is a space or ends a dropped comment. -/
theorem Reads.context {m m' : Machine} {c : UInt8} {out : Bytes} (h : Reads m c m' out)
    (settled : Settled m) (inText : m'.state.isText = true)
    (context : ∀ d ∈ m'.lastWritten, precedesRegex d = true) :
    precedesRegex c = true ∨
      (c = space ∧ m.state.isText = true ∧ m'.lastWritten = m.lastWritten) ∨
      (c = ascii '/' ∧ m.state = .blockCommentStar) := by
  cases h with
  | skip _ here _ blank =>
    rcases blank with isSpace | isBreak
    · exact .inr (.inl ⟨isSpace, inText, rfl⟩)
    · exact .inl (isBreak ▸ by decide)
  | text _ here _ reads =>
    rcases reads.context inText context with allows | ⟨isSpace, same⟩
    · exact .inl allows
    · exact .inr (.inl ⟨isSpace, by simp [here, State.isText], same⟩)
  | divide _ _ _ reads =>
    rcases reads.context inText context with allows | ⟨-, same⟩
    · exact .inl allows
    · have isSlash : ascii '/' ∈ ((m.wrote (ascii '/')).enter (.text .solid)).lastWritten := rfl
      exact absurd (context _ (same ▸ isSlash)) (by decide)
  | blockEnd here isSlash => exact .inr (.inr ⟨isSlash, here⟩)
  | keptEnd here isSlash =>
    subst isSlash
    exact absurd (context (ascii '/') rfl) (by decide)
  | quotedEnd here =>
    have opens := settled.quotes c false here
    have noSpace : c ≠ space := by rintro rfl; exact absurd opens (by decide)
    exact .inl (context c (by simp [enterText, wrote, noSpace]))
  | breakLine _ isBreak | lineBreak _ isBreak | lineEnd _ isBreak =>
    exact .inl (isBreak ▸ by decide)
  | openRegex | regexLine =>
    by_cases isBreak : c = newline
    · exact .inl (isBreak ▸ by decide)
    · simp [enter, isBreak, State.isText] at inText
  | openLine | openBlock | keep | quotedMore => simp [enter, State.isText] at inText
  | lineSkip here => simp [here, State.isText] at inText
  | blockSkip | keptMore => grind [enter, State.isText]

/-- In plain text a faint byte is a space or nothing. -/
theorem meaning_faint {m : Machine} {b c : UInt8} (inText : m.state.isText = true)
    (faint : isFaint b = true) (means : m.meaning b = some c) : c = space := by
  simp only [isFaint, Bool.and_eq_true, decide_eq_true_eq, bne_iff_ne] at faint
  rcases meaning_eq_some means with ⟨-, ⟨rfl, -⟩ | rfl⟩ | ⟨-, blank⟩ | ⟨printable, rfl⟩
  · exact absurd rfl faint.1.2
  · exact absurd rfl faint.2
  · simpa [State.isVerbatim_of_isText inText] using blank
  · exact UInt8.le_antisymm faint.1.1 (UInt8.not_lt.1 printable)

/-- A faint byte of plain text leaves no trace in what decides about a slash. -/
theorem Steps.faint {m m' : Machine} {b : UInt8} {out : Bytes} (h : Steps m b m' out)
    (inText : m.state.isText = true) (faint : isFaint b = true) :
    m'.state.isText = true ∧ m'.lastRead = m.lastRead := by
  cases h with
  | nothing => exact ⟨inText, rfl⟩
  | @reads c m' out means reads =>
    obtain rfl := meaning_faint inText faint means
    refine ⟨?_, by simpa using reads.lastRead⟩
    cases reads with
    | skip => exact inText
    | breakLine | blockEnd | lineEnd => rfl
    | text _ _ _ reads =>
      cases reads with
      | owe => rfl
      | hold isSlash => exact absurd isSlash (by decide)
      | quote noSpace | plain noSpace => exact absurd rfl noSpace
    | _ => grind [State.isText]

/-- The end of a dropped comment is remembered as a slash. -/
theorem Steps.blockEnd {m m' : Machine} {out : Bytes} (h : Steps m (ascii '/') m' out)
    (star : m.state = .blockCommentStar) :
    m'.state.isText = true ∧ m'.lastRead = ascii '/' := by
  obtain ⟨n, reads, rfl⟩ := h.of_meaning (meaning_printable m (by decide))
  cases reads with
  | blockEnd => exact ⟨rfl, rfl⟩
  | blockSkip _ _ unended => exact absurd rfl (unended star)
  | _ => simp_all

end Machine

open Machine

/-- After a dropped comment the machine takes a slash for the one that ended the comment. -/
theorem lastRead_of_endsInDroppedComment {p : Bytes} (h : EndsInDroppedComment p) :
    (after p).state.isText = true ∧ (after p).lastRead = ascii '/' := by
  obtain ⟨q, s, rfl, star, faint⟩ := h
  rw [List.append_cons]
  induction s using List.reverseRecOn with
  | nil =>
    rw [List.append_nil, after_snoc]
    exact (steps_step _ _).blockEnd star
  | append_singleton s b ih =>
    have before := ih fun c mem => faint c (List.mem_append_left _ mem)
    rw [← List.append_assoc, after_snoc]
    have kept := (steps_step _ b).faint before.1 (faint b (by simp))
    exact ⟨kept.1, kept.2.trans before.2⟩

theorem lastRead_of_afterReturn (p : Bytes) :
    (after p).afterReturn = true → (after p).lastRead = newline := by
  refine run_induction (P := fun _ m _ => m.afterReturn = true → m.lastRead = newline) nofun ?_ p
  intro p b m' out _ stepped _ _ returned
  obtain ⟨n, reads, rfl⟩ := stepped.of_afterReturn returned
  rfl

/-- **The last byte read tells what may follow the last byte written**, except after a dropped
comment. -/
theorem precedesRegex_lastRead (p : Bytes) (inText : (after p).state.isText = true)
    (context : ∀ c ∈ lastVisible (written p), precedesRegex c = true) :
    precedesRegex (after p).lastRead = true ∨ EndsInDroppedComment p := by
  rw [← lastWritten_after] at context
  revert inText context
  refine run_induction (P := fun p m _ => m.state.isText = true →
    (∀ c ∈ m.lastWritten, precedesRegex c = true) →
      precedesRegex m.lastRead = true ∨ EndsInDroppedComment p) (fun _ _ => .inl (by decide)) ?_ p
  intro p b m' out ih stepped _ _ inText context
  cases stepped with
  | nothing meaningless =>
    rcases meaning_eq_none meaningless with ⟨-, returned⟩ | ⟨control, noBreak, noReturn, -⟩
    · have isBreak := lastRead_of_afterReturn p returned
      exact .inl (by simp only [isBreak]; decide)
    · have faint := isFaint_of_control control noBreak noReturn
      exact (ih inText context).imp id fun ends => ends.snoc faint
  | @reads c m' out means reads =>
    rcases reads.context ((settled_after p).mark _) inText context with
      allows | ⟨rfl, before, same⟩ | ⟨rfl, star⟩
    · have noSpace : c ≠ space := by rintro rfl; exact absurd allows (by decide)
      exact .inl (by simpa [noSpace] using allows)
    · have faint := isFaint_of_meaning means
      have earlier := ih before fun c mem => context c (same ▸ mem)
      rw [← reads.lastRead] at earlier
      exact earlier.imp id fun ends => ends.snoc faint
    · obtain rfl := byte_of_meaning means (by decide) (by decide) (by decide)
      exact .inr ⟨p, [], rfl, star, nofun⟩

namespace Machine

/-- The byte after the slash of a regular expression starts the part that is copied. -/
theorem step_regexSlash {m : Machine} {b c : UInt8} (here : m.state = .regexSlash)
    (means : m.meaning b = some c) (token : c ≠ ascii '/' ∧ c ≠ ascii '*') (noBreak : c ≠ newline) :
    (m.step b).2 = m.lead (ascii '/') ++ [ascii '/', c] ∧ (m.step b).1.state = .regexLine ∧
      (m.step b).1.spaceOwed = false := by
  rw [step_of_meaning means]
  simp only [read, here, afterSlash_other _ _ token.2 token.1, write_eq, lead_wrote]
  exact ⟨rfl, by simp [enter, noBreak], rfl⟩

/-- The rest of a line with a regular expression is copied. -/
theorem copies_regexLine {resume : TextMode} {r : Bytes} (oneLine : newline ∉ r) :
    Copies resume .regexLine (r ++ [newline]) (.text .fresh) := by
  induction r with
  | nil => exact .cons rfl (.nil _)
  | cons c r ih =>
    simp only [List.mem_cons, not_or] at oneLine
    have stays : State.copy resume .regexLine c = .regexLine := by
      simp [State.copy, Ne.symm oneLine.1]
    refine .cons rfl ?_
    rw [stays]
    exact ih oneLine.2

theorem feed_regexLine {m : Machine} (here : m.state = .regexLine) (free : m.spaceOwed = false)
    (unreturned : m.afterReturn = false) {r : Bytes} (printable : ∀ b ∈ r, b = tab ∨ ¬ b < 0x20) :
    (m.feed (r ++ [newline])).2 = r ++ [newline] := by
  have oneLine : newline ∉ r := fun mem => absurd (printable newline mem) (by decide)
  have literal : ∀ b ∈ r ++ [newline], isLiteral b = true := by
    intro b mem
    rcases List.mem_append.1 mem with mem | mem
    · exact isLiteral_of_printable (printable b mem)
    · obtain rfl := List.mem_singleton.1 mem
      rfl
  have meant : literalMeanings m.afterReturn (r ++ [newline]) = r ++ [newline] := by
    rw [unreturned, literalMeanings_of_isLiteral literal]
  have copies : Copies m.resume m.state (literalMeanings m.afterReturn (r ++ [newline]))
      (.text .fresh) := by
    rw [here, meant]
    exact copies_regexLine oneLine
  exact (feed_copies free (fun _ => rfl) copies).1.trans meant

/-- A space after a slash that divides is owed. -/
theorem step_slash_blank {m : Machine} {b : UInt8} (here : m.state = .slash)
    (means : m.meaning b = some space) :
    (m.step b).2 = m.lead (ascii '/') ++ [ascii '/'] ∧
      (m.step b).1.state = .text .spaced ∧ (m.step b).1.spaceOwed = true ∧
      (m.step b).1.mayEndStatement = true := by
  have noComment : space ≠ ascii '*' ∧ space ≠ ascii '/' := by decide
  rw [step_of_meaning means]
  simp only [read, here, afterSlash_other _ _ noComment.1 noComment.2, readText_space]
  exact ⟨rfl, rfl, rfl, rfl⟩

/-- A line feed takes the place of a space that is owed after the end of a statement. -/
theorem read_newline_owed {m : Machine} (here : m.state = .text .spaced)
    (owed : m.spaceOwed = true) (ends : m.mayEndStatement = true) :
    (m.read newline).2 = [newline] := by
  simp [read, here, owed, ends, write_eq]

theorem lead_owed {m : Machine} (owed : m.spaceOwed = true) (c : UInt8) (out : Bytes) :
    ∀ d ∈ (m.lead c ++ c :: out).head?, d = space ∨ d = newline := by
  by_cases isBreak : c = newline
  · simp [isBreak]
  · simp [lead, owed, isBreak]

theorem ReadsText.owed {m m' : Machine} {c : UInt8} {out : Bytes} (h : ReadsText m c m' out)
    (owed : m.spaceOwed = true) :
    (∀ d ∈ out.head?, d = space ∨ d = newline) ∧ (out = [] → m'.spaceOwed = true) := by
  cases h with
  | owe => exact ⟨nofun, fun _ => rfl⟩
  | hold => exact ⟨nofun, fun _ => owed⟩
  | quote | plain => exact ⟨lead_owed (by simp [settle, owed]) c [], by simp⟩

/-- While a space is owed, the first byte written is the space or a line feed. -/
theorem Reads.owed {m m' : Machine} {c : UInt8} {out : Bytes} (h : Reads m c m' out)
    (owed : m.spaceOwed = true) :
    (∀ d ∈ out.head?, d = space ∨ d = newline) ∧ (out = [] → m'.spaceOwed = true) := by
  cases h with
  | skip | openLine | openBlock | lineSkip | lineEnd | blockSkip | blockEnd =>
    exact ⟨nofun, fun _ => owed⟩
  | breakLine | lineBreak => exact ⟨by simp, by simp⟩
  | text _ _ _ reads => exact reads.owed owed
  | divide => exact ⟨lead_owed owed _ _, by simp⟩
  | openRegex | regexLine | keep | keptMore | keptEnd | quotedMore | quotedEnd =>
    exact ⟨lead_owed owed _ _, by simp⟩

theorem feed_owed {m : Machine} (owed : m.spaceOwed = true) (bs : Bytes) :
    ∀ d ∈ (m.feed bs).2.head?, d = space ∨ d = newline := by
  induction bs generalizing m with
  | nil => nofun
  | cons b bs ih =>
    have stepped := steps_step m b
    rw [feed_cons]
    generalize (m.step b).1 = m', (m.step b).2 = out at stepped ⊢
    cases stepped with
    | nothing => exact ih owed
    | reads _ reads =>
      obtain ⟨first, still⟩ := reads.owed owed
      cases out with
      | nil => exact ih (still rfl)
      | cons d out => exact first

end Machine

/-- The space before a slash does not hide what follows it. -/
theorem eq_of_blank_append {a b x y : Bytes} (blank : a = [] ∨ a = [space])
    (blank' : b = [] ∨ b = [space]) (same : a ++ ascii '/' :: x = b ++ ascii '/' :: y) : x = y := by
  have noSpace : ascii '/' ≠ space := by decide
  rcases blank with rfl | rfl <;> rcases blank' with rfl | rfl
  · exact (List.cons.inj same).2
  · exact absurd (List.cons.inj same).1 noSpace
  · exact absurd (List.cons.inj same).1.symm noSpace
  · exact (List.cons.inj (List.cons.inj same).2).2

/-- What is written after a slash does not depend on the space before it. -/
theorem eq_of_writes_slash {m : Machine} (inText : m.state.isText = true) {bs out rest : Bytes}
    (writes : m.Writes (ascii '/' :: bs) (ascii '/' :: out))
    (total : (m.holdSlash.feed bs).2 = m.holdSlash.lead (ascii '/') ++ ascii '/' :: rest) :
    rest = out := by
  obtain ⟨blank, one, same⟩ := writes
  rw [feed_slash inText, total] at same
  have one' := (lead_cases m.holdSlash (ascii '/')).imp_right And.left
  exact eq_of_blank_append one' (one.imp_right And.left) same

/-- Where the machine takes the slash for the start of a regular expression, it copies it. -/
theorem copiesRegex_of_precedesRegex {p r : Bytes} (inText : (after p).state.isText = true)
    (allows : precedesRegex (after p).lastRead = true) (body : RegexBody r)
    (noTab : r.head? ≠ some tab) : CopiesRegex p r := by
  obtain ⟨b, r, rfl⟩ := List.exists_cons_of_ne_nil body.nonempty
  have first : ¬ b < 0x20 :=
    (body.printable b (by simp)).resolve_left fun isTab => noTab (by simp [isTab])
  have noBreak : b ≠ newline := ne_of_printable first (by decide)
  have noReturn : b ≠ carriageReturn := ne_of_printable first (by decide)
  refine ⟨(after p).lead (ascii '/'), lead_cases _ _, ?_⟩
  obtain ⟨out, state, owed⟩ := step_regexSlash (holdSlash_regex allows) (meaning_printable _ first)
    (by simpa using body.noComment) noBreak
  have returned : ((after p).holdSlash.step b).1.afterReturn = false := by
    rw [afterReturn_step]
    simpa using noReturn
  have rest := feed_regexLine state owed returned fun c mem =>
    body.printable c (List.mem_cons_of_mem b mem)
  simp only [feed_slash inText, List.cons_append, feed_cons, out, rest]
  simp [holdSlash, lead]

/-- Where the machine takes the slash for a division, a regular expression that is one space is
lost. -/
theorem not_copiesRegex_space {p : Bytes} (ended : EndsInDroppedComment p) :
    ¬ CopiesRegex p [space] := by
  intro copies
  obtain ⟨inText, isSlash⟩ := lastRead_of_endsInDroppedComment ended
  have divides : precedesRegex (after p).lastRead = false := by rw [isSlash]; decide
  obtain ⟨out, state, owed, ends⟩ := step_slash_blank (holdSlash_divide divides)
    (meaning_printable _ (by decide))
  have unreturned : ((after p).holdSlash.step space).1.afterReturn = false := by
    rw [afterReturn_step]
    rfl
  have broken : (((after p).holdSlash.step space).1.step newline).2 = [newline] := by
    rw [step_of_meaning (c := newline) (by simp [meaning_newline, unreturned])]
    exact read_newline_owed state owed ends
  have total : ((after p).holdSlash.feed ([space] ++ [newline])).2 =
      (after p).holdSlash.lead (ascii '/') ++ [ascii '/', newline] := by
    simp [feed_cons, out, broken]
  exact absurd (eq_of_writes_slash inText copies total) (by decide)

/-- A tab after the slash is never written as it stands. -/
theorem not_copiesRegex_tab {p : Bytes} (inText : (after p).state.isText = true) (r : Bytes) :
    ¬ CopiesRegex p (tab :: r) := by
  intro copies
  have plain : (after p).holdSlash.state.isVerbatim = false := by
    unfold holdSlash
    split <;> rfl
  have means : (after p).holdSlash.meaning tab = some space := by simp [meaning_tab, plain]
  -- Whatever the slash turns out to be, a space or a line feed follows it.
  have follows : ∃ rest, ((after p).holdSlash.feed (tab :: (r ++ [newline]))).2 =
        (after p).holdSlash.lead (ascii '/') ++ ascii '/' :: rest ∧
      ∀ d ∈ rest.head?, d = space ∨ d = newline := by
    rw [feed_cons]
    cases allows : precedesRegex (after p).lastRead with
    | true =>
      obtain ⟨out, -, -⟩ := step_regexSlash (holdSlash_regex allows) means (by decide) (by decide)
      rw [out, List.append_assoc]
      exact ⟨_, rfl, by simp⟩
    | false =>
      obtain ⟨out, -, owed, -⟩ := step_slash_blank (holdSlash_divide allows) means
      rw [out, List.append_assoc]
      exact ⟨_, rfl, feed_owed owed _⟩
  obtain ⟨rest, total, next⟩ := follows
  obtain rfl := eq_of_writes_slash inText copies total
  exact absurd (next tab rfl) (by decide)

/-- **Regular expressions are copied to the end of their line**, except after a dropped comment and
unless they begin with a tab. -/
theorem copiesRegex_iff {p : Bytes} (inText : (after p).state.isText = true)
    (context : ∀ c ∈ lastVisible (written p), precedesRegex c = true) :
    ((∀ r, RegexBody r → r.head? ≠ some tab → CopiesRegex p r) ↔ ¬ EndsInDroppedComment p) ∧
      ∀ r, RegexBody r → r.head? = some tab → ¬ CopiesRegex p r := by
  constructor
  · constructor
    · intro copies ended
      have body : RegexBody [space] := by decide
      exact not_copiesRegex_space ended (copies [space] body (by decide))
    · intro free r body noTab
      have allows := (precedesRegex_lastRead p inText context).resolve_right free
      exact copiesRegex_of_precedesRegex inText allows body noTab
  · intro r _ isTab
    obtain ⟨rest, rfl⟩ := List.head?_eq_some_iff.1 isTab
    exact not_copiesRegex_tab inText rest

/-- After an opening bracket every regular expression is copied that does not begin with a tab. -/
theorem copies_regex_after_bracket :
    let p := ['('].map ascii
    (after p).state.isText = true ∧ (∀ c ∈ lastVisible (written p), precedesRegex c = true) ∧
      ((∀ r, RegexBody r → r.head? ≠ some tab → CopiesRegex p r) ↔ ¬ EndsInDroppedComment p) ∧
        ∀ r, RegexBody r → r.head? = some tab → ¬ CopiesRegex p r := by
  intro p
  have inText : (after p).state.isText = true := by decide
  have last : lastVisible (written p) = some (ascii '(') := by decide
  have context : ∀ c ∈ lastVisible (written p), precedesRegex c = true := by
    rw [last]
    rintro c ⟨⟩
    decide
  exact ⟨inText, context, copiesRegex_iff inText context⟩

/-- After an opening bracket, a regular expression that follows a dropped comment or begins with a
tab is not copied. -/
theorem loses_regex_after_comment_or_tab :
    let p := ['('].map ascii
    let p' := ['(', '/', '*', '*', '/'].map ascii
    let r := [tab] ++ ['x', '/', ')'].map ascii
    let r' := ['a', ' ', ' ', 'b', '/'].map ascii
    ((after p).state.isText = true ∧ lastVisible (written p) = some (ascii '(') ∧ RegexBody r ∧
      ¬ CopiesRegex p r) ∧
    (after p').state.isText = true ∧ lastVisible (written p') = some (ascii '(') ∧ RegexBody r' ∧
      ¬ CopiesRegex p' r' := by
  intro p p' r r'
  have body : RegexBody r := by decide
  have body' : RegexBody r' := by decide
  refine ⟨⟨by decide, by decide, body, ?_⟩, by decide, by decide, body', ?_⟩
  · rintro ⟨blank, rfl | ⟨rfl, -⟩, same⟩ <;> exact absurd same (by decide)
  · rintro ⟨blank, rfl | ⟨rfl, -⟩, same⟩ <;> exact absurd same (by decide)

end PageBundle.Script
