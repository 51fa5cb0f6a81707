import PageBundle.Proofs.Script.Run

/-!
# Line breaks that may end a statement

A line terminator in plain text or after a line comment leaves a line feed when what is written
so far may end a statement. It does so through spaces and comments that are dropped, because
`KeepsBreak` holds: where white space is skipped, either a space is still owed, which the line feed
replaces, or nothing ends here.

A comment that is kept breaks this where it stands after white space or after a byte that swallows
it. It is written, but the machine returns to the mode before the comment, and the owed space is
gone. `LosesBreak` describes these scripts, and `getLast?_written_terminator_iff` says that a line
break is lost after them and only after them.
-/

namespace PageBundle.Script

/-- The ways to end a line. -/
def lineTerminators : List Bytes :=
  [[newline], [carriageReturn], [carriageReturn, newline]]

/-- The last byte written ends a kept comment, and the comment returned to a mode of plain text
that skips white space. -/
def AfterKeptComment (p : Bytes) : Prop :=
  ∃ q s, p = q ++ ascii '/' :: s ∧ (after q).state = .keptCommentStar ∧
    (after q).resume ≠ .solid ∧ written p = written (q ++ [ascii '/'])

/-- A line terminator that follows leaves no line feed though it may end a statement. -/
def LosesBreak (p : Bytes) : Prop :=
  (after p).state.isText = true ∧ AfterKeptComment p

namespace Machine

/-- The text mode the machine is in, or returns to when the comment that is read is dropped. -/
def textMode? (m : Machine) : Option TextMode :=
  match m.state with
  | .text mode => some mode
  | .slash | .regexSlash | .blockComment _ | .blockCommentStar => some m.resume
  | _ => none

/-- Where white space is skipped after the end of a statement, a space is owed. -/
def KeepsBreak (m : Machine) : Prop :=
  m.mayEndStatement = true → ∀ mode ∈ m.textMode?,
    mode = .solid ∨ mode = .spaced ∧ m.spaceOwed = true

@[simp] theorem mayEndStatement_enter (m : Machine) (state : State) :
    (m.enter state).mayEndStatement = m.mayEndStatement := rfl

@[simp] theorem mayEndStatement_enterText (m : Machine) (mode : TextMode) :
    (m.enterText mode).mayEndStatement = m.mayEndStatement := rfl

theorem mayEndStatement_eq {m : Machine} {c : UInt8} (last : m.lastWritten = some c) :
    m.mayEndStatement = (c != newline && !swallowsSpace c) := by
  simp only [mayEndStatement, last]

theorem mayEndStatement_wrote (m : Machine) (c : UInt8) (noSpace : c ≠ space) :
    (m.wrote c).mayEndStatement = (c != newline && !swallowsSpace c) :=
  mayEndStatement_eq (by simp [wrote, noSpace])

/-- A line feed ends what may be ended. -/
@[simp] theorem mayEndStatement_newline (m : Machine) :
    (m.wrote newline).mayEndStatement = false := by
  rw [mayEndStatement_wrote m newline (by decide)]
  decide

/-- The mode that follows a byte is solid if the byte may end a statement. -/
theorem of_eq_solid {c : UInt8} (ends : (c != newline && !swallowsSpace c) = true) :
    TextMode.of c = .solid := by
  simp only [Bool.and_eq_true, bne_iff_ne, ne_eq, Bool.not_eq_true'] at ends
  simp [TextMode.of, ends.1, ends.2]

/-- A byte after which text is solid may end a statement. -/
theorem ends_of_solid {c : UInt8} (solid : TextMode.of c = .solid) :
    (c != newline && !swallowsSpace c) = true := by
  unfold TextMode.of at solid
  grind

theorem ReadsText.keepsBreak {m m' : Machine} {c : UInt8} {out : Bytes}
    (h : ReadsText m c m' out) (before : c = ascii '/' → out = [] → m.mayEndStatement = true →
      m.resume = .solid ∨ m.resume = .spaced ∧ m.spaceOwed = true) : KeepsBreak m' := by
  intro ends mode inText
  cases h with
  | owe => exact .inr ⟨by simpa [textMode?, enterText] using inText.symm, rfl⟩
  | hold isSlash =>
    obtain rfl : m.resume = mode := by
      cases isRegex : precedesRegex m.lastRead <;> simpa [textMode?, enter, isRegex] using inText
    exact before isSlash rfl ends
  | quote => simp [textMode?, enter] at inText
  | plain noSpace =>
    obtain rfl : TextMode.of c = mode := by simpa [textMode?, enterText] using inText
    rw [mayEndStatement_enterText, mayEndStatement_wrote _ _ noSpace] at ends
    exact .inl (of_eq_solid ends)

/-- **A byte keeps the next line break** unless it ends a kept comment before white space that is
skipped. Where the byte writes something, this holds whatever was before. -/
theorem Reads.keepsBreak {m m' : Machine} {c : UInt8} {out : Bytes} (h : Reads m c m' out)
    (settled : Settled m) (before : out = [] → KeepsBreak m) :
    KeepsBreak m' ∨
      m.state = .keptCommentStar ∧ c = ascii '/' ∧ m.resume ≠ .solid ∧ out ≠ [] := by
  cases h with
  | text mode here _ reads =>
    refine .inl (reads.keepsBreak fun _ silent ends => ?_)
    have kept := before silent ends mode (by simp [textMode?, here])
    rcases kept with rfl | ⟨rfl, owed⟩
    · exact .inl (settled.resumes _ here (by simp))
    · exact .inr ⟨settled.resumes _ here (by simp), owed⟩
  | divide _ _ noSlash reads =>
    exact .inl (reads.keepsBreak fun isSlash => absurd isSlash noSlash)
  | skip | lineSkip => exact .inl (before rfl)
  | breakLine | lineBreak =>
    exact .inl fun ends => absurd ends (by simp)
  | lineEnd _ _ free => exact .inl fun ends => absurd ends (by simpa using free)
  | openRegex | regexLine =>
    refine .inl fun ends mode inText => ?_
    by_cases isBreak : c = newline
    · subst isBreak
      exact absurd ends (by simp)
    · simp [textMode?, enter, isBreak] at inText
  | openBlock here | blockSkip here | blockEnd here =>
    refine .inl fun ends mode inText => ?_
    have same : m.textMode? = some mode := by grind [textMode?, enter]
    exact before rfl ends mode same
  | keptEnd here isSlash =>
    by_cases solid : m.resume = .solid
    · exact .inl fun _ mode inText => .inl (by simpa [textMode?, enter, solid] using inText.symm)
    · exact .inr ⟨here, isSlash, solid, by simp⟩
  | quotedEnd =>
    exact .inl fun _ mode inText => .inl (by simpa [textMode?, enterText] using inText.symm)
  | openLine | keep | keptMore | quotedMore =>
    refine .inl fun _ mode inText => ?_
    grind [textMode?, enter]

/-- A line feed in plain text is written, and starts a line. -/
theorem ReadsText.of_newline {m m' : Machine} {out : Bytes} (h : ReadsText m newline m' out) :
    m'.state = .text .fresh ∧ m'.mayEndStatement = false ∧ out = [newline] := by
  cases h with
  | owe isSpace => exact absurd isSpace (by decide)
  | hold isSlash => exact absurd isSlash (by decide)
  | quote _ _ opens => exact absurd opens (by decide)
  | plain => exact ⟨rfl, by simp, by simp⟩

/-- After a line feed the machine is in no line comment, and nothing that may end a statement
waits for another line feed. -/
theorem Reads.newline_done {m m' : Machine} {out : Bytes} (h : Reads m newline m' out) :
    m'.state ≠ .lineComment ∧
      (m'.mayEndStatement = true → m'.state.isText = true → ¬ KeepsBreak m') := by
  cases h with
  | skip mode here soft _ free =>
    refine ⟨by simp [here], fun ends _ keeps => ?_⟩
    rcases keeps ends mode (by simp [textMode?, here]) with solid | ⟨spaced, owed⟩
    · exact soft solid
    · simpa [owed, ends] using free spaced rfl
  | text _ _ _ reads =>
    obtain ⟨fresh, free, -⟩ := reads.of_newline
    exact ⟨by simp [fresh], fun ends => absurd ends (by simp [free])⟩
  | divide _ _ _ reads =>
    obtain ⟨fresh, free, -⟩ := reads.of_newline
    exact ⟨by simp [fresh], fun ends => absurd ends (by simp [free])⟩
  | breakLine | lineBreak | openRegex | regexLine | quotedEnd =>
    exact ⟨by simp [enter, enterText], fun ends => absurd ends (by simp)⟩
  | lineEnd _ _ free =>
    exact ⟨by simp [enterText], fun ends => absurd ends (by simpa using free)⟩
  | openLine _ isSlash | keptEnd _ isSlash | blockEnd _ isSlash =>
    exact absurd isSlash (by decide)
  | openBlock _ isStar => exact absurd isStar (by decide)
  | keep _ isSign => exact absurd isSign (by decide)
  | lineSkip _ noBreak => exact absurd rfl noBreak
  | blockSkip | keptMore | quotedMore =>
    constructor <;> grind [enter, State.isText]

theorem Reads.newline_kept {m m' : Machine} {out : Bytes} (h : Reads m newline m' out)
    (place : m.state.isText = true ∨ m.state = .lineComment) (ends : m.mayEndStatement = true)
    (keeps : m.state.isText = true → KeepsBreak m) : out = [newline] := by
  cases h with
  | skip mode here soft _ free =>
    rcases keeps (by simp [here, State.isText]) ends mode (by simp [textMode?, here]) with
      solid | ⟨spaced, owed⟩
    · exact absurd solid soft
    · simpa [owed, ends] using free spaced rfl
  | breakLine | lineBreak => rfl
  | text _ _ _ reads => exact reads.of_newline.2.2
  | lineSkip _ noBreak => exact absurd rfl noBreak
  | lineEnd _ _ free => exact absurd ends (by simp [free])
  | _ => grind [State.isText]

/-- The machine has written a kept comment after white space that is skipped, and nothing since. -/
structure Idle (m : Machine) : Prop where
  resume : m.resume ≠ .solid
  owed : m.spaceOwed = false
  ends : m.mayEndStatement = true
  place : (∃ mode, m.state = .text mode ∧ mode ≠ .solid) ∨ m.state.opensBlock = true ∨
    m.state = .lineComment

theorem Idle.mark {m : Machine} (idle : Idle m) (returned : Bool) :
    Idle { m with afterReturn := returned } :=
  ⟨idle.resume, idle.owed, idle.ends, idle.place⟩

theorem Reads.idle {m m' : Machine} {c : UInt8} {out : Bytes} (h : Reads m c m' out)
    (idle : Idle m) (silent : out = []) : Idle m' := by
  cases h with
  | skip | lineSkip => exact idle
  | text mode here solid reads =>
    have soft : mode ≠ .solid := by grind [idle.place, State.opensBlock]
    cases reads with
    | owe isSpace => exact absurd (solid (.inl isSpace)) soft
    | hold =>
      refine ⟨idle.resume, idle.owed, idle.ends, .inr (.inl ?_)⟩
      cases isRegex : precedesRegex m.lastRead <;> simp [enter, State.opensBlock]
    | quote | plain => simp at silent
  | lineEnd _ _ free => exact absurd idle.ends (by simp [free])
  | openLine => exact ⟨idle.resume, idle.owed, idle.ends, .inr (.inr rfl)⟩
  | openBlock => exact ⟨idle.resume, idle.owed, idle.ends, .inr (.inl rfl)⟩
  | blockSkip =>
    refine ⟨idle.resume, idle.owed, idle.ends, .inr (.inl ?_)⟩
    split <;> rfl
  | blockEnd => exact ⟨idle.resume, idle.owed, idle.ends, .inl ⟨m.resume, rfl, idle.resume⟩⟩
  | _ => simp at silent

theorem Reads.newline_lost {m m' : Machine} {out : Bytes} (h : Reads m newline m' out)
    (idle : Idle m) (inText : m.state.isText = true) : out = [] := by
  have soft : m.state ≠ .text .solid := by grind [idle.place, State.opensBlock, State.isText]
  cases h with
  | skip => rfl
  | breakLine _ _ owed => exact absurd owed (by simp [idle.owed])
  | text mode here solid => exact absurd (solid (.inr rfl) ▸ here) soft
  | _ => grind [State.isText]

theorem Steps.idle {m m' : Machine} {b : UInt8} {out : Bytes} (h : Steps m b m' out)
    (idle : Idle m) (silent : out = []) : Idle m' := by
  cases h with
  | nothing => exact idle.mark _
  | reads _ reads =>
    have := reads.idle (idle.mark _) silent
    exact ⟨this.resume, this.owed, this.ends, this.place⟩

/-- The end of a kept comment leaves the machine idle if white space is skipped there. -/
theorem Steps.idle_of_keptEnd {m m' : Machine} {out : Bytes} (h : Steps m (ascii '/') m' out)
    (star : m.state = .keptCommentStar) (soft : m.resume ≠ .solid) : Idle m' := by
  have ends (n : Machine) : (n.wrote (ascii '/')).mayEndStatement = true := by
    rw [mayEndStatement_wrote n _ (by decide)]
    decide
  obtain ⟨n, reads, rfl⟩ := h.of_meaning (meaning_printable m (by decide))
  cases reads with
  | keptEnd => exact ⟨soft, rfl, ends m, .inl ⟨m.resume, rfl, soft⟩⟩
  | keptMore _ unended => exact absurd rfl (unended star)
  | _ => simp_all

end Machine

open Machine

theorem AfterKeptComment.snoc {p : Bytes} {b : UInt8} (h : AfterKeptComment p)
    (silent : written (p ++ [b]) = written p) : AfterKeptComment (p ++ [b]) := by
  obtain ⟨q, s, rfl, star, soft, same⟩ := h
  exact ⟨q, s ++ [b], by simp, star, soft, silent.trans same⟩

/-- **Line breaks are kept except after a kept comment.** -/
theorem keepsBreak_or_afterKeptComment (p : Bytes) :
    KeepsBreak (after p) ∨ AfterKeptComment p := by
  refine run_induction (P := fun p m _ => KeepsBreak m ∨ AfterKeptComment p)
    (.inl fun ends => nomatch ends) ?_ p
  intro p b m' out ih stepped _ wrote
  by_cases kept : AfterKeptComment p ∧ out = []
  · exact .inr (kept.1.snoc (by simp [wrote, kept.2]))
  have before (silent : out = []) : KeepsBreak (after p) :=
    ih.resolve_right fun h => kept ⟨h, silent⟩
  cases stepped with
  | nothing => exact .inl (before rfl)
  | @reads c m' out means reads =>
    rcases reads.keepsBreak ((settled_after p).mark _) before with keeps | ended
    · exact .inl keeps
    · obtain ⟨star, isSlash, soft, -⟩ := ended
      subst isSlash
      obtain rfl := byte_of_meaning means (by decide) (by decide) (by decide)
      exact .inr ⟨p, [], rfl, star, soft, rfl⟩

/-- After a kept comment the machine stays idle until it writes again. -/
theorem idle_of_afterKeptComment {p : Bytes} (h : AfterKeptComment p) : Idle (after p) := by
  obtain ⟨q, s, rfl, star, soft, same⟩ := h
  rw [List.append_cons] at same ⊢
  induction s using List.reverseRecOn with
  | nil =>
    rw [List.append_nil, after_snoc]
    exact (steps_step _ _).idle_of_keptEnd star soft
  | append_singleton s b ih =>
    rw [← List.append_assoc] at same ⊢
    rw [written_snoc, written_append] at same
    have none := List.append_eq_nil_iff.1 (List.append_right_eq_self.1
      ((List.append_assoc _ _ _).symm.trans same))
    have before := ih (by rw [written_append, none.1, List.append_nil])
    rw [after_snoc]
    exact (steps_step _ b).idle before none.2

/-- A line terminator is one line feed read, or none where it completes a terminator. -/
theorem terminator_cases (p : Bytes) {t : Bytes} (term : t ∈ lineTerminators) :
    ((after p).afterReturn = true ∧ written (p ++ t) = written p) ∨
      ∃ r m' out, Reads { after p with afterReturn := r } newline m' out ∧
        written (p ++ t) = written p ++ out := by
  have reads (b : UInt8) (means : (after p).meaning b = some newline) :
      ∃ r m', Reads { after p with afterReturn := r } newline m' ((after p).step b).2 := by
    have stepped : ((after p).step b).2 =
        ({ after p with afterReturn := b == carriageReturn }.read newline).2 := by
      simp [step, means]
    rw [stepped]
    exact ⟨_, _, reads_read _ _⟩
  simp only [lineTerminators, List.mem_cons, List.not_mem_nil, or_false] at term
  rcases term with rfl | rfl | rfl
  · cases completes : (after p).afterReturn with
    | true => exact .inl ⟨rfl, by simp [written_snoc, step, meaning_newline, completes]⟩
    | false =>
      obtain ⟨r, m', reads⟩ := reads newline (by simp [meaning_newline, completes])
      exact .inr ⟨r, m', _, reads, written_snoc p newline⟩
  · obtain ⟨r, m', reads⟩ := reads carriageReturn (meaning_return _)
    exact .inr ⟨r, m', _, reads, written_snoc p carriageReturn⟩
  · obtain ⟨r, m', reads⟩ := reads carriageReturn (meaning_return _)
    refine .inr ⟨r, m', _, reads, ?_⟩
    have returned : (after (p ++ [carriageReturn])).afterReturn = true := by
      rw [after_snoc, afterReturn_step]
      rfl
    rw [List.append_cons, written_snoc, written_snoc]
    simp [step, meaning_newline, returned]

/-- After a carriage return the break before the next byte is already made. -/
theorem not_keepsBreak_of_afterReturn (p : Bytes) : (after p).afterReturn = true →
    (after p).state ≠ .lineComment ∧ ((after p).mayEndStatement = true →
      (after p).state.isText = true → ¬ KeepsBreak (after p)) := by
  refine run_induction (P := fun _ m _ => m.afterReturn = true → m.state ≠ .lineComment ∧
    (m.mayEndStatement = true → m.state.isText = true → ¬ KeepsBreak m)) nofun ?_ p
  intro p b m' out _ stepped _ _ returned
  obtain ⟨n, reads, rfl⟩ := stepped.of_afterReturn returned
  exact reads.newline_done

/-- Output that ends in a line feed has it as its last byte other than a space. -/
theorem lastVisible_of_getLast? {out : Bytes} (last : out.getLast? = some newline) :
    lastVisible out = some newline := by
  obtain ⟨before, rfl⟩ := List.getLast?_eq_some_iff.1 last
  rw [lastVisible_append]
  rfl

/-- **A line break that may end a statement is kept, except after a kept comment.** -/
theorem getLast?_written_terminator_iff {p t : Bytes} {c : UInt8}
    (place : (after p).state.isText = true ∨ (after p).state = .lineComment)
    (last : lastVisible (written p) = some c) (ends : c ≠ newline ∧ swallowsSpace c = false)
    (term : t ∈ lineTerminators) :
    (written (p ++ t)).getLast? = some newline ↔ ¬ LosesBreak p := by
  have mayEnd : (after p).mayEndStatement = true := by
    rw [mayEndStatement_eq ((lastWritten_after p).trans last)]
    simp [ends.1, ends.2]
  have unbroken : (written p).getLast? ≠ some newline := by
    intro broken
    have := (lastVisible_of_getLast? broken).symm.trans last
    exact ends.1 (Option.some.inj this).symm
  constructor
  · rintro broken ⟨inText, kept⟩
    have idle := idle_of_afterKeptComment kept
    rcases terminator_cases p term with ⟨-, same⟩ | ⟨r, m', out, reads, same⟩
    · exact unbroken (same ▸ broken)
    · have silent := reads.newline_lost (idle.mark r) inText
      rw [silent, List.append_nil] at same
      exact unbroken (same ▸ broken)
  · intro kept
    have keeps (inText : (after p).state.isText = true) : KeepsBreak (after p) :=
      (keepsBreak_or_afterKeptComment p).resolve_right fun lost => kept ⟨inText, lost⟩
    rcases terminator_cases p term with ⟨completes, -⟩ | ⟨r, m', out, reads, same⟩
    · have done := not_keepsBreak_of_afterReturn p completes
      rcases place with inText | inComment
      · exact absurd (keeps inText) (done.2 mayEnd inText)
      · exact absurd inComment done.1
    · rw [same, reads.newline_kept place mayEnd keeps]
      simp

/-- The line break after a statement and a dropped comment is kept. -/
theorem keeps_break_after_dropped_comment :
    let p := ['a', ' ', '/', '*', '*', '/'].map ascii
    let t := [carriageReturn, newline]
    ((after p).state.isText = true ∨ (after p).state = .lineComment) ∧
      lastVisible (written p) = some (ascii 'a') ∧
      (ascii 'a' ≠ newline ∧ swallowsSpace (ascii 'a') = false) ∧ t ∈ lineTerminators ∧
      ((written (p ++ t)).getLast? = some newline ↔ ¬ LosesBreak p) := by
  intro p t
  have place : (after p).state.isText = true ∨ (after p).state = .lineComment := .inl (by decide)
  have last : lastVisible (written p) = some (ascii 'a') := by decide
  have ends : ascii 'a' ≠ newline ∧ swallowsSpace (ascii 'a') = false := by decide
  have term : t ∈ lineTerminators := by decide
  exact ⟨place, last, ends, term, getLast?_written_terminator_iff place last ends term⟩

/-- A kept comment after a space loses the line break that follows it. -/
theorem loses_break_after_kept_comment :
    let p := ['a', ' ', '/', '*', '@', '@', '*', '/'].map ascii
    ((after p).state.isText = true ∧ lastVisible (written p) = some (ascii '/') ∧
      ascii '/' ≠ newline ∧ swallowsSpace (ascii '/') = false) ∧
      (written (p ++ [newline])).getLast? ≠ some newline := by
  decide

end PageBundle.Script
