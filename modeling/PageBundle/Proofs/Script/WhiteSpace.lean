import PageBundle.Proofs.Script.Edge
import PageBundle.Proofs.Script.RegexLine
import PageBundle.Proofs.Script.Separation

/-!
# White space in the output

The machine writes white space of its own in two ways: a space that was held back before the next
byte, and a line feed outside literals (`Textual`). Such white space is in normal form where it
stands between what may end a statement and, for a space, a byte that shows (`WellSpaced`).

What each step may write is read off `Reads`: a space that was held back is followed by a byte that
shows (`Reads.blank`), and a line feed follows a slash or what may end a statement, if text is solid
only there (`Reads.breaks`). A line with a regular expression leaves the mode to return to as it
was, so a comment that is dropped after it may lead to solid text at the start of a line (`Astray`),
and nothing else does (`Astray.endsInDroppedComment`). A script comes out in normal form unless white
space is written there (`wellSpaced_iff`).
-/

namespace PageBundle.Script

/-- The states in which a line feed that is written is no part of a literal. -/
def State.breaksLines : State → Bool
  | .text .solid | .text .spaced | .slash | .regexSlash | .lineComment => true
  | _ => false

/-- In the minified `x`, the byte `c` after `out` is white space of the text: a space that was held
back, or a line feed that was written outside literals. -/
inductive Textual (x : Bytes) : Bytes → UInt8 → Prop
  /-- A space that is owed or comes due after a dropped comment is written before the next byte. -/
  | blank {p s rest : Bytes} {b : UInt8} (parts : x = p ++ b :: s)
      (due : ((after p).settle b).spaceOwed = true)
      (writes : ((after p).step b).2 = space :: rest) : Textual x (written p) space
  /-- A space is written before the slash at the end. -/
  | lastBlank {rest : Bytes} (due : (after x).spaceOwed = true)
      (writes : (after x).finish = space :: rest) : Textual x (written x) space
  | lineBreak {p s lead rest : Bytes} {b : UInt8} (parts : x = p ++ b :: s)
      (breaks : (after p).state.breaksLines = true)
      (writes : ((after p).step b).2 = lead ++ newline :: rest) :
      Textual x (written p ++ lead) newline

/-- White space of the text is neither first nor follows white space or a byte after which it never
matters, and a space of the text is neither last nor followed by white space. -/
def WellSpaced (x : Bytes) : Prop :=
  ∀ u c v, minify x = u ++ c :: v → Textual x u c →
    (∃ d, u.getLast? = some d ∧ d ≠ space ∧ d ≠ newline ∧ swallowsSpace d = false) ∧
      (c = space → ∃ d, v.head? = some d ∧ d ≠ space ∧ d ≠ newline)

/-- After `p` text counts as solid although a line feed was written last. -/
def Astray (p : Bytes) : Prop :=
  (after p).state = .text .solid ∧ (written p).getLast? = some newline

/-- White space is read where text counts as solid at the start of a line, and makes a difference:
a line break always does, a blank if anything is written after it. -/
def BreaksForm (x : Bytes) : Prop :=
  ∃ p b s, x = p ++ b :: s ∧ Astray p ∧
    ((b = newline ∨ b = carriageReturn) ∨ (b = space ∨ b = tab) ∧ minify x ≠ written p)

namespace Machine

theorem lead_of_owed {m : Machine} {c : UInt8} (owed : m.spaceOwed = true) (noBreak : c ≠ newline) :
    m.lead c = [space] := by
  simp [lead, owed, noBreak]

theorem lead_eq_of_cons {m : Machine} {c : UInt8} {out rest : Bytes} (noSpace : c ≠ space)
    (writes : m.lead c ++ c :: out = space :: rest) :
    c ≠ newline ∧ rest = c :: out := by
  rcases lead_cases m c with free | ⟨blank, -⟩
  · rw [free] at writes
    exact absurd (List.cons.inj writes).1 noSpace
  · rw [blank] at writes
    refine ⟨?_, (List.cons.inj writes).2.symm⟩
    rintro rfl
    simp at blank

/-- **In plain text the first byte that is written follows what was held back**, unless it is a line
feed after what may end a statement. -/
theorem Reads.begins {m m' : Machine} {c : UInt8} {out : Bytes} (h : Reads m c m' out)
    (plain : m.state.isVerbatim = false) (shows : out ≠ []) :
    (m.mayEndStatement = true ∧ out = [newline]) ∨ ∃ (k : Machine) (e : UInt8) (rest : Bytes),
      out = k.lead e ++ e :: rest ∧ e ≠ space ∧ (m.spaceOwed = true → k.spaceOwed = true) ∧
        (e = newline → m.state = .text .solid) := by
  cases h with
  | text mode here solid reads =>
    have solid (isBreak : c = newline) : m.state = .text .solid := by
      rw [here, solid (.inr isBreak)]
    cases reads with
    | owe | hold => exact absurd rfl shows
    | quote noSpace | plain noSpace =>
      exact .inr ⟨_, c, _, rfl, noSpace, fun owed => by simp [settle, owed], solid⟩
  | breakLine _ _ _ ends | lineBreak _ _ ends => exact .inl ⟨ends, rfl⟩
  | divide | openRegex | keep =>
    exact .inr ⟨m, ascii '/', _, rfl, by decide, id, fun isBreak => absurd isBreak (by decide)⟩
  | regexLine here | keptEnd here | quotedEnd here | quotedMore _ _ here =>
    rw [here] at plain
    cases plain
  | keptMore here =>
    rcases here with here | here <;>
    · rw [here] at plain
      cases plain
  | _ => exact absurd rfl shows

/-- **A byte that shows follows a space that was held back.** -/
theorem Reads.blank {m m' : Machine} {c : UInt8} {rest : Bytes} (h : Reads m c m' (space :: rest))
    (plain : m.state.isVerbatim = false) :
    ∃ d, rest.head? = some d ∧ d ≠ space ∧ d ≠ newline := by
  rcases h.begins plain (by simp) with ⟨-, writes⟩ | ⟨k, e, out, writes, noSpace, -, -⟩
  · cases writes
  · obtain ⟨noBreak, rfl⟩ := lead_eq_of_cons noSpace writes.symm
    exact ⟨e, rfl, noSpace, noBreak⟩

theorem newline_notMem_lead (m : Machine) (c : UInt8) : newline ∉ m.lead c := by
  rcases lead_cases m c with free | ⟨blank, -⟩
  · simp [free]
  · simp [blank, newline, space]

/-- A line feed that is written as plain text was read. -/
theorem ReadsText.eq_newline {m m' : Machine} {c : UInt8} {out : Bytes} (h : ReadsText m c m' out)
    (mem : newline ∈ out) : c = newline ∧ out = [newline] := by
  have isBreak : c = newline := by
    cases h with
    | owe | hold => cases mem
    | quote | plain =>
      rcases List.mem_append.1 mem with mem | mem
      · exact absurd mem (newline_notMem_lead _ c)
      · exact (List.mem_singleton.1 mem).symm
  subst isBreak
  exact ⟨rfl, h.of_newline.2.2⟩

/-- **A line feed outside literals follows what may end a statement or a slash**, or is written in
solid text. -/
theorem Reads.breaks {m m' : Machine} {c : UInt8} {lead rest : Bytes}
    (h : Reads m c m' (lead ++ newline :: rest)) (breaks : m.state.breaksLines = true) :
    c = newline ∧ (lead = [] ∧ (m.mayEndStatement = true ∨ m.state = .text .solid) ∨
      ∃ w, lead = w ++ [ascii '/']) := by
  generalize total : lead ++ newline :: rest = out at h
  have mem : newline ∈ out := by simp [← total]
  have before {w : Bytes} (free : newline ∉ w) (total : lead ++ newline :: rest = w ++ [newline]) :
      lead = w :=
    ((List.append_cons_inj_of_notMem free List.not_mem_nil).1 total.symm).1.symm
  have slash : newline ∉ m.lead (ascii '/') ++ [ascii '/'] := by
    simp [newline_notMem_lead, show newline ≠ ascii '/' by decide]
  cases h with
  | text mode here solid reads =>
    obtain ⟨rfl, rfl⟩ := reads.eq_newline mem
    obtain rfl := solid (.inr rfl)
    exact ⟨rfl, .inl ⟨before (w := []) List.not_mem_nil total, .inr here⟩⟩
  | breakLine _ isBreak _ ends | lineBreak _ isBreak ends =>
    exact ⟨isBreak, .inl ⟨before (w := []) List.not_mem_nil total, .inl ends⟩⟩
  | divide _ _ _ reads =>
    rw [List.append_cons (m.lead _)] at mem total
    obtain ⟨rfl, rfl⟩ := reads.eq_newline ((List.mem_append.1 mem).resolve_left slash)
    exact ⟨rfl, .inr ⟨_, before slash total⟩⟩
  | openRegex =>
    rw [List.append_cons (m.lead _)] at mem total
    obtain rfl := List.mem_singleton.1 ((List.mem_append.1 mem).resolve_left slash)
    exact ⟨rfl, .inr ⟨_, before slash total⟩⟩
  | regexLine here | keptEnd here | quotedEnd here => simp [here, State.breaksLines] at breaks
  | quotedMore _ _ here | keep here => simp [here, State.breaksLines] at breaks
  | keptMore here => rcases here with here | here <;> simp [here, State.breaksLines] at breaks
  | _ => cases mem

/-- A space is owed after what may end a statement, unless nothing was written since it was owed or
since a blank was read in solid text. -/
theorem Reads.owes {m m' : Machine} {c : UInt8} {out : Bytes} (h : Reads m c m' out)
    (owed : m'.spaceOwed = true) : m'.mayEndStatement = true ∨ out = [] ∧
      m'.lastWritten = m.lastWritten ∧
        (m.spaceOwed = true ∨ c = space ∧ m.state = .text .solid) := by
  cases h with
  | skip | openLine | openBlock | lineSkip | lineEnd | blockSkip | blockEnd =>
    exact .inr ⟨rfl, rfl, .inl owed⟩
  | text _ here solid reads =>
    cases reads with
    | owe isSpace => exact .inr ⟨rfl, rfl, .inr ⟨isSpace, by rw [here, solid (.inl isSpace)]⟩⟩
    | hold => exact .inr ⟨rfl, rfl, .inl owed⟩
    | quote | plain => cases owed
  | divide _ _ noSlash reads =>
    cases reads with
    | owe => exact .inl (mayEndStatement_wrote m (ascii '/') (by decide))
    | hold isSlash => exact absurd isSlash noSlash
    | quote | plain => cases owed
  | _ => cases owed

/-- What leads to solid text ends a dropped comment or is written last. -/
theorem Reads.solid {m m' : Machine} {c : UInt8} {out : Bytes} (h : Reads m c m' out)
    (settled : Settled m) (here : m'.state = .text .solid) :
    (m.state = .blockCommentStar ∧ c = ascii '/') ∨
      ∃ lead d, out = lead ++ [d] ∧ d ≠ newline := by
  have text {k k' : Machine} {out : Bytes} (reads : ReadsText k c k' out)
      (here : k'.state = .text .solid) : ∃ lead d, out = lead ++ [d] ∧ d ≠ newline := by
    cases reads with
    | owe | quote => cases here
    | hold => cases isRegex : precedesRegex k.lastRead <;> simp [enter, isRegex] at here
    | plain =>
      have ends := ends_of_solid (c := c) (by simpa [enterText] using here)
      simp only [Bool.and_eq_true, bne_iff_ne] at ends
      exact ⟨_, c, rfl, ends.1⟩
  cases h with
  | skip mode isText soft => exact absurd (State.text.inj (isText.symm.trans here)) soft
  | text _ _ _ reads => exact .inr (text reads here)
  | divide _ _ _ reads =>
    obtain ⟨lead, d, rfl, noBreak⟩ := text reads here
    exact .inr ⟨m.lead (ascii '/') ++ ascii '/' :: lead, d, by simp, noBreak⟩
  | blockEnd star isSlash => exact .inl ⟨star, isSlash⟩
  | keptEnd _ isSlash => exact .inr ⟨_, c, rfl, isSlash ▸ by decide⟩
  | quotedEnd inQuotes =>
    have ends := ends_of_isQuote (settled.quotes c false inQuotes)
    simp only [Bool.and_eq_true, bne_iff_ne] at ends
    exact .inr ⟨_, c, rfl, ends.1⟩
  | _ => grind [enter, enterText]

/-- **While a space is owed that no line feed may replace**, it is written first. -/
theorem Reads.stray {m m' : Machine} {c d : UInt8} {rest : Bytes} (h : Reads m c m' (d :: rest))
    (owed : m.spaceOwed = true) (edged : Edged m) (settled : Settled m)
    (unended : m.mayEndStatement = false) : d = space := by
  obtain ⟨spaced, plain⟩ := edged.owed owed
  rcases h.begins plain (by simp) with ⟨ends, -⟩ | ⟨k, e, out, writes, -, owes, solid⟩
  · simp [unended] at ends
  · have noBreak : e ≠ newline := by
      intro isBreak
      have mode := settled.resumes _ (solid isBreak) (by simp)
      simp [spaced] at mode
    rw [lead_of_owed (owes owed) noBreak] at writes
    exact (List.cons.inj writes).1

/-- At the end at most a slash is written, after the space that is owed. -/
theorem finish_cases (m : Machine) :
    m.finish = [] ∨ m.finish = m.lead (ascii '/') ++ [ascii '/'] := by
  unfold finish
  cases m.state with
  | slash | regexSlash => exact .inr (by rw [write_eq])
  | _ => exact .inl rfl

/-- What is owed stays owed until something is written. -/
theorem owed_of_silent {m : Machine} {b : UInt8} (owed : m.spaceOwed = true)
    (silent : (m.step b).2 = []) : (m.step b).1.spaceOwed = true := by
  have stepped := steps_step m b
  generalize (m.step b).1 = m', (m.step b).2 = out at stepped silent ⊢
  cases stepped with
  | nothing => exact owed
  | reads _ reads => exact (reads.owed owed).2 silent

/-- A byte that writes something was read. -/
theorem exists_reads {m : Machine} {b : UInt8} {out : Bytes} (writes : (m.step b).2 = out)
    (shows : out ≠ []) : ∃ c m', m.meaning b = some c ∧
      Reads { m with afterReturn := b == carriageReturn } c m' out := by
  subst writes
  cases means : m.meaning b with
  | none => simp [step_of_meaningless means] at shows
  | some c =>
    rw [step_of_meaning means]
    exact ⟨c, _, rfl, reads_read _ c⟩

theorem eq_of_meaning_newline {m : Machine} {b : UInt8} (means : m.meaning b = some newline) :
    b = newline ∨ b = carriageReturn := by
  rcases meaning_eq_some means with ⟨-, ⟨isBreak, -⟩ | isReturn⟩ | ⟨-, blank⟩ | ⟨printable, rfl⟩
  · exact .inl isBreak
  · exact .inr isReturn
  · split at blank <;> exact absurd blank (by decide)
  · exact absurd (by decide) printable

theorem isPlain_of_breaksLines {state : State} (breaks : state.breaksLines = true) :
    state.isVerbatim = false := by
  cases state with
  | text | slash | regexSlash | lineComment => rfl
  | _ => cases breaks

/-- A space comes due where it is owed, or in solid text before a byte that would make one token
with the last one written. -/
theorem due_cases {m : Machine} {b : UInt8} (settled : Settled m)
    (due : (m.settle b).spaceOwed = true) :
    m.spaceOwed = true ∨ m.state = .text .solid ∧ ∃ a, m.lastWritten = some a ∧
      fuses a b = true := by
  simp only [settle, Bool.or_eq_true, Bool.and_eq_true] at due
  refine due.imp_right fun joins => ⟨settled.gap joins.1, ?_⟩
  obtain ⟨a, isLast, fused⟩ := (Option.any_eq_true _ _).1 joins.2
  exact ⟨a, isLast, fused⟩

end Machine

open Machine

/-- A blank was read where text counts as solid at the start of a line, and nothing was written
since. -/
def Strayed (p : Bytes) : Prop :=
  ∃ q b s, p = q ++ b :: s ∧ Astray q ∧ (b = space ∨ b = tab) ∧ written p = written q

theorem Strayed.snoc {p : Bytes} {b : UInt8} (h : Strayed p) (silent : ((after p).step b).2 = []) :
    Strayed (p ++ [b]) := by
  obtain ⟨q, c, s, rfl, astray, blank, same⟩ := h
  refine ⟨q, c, s ++ [b], by simp, astray, blank, ?_⟩
  rw [written_snoc, silent, List.append_nil, same]

/-- What may end a statement is a byte that shows and does not swallow white space. -/
theorem getLast?_of_mayEnd {p : Bytes} (plain : (after p).state.isVerbatim = false)
    (ends : (after p).mayEndStatement = true) :
    ∃ d, (written p).getLast? = some d ∧ d ≠ space ∧ d ≠ newline ∧ swallowsSpace d = false := by
  rw [getLast?_written p plain, ← lastWritten_after]
  cases last : (after p).lastWritten with
  | none => simp [mayEndStatement, last] at ends
  | some d =>
    rw [mayEndStatement_eq last] at ends
    simp only [Bool.and_eq_true, bne_iff_ne, Bool.not_eq_true'] at ends
    refine ⟨d, rfl, ?_, ends.1, ends.2⟩
    rintro rfl
    exact absurd ends.2 (by decide)

/-- Text is solid after what may end a statement, or astray. -/
theorem mayEnd_or_astray {p : Bytes} (here : (after p).state = .text .solid) :
    (after p).mayEndStatement = true ∨ Astray p := by
  have mode := (settled_after p).resumes .solid here (by simp)
  refine ((edged_after p).solid mode (by rw [here]; rfl)).imp_right fun isBreak => ⟨here, ?_⟩
  rw [← lastWritten_of_solid here, isBreak]

/-- **A space is owed after what may end a statement**, or astray. -/
theorem mayEnd_or_strayed (p : Bytes) (owed : (after p).spaceOwed = true) :
    (after p).mayEndStatement = true ∨ Strayed p := by
  revert owed
  refine run_induction (P := fun p m _ => m.spaceOwed = true → m.mayEndStatement = true ∨ Strayed p)
    nofun ?_ p
  intro p b m' out ih stepped reached wrote owed
  have silent := (step_of_snoc reached wrote).2
  cases stepped with
  | nothing => exact (ih owed).imp_right fun strayed => strayed.snoc silent
  | @reads c m' out means reads =>
    rcases reads.owes owed with ends | ⟨rfl, same, before⟩
    · exact .inl ends
    have ends : m'.mayEndStatement = (after p).mayEndStatement := by simp [mayEndStatement, same]
    rcases before with before | ⟨rfl, here⟩
    · exact (ih before).imp ends.trans fun strayed => strayed.snoc silent
    · have blank : b = space ∨ b = tab := by
        rcases shown_of_meaning means with ⟨noSpace, -⟩ | ⟨-, blank⟩
        · exact absurd rfl noSpace
        · exact blank
      rcases mayEnd_or_astray (p := p) here with may | astray
      · exact .inl (ends.trans may)
      · refine .inr ⟨p, b, [], rfl, astray, blank, ?_⟩
        rw [wrote, List.append_nil]

/-- **Only a dropped comment leads astray.** -/
theorem Astray.endsInDroppedComment {p : Bytes} (h : Astray p) : EndsInDroppedComment p := by
  obtain ⟨here, broken⟩ := h
  revert here broken
  refine run_induction (P := fun p m out => m.state = .text .solid → out.getLast? = some newline →
    EndsInDroppedComment p) (fun here => by cases here) ?_ p
  intro p b m' out ih stepped _ _ here broken
  cases stepped with
  | nothing meaningless =>
    rw [List.append_nil] at broken
    rcases meaning_eq_none meaningless with ⟨-, returned⟩ | ⟨control, noBreak, noReturn, -⟩
    · simp [unreturned_of_solid here] at returned
    · exact (ih here broken).snoc (isFaint_of_control control noBreak noReturn)
  | reads means reads =>
    rcases reads.solid ((settled_after p).mark _) here with ⟨star, rfl⟩ | ⟨lead, d, rfl, noBreak⟩
    · obtain rfl := byte_of_meaning means (by decide) (by decide) (by decide)
      exact ⟨p, [], rfl, star, nofun⟩
    · rw [← List.append_assoc, List.getLast?_concat] at broken
      exact absurd (Option.some.inj broken) noBreak

/-- What is due is due in plain text. -/
theorem isPlain_of_due {p : Bytes} {b : UInt8} (due : ((after p).settle b).spaceOwed = true) :
    (after p).state.isVerbatim = false := by
  rcases due_cases (settled_after p) due with owed | ⟨here, -⟩
  · exact ((edged_after p).owed owed).2
  · rw [here]
    rfl

/-- **White space of the text follows what shows and does not swallow it**, or breaks the form. -/
theorem Textual.follows {x u v : Bytes} {c : UInt8} (h : Textual x u c)
    (output : minify x = u ++ c :: v) : BreaksForm x ∨
      ∃ d, u.getLast? = some d ∧ d ≠ space ∧ d ≠ newline ∧ swallowsSpace d = false := by
  have strays {p s : Bytes} (parts : x = p ++ s) (more : minify x ≠ written p) (h : Strayed p) :
      BreaksForm x := by
    obtain ⟨q, b, r, rfl, astray, blank, same⟩ := h
    exact ⟨q, b, r ++ s, by simp [parts], astray, .inr ⟨blank, same ▸ more⟩⟩
  cases h with
  | @blank p s rest b parts due =>
    rcases due_cases (settled_after p) due with owed | ⟨-, a, isLast, fused⟩
    · refine (mayEnd_or_strayed p owed).symm.imp (strays parts ?_) fun ends =>
        getLast?_of_mayEnd (isPlain_of_due due) ends
      simp [output]
    · have joining := (isJoining_of_fuses fused).1
      refine .inr (getLast?_of_mayEnd (isPlain_of_due due) ?_)
      rw [mayEndStatement_eq isLast, swallowsSpace_of_isJoining joining]
      simp [ne_of_isJoining (d := newline) joining (by decide)]
  | lastBlank due =>
    refine (mayEnd_or_strayed x due).symm.imp (strays (List.append_nil x).symm ?_) fun ends =>
      getLast?_of_mayEnd ((edged_after x).owed due).2 ends
    simp [output]
  | @lineBreak p s lead rest b parts breaks writes =>
    obtain ⟨c, m', means, reads⟩ := exists_reads writes (by simp)
    obtain ⟨rfl, ⟨rfl, before⟩ | ⟨w, rfl⟩⟩ := reads.breaks breaks
    · rw [List.append_nil]
      have ends : (after p).mayEndStatement = true ∨ Astray p :=
        before.elim .inl mayEnd_or_astray
      refine ends.symm.imp (fun astray => ?_) fun ends =>
        getLast?_of_mayEnd (isPlain_of_breaksLines breaks) ends
      exact ⟨p, b, s, parts, astray, .inl (eq_of_meaning_newline means)⟩
    · exact .inr ⟨ascii '/', by simp, by decide⟩

/-- **A byte that shows follows a space of the text.** -/
theorem Textual.precedes {x u v : Bytes} (h : Textual x u space)
    (output : minify x = u ++ space :: v) : ∃ d, v.head? = some d ∧ d ≠ space ∧ d ≠ newline := by
  generalize isSpace : space = c at h
  cases h with
  | @blank p s rest b parts due writes =>
    obtain ⟨c, m', -, reads⟩ := exists_reads writes (by simp)
    obtain ⟨d, first, shows⟩ := reads.blank (isPlain_of_due due)
    rw [parts, minify_append, rest_cons, writes, List.append_cancel_left_eq,
      List.cons_append, List.cons.injEq] at output
    exact ⟨d, by rw [← output.2, List.head?_append, first]; rfl, shows⟩
  | @lastBlank rest due writes =>
    rw [minify_eq, writes, List.append_cancel_left_eq, List.cons.injEq] at output
    have held := (finish_cases (after x)).resolve_left (by simp [writes])
    obtain ⟨-, rfl⟩ := lead_eq_of_cons (by decide) (held.symm.trans writes)
    exact ⟨ascii '/', by rw [← output.2]; rfl, by decide⟩
  | lineBreak => exact absurd isSpace (by decide)

/-- **While a space is owed after a line feed, all that follows begins with it.** -/
theorem exists_blank {q : Bytes} (owed : (after q).spaceOwed = true)
    (broken : (written q).getLast? = some newline) {s : Bytes} (more : (after q).rest s ≠ []) :
    Textual (q ++ s) (written q) space ∧ ∃ v, minify (q ++ s) = written q ++ space :: v := by
  induction s generalizing q with
  | nil =>
    have held := (finish_cases (after q)).resolve_left more
    rw [lead_of_owed owed (by decide)] at held
    rw [List.append_nil, minify_eq, held]
    exact ⟨.lastBlank owed held, _, rfl⟩
  | cons b s ih =>
    cases wrote : ((after q).step b).2 with
    | nil =>
      have same : written (q ++ [b]) = written q := by rw [written_snoc, wrote, List.append_nil]
      rw [rest_cons, wrote, ← after_snoc] at more
      rw [List.append_cons, ← same]
      refine ih ?_ (same ▸ broken) more
      rw [after_snoc]
      exact owed_of_silent owed wrote
    | cons d rest =>
      have unended : (after q).mayEndStatement = false := by
        by_contra ends
        obtain ⟨e, last, -, noBreak, -⟩ :=
          getLast?_of_mayEnd ((edged_after q).owed owed).2 (by simpa using ends)
        exact noBreak (Option.some.inj (last.symm.trans broken))
      obtain ⟨c, m', -, reads⟩ := exists_reads wrote (by simp)
      obtain rfl := reads.stray owed ((edged_after q).mark _) ((settled_after q).mark _) unended
      refine ⟨.blank rfl (by simp [settle, owed]) wrote, ?_⟩
      rw [minify_append, rest_cons, wrote]
      exact ⟨_, rfl⟩

/-- A line terminator in solid text is written as a line feed. -/
theorem writes_newline_of_solid {p : Bytes} {b : UInt8} (here : (after p).state = .text .solid)
    (isBreak : b = newline ∨ b = carriageReturn) : ((after p).step b).2 = [newline] := by
  have means : (after p).meaning b = some newline := by
    rcases isBreak with rfl | rfl
    · rw [meaning_newline, unreturned_of_solid here]
      rfl
    · rfl
  rw [step_of_meaning means]
  simp [Machine.read, here, readText_token _ (show newline ≠ space by decide)
    (show newline ≠ ascii '/' by decide)]

/-- A blank in solid text is owed. -/
theorem owes_of_solid {p : Bytes} {b : UInt8} (here : (after p).state = .text .solid)
    (blank : b = space ∨ b = tab) :
    ((after p).step b).2 = [] ∧ ((after p).step b).1.spaceOwed = true := by
  have means : (after p).meaning b = some space := by
    rcases blank with rfl | rfl
    · exact meaning_printable _ (by decide)
    · rw [meaning_tab, here]
      rfl
  rw [step_of_meaning means]
  simp [Machine.read, here, readText_space, enterText]

/-- In normal form no white space of the text follows a line feed. -/
theorem WellSpaced.getLast?_ne {x u v : Bytes} {c : UInt8} (spaced : WellSpaced x)
    (output : minify x = u ++ c :: v) (textual : Textual x u c) : u.getLast? ≠ some newline := by
  intro broken
  obtain ⟨⟨d, last, -, noBreak, -⟩, -⟩ := spaced u c v output textual
  exact noBreak (Option.some.inj (last.symm.trans broken))

/-- **White space astray is written after a line feed.** -/
theorem BreaksForm.not_wellSpaced {x : Bytes} (h : BreaksForm x) : ¬ WellSpaced x := by
  intro spaced
  obtain ⟨p, b, s, rfl, ⟨here, broken⟩, isBreak | ⟨blank, more⟩⟩ := h
  · have writes := writes_newline_of_solid here isBreak
    have textual : Textual (p ++ b :: s) (written p ++ []) newline :=
      .lineBreak rfl (by rw [here]; rfl) writes
    rw [List.append_nil] at textual
    have output : minify (p ++ b :: s) =
        written p ++ newline :: ((after p).step b).1.rest s := by
      rw [minify_append, rest_cons, writes]
      rfl
    exact spaced.getLast?_ne output textual broken
  · obtain ⟨silent, owed⟩ := owes_of_solid here blank
    have same : written (p ++ [b]) = written p := by rw [written_snoc, silent, List.append_nil]
    rw [minify_append, rest_cons, silent, ← after_snoc] at more
    rw [List.append_cons] at spaced
    obtain ⟨textual, v, output⟩ := exists_blank (by rw [after_snoc]; exact owed) (same ▸ broken)
      (by simpa using more)
    exact spaced.getLast?_ne output textual (same ▸ broken)

/-- **White space in a minified script is in normal form** if and only if none is read astray, which
happens only after a comment that was dropped. -/
theorem wellSpaced_iff (x : Bytes) :
    (WellSpaced x ↔ ¬ BreaksForm x) ∧ ∀ p, Astray p → EndsInDroppedComment p := by
  refine ⟨⟨fun spaced breaks => breaks.not_wellSpaced spaced, fun free u c v output textual => ?_⟩,
    fun p => Astray.endsInDroppedComment⟩
  refine ⟨(textual.follows output).resolve_left free, ?_⟩
  rintro rfl
  exact textual.precedes output

/-- A comment after a line with a regular expression lets a space through at the start of a line. -/
theorem not_wellSpaced_after_regex :
    let x := ['}', '/', 'x', '/', '\n', '/', '*', '*', '/', ' ', 'a'].map ascii
    minify x = ['}', '/', 'x', '/', '\n', ' ', 'a'].map ascii ∧ ¬ WellSpaced x := by
  intro x
  refine ⟨by decide, fun spaced => ?_⟩
  let p := ['}', '/', 'x', '/', '\n', '/', '*', '*', '/', ' '].map ascii
  have parts : x = p ++ ascii 'a' :: [] := rfl
  have writes : ((after p).step (ascii 'a')).2 = space :: [ascii 'a'] := by decide
  have textual : Textual x (written p) space := .blank parts (by decide) writes
  have output : minify x = written p ++ space :: [ascii 'a'] := by decide
  have broken : (written p).getLast? = some newline := by decide
  exact spaced.getLast?_ne output textual broken

end PageBundle.Script
