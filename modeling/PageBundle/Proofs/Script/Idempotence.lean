import PageBundle.Proofs.Script.Alike
import PageBundle.Proofs.Script.LineBreak
import PageBundle.Proofs.Script.Literal
import PageBundle.Proofs.Script.RegexLine
import Mathlib.Data.List.Infix

/-!
# Minifying a minified script

A script without comments is minified once and for all. What the machine has written, together with
what it holds back, is its `echo` of the script. Read in turn, the echo leads to a machine that is
`Alike`: it differs in what it remembers of its input, but not in what may follow, so each byte that
is kept does the same to both. A space that is owed may still give way to a line feed; then the echo
is taken back to where the space began, and `feed_space_newline` says that this makes no difference.
-/

namespace PageBundle.Script

/-- No comment is entered while `p` is read. -/
def CommentFree (p : Bytes) : Prop :=
  ∀ q, q <+: p → (after q).state.isComment = false

instance (p : Bytes) : Decidable (CommentFree p) :=
  decidable_of_iff (∀ q ∈ p.inits, (after q).state.isComment = false)
    (forall_congr' fun q => by rw [List.mem_inits])

/-- The states in which a space that is read will be owed. -/
def State.owesNext : State → Bool
  | .text .solid | .slash => true
  | _ => false

theorem CommentFree.of_prefix {p q : Bytes} (h : CommentFree p) (part : q <+: p) : CommentFree q :=
  fun r le => h r (le.trans part)

theorem CommentFree.here {p : Bytes} (h : CommentFree p) : (after p).state.isComment = false :=
  h p (List.prefix_refl p)

theorem CommentFree.snoc {p : Bytes} {b : UInt8} (h : CommentFree p)
    (here : (after (p ++ [b])).state.isComment = false) : CommentFree (p ++ [b]) := by
  intro q part
  rcases List.prefix_concat_iff.1 part with rfl | part
  · exact here
  · exact h q part

/-- A script without comments has neither dropped nor kept ones. -/
theorem CommentFree.none_before {p : Bytes} (h : CommentFree p) :
    ¬ EndsInDroppedComment p ∧ ¬ AfterKeptComment p := by
  have outside (q s : Bytes) (b : UInt8) (whole : p = q ++ b :: s) :
      (after q).state.isComment = false :=
    h q (whole ▸ List.prefix_append q _)
  constructor
  · rintro ⟨q, s, whole, star, -⟩
    exact absurd (outside q s _ whole) (by simp [star, State.isComment])
  · rintro ⟨q, s, whole, star, -⟩
    exact absurd (outside q s _ whole) (by simp [star, State.isComment])

theorem precedesRegex_of_swallowsSpace {c : UInt8} (swallows : swallowsSpace c = true)
    (noSpace : c ≠ space) : precedesRegex c = true := by
  have context : (c == space || precedesRegex c) = true :=
    of_isOneOf (p := fun c => c == space || precedesRegex c) (by decide) swallows
  simpa [noSpace] using context

namespace Machine

/-- What holds between two bytes as long as no comment is read. -/
structure Tidy (m : Machine) : Prop where
  gap : m.commentGap = false
  /-- A space is owed after the end of a statement, or before a slash that is held back. -/
  owes : m.spaceOwed = true → m.state = .text .spaced ∧ m.mayEndStatement = true ∨
    m.state = .slash ∨ m.state = .regexSlash
  solid : m.state = .text .solid → m.mayEndStatement = true

theorem Tidy.mark {m : Machine} (tidy : Tidy m) (returned : Bool) :
    Tidy { m with afterReturn := returned } :=
  ⟨tidy.gap, tidy.owes, tidy.solid⟩

theorem Tidy.of_unowed {m : Machine} (gap : m.commentGap = false) (free : m.spaceOwed = false)
    (solid : m.state = .text .solid → m.mayEndStatement = true) : Tidy m :=
  ⟨gap, fun owed => by simp [free] at owed, solid⟩

theorem Tidy.unowed {m : Machine} (tidy : Tidy m) (away : m.state ≠ .text .spaced)
    (noSlash : m.state.heldSlash = []) : m.spaceOwed = false := by
  by_contra owed
  rcases tidy.owes (by simpa using owed) with ⟨here, -⟩ | here | here
  · exact away here
  · simp [here, State.heldSlash] at noSlash
  · simp [here, State.heldSlash] at noSlash

theorem ReadsText.tidy {m m' : Machine} {c : UInt8} {out : Bytes} (h : ReadsText m c m' out)
    (ends : c = space → m.mayEndStatement = true) : Tidy m' := by
  cases h with
  | owe isSpace => exact ⟨rfl, fun _ => .inl ⟨rfl, ends isSpace⟩, by simp [enterText]⟩
  | hold =>
    cases isRegex : precedesRegex m.lastRead
    · exact ⟨rfl, fun _ => .inr (.inl rfl), by simp [enter]⟩
    · exact ⟨rfl, fun _ => .inr (.inr rfl), by simp [enter]⟩
  | quote => exact .of_unowed rfl rfl (by simp [enter])
  | plain noSpace =>
    refine .of_unowed rfl rfl fun solid => ?_
    rw [mayEndStatement_enterText, mayEndStatement_wrote _ _ noSpace]
    exact ends_of_solid (by simpa [enterText] using solid)

theorem Reads.tidy {m m' : Machine} {c : UInt8} {out : Bytes} (h : Reads m c m' out)
    (tidy : Tidy m) (settled : Settled m) (before : m.state.isComment = false)
    (here : m'.state.isComment = false) : Tidy m' := by
  cases h with
  | skip => exact tidy
  | breakLine => exact .of_unowed tidy.gap rfl (by simp [enterText])
  | text mode inText solid reads =>
    exact reads.tidy fun isSpace => tidy.solid (solid (.inl isSpace) ▸ inText)
  | divide _ _ _ reads => exact reads.tidy fun _ => mayEndStatement_wrote m (ascii '/') (by decide)
  | openRegex | regexLine =>
    refine .of_unowed tidy.gap rfl fun solid => ?_
    by_cases isBreak : c = newline <;> simp [enter, isBreak] at solid
  | quotedMore => exact .of_unowed tidy.gap rfl (by simp [enter])
  | quotedEnd inQuotes =>
    refine .of_unowed tidy.gap rfl fun _ => ?_
    have opens := settled.quotes c false inQuotes
    rw [mayEndStatement_enterText, mayEndStatement_wrote _ _ (quote_facts opens).2.1.1]
    exact ends_of_isQuote opens
  | openLine | openBlock => exact absurd here (by simp [enter, State.isComment])
  | _ => grind [State.isComment]

/-- What a byte does to the machine and to its echo as long as no comment is read. -/
inductive Repeats (m : Machine) (c : UInt8) (m' : Machine) (out : Bytes) : Prop
  /-- The byte leaves no trace. -/
  | skips {mode : TextMode} (here : m.state = .text mode) (soft : mode ≠ .solid)
      (blank : c = space ∨ c = newline ∧ m.spaceOwed = false) (same : m' = m) (silent : out = [])
  /-- A line feed takes the place of the space that is owed. -/
  | replaces (here : m.state = .text .spaced) (owed : m.spaceOwed = true) (isBreak : c = newline)
      (started : m'.state = .text .fresh) (free : m'.held = []) (total : out = [newline])
  /-- The byte is written or held. -/
  | keeps (total : out ++ m'.held = m.held ++ [c])
      (owes : m'.state = .text .spaced → m'.spaceOwed = true →
        out = m.held ∧ m.state.owesNext = true)

theorem heldSpace_eq_lead {m : Machine} {c : UInt8} (gap : m.commentGap = false)
    (free : c = newline → m.spaceOwed = false) : m.heldSpace = m.lead c := by
  by_cases isBreak : c = newline
  · simp [heldSpace, lead, gap, free isBreak]
  · simp [heldSpace, lead, gap, isBreak]

theorem heldSpace_eq_settle_lead {m : Machine} {c : UInt8} (gap : m.commentGap = false)
    (free : c = newline → m.spaceOwed = false) : m.heldSpace = (m.settle c).lead c := by
  rw [heldSpace_eq_lead gap free]
  simp [lead, settle, gap]

theorem held_eq_nil {m : Machine} (owed : m.spaceOwed = false) (gap : m.commentGap = false)
    (slash : m.state.heldSlash = []) : m.held = [] := by
  simp [held, heldSpace, owed, gap, slash]

theorem Tidy.held_eq_nil {m : Machine} (tidy : Tidy m) (away : m.state ≠ .text .spaced)
    (slash : m.state.heldSlash = []) : m.held = [] :=
  Machine.held_eq_nil (tidy.unowed away slash) tidy.gap slash

theorem ReadsText.conserves {m m' : Machine} {c : UInt8} {out : Bytes} (h : ReadsText m c m' out)
    (gap : m.commentGap = false) (free : c = space ∨ c = newline → m.spaceOwed = false) :
    out ++ m'.held = m.heldSpace ++ [c] := by
  cases h with
  | owe isSpace =>
    subst isSpace
    have before : m.heldSpace = [] := by simp [heldSpace, gap, free (.inl rfl)]
    rw [before]
    rfl
  | hold isSlash =>
    subst isSlash
    have before : m.heldSpace = ({ m with commentGap := false } : Machine).heldSpace := by
      simp [heldSpace, gap]
    rw [before]
    cases precedesRegex m.lastRead <;> rfl
  | quote | plain =>
    rw [heldSpace_eq_settle_lead gap fun isBreak => free (.inr isBreak)]
    exact (congrArg _ (Machine.held_eq_nil rfl rfl rfl)).trans (List.append_nil _)

/-- A space is owed only where one was read. -/
theorem ReadsText.isSpace_of_owed {m m' : Machine} {c : UInt8} {out : Bytes}
    (h : ReadsText m c m' out) (spaced : m'.state = .text .spaced) (owed : m'.spaceOwed = true) :
    c = space ∧ out = [] := by
  cases h with
  | owe isSpace => exact ⟨isSpace, rfl⟩
  | hold => cases isRegex : precedesRegex m.lastRead <;> simp [enter, isRegex] at spaced
  | quote | plain => exact absurd owed (by simp [enter, enterText, wrote])

/-- A slash that is held back is echoed after the space that is owed. -/
theorem Tidy.held_eq_lead {m : Machine} (tidy : Tidy m) (slash : m.state.heldSlash = [ascii '/']) :
    m.held = m.lead (ascii '/') ++ [ascii '/'] := by
  rw [held, slash, heldSpace_eq_lead (c := ascii '/') tidy.gap fun isBreak =>
    absurd isBreak (by decide)]

/-- **As long as no comment is read, a byte is skipped, takes the place of a space, or is kept.** -/
theorem Reads.repeats {m m' : Machine} {c : UInt8} {out : Bytes} (h : Reads m c m' out)
    (tidy : Tidy m) (before : m.state.isComment = false) (here : m'.state.isComment = false) :
    Repeats m c m' out := by
  have unowed {n : Machine} (free : n.spaceOwed = false) (owed : n.spaceOwed = true) :
      out = m.held ∧ m.state.owesNext = true := by
    rw [free] at owed
    cases owed
  have copied {n : Machine} (verbatim : m.state.isVerbatim = true) (done : n.held = []) :
      m.lead c ++ [c] ++ n.held = m.held ++ [c] := by
    have away : m.state ≠ .text .spaced := by
      intro inText
      rw [inText] at verbatim
      cases verbatim
    have slash : m.state.heldSlash = [] := by
      rcases State.verbatim_cases verbatim with ⟨_, _, here⟩ | here | here | here <;>
        simp [here, State.heldSlash]
    simp [tidy.held_eq_nil away slash, done, lead, tidy.unowed away slash]
  cases h with
  | @skip mode inText soft blank free =>
    refine .skips inText soft (blank.imp id fun isBreak => ⟨isBreak, ?_⟩) rfl rfl
    by_contra owed
    rcases tidy.owes (by simpa using owed) with ⟨spaced, ends⟩ | inSlash | inSlash
    · have isSpaced : mode = .spaced := State.text.inj (inText.symm.trans spaced)
      have := free isSpaced isBreak
      simp_all
    · simp [inText] at inSlash
    · simp [inText] at inSlash
  | breakLine inText isBreak owed =>
    exact .replaces inText owed isBreak rfl (Machine.held_eq_nil rfl tidy.gap rfl) rfl
  | text mode inText solid reads =>
    have slash : m.state.heldSlash = [] := by simp [inText, State.heldSlash]
    have none (blank : c = space ∨ c = newline) : m.held = [] ∧ m.spaceOwed = false := by
      have away : m.state ≠ .text .spaced := by simp [inText, solid blank]
      exact ⟨tidy.held_eq_nil away slash, tidy.unowed away slash⟩
    have total := reads.conserves tidy.gap fun blank => (none blank).2
    refine .keeps (by rw [total, Machine.held, slash, List.append_nil]) fun spaced owed => ?_
    obtain ⟨isSpace, silent⟩ := reads.isSpace_of_owed spaced owed
    have isSolid := solid (.inl isSpace)
    exact ⟨silent.trans (none (.inl isSpace)).1.symm, by simp [inText, isSolid, State.owesNext]⟩
  | @divide inSlash noStar noSlash m' rest reads =>
    have held := tidy.held_eq_lead (by simp [inSlash, State.heldSlash])
    have total := reads.conserves tidy.gap fun _ => rfl
    have free : ((m.wrote (ascii '/')).enter (.text .solid)).heldSpace = [] := by
      simp [heldSpace, enter, wrote, tidy.gap]
    rw [free, List.nil_append] at total
    refine .keeps (by simp [held, total]) fun spaced owed => ?_
    rw [(reads.isSpace_of_owed spaced owed).2]
    exact ⟨held.symm, by simp [inSlash, State.owesNext]⟩
  | openRegex inSlash noStar noSlash =>
    have held := tidy.held_eq_lead (by simp [inSlash, State.heldSlash])
    have done := Machine.held_eq_nil (m := ((m.wrote (ascii '/')).wrote c).enter
      (if c = newline then .text .fresh else .regexLine)) rfl tidy.gap (by split <;> rfl)
    exact .keeps (by simp [held, done]) fun _ => unowed rfl
  | regexLine inLine =>
    have done := Machine.held_eq_nil (m := (m.wrote c).enter
      (if c = newline then .text .fresh else .regexLine)) rfl tidy.gap (by split <;> rfl)
    exact .keeps (copied (by rw [inLine]; rfl) done) fun _ => unowed rfl
  | quotedMore quote escaped inQuotes | quotedEnd inQuotes =>
    exact .keeps (copied (by rw [inQuotes]; rfl) (Machine.held_eq_nil rfl tidy.gap rfl))
      fun _ => unowed rfl
  | openLine | openBlock => exact absurd here (by simp [enter, State.isComment])
  | _ => grind [State.isComment]

/-- In plain text a line feed does what it does after a space, which it replaces. -/
theorem read_newline_readText_space {m : Machine} (ends : m.mayEndStatement = true) :
    (m.readText space).1.read newline = m.readText newline := by
  have noQuote : isQuote newline = false := by decide
  rw [readText_space, readText_token m (by decide) (by decide),
    settle_eq m (fuses_of_apart (c := newline) (by decide)), noQuote]
  simpa [read, enterText, write_eq, wrote, TextMode.of, mayEndStatement] using ends

/-- Where a space would be owed, a byte that opens no comment is read as plain text. -/
theorem read_of_owesNext {m : Machine} (owes : m.state.owesNext = true) (tidy : Tidy m) :
    ∃ (k : Machine) (before : Bytes), k.mayEndStatement = true ∧
      ∀ c, c ≠ ascii '*' → c ≠ ascii '/' →
        m.read c = ((k.readText c).1, before ++ (k.readText c).2) := by
  cases here : m.state with
  | text mode =>
    obtain rfl : mode = .solid := by cases mode <;> simp_all [State.owesNext]
    exact ⟨m, [], tidy.solid here, fun c _ _ => by simp [read, here]⟩
  | slash =>
    refine ⟨(m.wrote (ascii '/')).enter (.text .solid), m.lead (ascii '/') ++ [ascii '/'],
      mayEndStatement_wrote m (ascii '/') (by decide), fun c noStar noSlash => ?_⟩
    simp [read, here, afterSlash_other m _ noStar noSlash]
  | _ => simp [here, State.owesNext] at owes

/-- Where a space would be owed, it lets the slash that was held back be written. -/
theorem step_space_of_owesNext {m : Machine} (owes : m.state.owesNext = true)
    (unreturned : m.afterReturn = false) : (m.step space).2 = m.finish := by
  rw [step_space unreturned]
  cases here : m.state with
  | text mode =>
    obtain rfl : mode = .solid := by cases mode <;> simp_all [State.owesNext]
    simp [read, finish, here, readText_space]
  | slash =>
    have noComment : space ≠ ascii '*' ∧ space ≠ ascii '/' := by decide
    simp [read, finish, here, afterSlash_other m _ noComment.1 noComment.2, readText_space,
      write_eq]
  | _ => simp [here, State.owesNext] at owes

/-- What is held back at the end is written, but for a space that is owed. -/
theorem Tidy.finish_eq_held {m : Machine} (tidy : Tidy m) (noComment : m.state.isComment = false)
    (free : m.state = .text .spaced → m.spaceOwed = false) : m.finish = m.held := by
  cases here : m.state with
  | slash | regexSlash =>
    rw [tidy.held_eq_lead (by rw [here]; rfl)]
    simp [finish, here, write_eq]
  | lineComment | blockComment | blockCommentStar | keptComment | keptCommentStar =>
    simp [here, State.isComment] at noComment
  | text mode =>
    have slash : m.state.heldSlash = [] := by rw [here]; rfl
    have unowed : m.spaceOwed = false := by
      by_cases spaced : m.state = .text .spaced
      · exact free spaced
      · exact tidy.unowed spaced slash
    rw [Machine.held_eq_nil unowed tidy.gap slash]
    simp [finish, here]
  | regexLine | quoted =>
    rw [tidy.held_eq_nil (by simp [here]) (by rw [here]; rfl)]
    simp [finish, here]

/-- **A space before a line feed makes no difference** where it would be owed. -/
theorem feed_space_newline {m : Machine} (owes : m.state.owesNext = true)
    (unreturned : m.afterReturn = false) (tidy : Tidy m) :
    m.feed [space, newline] = m.feed [newline] := by
  obtain ⟨k, before, ends, reads⟩ := read_of_owesNext owes tidy
  have still : (m.read space).1.afterReturn = false :=
    (reads_read m space).afterReturn.trans unreturned
  simp only [feed_cons, feed_nil, step_space unreturned, step_newline unreturned,
    step_newline still]
  rw [reads space (by decide) (by decide), reads newline (by decide) (by decide),
    read_newline_readText_space ends, readText_space]
  simp

end Machine

open Machine

theorem tidy_after (p : Bytes) (free : CommentFree p) : Tidy (after p) := by
  revert free
  refine run_induction (P := fun p m _ => CommentFree p → Tidy m) ?_ ?_ p
  · exact fun _ => .of_unowed rfl rfl (by simp [start])
  · intro p b m' out ih stepped reached _ free
    have before := free.of_prefix (List.prefix_append p [b])
    have here := reached ▸ free.here
    cases stepped with
    | nothing => exact (ih before).mark _
    | reads _ reads =>
      have tidy := reads.tidy ((ih before).mark _) ((settled_after p).mark _) before.here here
      exact ⟨tidy.gap, tidy.owes, tidy.solid⟩

/-- Where white space is skipped and none is owed, a slash would open a regular expression. -/
theorem precedesRegex_of_soft {p : Bytes} (free : CommentFree p) {mode : TextMode}
    (here : (after p).state = .text mode) (soft : mode ≠ .solid)
    (unowed : (after p).spaceOwed = false) : precedesRegex (after p).lastRead = true := by
  obtain ⟨noDropped, noKept⟩ := free.none_before
  have keeps := (keepsBreak_or_afterKeptComment p).resolve_right noKept
  have ends : (after p).mayEndStatement = false := by
    by_contra ends
    rcases keeps (by simpa using ends) mode (by simp [textMode?, here]) with solid | ⟨-, owed⟩
    · exact soft solid
    · simp [unowed] at owed
  have inText : (after p).state.isText = true := by simp [here, State.isText]
  refine (precedesRegex_lastRead p inText fun c last => ?_).resolve_right noDropped
  have noSpace : c ≠ space := by
    rintro rfl
    simpa [lastVisible] using List.mem_of_getLast? last
  rw [mayEndStatement_eq ((lastWritten_after p).trans last)] at ends
  by_cases isBreak : c = newline
  · exact isBreak ▸ by decide
  · exact precedesRegex_of_swallowsSpace (by simpa [isBreak] using ends) noSpace

/-- What is written and held back while `p` is read. -/
def echo (p : Bytes) : Bytes :=
  written p ++ (after p).held

/-- The echo of `p` is a script without comments that is its own echo, and leads to a machine that
is alike; where a space is owed, it is because one was read. -/
structure Echoed (p : Bytes) : Prop where
  again : echo (echo p) = echo p
  free : CommentFree (echo p)
  alike : Alike (after p) (after (echo p))
  owes : (after p).state = .text .spaced → (after p).spaceOwed = true →
    (after (written p)).state.owesNext = true ∧ (after (written p)).afterReturn = false

/-- A byte that is kept lengthens an echo. -/
theorem echo_snoc {y : Bytes} {c : UInt8} (again : echo y = y)
    (keeps : ((after y).step c).2 ++ ((after y).step c).1.held = (after y).held ++ [c]) :
    echo (y ++ [c]) = y ++ [c] := by
  rw [echo, written_snoc, after_snoc, List.append_assoc, keeps, ← List.append_assoc]
  exact congrArg (· ++ [c]) again

theorem echoed_nil : Echoed [] :=
  ⟨rfl, by decide, ⟨newline, rfl, rfl⟩, fun _ owed => by simp [start] at owed⟩

/-- The machine that reads the echo writes what the first one wrote. -/
theorem Echoed.written_echo {p : Bytes} (h : Echoed p) : written (echo p) = written p := by
  have again : written (echo p) ++ (after (echo p)).held = written p ++ (after p).held := h.again
  rw [h.alike.held_eq] at again
  exact List.append_cancel_right again

/-- A byte that leaves no trace leaves the echo as it is. -/
theorem Echoed.of_same {p q : Bytes} (h : Echoed p) (silent : written q = written p)
    (held : (after q).held = (after p).held) (alike : Alike (after q) (after (echo p)))
    (state : (after q).state = (after p).state) (owed : (after q).spaceOwed = (after p).spaceOwed) :
    Echoed q := by
  have same : echo q = echo p := by rw [echo, echo, silent, held]
  refine ⟨by rw [same, h.again], by rw [same]; exact h.free, by rwa [same], ?_⟩
  rw [silent, state, owed]
  exact h.owes

/-- A byte that is kept is kept by the machine that reads the echo, too. -/
theorem Echoed.keeps {p : Bytes} {b c : UInt8} (h : Echoed p) (means : (after p).meaning b = some c)
    (total : ((after p).step b).2 ++ ((after p).step b).1.held = (after p).held ++ [c])
    (here : ((after p).step b).1.state.isComment = false)
    (owes : ((after p).step b).1.state = .text .spaced → ((after p).step b).1.spaceOwed = true →
      ((after p).step b).2 = (after p).held ∧ (after p).state.owesNext = true) :
    Echoed (p ++ [b]) := by
  obtain ⟨out, alike⟩ := h.alike.step means
  have longer : echo (p ++ [b]) = echo p ++ [c] := by
    rw [echo, written_snoc, after_snoc, List.append_assoc, total, ← List.append_assoc, echo]
  have kept := echo_snoc h.again (c := c) (by rw [out, alike.held_eq, total, h.alike.held_eq])
  refine ⟨by rw [longer, kept], ?_, ?_, ?_⟩
  · rw [longer]
    exact h.free.snoc (by rw [after_snoc, alike.state_eq, here])
  · rwa [longer, after_snoc, after_snoc]
  · rw [written_snoc, after_snoc]
    intro spaced owed
    obtain ⟨silent, before⟩ := owes spaced owed
    rw [silent]
    exact ⟨h.alike.state_eq ▸ before, h.alike.unreturned⟩

/-- Where a space is owed, a line feed is echoed in its place. -/
theorem Echoed.replaces {p : Bytes} {b : UInt8} (h : Echoed p)
    (means : (after p).meaning b = some newline)
    (here : (after p).state = .text .spaced) (owed : (after p).spaceOwed = true)
    (out : ((after p).step b).2 = [newline]) (free : ((after p).step b).1.held = [])
    (started : ((after p).step b).1.state = .text .fresh) : Echoed (p ++ [b]) := by
  have held : (after p).held = [space] := by
    simp [Machine.held, heldSpace, owed, here, State.heldSlash]
  have spaced : echo p = written p ++ [space] := by rw [echo, held]
  have unspaced : CommentFree (written p) := h.free.of_prefix (spaced ▸ List.prefix_append _ _)
  obtain ⟨owes, unreturned⟩ := h.owes here owed
  obtain ⟨out', alike⟩ := h.alike.step means
  have fed := feed_space_newline owes unreturned (tidy_after _ unspaced)
  have total : written (written p ++ [newline]) = written p ++ [newline] := by
    rw [written_append, ← fed, ← written_append, List.append_cons, ← spaced, written_snoc, out',
      out, h.written_echo]
  have reached : after (written p ++ [newline]) = ((after (echo p)).step newline).1 := by
    rw [after_append, ← fed, ← after_append, List.append_cons, ← spaced, after_snoc]
  have longer : echo (p ++ [b]) = written p ++ [newline] := by
    rw [echo, written_snoc, after_snoc, out, free, List.append_nil]
  refine ⟨?_, ?_, ?_, ?_⟩
  · rw [longer, echo, total, reached, alike.held_eq, free, List.append_nil]
  · rw [longer]
    exact unspaced.snoc (by rw [reached, alike.state_eq, started]; rfl)
  · rwa [longer, reached, after_snoc]
  · rw [after_snoc, started]
    intro spaced
    cases spaced

/-- **The echo of a script without comments is its own echo.** -/
theorem echoed (p : Bytes) (free : CommentFree p) : Echoed p := by
  revert free
  refine run_induction (P := fun p _ _ => CommentFree p → Echoed p) (fun _ => echoed_nil) ?_ p
  intro p b m' out ih stepped reached wrote free
  have before := free.of_prefix (List.prefix_append p [b])
  have here := reached ▸ free.here
  have echoed := ih before
  have step := step_of_snoc reached wrote
  cases stepped with
  | nothing =>
    rw [List.append_nil] at wrote
    exact echoed.of_same wrote (by rw [reached]; rfl) (reached ▸ echoed.alike.remember rfl _)
      (by rw [reached]) (by rw [reached])
  | @reads c m' out means reads =>
    have tidy := tidy_after p before
    have repeats := reads.repeats (tidy.mark _) before.here here
    cases repeats with
    | @skips mode inText soft blank same silent =>
      subst same silent
      rw [List.append_nil] at wrote
      refine echoed.of_same wrote (by rw [reached]; rfl) ?_ (by rw [reached]) (by rw [reached])
      rw [reached]
      refine echoed.alike.remember ?_ _
      rcases blank with rfl | ⟨rfl, unowed⟩
      · rfl
      · rw [precedesRegex_of_soft before inText soft unowed]
        rfl
    | replaces inText owed isBreak started free total =>
      exact echoed.replaces (isBreak ▸ means) inText owed (step.2.trans total)
        (by rw [step.1]; exact free) (by rw [step.1]; exact started)
    | keeps total owes =>
      exact echoed.keeps means (by rw [step.1, step.2]; exact total) (by rw [step.1]; exact here)
        (by rw [step.1, step.2]; exact owes)

/-- **Minifying a minified script changes nothing** as long as it has no comments, and it has none
afterwards. -/
theorem minify_minify (x : Bytes) (free : CommentFree x) :
    minify (minify x) = minify x ∧ CommentFree (minify x) := by
  have h := echoed x free
  by_cases waits : (after x).state = .text .spaced ∧ (after x).spaceOwed = true
  · obtain ⟨here, owed⟩ := waits
    obtain ⟨owes, unreturned⟩ := h.owes here owed
    have output : minify x = written x := by simp [minify_eq, finish, here]
    have spaced : echo x = written x ++ [space] := by
      simp [echo, Machine.held, heldSpace, owed, here, State.heldSlash]
    rw [output]
    constructor
    · rw [minify_eq, ← step_space_of_owesNext owes unreturned, ← written_snoc, ← spaced,
        h.written_echo]
    · exact h.free.of_prefix (spaced ▸ List.prefix_append _ _)
  · have finish : (after x).finish = (after x).held :=
      (tidy_after x free).finish_eq_held free.here fun here => by simpa [here] using waits
    have output : minify x = echo x := by rw [minify_eq, finish, echo]
    rw [output]
    constructor
    · rw [minify_eq, h.alike.finish_eq, finish, ← h.alike.held_eq]
      exact h.again
    · exact h.free

/-- Strings, a regular expression, divisions and every kind of white space, without comments. -/
theorem minify_minify_sample :
    let x := ['a', ' ', '=', ' ', '\'', 'b', '\'', '\t', '\r', '\n', 'c', ' ', '/', ' ', 'd',
      '\x07', ' ', '\n', '{', '/', 'e', ' ', ' ', 'f', '/', '\n', '/'].map ascii
    CommentFree x ∧ minify (minify x) = minify x ∧ CommentFree (minify x) := by
  intro x
  have free : CommentFree x := by decide
  exact ⟨free, minify_minify x free⟩

end PageBundle.Script
