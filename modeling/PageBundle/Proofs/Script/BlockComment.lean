import PageBundle.Proofs.Script.Edge
import PageBundle.Proofs.Script.RegexLine
import PageBundle.Proofs.Script.Separation
import Mathlib.Data.List.TakeWhile

/-!
# Dropped block comments

A block comment that is dropped writes nothing and leaves the machine as it was, but for what it
remembers (`feed_blockComment`): the slash that ended the comment was read last, and after solid
text there is a gap. The slash matters only to another slash that follows (`rest_withMemory`), the
gap only where it keeps two bytes from being one token (`rest_withGap`, `rest_withGap_of_fuses`).
So the comment is transparent, or does what a space does (`minify_dropped_comment`). It does no more
where it spans lines: a line break inside it is lost (`written_dropped_comment`).
-/

namespace PageBundle.Script

/-- The text of a block comment with a body. -/
def blockComment (b : Bytes) : Bytes :=
  ['/', '*'].map ascii ++ (b ++ ['*', '/'].map ascii)

/-- What may stand in a block comment that is dropped: apart from ignored bytes it holds no end of
a comment and begins with no at sign. -/
structure DroppedBody (b : Bytes) : Prop where
  unended : ¬ ['*', '/'].map ascii <:+: b.filter (!isIgnored ·)
  unkept : (b.filter (!isIgnored ·)).head? ≠ some (ascii '@')

instance (b : Bytes) : Decidable (DroppedBody b) :=
  decidable_of_iff (¬ ['*', '/'].map ascii <:+: b.filter (!isIgnored ·) ∧
      (b.filter (!isIgnored ·)).head? ≠ some (ascii '@'))
    ⟨fun h => ⟨h.1, h.2⟩, fun h => ⟨h.unended, h.unkept⟩⟩

/-- The state inside a dropped comment goes with what it still holds, ignored bytes apart. -/
inductive Within : State → Bool → Bytes → Prop
  | plain {returned : Bool} {rest : Bytes} : Within (.blockComment false) returned rest
  | opened {rest : Bytes} (unkept : rest.head? ≠ some (ascii '@')) :
      Within (.blockComment true) false rest
  | starred {rest : Bytes} (unended : rest.head? ≠ some (ascii '/')) :
      Within .blockCommentStar false rest

/-- No part of a token is a control byte. -/
theorem printable_of_isJoining {c : UInt8} (joining : isJoining c = true) : ¬ c < 0x20 := by
  intro control
  have apart (cs : List Char) (printable : cs.all (0x20 ≤ ascii ·) = true) :
      isOneOf cs c = false := by
    by_contra one
    have := of_isOneOf (p := (0x20 ≤ ·)) printable (Bool.not_eq_false _ ▸ one)
    exact UInt8.not_le.2 control (of_decide_eq_true this)
  have below {d : UInt8} (printable : 0x20 ≤ d) : ¬ d ≤ c :=
    fun le => UInt8.not_le.2 control (UInt8.le_trans printable le)
  simp [isJoining, isWord, apart ['_', '$'] (by decide),
    apart ['+', '-'] (by decide), below (d := ascii 'a') (by decide),
    below (d := ascii 'A') (by decide), below (d := ascii '0') (by decide),
    below (d := 0x80) (by decide)] at joining

namespace Machine

theorem noReturn_of_isIgnored {b : UInt8} (ignored : isIgnored b = true) : b ≠ carriageReturn := by
  rintro rfl
  cases ignored

theorem isFaint_of_isIgnored {b : UInt8} (ignored : isIgnored b = true) : isFaint b = true := by
  simp only [isIgnored, Bool.and_eq_true, decide_eq_true_eq, bne_iff_ne] at ignored
  exact isFaint_of_control ignored.1.1.1 ignored.1.1.2 ignored.1.2

theorem meaning_of_isIgnored {m : Machine} {b : UInt8} (ignored : isIgnored b = true) :
    m.meaning b = none := by
  simp only [isIgnored, Bool.and_eq_true, decide_eq_true_eq, bne_iff_ne] at ignored
  simp [meaning, ignored.1.1.1, ignored.1.1.2, ignored.1.2, ignored.2]

/-- The machine inside a block comment that begins in plain text. -/
def inside (m : Machine) (state : State) (last : UInt8) (returned : Bool) : Machine :=
  { m with state, commentGap := false, lastRead := last, afterReturn := returned }

/-- The machine after a block comment that is dropped. -/
def pastComment (m : Machine) : Machine :=
  { m with
    state := .text m.resume
    commentGap := m.resume == .solid
    lastRead := ascii '/'
    afterReturn := false }

theorem read_dropped {m : Machine} {c : UInt8}
    (here : (∃ first, m.state = .blockComment first) ∨ m.state = .blockCommentStar)
    (unkept : m.state = .blockComment true → c ≠ ascii '@')
    (unended : m.state = .blockCommentStar → c ≠ ascii '/') :
    m.read c =
      (m.enter (if c = ascii '*' then .blockCommentStar else .blockComment false), []) := by
  have reads := reads_read m c
  generalize m.read c = r at reads ⊢
  obtain ⟨m', out⟩ := r
  cases reads with
  | blockSkip => rfl
  | _ => grind

/-- A byte of a dropped comment is dropped. -/
theorem step_inside (m : Machine) {state : State} {last b : UInt8} {returned : Bool} {bs : Bytes}
    (unended : ¬ ['*', '/'].map ascii <:+: (b :: bs).filter (!isIgnored ·))
    (within : Within state returned ((b :: bs).filter (!isIgnored ·))) :
    ∃ state' last', (m.inside state last returned).step b =
        (m.inside state' last' (b == carriageReturn), []) ∧
      Within state' (b == carriageReturn) (bs.filter (!isIgnored ·)) := by
  by_cases ignored : isIgnored b = true
  · have noReturn := beq_false_of_ne (noReturn_of_isIgnored ignored)
    rw [List.filter_cons_of_neg (by simp [ignored])] at within
    refine ⟨state, last, step_of_meaningless (meaning_of_isIgnored ignored), ?_⟩
    rw [noReturn]
    cases within with
    | plain => exact .plain
    | opened unkept => exact .opened unkept
    | starred unended => exact .starred unended
  · rw [List.filter_cons_of_pos (by simp [ignored])] at within unended
    cases means : (m.inside state last returned).meaning b with
    | none =>
      rcases isIgnored_of_meaningless means with ⟨rfl, isReturned⟩ | control
      · obtain rfl : returned = true := isReturned
        cases within
        exact ⟨.blockComment false, last, step_of_meaningless means, .plain⟩
      · exact absurd control ignored
    | some c =>
      have here : (∃ first, state = .blockComment first) ∨ state = .blockCommentStar := by
        cases within <;> simp
      have unkept : state = .blockComment true → c ≠ ascii '@' := by
        rintro rfl rfl
        cases within with
        | opened unkept =>
          exact unkept (by rw [byte_of_meaning means (by decide) (by decide) (by decide)]; rfl)
      have unclosed : state = .blockCommentStar → c ≠ ascii '/' := by
        rintro rfl rfl
        cases within with
        | starred unended =>
          exact unended (by rw [byte_of_meaning means (by decide) (by decide) (by decide)]; rfl)
      refine ⟨if c = ascii '*' then .blockCommentStar else .blockComment false,
        if c == space then last else c, ?_, ?_⟩
      · rw [step_of_meaning means, read_dropped here unkept unclosed]
        rfl
      · split
        next isStar =>
          subst isStar
          obtain rfl := byte_of_meaning means (by decide) (by decide) (by decide)
          refine .starred fun isSlash => unended ?_
          obtain ⟨rest, same⟩ := List.head?_eq_some_iff.1 isSlash
          rw [same]
          exact (List.prefix_append [ascii '*', ascii '/'] rest).isInfix
        next => exact .plain

theorem feed_inside (m : Machine) {state : State} (last : UInt8) {returned : Bool} {b : Bytes}
    (unended : ¬ ['*', '/'].map ascii <:+: b.filter (!isIgnored ·))
    (within : Within state returned (b.filter (!isIgnored ·))) :
    ∃ state' last' returned', (m.inside state last returned).feed b =
        (m.inside state' last' returned', []) ∧ Within state' returned' [] := by
  induction b generalizing state last returned with
  | nil => exact ⟨state, last, returned, rfl, within⟩
  | cons c b ih =>
    obtain ⟨state', last', stepped, rest⟩ := m.step_inside unended within
    have later : ¬ ['*', '/'].map ascii <:+: b.filter (!isIgnored ·) := by
      intro ends
      refine unended (ends.trans ?_)
      rw [List.filter_cons]
      split
      · exact (List.suffix_cons c _).isInfix
      · exact List.infix_rfl
    obtain ⟨state'', last'', returned'', fed, ended⟩ := ih last' later rest
    exact ⟨state'', last'', returned'', by rw [feed_cons, stepped, fed]; rfl, ended⟩

/-- The end of a dropped comment leads back to plain text. -/
theorem feed_end (m : Machine) {state : State} {last : UInt8} {returned : Bool}
    (within : Within state returned []) :
    (m.inside state last returned).feed (['*', '/'].map ascii) = (m.pastComment, []) := by
  have star : (m.inside state last returned).step (ascii '*') =
      (m.inside .blockCommentStar (ascii '*') false, []) := by
    rw [step_of_meaning (meaning_printable _ (by decide)), read_dropped]
    · rfl
    · cases within <;> simp [inside]
    · intro _; decide
    · intro _; decide
  have slash : (m.inside .blockCommentStar (ascii '*') false).step (ascii '/') =
      (m.pastComment, []) := by
    rw [step_of_meaning (meaning_printable _ (by decide))]
    rfl
  rw [List.map_cons, feed_cons, star, List.map_cons, feed_cons, slash]
  rfl

/-- **A block comment that is dropped leaves nothing but memories.** -/
theorem feed_blockComment {m : Machine} (inText : m.state.isText = true) {b : Bytes}
    (body : DroppedBody b) : m.feed (blockComment b) = (m.pastComment, []) := by
  have opened : m.feed (['/', '*'].map ascii) =
      (m.inside (.blockComment true) (ascii '*') false, []) := by
    rw [List.map_cons, feed_slash inText, List.map_cons, feed_cons, step_star m.holdSlash_cases]
    rfl
  obtain ⟨state, last, returned, fed, within⟩ :=
    m.feed_inside (ascii '*') body.unended (.opened body.unkept)
  rw [blockComment, feed_append, opened, feed_append, fed, m.feed_end within]
  rfl

/-- A byte that is ignored does nothing but separate the parts of a line terminator. -/
theorem rest_ignored {m : Machine} {b : UInt8} (ignored : isIgnored b = true)
    (unreturned : m.afterReturn = false) (s : Bytes) : m.rest (b :: s) = m.rest s := by
  rw [rest_cons, step_of_meaningless (meaning_of_isIgnored ignored),
    beq_false_of_ne (noReturn_of_isIgnored ignored), mark_eq unreturned]
  rfl

/-- A byte that means something means the same without the memory of what was read. -/
theorem meaning_withMemory {m : Machine} {b c : UInt8} (means : m.meaning b = some c)
    (last : UInt8) : (m.withMemory last false).meaning b = some c := by
  unfold meaning at means ⊢
  grind [withMemory]

theorem step_eq_read {m : Machine} {b c : UInt8} (means : m.meaning b = some c) :
    m.step b = ((m.read c).1.withMemory (if c == space then m.lastRead else c)
      (b == carriageReturn), (m.read c).2) := by
  have marked : { m with afterReturn := b == carriageReturn } =
      m.withMemory m.lastRead (b == carriageReturn) := rfl
  rw [step_of_meaning means, marked, read_withMemory _ c fun _ => rfl]
  rfl

theorem step_withMemory {m : Machine} {last b c : UInt8} (means : m.meaning b = some c)
    (same : c = ascii '/' → precedesRegex last = precedesRegex m.lastRead) :
    (m.withMemory last false).step b =
      ((m.step b).1.withMemory (if c == space then last else c) (b == carriageReturn),
        (m.step b).2) := by
  rw [step_eq_read means, step_eq_read (meaning_withMemory means last), read_withMemory _ c same]
  rfl

/-- What was read before is forgotten at the next byte that shows, unless that is a slash. -/
theorem rest_withMemory {m : Machine} {last : UInt8} {s : Bytes}
    (inText : m.state.isText = true)
    (returns : m.afterReturn = true → m.read newline = (m, []) ∧ m.lastRead = newline)
    (next : s.find? (!isFaint ·) ≠ some (ascii '/')) :
    (m.withMemory last false).rest s = m.rest s := by
  induction s generalizing m last with
  | nil => exact finish_withMemory m last false
  | cons b s ih =>
    cases means : m.meaning b with
    | none =>
      rcases isIgnored_of_meaningless means with ⟨rfl, returned⟩ | ignored
      · -- One machine skips the line feed that completes a terminator, the other reads it.
        have again : (m.withMemory last false).read newline = (m.withMemory last false, []) := by
          rw [read_withMemory _ newline fun isSlash => absurd isSlash (by decide),
            (returns returned).1]
        have stepped : (m.withMemory last false).step newline = m.step newline := by
          rw [step_newline rfl, again, step_of_meaningless means]
          exact congrArg (fun last => (m.withMemory last false, ([] : Bytes)))
            (returns returned).2.symm
        rw [rest_cons, rest_cons, stepped]
      · rw [List.find?_cons_of_neg (by simp [isFaint_of_isIgnored ignored])] at next
        rw [rest_ignored ignored rfl, rest_cons, step_of_meaningless means]
        refine ih (m := { m with afterReturn := b == carriageReturn }) inText ?_ next
        exact fun returned => absurd returned (by simp [noReturn_of_isIgnored ignored])
    | some c =>
      by_cases isSpace : c = space
      · subst isSpace
        have faint := isFaint_of_meaning means
        have unreturned : (b == carriageReturn) = false := by
          simp only [isFaint, Bool.and_eq_true, bne_iff_ne] at faint
          exact beq_false_of_ne faint.2
        rw [List.find?_cons_of_neg (by simp [faint])] at next
        rw [rest_cons, rest_cons, step_withMemory means fun isSlash => absurd isSlash (by decide),
          unreturned]
        refine congrArg _ (ih ((steps_step m b).faint inText faint).1 (fun returned => ?_) next)
        rw [afterReturn_step, unreturned] at returned
        cases returned
      · have noSlash : c ≠ ascii '/' := by
          rintro rfl
          obtain rfl := byte_of_meaning means (by decide) (by decide) (by decide)
          exact next rfl
        have same : (m.withMemory last false).step b = m.step b := by
          rw [step_withMemory means fun isSlash => absurd isSlash noSlash, step_eq_read means]
          simp [isSpace, withMemory]
        rw [rest_cons, rest_cons, same]

/-- Ignored bytes make no difference to what is written. -/
theorem rest_dropWhile {m : Machine} (unreturned : m.afterReturn = false) (s : Bytes) :
    m.rest (s.dropWhile isIgnored) = m.rest s := by
  induction s with
  | nil => rfl
  | cons b s ih =>
    rw [List.dropWhile_cons]
    split
    next ignored => rw [ih, rest_ignored ignored unreturned]
    next => rfl

theorem find?_of_dropWhile {s t : Bytes} {b : UInt8} (first : s.dropWhile isIgnored = b :: t) :
    s.find? (!isIgnored ·) = some b := by
  simpa [first] using s.find?_not_eq_head?_dropWhile isIgnored

/-- The machine that has dropped a comment after solid text. -/
def withGap (m : Machine) : Machine :=
  { m with commentGap := true }

/-- A byte of plain text may settle first what a dropped comment leaves. -/
theorem readText_settle (m : Machine) (c : UInt8) : (m.settle c).readText c = m.readText c := by
  have again : (m.settle c).settle c = m.settle c := by simp [settle]
  by_cases isSpace : c = space
  · subst isSpace
    rfl
  by_cases isSlash : c = ascii '/'
  · subst isSlash
    rw [settle_eq m fuses_slash, readText_slash, readText_slash]
  · rw [readText_token _ isSpace isSlash, readText_token _ isSpace isSlash, again]

theorem exists_meaning {m : Machine} {b : UInt8} (unreturned : m.afterReturn = false)
    (shows : isIgnored b = false) : ∃ c, m.meaning b = some c := by
  cases means : m.meaning b with
  | some c => exact ⟨c, rfl⟩
  | none =>
    rcases isIgnored_of_meaningless means with ⟨-, returned⟩ | ignored
    · simp [unreturned] at returned
    · simp [ignored] at shows

theorem step_withGap {m : Machine} {b : UInt8} (here : m.state = .text .solid)
    (unreturned : m.afterReturn = false) (shows : isIgnored b = false)
    (apart : m.lastWritten.any (fuses · b) = false) : m.withGap.step b = m.step b := by
  obtain ⟨c, means⟩ := exists_meaning unreturned shows
  have means' : m.withGap.meaning b = some c := means
  have apart' : m.lastWritten.any (fuses · c) = false := by
    cases joining : isJoining c with
    | true => rwa [← byte_of_isJoining means joining]
    | false =>
      rw [Option.any_eq_false]
      intro a _
      simpa using mt (isJoining_of_fuses (a := a)) (by simp [joining])
  have solid {k : Machine} (here : k.state = .text .solid) : k.read c = k.readText c := by
    simp [read, here]
  have settled : m.withGap.settle c = m.settle c := by
    simp [settle, withGap, apart']
  have same : m.withGap.read c = m.read c := by
    rw [solid here, solid (k := m.withGap) here, ← readText_settle, settled, readText_settle]
  rw [step_eq_read means, step_eq_read means', same]
  rfl

/-- **A dropped comment leaves nothing between bytes that do not fuse.** -/
theorem rest_withGap {m : Machine} {s : Bytes} (here : m.state = .text .solid)
    (unreturned : m.afterReturn = false)
    (apart : ∀ c, s.find? (!isIgnored ·) = some c → m.lastWritten.any (fuses · c) = false) :
    m.withGap.rest s = m.rest s := by
  rw [← rest_dropWhile unreturned s, ← rest_dropWhile (m := m.withGap) unreturned s]
  cases first : s.dropWhile isIgnored with
  | nil => simp [rest_nil, finish, withGap, here]
  | cons b t =>
    have found : s.find? (!isIgnored ·) = some b := find?_of_dropWhile first
    have shows : isIgnored b = false := by simpa using List.find?_some found
    rw [rest_cons, rest_cons, step_withGap here unreturned shows (apart b found)]

/-- The machine that has written a byte that may be part of a token. -/
def token (c : UInt8) : Machine where
  state := .text (.of c)
  resume := .of c
  lastRead := c
  lastWritten := some c

/-- What may be part of a token is written at once, and everything before it forgotten. -/
theorem step_token {m : Machine} {c : UInt8} (inText : m.state.isText = true)
    (joining : isJoining c = true) : m.step c = (token c, (m.settle c).lead c ++ [c]) := by
  have noQuote : isQuote c = false := by
    by_contra opens
    have apart : (!isJoining c) = true :=
      of_isOneOf (p := (!isJoining ·)) (by decide) (Bool.not_eq_false _ ▸ opens)
    simp [joining] at apart
  have noSpace : c ≠ space := ne_of_isJoining joining (by decide)
  have noReturn : c ≠ carriageReturn := ne_of_isJoining joining (by decide)
  rw [step_eq_read (meaning_printable m (printable_of_isJoining joining)),
    read_text inText noSpace (ne_of_isJoining joining (by decide)),
    readText_token m noSpace (ne_of_isJoining joining (by decide)), noQuote]
  simp [noSpace, noReturn, token, enterText, wrote, settle, withMemory]

theorem lead_of_isJoining {m : Machine} {c : UInt8} (joining : isJoining c = true) :
    m.lead c = if m.spaceOwed then [space] else [] := by
  simp [lead, ne_of_isJoining (d := newline) joining (by decide)]

/-- What may be part of a token is written after a space if one is owed or a comment in between is
remembered. -/
theorem rest_token {m : Machine} {c : UInt8} {s t : Bytes} (inText : m.state.isText = true)
    (unreturned : m.afterReturn = false) (first : s.dropWhile isIgnored = c :: t)
    (joining : isJoining c = true) :
    m.rest s = (if (m.settle c).spaceOwed then [space] else []) ++ c :: (token c).rest t := by
  rw [← rest_dropWhile unreturned, first, rest_cons, step_token inText joining,
    lead_of_isJoining joining, List.append_assoc]
  rfl

/-- **Between bytes that fuse a dropped comment leaves a space.** -/
theorem rest_withGap_of_fuses {m : Machine} {a c : UInt8} {s : Bytes}
    (here : m.state = .text .solid) (unreturned : m.afterReturn = false)
    (unowed : m.spaceOwed = false) (last : m.lastWritten = some a)
    (next : s.find? (!isIgnored ·) = some c) (fused : fuses a c = true) :
    ∃ t, m.withGap.rest s = space :: c :: (token c).rest t ∧
      m.rest (space :: s) = space :: c :: (token c).rest t ∧
      (m.commentGap = false → m.rest s = c :: (token c).rest t) := by
  have joining := (isJoining_of_fuses fused).2
  have inText : m.state.isText = true := by rw [here]; rfl
  obtain ⟨t, first⟩ : ∃ t, s.dropWhile isIgnored = c :: t := by
    rw [List.find?_not_eq_head?_dropWhile] at next
    exact List.head?_eq_some_iff.1 next
  refine ⟨t, ?_, ?_, fun noGap => ?_⟩
  · rw [rest_token (m := m.withGap) inText unreturned first joining]
    simp [settle, withGap, last, fused]
  · have owes : m.step space =
        ({ m with spaceOwed := true, commentGap := false }.enterText .spaced, []) := by
      rw [step_space unreturned, read, here]
      rfl
    rw [rest_cons, owes, rest_token _ _ first joining]
    · simp [settle, enterText]
    · rfl
    · exact unreturned
  · rw [rest_token inText unreturned first joining]
    simp [settle, unowed, noGap]

end Machine

open Machine

/-- In solid text after `p`, the last byte written and the first byte of `s` that is not ignored
would make one token. -/
def JoinsAcross (p s : Bytes) : Prop :=
  (after p).state = .text .solid ∧
    ∃ a c, (written p).getLast? = some a ∧ s.find? (!isIgnored ·) = some c ∧ fuses a c = true

/-- After solid text a dropped comment leaves a gap. -/
theorem pastComment_of_solid {p : Bytes} (here : (after p).state = .text .solid) :
    (after p).pastComment = (after p).withGap.withMemory (ascii '/') false := by
  have mode := (settled_after p).resumes .solid here (by simp)
  simp [pastComment, withGap, withMemory, mode, here]

/-- After white space a dropped comment leaves nothing but the memory of its slash. -/
theorem pastComment_of_spaced {p : Bytes} (here : (after p).state = .text .spaced) :
    (after p).pastComment = (after p).withMemory (ascii '/') false := by
  have mode := (settled_after p).resumes .spaced here (by simp)
  have noGap := (settled_after p).noGap (by simp [here])
  simp [pastComment, withMemory, mode, here, noGap]

theorem isText_of_edge {p : Bytes}
    (here : (after p).state = .text .solid ∨ (after p).state = .text .spaced) :
    (after p).state.isText = true := by
  rcases here with here | here <;> rw [here] <;> rfl

theorem minify_blockComment {p b : Bytes} (inText : (after p).state.isText = true)
    (body : DroppedBody b) (s : Bytes) :
    minify (p ++ (blockComment b ++ s)) = written p ++ (after p).pastComment.rest s := by
  rw [minify_append, rest_append, feed_blockComment inText body]
  rfl

/-- **Dropped comments are transparent.** A block comment that is dropped in solid text or after
white space makes no difference to the output, whatever follows but a slash, unless it stands
between two bytes that would make one token. Then it does what a space does: one space is written
after what `p` leads to. -/
theorem minify_dropped_comment {p b s : Bytes}
    (here : (after p).state = .text .solid ∨ (after p).state = .text .spaced)
    (body : DroppedBody b) (next : s.find? (!isFaint ·) ≠ some (ascii '/')) :
    (¬ JoinsAcross p s → minify (p ++ (blockComment b ++ s)) = minify (p ++ s)) ∧
      (JoinsAcross p s → minify (p ++ (blockComment b ++ s)) = minify (p ++ space :: s) ∧
        ∃ rest, minify (p ++ space :: s) = written p ++ space :: rest ∧
          ((after p).commentGap = false → minify (p ++ s) = written p ++ rest)) := by
  have inText := isText_of_edge here
  rw [minify_blockComment inText body, minify_append, minify_append]
  rcases here with here | here
  · have unreturned := unreturned_of_solid here
    have last := lastWritten_of_solid here
    rw [pastComment_of_solid here, rest_withMemory (m := (after p).withGap) inText
      (fun returned => absurd (unreturned.symm.trans returned) (by simp)) next]
    constructor
    · intro apart
      refine congrArg _ (rest_withGap here unreturned fun c found => ?_)
      rw [Option.any_eq_false]
      intro a isLast
      by_contra fused
      exact apart ⟨here, a, c, last ▸ isLast, found, by simpa using fused⟩
    · rintro ⟨-, a, c, isLast, found, fused⟩
      obtain ⟨t, gap, spaced, plain⟩ :=
        rest_withGap_of_fuses here unreturned (unowed_of_solid here) (last.trans isLast) found fused
      exact ⟨by rw [gap, spaced], _, by rw [spaced], fun noGap => by rw [plain noGap]⟩
  · rw [pastComment_of_spaced here, rest_withMemory inText
      (fun returned => ⟨read_newline_of_isText returned inText,
        lastRead_of_afterReturn p returned⟩) next]
    exact ⟨fun _ => rfl, fun joins => by simp [joins.1] at here⟩

/-- A comment between two names leaves a space, and none before a bracket. -/
theorem minify_dropped_comment_after_name :
    let p := ['a'].map ascii
    let b := ['*', '@'].map ascii
    let s := ['b'].map ascii
    let s' := ['\t', '('].map ascii
    ((after p).state = .text .solid ∨ (after p).state = .text .spaced) ∧ DroppedBody b ∧
      s.find? (!isFaint ·) ≠ some (ascii '/') ∧ s'.find? (!isFaint ·) ≠ some (ascii '/') ∧
      minify (p ++ (blockComment b ++ s)) = minify (p ++ space :: s) ∧
      minify (p ++ (blockComment b ++ s')) = minify (p ++ s') := by
  intro p b s s'
  have here : (after p).state = .text .solid ∨ (after p).state = .text .spaced := .inl (by decide)
  have body : DroppedBody b := by decide
  have next : s.find? (!isFaint ·) ≠ some (ascii '/') := by decide
  have next' : s'.find? (!isFaint ·) ≠ some (ascii '/') := by decide
  have joins : JoinsAcross p s := ⟨by decide, ascii 'a', ascii 'b', by decide⟩
  have apart : ¬ JoinsAcross p s' := by
    rintro ⟨-, a, c, -, found, fused⟩
    obtain rfl : tab = c := Option.some.inj found
    simp [fuses_of_apart (c := tab) (by decide)] at fused
  exact ⟨here, body, next, next', ((minify_dropped_comment here body next).2 joins).1,
    (minify_dropped_comment here body next').1 apart⟩

/-- **A dropped comment leaves no line break.** Whatever lines it spans, nothing stands between
what `p` leads to and the next part of a word but the space that is owed or keeps them apart. -/
theorem written_dropped_comment {p b : Bytes} {c : UInt8}
    (here : (after p).state = .text .solid ∨ (after p).state = .text .spaced)
    (body : DroppedBody b) (word : isWord c = true) :
    ∃ gap, (gap = [] ∨ gap = [space]) ∧
      (gap = [space] ↔ (after p).spaceOwed = true ∨
        (after p).state = .text .solid ∧ ∃ a, (written p).getLast? = some a ∧ fuses a c = true) ∧
      written (p ++ (blockComment b ++ [c])) = written p ++ (gap ++ [c]) ∧
      ∀ s, minify (p ++ (blockComment b ++ c :: s)) =
        written p ++ (gap ++ c :: (token c).rest s) := by
  have inText := isText_of_edge here
  have joining : isJoining c = true := by simp [isJoining, word]
  have stepped : (after p).pastComment.step c =
      (token c, ((after p).pastComment.settle c).lead c ++ [c]) := step_token rfl joining
  refine ⟨((after p).pastComment.settle c).lead c, ?_, ?_, ?_, fun s => ?_⟩
  · exact (lead_cases _ c).imp id And.left
  · rw [lead_of_isJoining joining, ← Option.any_eq_true]
    rcases here with here | here
    · simp [pastComment_of_solid here, settle, withGap, withMemory, here,
        lastWritten_of_solid here, unowed_of_solid here]
    · have noGap := (settled_after p).noGap (by simp [here])
      simp [pastComment_of_spaced here, settle, withMemory, here, noGap]
  · rw [written_append, feed_append, feed_blockComment inText body, feed_cons, stepped]
    simp
  · rw [minify_blockComment inText body, rest_cons, stepped, List.append_assoc]
    rfl

/-- A comment of two lines between two names leaves a space. -/
theorem written_dropped_comment_after_name :
    let p := ['a'].map ascii
    let b := [newline]
    ((after p).state = .text .solid ∨ (after p).state = .text .spaced) ∧ DroppedBody b ∧
      isWord (ascii 'b') = true ∧
      ∃ gap, gap = [space] ∧
        written (p ++ (blockComment b ++ [ascii 'b'])) = written p ++ (gap ++ [ascii 'b']) := by
  intro p b
  have here : (after p).state = .text .solid ∨ (after p).state = .text .spaced := .inl (by decide)
  have body : DroppedBody b := by decide
  have word : isWord (ascii 'b') = true := by decide
  obtain ⟨gap, -, blank, wrote, -⟩ := written_dropped_comment here body word
  exact ⟨here, body, word, gap, blank.2 (.inr ⟨by decide, ascii 'a', by decide⟩), wrote⟩

/-- The statements before and after a comment of two lines are joined. -/
theorem dropped_comment_joins_statements :
    let p := ['a'].map ascii
    let b := [newline]
    let s := ['b'].map ascii
    ((after p).state = .text .solid ∧ lastVisible (written p) = some (ascii 'a') ∧
      ascii 'a' ≠ newline ∧ swallowsSpace (ascii 'a') = false) ∧ newline ∈ b ∧ DroppedBody b ∧
      minify (p ++ (blockComment b ++ s)) = ['a', ' ', 'b'].map ascii ∧
      ¬ ∃ gap, written (p ++ (blockComment b ++ s)) = written p ++ (gap ++ s) ∧
        newline ∈ gap := by
  intro p b s
  refine ⟨by decide, by decide, by decide, by decide, ?_⟩
  rintro ⟨gap, wrote, broken⟩
  have mem : newline ∈ written (p ++ (blockComment b ++ s)) := by
    rw [wrote]
    simp [broken]
  exact absurd mem (by decide)

end PageBundle.Script
