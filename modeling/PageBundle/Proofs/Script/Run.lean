import PageBundle.Proofs.Script.Reading
import Mathlib.Data.List.Induction

/-!
# Runs of the script machine

`after p` is the machine that has read the bytes `p` from its start and `written p` what it wrote
meanwhile. `Machine.Steps` says what one byte does; `run_induction` follows a script byte by byte,
and `invariant_after` carries a property of machines from the start over every step. The machine's
record of the last byte written is the last byte of `written p` other than a space
(`lastWritten_after`).
-/

namespace PageBundle.Script

/-- The machine that has read `p`. -/
def after (p : Bytes) : Machine :=
  (Machine.start.feed p).1

/-- What is written while `p` is read. -/
def written (p : Bytes) : Bytes :=
  (Machine.start.feed p).2

@[simp] theorem after_nil : after [] = .start := rfl

theorem after_append (p q : Bytes) : after (p ++ q) = ((after p).feed q).1 := by
  rw [after, Machine.feed_append]
  rfl

theorem written_append (p q : Bytes) : written (p ++ q) = written p ++ ((after p).feed q).2 := by
  rw [written, Machine.feed_append]
  rfl

theorem after_snoc (p : Bytes) (b : UInt8) : after (p ++ [b]) = ((after p).step b).1 := by
  simp [after_append, Machine.feed_cons]

theorem written_snoc (p : Bytes) (b : UInt8) :
    written (p ++ [b]) = written p ++ ((after p).step b).2 := by
  simp [written_append, Machine.feed_cons]

/-- One byte more is one step. -/
theorem step_of_snoc {p out : Bytes} {b : UInt8} {m : Machine} (reached : after (p ++ [b]) = m)
    (wrote : written (p ++ [b]) = written p ++ out) :
    ((after p).step b).1 = m ∧ ((after p).step b).2 = out := by
  rw [after_snoc] at reached
  rw [written_snoc] at wrote
  exact ⟨reached, List.append_cancel_left wrote⟩

theorem minify_eq (p : Bytes) : minify p = written p ++ (after p).finish := rfl

namespace Machine

/-- What the machine writes if `s` is all that follows. -/
def rest (m : Machine) (s : Bytes) : Bytes :=
  (m.feed s).2 ++ (m.feed s).1.finish

theorem rest_nil (m : Machine) : m.rest [] = m.finish := rfl

theorem rest_append (m : Machine) (s t : Bytes) :
    m.rest (s ++ t) = (m.feed s).2 ++ (m.feed s).1.rest t := by
  rw [rest, feed_append, List.append_assoc]
  rfl

theorem rest_cons (m : Machine) (b : UInt8) (s : Bytes) :
    m.rest (b :: s) = (m.step b).2 ++ (m.step b).1.rest s := by
  rw [rest, feed_cons, List.append_assoc]
  rfl

end Machine

theorem minify_append (p s : Bytes) : minify (p ++ s) = written p ++ (after p).rest s :=
  Machine.rest_append .start p s

/-- Reading `input` writes `output`, after at most the space that is owed. -/
def Machine.Writes (m : Machine) (input output : Bytes) : Prop :=
  ∃ blank, (blank = [] ∨ blank = [space] ∧ m.spaceOwed = true) ∧ (m.feed input).2 = blank ++ output

/-- A byte as it is written: a carriage return counts as a line feed. -/
def shown (b : UInt8) : UInt8 :=
  if b = carriageReturn then newline else b

/-- The last byte of `out` other than a space. -/
def lastVisible (out : Bytes) : Option UInt8 :=
  (out.filter (· != space)).getLast?

@[simp] theorem lastVisible_nil : lastVisible [] = none := rfl

theorem lastVisible_append (a b : Bytes) :
    lastVisible (a ++ b) = (lastVisible b).or (lastVisible a) := by
  simp [lastVisible]

theorem lastVisible_cons (c : UInt8) (b : Bytes) :
    lastVisible (c :: b) = (lastVisible b).or (if c = space then none else some c) := by
  rw [← List.singleton_append, lastVisible_append]
  by_cases h : c = space <;> simp [lastVisible, h]

namespace Machine

/-- A byte means a line feed, white space as the state has it, or itself. -/
theorem meaning_eq_some {m : Machine} {b c : UInt8} (means : m.meaning b = some c) :
    (c = newline ∧ (b = newline ∧ m.afterReturn = false ∨ b = carriageReturn)) ∨
      (b = tab ∧ c = if m.state.isVerbatim then tab else space) ∨ (¬ b < 0x20 ∧ c = b) := by
  unfold meaning at means
  grind

theorem ne_of_printable {b c : UInt8} (printable : ¬ b < 0x20) (control : c < 0x20) : b ≠ c := by
  intro same
  exact printable (same ▸ control)

/-- A byte is read as it is written, but a tab may be read as a space. -/
theorem shown_of_meaning {m : Machine} {b c : UInt8} (means : m.meaning b = some c) :
    c ≠ space ∧ shown b = c ∨ c = space ∧ (b = space ∨ b = tab) := by
  rcases meaning_eq_some means with ⟨rfl, ⟨rfl, -⟩ | rfl⟩ | ⟨rfl, rfl⟩ | ⟨printable, rfl⟩
  · exact .inl (by decide)
  · exact .inl (by decide)
  · cases m.state.isVerbatim <;> decide
  · have noReturn : c ≠ carriageReturn := ne_of_printable printable (by decide)
    by_cases isSpace : c = space
    · exact .inr ⟨isSpace, .inl isSpace⟩
    · exact .inl ⟨isSpace, by simp [shown, noReturn]⟩

/-- A byte that is no control byte means itself. -/
theorem meaning_printable (m : Machine) {b : UInt8} (printable : ¬ b < 0x20) :
    m.meaning b = some b := by
  have noBreak : b ≠ newline := ne_of_printable printable (by decide)
  have noReturn : b ≠ carriageReturn := ne_of_printable printable (by decide)
  have noTab : b ≠ tab := ne_of_printable printable (by decide)
  simp [meaning, noBreak, noReturn, noTab, printable]

@[simp] theorem meaning_return (m : Machine) : m.meaning carriageReturn = some newline := rfl

theorem meaning_newline (m : Machine) :
    m.meaning newline = if m.afterReturn then none else some newline := rfl

theorem meaning_tab (m : Machine) :
    m.meaning tab = some (if m.state.isVerbatim then tab else space) := rfl

theorem byte_of_meaning {m : Machine} {b c : UInt8} (means : m.meaning b = some c)
    (noBreak : c ≠ newline) (noTab : c ≠ tab) (noSpace : c ≠ space) : b = c := by
  rcases meaning_eq_some means with ⟨isBreak, -⟩ | ⟨-, blank⟩ | ⟨-, same⟩
  · exact absurd isBreak noBreak
  · split at blank
    · exact absurd blank noTab
    · exact absurd blank noSpace
  · exact same.symm

/-- A byte without meaning is either the second of a line terminator or a control byte. -/
theorem meaning_eq_none {m : Machine} {b : UInt8} (meaningless : m.meaning b = none) :
    (b = newline ∧ m.afterReturn = true) ∨
      (b < 0x20 ∧ b ≠ newline ∧ b ≠ carriageReturn ∧ b ≠ tab) := by
  unfold meaning at meaningless
  grind

theorem step_of_meaning {m : Machine} {b c : UInt8} (means : m.meaning b = some c) :
    m.step b =
      ({ ({ m with afterReturn := b == carriageReturn }.read c).1 with
          lastRead := if c == space
            then ({ m with afterReturn := b == carriageReturn }.read c).1.lastRead else c },
        ({ m with afterReturn := b == carriageReturn }.read c).2) := by
  simp [step, means]

theorem step_of_meaningless {m : Machine} {b : UInt8} (meaningless : m.meaning b = none) :
    m.step b = ({ m with afterReturn := b == carriageReturn }, []) := by
  simp [step, meaningless]

/-- Remembering what is remembered changes nothing. -/
theorem mark_eq {m : Machine} {r : Bool} (same : m.afterReturn = r) :
    { m with afterReturn := r } = m := by
  subst same
  rfl

theorem step_space {m : Machine} (unreturned : m.afterReturn = false) :
    m.step space = m.read space := by
  rw [step_of_meaning (meaning_printable m (by decide)),
    mark_eq (r := space == carriageReturn) unreturned]
  rfl

theorem step_newline {m : Machine} (unreturned : m.afterReturn = false) :
    m.step newline = ({ (m.read newline).1 with lastRead := newline }, (m.read newline).2) := by
  rw [step_of_meaning (by rw [meaning_newline, unreturned]; rfl),
    mark_eq (r := newline == carriageReturn) unreturned]
  rfl

/-- The machine that has read a slash in plain text and holds it back. -/
def holdSlash (m : Machine) : Machine :=
  { m with
    state := if precedesRegex m.lastRead then .regexSlash else .slash
    commentGap := false
    afterReturn := false
    lastRead := ascii '/' }

theorem holdSlash_regex {m : Machine} (allows : precedesRegex m.lastRead = true) :
    m.holdSlash.state = .regexSlash := by
  simp [holdSlash, allows]

theorem holdSlash_divide {m : Machine} (divides : precedesRegex m.lastRead = false) :
    m.holdSlash.state = .slash := by
  simp [holdSlash, divides]

theorem holdSlash_cases (m : Machine) :
    m.holdSlash.state = .slash ∨ m.holdSlash.state = .regexSlash := by
  cases allows : precedesRegex m.lastRead with
  | true => exact .inr (holdSlash_regex allows)
  | false => exact .inl (holdSlash_divide allows)

theorem step_slash {m : Machine} (inText : m.state.isText = true) :
    m.step (ascii '/') = (m.holdSlash, []) := by
  have slash : m.meaning (ascii '/') = some (ascii '/') := meaning_printable m (by decide)
  have place : ({ m with afterReturn := ascii '/' == carriageReturn } : Machine).state.isText :=
    inText
  rw [step_of_meaning slash, read_text place (by decide) (by decide), readText_slash]
  rfl

theorem feed_slash {m : Machine} (inText : m.state.isText = true) (bs : Bytes) :
    m.feed (ascii '/' :: bs) = m.holdSlash.feed bs := by
  rw [feed_cons, step_slash inText]
  rfl

/-- What one byte does: the machine afterwards and the bytes written. -/
inductive Steps (m : Machine) (b : UInt8) : Machine → Bytes → Prop
  | nothing (meaningless : m.meaning b = none) :
      Steps m b { m with afterReturn := b == carriageReturn } []
  | reads {c : UInt8} {m' : Machine} {out : Bytes} (means : m.meaning b = some c)
      (reads : Reads { m with afterReturn := b == carriageReturn } c m' out) :
      Steps m b { m' with lastRead := if c == space then m'.lastRead else c } out

theorem steps_step (m : Machine) (b : UInt8) : Steps m b (m.step b).1 (m.step b).2 := by
  unfold step
  cases means : m.meaning b with
  | none => exact .nothing means
  | some c => exact .reads means (reads_read _ c)

/-- A byte with a meaning is read. -/
theorem Steps.of_meaning {m m' : Machine} {b c : UInt8} {out : Bytes} (h : Steps m b m' out)
    (means : m.meaning b = some c) :
    ∃ n, Reads { m with afterReturn := b == carriageReturn } c n out ∧
      m' = { n with lastRead := if c == space then n.lastRead else c } := by
  cases h with
  | nothing meaningless => simp [means] at meaningless
  | reads means' reads =>
    obtain rfl := Option.some.inj (means'.symm.trans means)
    exact ⟨_, reads, rfl⟩

theorem Reads.afterReturn {m m' : Machine} {c : UInt8} {out : Bytes} (h : Reads m c m' out) :
    m'.afterReturn = m.afterReturn := by
  cases h with
  | text _ _ _ reads => cases reads <;> rfl
  | divide _ _ _ reads => cases reads <;> rfl
  | _ => rfl

theorem Reads.lastRead {m m' : Machine} {c : UInt8} {out : Bytes} (h : Reads m c m' out) :
    m'.lastRead = m.lastRead := by
  cases h with
  | text _ _ _ reads => cases reads <;> rfl
  | divide _ _ _ reads => cases reads <;> rfl
  | _ => rfl

/-- Only a carriage return is remembered. -/
theorem afterReturn_step (m : Machine) (b : UInt8) :
    (m.step b).1.afterReturn = (b == carriageReturn) := by
  have stepped := steps_step m b
  generalize (m.step b).1 = m', (m.step b).2 = out at stepped ⊢
  cases stepped with
  | nothing => rfl
  | reads _ reads => exact reads.afterReturn

/-- After a carriage return a line feed was read last. -/
theorem Steps.of_afterReturn {m m' : Machine} {b : UInt8} {out : Bytes} (h : Steps m b m' out)
    (returned : m'.afterReturn = true) :
    ∃ n, Reads { m with afterReturn := true } newline n out ∧
      m' = { n with lastRead := newline } := by
  have isReturn : b = carriageReturn := by
    cases h with
    | nothing => simpa using returned
    | reads _ reads => simpa using reads.afterReturn.symm.trans returned
  subst isReturn
  exact h.of_meaning (meaning_return m)

@[simp] theorem lastVisible_lead (m : Machine) (c : UInt8) : lastVisible (m.lead c) = none := by
  unfold lead
  split <;> simp [lastVisible]

theorem ReadsText.lastWritten {m m' : Machine} {c : UInt8} {out : Bytes}
    (h : ReadsText m c m' out) : m'.lastWritten = (lastVisible out).or m.lastWritten := by
  cases h with
  | owe => rfl
  | hold => rfl
  | quote noSpace => simp [enter, wrote, settle, lastVisible_append, lastVisible_cons, noSpace]
  | plain noSpace => simp [enterText, wrote, settle, lastVisible_append, lastVisible_cons, noSpace]

theorem Reads.lastWritten {m m' : Machine} {c : UInt8} {out : Bytes}
    (h : Reads m c m' out) : m'.lastWritten = (lastVisible out).or m.lastWritten := by
  have notSpace : ascii '/' ≠ space ∧ ascii '*' ≠ space ∧ newline ≠ space := by decide
  cases h with
  | text _ _ _ reads => exact reads.lastWritten
  | divide _ _ _ reads =>
    rw [reads.lastWritten, lastVisible_append, lastVisible_cons]
    simp [enter, wrote, notSpace]
  | _ => simp [enter, enterText, wrote, lastVisible_append, lastVisible_cons, notSpace] <;>
      split <;> simp_all

/-- What holds between two bytes whatever was read. -/
structure Settled (m : Machine) : Prop where
  /-- A dropped comment is remembered only until the next byte of text. -/
  gap : m.commentGap = true → m.state = .text .solid
  /-- Outside the start of a line, a block comment returns to the mode the text is in. -/
  resumes : ∀ mode, m.state = .text mode → mode ≠ .fresh → m.resume = mode
  /-- A literal was opened by a quote. -/
  quotes : ∀ quote escaped, m.state = .quoted quote escaped → isQuote quote = true

theorem Settled.mark {m : Machine} (settled : Settled m) (returned : Bool) :
    Settled { m with afterReturn := returned } :=
  ⟨settled.gap, settled.resumes, settled.quotes⟩

theorem Settled.noGap {m : Machine} (settled : Settled m) (away : m.state ≠ .text .solid) :
    m.commentGap = false := by
  simpa using mt settled.gap away

theorem ReadsText.settled {m m' : Machine} {c : UInt8} {out : Bytes}
    (h : ReadsText m c m' out) : Settled m' := by
  constructor
  · intro gap
    cases h <;> cases gap
  · intro mode inText _
    cases h with
    | owe => simpa [enterText] using inText
    | hold => cases isRegex : precedesRegex m.lastRead <;> simp [enter, isRegex] at inText
    | quote => simp [enter] at inText
    | plain => simpa [enterText] using inText
  · intro quote escaped inQuotes
    cases h with
    | owe => simp [enterText] at inQuotes
    | hold => cases isRegex : precedesRegex m.lastRead <;> simp [enter, isRegex] at inQuotes
    | quote _ _ opens =>
      obtain ⟨rfl, -⟩ : c = quote ∧ false = escaped := by simpa [enter] using inQuotes
      exact opens
    | plain => simp [enterText] at inQuotes

theorem Reads.settled {m m' : Machine} {c : UInt8} {out : Bytes}
    (h : Reads m c m' out) (settled : Settled m) : Settled m' := by
  cases h with
  | skip => exact settled
  | text _ _ _ reads => exact reads.settled
  | divide _ _ _ reads => exact reads.settled
  | blockEnd here =>
    exact ⟨fun gap => by simpa using gap, fun mode inText _ => by simpa using inText, nofun⟩
  | _ =>
    have gap := settled.noGap (by grind)
    constructor
    · simp [enter, enterText, wrote, gap]
    · grind [enter, enterText, wrote]
    · grind [enter, enterText, wrote, settled.quotes]

end Machine

open Machine

/-- Induction on a script byte by byte, with the machine and what is written so far. -/
theorem run_induction {P : Bytes → Machine → Bytes → Prop} (nil : P [] .start [])
    (snoc : ∀ p b m' out, P p (after p) (written p) → Steps (after p) b m' out →
      after (p ++ [b]) = m' → written (p ++ [b]) = written p ++ out →
      P (p ++ [b]) m' (written p ++ out))
    (p : Bytes) : P p (after p) (written p) := by
  induction p using List.reverseRecOn with
  | nil => exact nil
  | append_singleton p b ih =>
    rw [written_snoc, after_snoc]
    exact snoc p b _ _ ih (steps_step _ b) (after_snoc p b) (written_snoc p b)

/-- A property of machines that every byte read preserves holds after every script. -/
theorem invariant_after {I : Machine → Prop} (start : I .start)
    (mark : ∀ m r, I m → I { m with afterReturn := r })
    (reads : ∀ m c m' out last, I m → Reads m c m' out → I { m' with lastRead := last })
    (p : Bytes) : I (after p) := by
  refine run_induction (P := fun _ m _ => I m) start ?_ p
  intro p b m' out ih stepped _ _
  cases stepped with
  | nothing => exact mark _ _ ih
  | reads _ h => exact reads _ _ _ _ _ (mark _ _ ih) h

/-- **The machine remembers the last byte written other than a space.** -/
theorem lastWritten_after (p : Bytes) : (after p).lastWritten = lastVisible (written p) := by
  refine run_induction (P := fun _ m out => m.lastWritten = lastVisible out) rfl ?_ p
  intro p b m' out ih stepped _ _
  rw [lastVisible_append, ← ih]
  cases stepped with
  | nothing => simp
  | reads _ h => exact h.lastWritten

theorem settled_after (p : Bytes) : Settled (after p) := by
  refine invariant_after ⟨nofun, fun mode inText _ => by cases inText; rfl, nofun⟩ ?_ ?_ p
  · intro m r settled
    exact settled.mark r
  · intro m c m' out last settled reads
    have := reads.settled settled
    exact ⟨this.gap, this.resumes, this.quotes⟩

end PageBundle.Script
