import PageBundle.Proofs.Script.Edge
import PageBundle.Proofs.Script.Idempotence

/-!
# Scripts that are minified already

A script without slashes and quotes is plain text from its first byte to its last, so what the
minifier makes of it can be said without the machine. `condense` adds the bytes one by one to what
stands so far; only the last byte of that decides whether white space counts. `echo_eq_condense` says
that the machine does the same. Condensed text is in normal form (`IsNormal`), and condensing changes
nothing in a text of that form, so these texts are those that minifying leaves as they are
(`minify_eq_self_iff`).
-/

namespace PageBundle.Script

/-- Whether a byte begins a literal, a division or a comment. -/
def isOpening (b : UInt8) : Bool :=
  isOneOf ['/', '\'', '"', '\x60'] b

/-- The bytes after which white space never counts. -/
def dropsWhite (b : UInt8) : Bool :=
  isOneOf [' ', '\n', '{', ',', ';', ':', '=', '(', '[', '!', '&', '|', '?'] b

/-- White space follows only bytes after which it counts. -/
def Spaced (x : Bytes) : Prop :=
  ∀ p b s, x = p ++ b :: s → b = space ∨ b = newline →
    ∃ d, p.getLast? = some d ∧ dropsWhite d = false

/-- The normal form of plain text: nothing in it is left to be dropped. -/
structure IsNormal (x : Bytes) : Prop where
  control : ∀ b ∈ x, b < 0x20 → b = newline
  spaced : Spaced x
  last : x.getLast? ≠ some space

/-- The mode of plain text that ends in `out`. -/
def modeAfter (out : Bytes) : TextMode :=
  match out.getLast? with
  | none => .spaced
  | some d => .of d

/-- Adds to plain text what a byte means: white space where it counts, a line feed in the place of a
space, and every other byte. -/
def extend (out : Bytes) (c : UInt8) : Bytes :=
  if c = space then if modeAfter out = .solid then out ++ [space] else out
  else if c = newline then
    if modeAfter out = .solid then out ++ [newline]
    else if out.getLast? = some space then out.dropLast ++ [newline] else out
  else out ++ [c]

/-- What a byte means in plain text. -/
def plainMeaning (b : UInt8) : Option UInt8 :=
  if b = newline ∨ b = carriageReturn then some newline
  else if b = tab then some space
  else if b < 0x20 then none
  else some b

/-- Plain text without the white space and the control bytes that do not count. -/
def condense (x : Bytes) : Bytes :=
  (x.filterMap plainMeaning).foldl extend []

@[simp] theorem condense_nil : condense [] = [] := rfl

theorem condense_snoc (x : Bytes) (b : UInt8) :
    condense (x ++ [b]) = (plainMeaning b).elim (condense x) (extend (condense x)) := by
  cases means : plainMeaning b <;> simp [condense, means]

/-! ## The normal form -/

theorem spaced_nil : Spaced [] := by
  intro p b s split
  simp at split

theorem Spaced.of_append {x y : Bytes} (spaced : Spaced (x ++ y)) : Spaced x :=
  fun p b s split => spaced p b (s ++ y) (by simp [split])

/-- One byte more. -/
theorem spaced_snoc {x : Bytes} {b : UInt8} : Spaced (x ++ [b]) ↔
    Spaced x ∧ (b = space ∨ b = newline → ∃ d, x.getLast? = some d ∧ dropsWhite d = false) := by
  constructor
  · intro spaced
    exact ⟨spaced.of_append, spaced x b [] rfl⟩
  · rintro ⟨spaced, last⟩ p c s split
    rcases List.eq_nil_or_concat s with rfl | ⟨s, d, rfl⟩
    · obtain ⟨rfl, same⟩ := List.append_inj' split rfl
      obtain rfl : b = c := by simpa using same
      exact last
    · rw [List.concat_eq_append, ← List.cons_append, ← List.append_assoc] at split
      exact spaced p c s (List.append_inj' split rfl).1

theorem modeAfter_snoc (out : Bytes) (c : UInt8) : modeAfter (out ++ [c]) = .of c := by
  simp [modeAfter]

/-- White space counts exactly where the mode is solid. -/
theorem modeAfter_eq_solid_iff {out : Bytes} :
    modeAfter out = .solid ↔ ∃ d, out.getLast? = some d ∧ dropsWhite d = false := by
  have same (d : UInt8) : TextMode.of d = .solid ↔ dropsWhite d = false := by
    simp only [TextMode.of, swallowsSpace, dropsWhite, isOneOf, List.any_cons, List.any_nil]
    have lineFeed : ascii '\n' = newline := rfl
    grind
  cases last : out.getLast? with
  | none => simp [modeAfter, last]
  | some d => simp [modeAfter, last, same]

/-- A byte with a meaning means a line feed, a space or itself. -/
theorem plainMeaning_eq_some {b c : UInt8} (means : plainMeaning b = some c) :
    c < 0x20 → c = newline := by
  unfold plainMeaning at means
  have low : ¬ space < 0x20 := by decide
  grind

theorem spaced_extend {out : Bytes} (spaced : Spaced out) (c : UInt8) : Spaced (extend out c) := by
  have adds (solid : modeAfter out = .solid) (d : UInt8) : Spaced (out ++ [d]) :=
    spaced_snoc.2 ⟨spaced, fun _ => modeAfter_eq_solid_iff.1 solid⟩
  unfold extend
  split
  · split
    · rename_i solid
      exact adds solid space
    · exact spaced
  · rename_i noSpace
    split
    · split
      · rename_i solid
        exact adds solid newline
      · split
        · rename_i last
          -- The line feed follows what the space followed.
          obtain ⟨before, rfl⟩ := List.getLast?_eq_some_iff.1 last
          obtain ⟨before', follows⟩ := spaced_snoc.1 spaced
          rw [List.dropLast_concat]
          exact spaced_snoc.2 ⟨before', fun _ => follows (.inl rfl)⟩
        · exact spaced
    · rename_i noBreak
      exact spaced_snoc.2 ⟨spaced, fun blank => absurd blank (by simp [noSpace, noBreak])⟩

theorem mem_of_mem_extend {out : Bytes} {b c : UInt8} (member : b ∈ extend out c) :
    b ∈ out ∨ b = c := by
  unfold extend at member
  have shorter : b ∈ out.dropLast → b ∈ out := List.mem_of_mem_dropLast
  grind

/-- **Condensed text is in normal form**, but for a space at its end. -/
theorem spaced_condense (x : Bytes) :
    Spaced (condense x) ∧ ∀ b ∈ condense x, b < 0x20 → b = newline := by
  induction x using List.reverseRecOn with
  | nil => exact ⟨spaced_nil, by simp⟩
  | append_singleton x b ih =>
    rw [condense_snoc]
    cases means : plainMeaning b with
    | none => exact ih
    | some c =>
      refine ⟨spaced_extend ih.1 c, fun d member low => ?_⟩
      rcases mem_of_mem_extend member with before | rfl
      · exact ih.2 d before low
      · exact plainMeaning_eq_some means low

/-- **Condensing changes nothing in normal form.** -/
theorem condense_of_spaced {x : Bytes} (spaced : Spaced x)
    (control : ∀ b ∈ x, b < 0x20 → b = newline) : condense x = x := by
  induction x using List.reverseRecOn with
  | nil => rfl
  | append_singleton x b ih =>
    obtain ⟨before, follows⟩ := spaced_snoc.1 spaced
    have same : condense x = x := ih before fun c member =>
      control c (List.mem_append_left _ member)
    have means : plainMeaning b = some b := by
      have low := control b (by simp)
      have isLow : carriageReturn < 0x20 ∧ tab < 0x20 := by decide
      have other : carriageReturn ≠ newline ∧ tab ≠ newline := by decide
      unfold plainMeaning
      grind
    have solid (blank : b = space ∨ b = newline) : modeAfter x = .solid :=
      modeAfter_eq_solid_iff.2 (follows blank)
    rw [condense_snoc, means, same, Option.elim_some, extend]
    split
    · rename_i isSpace
      rw [if_pos (solid (.inl isSpace)), isSpace]
    · split
      · rename_i isBreak
        rw [if_pos (solid (.inr isBreak)), isBreak]
      · rfl

/-! ## The machine in plain text -/

/-- There is nothing in a script but plain text. -/
def IsPlain (x : Bytes) : Prop :=
  ∀ b ∈ x, isOpening b = false

theorem IsPlain.of_prefix {x p : Bytes} (plain : IsPlain x) (part : p <+: x) : IsPlain p :=
  fun b member => plain b (part.subset member)

namespace Machine

/-- After a byte that opens nothing the mode goes by that byte. -/
theorem ReadsText.state_eq {m m' : Machine} {c : UInt8} {out : Bytes} (h : ReadsText m c m' out)
    (plain : isOpening c = false) : m'.state = .text (.of c) := by
  cases h with
  | owe isSpace =>
    subst isSpace
    rfl
  | hold isSlash =>
    subst isSlash
    cases plain
  | quote _ _ opens => rcases isQuote_cases opens with rfl | rfl | rfl <;> cases plain
  | plain => rfl

/-- What opens nothing leads from plain text to plain text. -/
theorem Reads.isText {m m' : Machine} {c : UInt8} {out : Bytes} (h : Reads m c m' out)
    (inText : m.state.isText = true) (plain : isOpening c = false) : m'.state.isText = true := by
  cases h with
  | skip => exact inText
  | breakLine => rfl
  | text _ _ _ reads =>
    rw [reads.state_eq plain]
    rfl
  | _ => grind [State.isText]

/-- In plain text only a space is held back. -/
theorem held_of_isText {m : Machine} (inText : m.state.isText = true) (gap : m.commentGap = false) :
    m.held = if m.spaceOwed then [space] else [] := by
  cases here : m.state with
  | text mode => simp [held, heldSpace, gap, here, State.heldSlash]
  | _ => simp [here, State.isText] at inText

/-- **What is written and held back grows as condensed text does**, and the mode goes by its last
byte. -/
theorem Reads.extends {m m' : Machine} {c : UInt8} {out : Bytes} (h : Reads m c m' out)
    (before : Bytes) (tidy : Tidy m)
    (place : m.state = .text (modeAfter (before ++ m.held)))
    (visible : before.getLast? ≠ some space) (plain : isOpening c = false) :
    before ++ (out ++ m'.held) = extend (before ++ m.held) c ∧
      m'.state = .text (modeAfter (extend (before ++ m.held) c)) := by
  have inText : m.state.isText = true := by rw [place]; rfl
  have held := held_of_isText inText tidy.gap
  have noBreak : space ≠ newline := by decide
  cases h with
  | skip mode here soft blank free =>
    have sameMode : mode = modeAfter (before ++ m.held) := State.text.inj (here.symm.trans place)
    have same : extend (before ++ m.held) c = before ++ m.held := by
      rw [sameMode] at soft
      rcases blank with rfl | rfl
      · simp [extend, soft]
      · -- No space is owed that the line feed could replace.
        have noSpace : (before ++ m.held).getLast? ≠ some space := by
          cases owed : m.spaceOwed with
          | false => simpa [held, owed] using visible
          | true =>
            obtain ⟨spaced, ends⟩ : m.state = .text .spaced ∧ m.mayEndStatement = true := by
              rcases tidy.owes owed with spaced | slash | slash
              · exact spaced
              · simp [slash, State.isText] at inText
              · simp [slash, State.isText] at inText
            have := free (State.text.inj (here.symm.trans spaced)) rfl
            simp [owed, ends] at this
        rw [extend, if_neg noBreak.symm, if_pos rfl, if_neg soft, if_neg noSpace]
    rw [same]
    exact ⟨by simp, place⟩
  | breakLine here isBreak owed ends =>
    subst isBreak
    have spaced : modeAfter (before ++ m.held) = .spaced := State.text.inj (place.symm.trans here)
    have free : ((m.wrote newline).enterText .fresh).held = [] := Machine.held_eq_nil rfl tidy.gap rfl
    have replaced : extend (before ++ m.held) newline = before ++ [newline] := by
      rw [extend, spaced]
      simp [held, owed, noBreak.symm]
    rw [replaced, free, modeAfter_snoc]
    exact ⟨rfl, rfl⟩
  | text mode here solid reads =>
    have sameMode : mode = modeAfter (before ++ m.held) := State.text.inj (here.symm.trans place)
    rw [sameMode] at solid
    have slash : m.state.heldSlash = [] := by rw [place]; rfl
    have total : out ++ m'.held = m.held ++ [c] := by
      rw [reads.conserves tidy.gap fun blank => tidy.unowed (by simp [place, solid blank]) slash,
        Machine.held, slash, List.append_nil]
    have longer : extend (before ++ m.held) c = before ++ m.held ++ [c] := by
      unfold extend
      grind
    rw [longer, modeAfter_snoc, total, List.append_assoc]
    exact ⟨rfl, reads.state_eq plain⟩
  | _ => grind [State.isText]

end Machine

open Machine

theorem isOpening_of_meaning {m : Machine} {b c : UInt8} (means : m.meaning b = some c)
    (plain : isOpening b = false) : isOpening c = false := by
  rcases meaning_eq_some means with ⟨rfl, -⟩ | ⟨-, rfl⟩ | ⟨-, rfl⟩
  · decide
  · cases m.state.isVerbatim <;> decide
  · exact plain

theorem isText_after {p : Bytes} (plain : IsPlain p) : (after p).state.isText = true := by
  revert plain
  refine run_induction (P := fun p m _ => IsPlain p → m.state.isText = true) (fun _ => rfl) ?_ p
  intro p b m' out ih stepped _ _ plain
  have before := ih (plain.of_prefix (List.prefix_append p [b]))
  cases stepped with
  | nothing => exact before
  | reads means reads => exact reads.isText before (isOpening_of_meaning means (plain b (by simp)))

theorem getLast?_written_ne_space {p : Bytes} (plain : IsPlain p) :
    (written p).getLast? ≠ some space := by
  rw [getLast?_written p (State.isVerbatim_of_isText (isText_after plain))]
  intro last
  simpa [lastVisible] using List.mem_of_getLast? last

theorem commentFree_of_isPlain {p : Bytes} (plain : IsPlain p) : CommentFree p := by
  intro q part
  have inText := isText_after (plain.of_prefix part)
  cases here : (after q).state with
  | text => rfl
  | _ => simp [here, State.isText] at inText

/-- What a byte means to the machine in plain text does not depend on the machine, but that the line
feed of a line terminator is read only once. -/
theorem meaning_of_isText {m : Machine} (inText : m.state.isText = true) (b : UInt8) :
    m.meaning b = plainMeaning b ∨
      m.meaning b = none ∧ m.afterReturn = true ∧ plainMeaning b = some newline := by
  have verbatim := State.isVerbatim_of_isText inText
  unfold meaning plainMeaning
  grind

/-- **In plain text the machine condenses what it reads**, and its mode goes by the last byte. -/
theorem echo_eq_condense {p : Bytes} (plain : IsPlain p) :
    echo p = condense p ∧ (after p).state = .text (modeAfter (condense p)) := by
  induction p using List.reverseRecOn with
  | nil => exact ⟨rfl, rfl⟩
  | append_singleton p b ih =>
    have before := plain.of_prefix (List.prefix_append p [b])
    obtain ⟨same, place⟩ := ih before
    have inText := isText_after before
    have tidy := tidy_after p (commentFree_of_isPlain before)
    have grows {c : UInt8} (free : isOpening c = false) (r : Bool) :=
      (reads_read { after p with afterReturn := r } c).extends (written p) (tidy.mark r)
        (by rw [← same] at place; exact place)
        (getLast?_written_ne_space before) free
    rw [echo, written_snoc, after_snoc, condense_snoc, List.append_assoc]
    rcases meaning_of_isText inText b with means | ⟨meaningless, returned, means⟩
    · cases read : plainMeaning b with
      | none =>
        rw [step_of_meaningless (means.trans read)]
        exact ⟨same, place⟩
      | some c =>
        have free := isOpening_of_meaning (means.trans read) (plain b (by simp))
        rw [step_of_meaning (means.trans read), Option.elim_some, ← same]
        exact grows free _
    · -- The line feed after a carriage return would change nothing.
      have again := read_newline_of_isText returned inText
      have idle := grows (c := newline) (by decide) true
      rw [mark_eq returned, again] at idle
      rw [step_of_meaningless meaningless, means, Option.elim_some, ← same]
      exact idle

theorem minify_of_isPlain {x : Bytes} (plain : IsPlain x) :
    minify x = written x ∧
      condense x = written x ++ if (after x).spaceOwed then [space] else [] := by
  have inText := isText_after plain
  have tidy := tidy_after x (commentFree_of_isPlain plain)
  obtain ⟨same, place⟩ := echo_eq_condense plain
  constructor
  · simp [minify_eq, finish, place]
  · rw [← same, echo, held_of_isText inText tidy.gap]

/-- **The scripts that minifying leaves as they are.** A script without slashes and quotes is its own
minified form exactly if it has no control byte but line feeds, its white space follows bytes after
which it counts, and it does not end in a space. -/
theorem minify_eq_self_iff (x : Bytes) (plain : ∀ b ∈ x, isOpening b = false) :
    minify x = x ↔ IsNormal x := by
  obtain ⟨output, condensed⟩ := minify_of_isPlain plain
  rw [output]
  constructor
  · intro same
    obtain ⟨spaced, control⟩ := spaced_condense x
    rw [condensed, same] at spaced control
    refine ⟨fun b member => control b (List.mem_append_left _ member), spaced.of_append, ?_⟩
    rw [← same]
    exact getLast?_written_ne_space plain
  · intro normal
    rw [condense_of_spaced normal.spaced normal.control] at condensed
    split at condensed
    · exact absurd (by rw [condensed]; simp) normal.last
    · rw [List.append_nil] at condensed
      exact condensed.symm

/-- White space where it counts, and white space where it does not. -/
theorem minify_eq_self_sample :
    let x := ['a', ' ', '=', 'b', ';', 'c', '\n', 'd'].map ascii
    let y := ['a', ' ', ';', ' ', 'b'].map ascii
    (∀ b ∈ x, isOpening b = false) ∧ minify x = x ∧ IsNormal x ∧
      (∀ b ∈ y, isOpening b = false) ∧ minify y ≠ y ∧ ¬ IsNormal y := by
  intro x y
  have plain : x.all (!isOpening ·) = true ∧ y.all (!isOpening ·) = true := by decide
  simp only [List.all_eq_true, Bool.not_eq_true'] at plain
  have same : minify x = x := by decide
  have other : minify y ≠ y := by decide
  have fixed := (minify_eq_self_iff x plain.1).1 same
  exact ⟨plain.1, same, fixed, plain.2, other, mt (minify_eq_self_iff y plain.2).2 other⟩

end PageBundle.Script
