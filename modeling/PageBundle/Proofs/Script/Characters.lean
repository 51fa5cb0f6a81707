import PageBundle.Proofs.Script.Provenance
import PageBundle.Proofs.Text.Utf8

/-!
# Characters of a minified script

The machine knows bytes only, and a character outside ASCII has several. Its first byte takes the
machine to a state that drops every byte of it (`State.drops`) or to one that copies the rest of it
(`State.carries`), and the other bytes, none of which is ASCII, leave the machine there. So what is
written for a character is ASCII, or ASCII with the whole character after it (`written_char`), and
the minified form of a text is a text again, however its bytes were cut.
-/

namespace PageBundle.Script

open Utf8 (isWide)

/-- The states in which bytes outside ASCII are dropped. -/
def State.drops : State → Bool
  | .lineComment | .blockComment false => true
  | _ => false

/-- The states in which a byte outside ASCII was just copied. -/
def State.carries : State → Bool
  | .text .solid | .regexLine | .keptComment | .quoted _ false => true
  | _ => false

namespace Machine

theorem held_low (m : Machine) : ∀ b ∈ m.held, b < 0x80 := by
  have blank : m.heldSpace.all (· < 0x80) = true := by
    unfold heldSpace
    split <;> rfl
  have slash : m.state.heldSlash.all (· < 0x80) = true := by
    unfold State.heldSlash
    split <;> rfl
  have whole : m.held.all (· < 0x80) = true := by
    rw [Machine.held, List.all_append, blank, slash]
    rfl
  intro b mem
  exact of_decide_eq_true (List.all_eq_true.1 whole b mem)

/-- For an ASCII byte only ASCII is written. -/
theorem Steps.low {m m' : Machine} {b : UInt8} {out : Bytes} (h : Steps m b m' out)
    (settled : Settled m) (low : b < 0x80) : ∀ c ∈ out, c < 0x80 := by
  obtain ⟨y, le, gives⟩ := h.held settled
  intro c mem
  rcases List.mem_append.1 (le.subset (List.mem_append_left _ mem)) with held | read
  · exact m.held_low c held
  · rcases gives c (by simpa using read) with ⟨-, rfl⟩ | ⟨rfl, -⟩
    · unfold shown
      split
      · decide
      · exact low
    · decide

theorem ne_of_high {b c : UInt8} (high : ¬ b < 0x80) (low : c < 0x80) : b ≠ c := by
  rintro rfl
  exact high low

theorem isOneOf_high {cs : List Char} {c : UInt8} (low : cs.all (ascii · < 0x80) = true)
    (high : ¬ c < 0x80) : isOneOf cs c = false := by
  by_contra one
  exact high (of_decide_eq_true (of_isOneOf (p := (· < 0x80)) low (Bool.not_eq_false _ ▸ one)))

theorem ReadsText.high {m m' : Machine} {c : UInt8} {out : Bytes} (h : ReadsText m c m' out)
    (high : ¬ c < 0x80) :
    (∃ lead, out = lead ++ [c]) ∧ m'.held = [] ∧ m'.state = .text .solid := by
  cases h with
  | owe isSpace => exact absurd isSpace (ne_of_high high (by decide))
  | hold isSlash => exact absurd isSlash (ne_of_high high (by decide))
  | quote _ _ opens =>
    rw [isQuote, isOneOf_high (by decide) high] at opens
    cases opens
  | plain =>
    have noBreak : c ≠ newline := ne_of_high high (by decide)
    have noSwallow : swallowsSpace c = false := isOneOf_high (by decide) high
    have solid : TextMode.of c = .solid := by simp [TextMode.of, noBreak, noSwallow]
    rw [solid]
    exact ⟨⟨_, rfl⟩, rfl, rfl⟩

/-- A byte outside ASCII is dropped or written last, and the machine is ready to do the same to the
rest of the character. -/
theorem Reads.high {m m' : Machine} {c : UInt8} {out : Bytes} (h : Reads m c m' out)
    (settled : Settled m) (high : ¬ c < 0x80) :
    (out = [] ∧ m'.state.drops = true ∧ m.state.carries = false) ∨
      ((∃ lead, out = lead ++ [c]) ∧ m'.held = [] ∧ m'.state.carries = true ∧
        m.state.drops = false) := by
  have other {d : UInt8} (same : c = d) (low : d < 0x80) : False := ne_of_high high low same
  -- Outside plain text nothing but the slash is held besides an owed space.
  have free (state : State) (away : m.state ≠ .text .solid) (none : state.heldSlash = []) :
      ((m.wrote c).enter state).held = [] := by
    have gap : (m.wrote c).commentGap = false := settled.noGap away
    simpa [Machine.held, heldSpace, enter, wrote, none] using gap
  cases h with
  | skip _ _ _ blank => rcases blank with same | same <;> exact (other same (by decide)).elim
  | text _ here _ reads =>
    obtain ⟨lead, free, solid⟩ := reads.high high
    exact .inr ⟨lead, free, by rw [solid]; rfl, by rw [here]; rfl⟩
  | divide here _ _ reads =>
    obtain ⟨⟨lead, rfl⟩, free, solid⟩ := reads.high high
    exact .inr ⟨⟨m.lead (ascii '/') ++ ascii '/' :: lead, by simp⟩, free, by rw [solid]; rfl,
      by rw [here]; rfl⟩
  | openRegex here =>
    have noBreak : c ≠ newline := (other · (by decide))
    rw [if_neg noBreak]
    exact .inr ⟨⟨m.lead (ascii '/') ++ [ascii '/'], by simp⟩,
      free .regexLine (by simp [here]) rfl, rfl, by rw [here]; rfl⟩
  | regexLine here =>
    have noBreak : c ≠ newline := (other · (by decide))
    rw [if_neg noBreak]
    exact .inr ⟨⟨_, rfl⟩, free .regexLine (by simp [here]) rfl, rfl, by rw [here]; rfl⟩
  | lineSkip here => exact .inl ⟨rfl, by rw [here]; rfl, by rw [here]; rfl⟩
  | blockSkip here =>
    have noStar : c ≠ ascii '*' := (other · (by decide))
    rw [if_neg noStar]
    exact .inl ⟨rfl, rfl, by rcases here with ⟨_, here⟩ | here <;> rw [here] <;> rfl⟩
  | keptMore here =>
    have noStar : c ≠ ascii '*' := (other · (by decide))
    rw [if_neg noStar]
    exact .inr ⟨⟨_, rfl⟩, free .keptComment (by grind) rfl, rfl,
      by rcases here with here | here <;> rw [here] <;> rfl⟩
  | quotedMore quote escaped here =>
    have noEscape : (!escaped && c == ascii '\\') = false := by
      simpa using fun _ same => other same (by decide)
    rw [noEscape]
    exact .inr ⟨⟨_, rfl⟩, free (.quoted quote false) (by simp [here]) rfl, rfl, by rw [here]; rfl⟩
  | quotedEnd here =>
    have opened := settled.quotes c false here
    rw [isQuote, isOneOf_high (by decide) high] at opened
    cases opened
  | breakLine _ same | openLine _ same | openBlock _ same | lineBreak _ same | lineEnd _ same
  | blockEnd _ same | keep _ same | keptEnd _ same => exact (other same (by decide)).elim

end Machine

open Machine

/-- What a byte outside ASCII does after `p`. -/
inductive ReadsHigh (p : Bytes) (b : UInt8) : Prop
  | dropped (silent : written (p ++ [b]) = written p)
      (drops : (after (p ++ [b])).state.drops = true) (unlike : (after p).state.carries = false)
  /-- The byte is written after bytes that were held. -/
  | copied (lead : Bytes) (held : lead.Sublist (after p).held)
      (wrote : written (p ++ [b]) = written p ++ lead ++ [b])
      (free : (after (p ++ [b])).held = []) (carries : (after (p ++ [b])).state.carries = true)
      (unlike : (after p).state.drops = false)

theorem readsHigh (p : Bytes) {b : UInt8} (high : ¬ b < 0x80) : ReadsHigh p b := by
  have settled := settled_after p
  have printable : ¬ b < 0x20 := fun small => high (UInt8.lt_trans small (by decide))
  obtain ⟨n, reads, next⟩ := (steps_step (after p) b).of_meaning (meaning_printable _ printable)
  have reached : (after (p ++ [b])).state = n.state ∧ (after (p ++ [b])).held = n.held := by
    rw [after_snoc, next]
    exact ⟨rfl, rfl⟩
  rcases reads.high (settled.mark _) high with
    ⟨nothing, drops, unlike⟩ | ⟨⟨lead, copied⟩, free, carries, unlike⟩
  · refine .dropped ?_ (reached.1 ▸ drops) unlike
    rw [written_snoc, nothing, List.append_nil]
  · refine .copied lead ?_ ?_ (reached.2.trans free) (reached.1 ▸ carries) unlike
    · obtain ⟨y, le, -⟩ := reads.held (settled.mark _)
      have order : (lead ++ [b]).Sublist ((after p).held ++ [y]) := by
        rw [← copied]
        exact (List.sublist_append_left _ _).trans le
      -- What is held is ASCII, so the byte itself can only be the last one.
      have same : y = b := by
        rcases List.mem_append.1 (order.subset (List.mem_append_right lead List.mem_cons_self)) with
          held | last
        · exact absurd (held_low _ b held) high
        · exact (List.mem_singleton.1 last).symm
      rw [same] at order
      exact (List.append_sublist_append_right [b]).1 order
    · rw [written_snoc, copied, List.append_assoc]

/-- The rest of a character that was dropped is dropped. -/
theorem written_dropped {bs : Bytes} (high : ∀ b ∈ bs, ¬ b < 0x80) :
    ∀ p, (after p).state.drops = true → written (p ++ bs) = written p := by
  induction bs with
  | nil => simp
  | cons b bs ih =>
    intro p drops
    obtain ⟨first, rest⟩ := List.forall_mem_cons.1 high
    cases readsHigh p first with
    | dropped silent drops' => rw [List.append_cons, ih rest _ drops', silent]
    | copied _ _ _ _ _ unlike => simp [drops] at unlike

/-- The rest of a character that was copied is copied. -/
theorem written_carried {bs : Bytes} (high : ∀ b ∈ bs, ¬ b < 0x80) :
    ∀ p, (after p).held = [] → (after p).state.carries = true →
      written (p ++ bs) = written p ++ bs := by
  induction bs with
  | nil => simp
  | cons b bs ih =>
    intro p free carries
    obtain ⟨first, rest⟩ := List.forall_mem_cons.1 high
    cases readsHigh p first with
    | dropped _ _ unlike => simp [carries] at unlike
    | copied lead held wrote free' carries' =>
      rw [free, List.sublist_nil] at held
      rw [List.append_cons, ih rest _ free' carries', wrote, held]
      simp

/-- **A character outside ASCII is dropped or written whole**, after bytes that were held. -/
theorem written_high (p : Bytes) {bs : Bytes} (high : ∀ b ∈ bs, ¬ b < 0x80) :
    written (p ++ bs) = written p ∨
      ∃ lead, lead.Sublist (after p).held ∧ written (p ++ bs) = written p ++ lead ++ bs := by
  cases bs with
  | nil => exact .inl (by rw [List.append_nil])
  | cons b bs =>
    obtain ⟨first, rest⟩ := List.forall_mem_cons.1 high
    rw [List.append_cons]
    cases readsHigh p first with
    | dropped silent drops =>
      left
      rw [written_dropped rest _ drops, silent]
    | copied lead held wrote free carries =>
      right
      refine ⟨lead, held, ?_⟩
      rw [written_carried rest _ free carries, wrote]
      simp

/-- What is written for a character is the bytes of characters, of which at most that one is not
ASCII. -/
theorem written_char (p : Bytes) (c : Char) :
    ∃ cs, written (p ++ String.utf8EncodeChar c) = written p ++ Utf8.encode cs ∧
      (cs.filter isWide).Sublist ([c].filter isWide) := by
  cases wide : isWide c with
  | false =>
    rw [Utf8.encode_narrow wide, written_snoc]
    obtain ⟨cs, same, narrow⟩ := Utf8.exists_encode_eq
      ((steps_step (after p) _).low (settled_after p) (Utf8.ofNat_narrow wide))
    exact ⟨cs, by rw [same], by rw [narrow]; exact List.nil_sublist _⟩
  | true =>
    rcases written_high p (Utf8.encode_wide wide) with dropped | ⟨lead, le, copied⟩
    · exact ⟨[], by simpa using dropped, List.nil_sublist _⟩
    · obtain ⟨cs, same, narrow⟩ :=
        Utf8.exists_encode_eq fun b mem => held_low (after p) b (le.subset mem)
      refine ⟨cs ++ [c], ?_, by simp [narrow]⟩
      rw [copied, Utf8.encode_append, same, List.append_assoc]
      simp [Utf8.encode]

/-- What is written while a text is read is the bytes of a text, whose characters outside ASCII are
among those read and in their order. -/
theorem exists_written_eq (s : List Char) :
    ∃ cs, written (Utf8.encode s) = Utf8.encode cs ∧
      (cs.filter isWide).Sublist (s.filter isWide) := by
  induction s using List.reverseRecOn with
  | nil => exact ⟨[], rfl, .slnil⟩
  | append_singleton s c ih =>
    obtain ⟨cs, before, order⟩ := ih
    obtain ⟨ds, now, kept⟩ := written_char (Utf8.encode s) c
    refine ⟨cs ++ ds, ?_, ?_⟩
    · have last : Utf8.encode [c] = String.utf8EncodeChar c := by simp [Utf8.encode]
      rw [Utf8.encode_append, Utf8.encode_append, last, now, before]
    · rw [List.filter_append, List.filter_append]
      exact order.append kept

/-- The minified bytes of a text are the bytes of a text. -/
theorem exists_minify_eq (s : List Char) :
    ∃ cs, minify (Utf8.encode s) = Utf8.encode cs ∧
      (cs.filter isWide).Sublist (s.filter isWide) := by
  obtain ⟨cs, before, order⟩ := exists_written_eq s
  obtain ⟨ds, last, narrow⟩ := Utf8.exists_encode_eq fun b mem =>
    held_low _ b ((finish_sublist (after (Utf8.encode s))).subset mem)
  refine ⟨cs ++ ds, by rw [minify_eq, before, Utf8.encode_append, last], ?_⟩
  rw [List.filter_append, narrow, List.append_nil]
  exact order

/-- The minified bytes of a text are the bytes of its minified text. -/
theorem ofString_minifyText (s : String) :
    Utf8.ofString (minifyText s) = minify (Utf8.ofString s) := by
  obtain ⟨cs, output, -⟩ := exists_minify_eq s.toList
  rw [minifyText, Utf8.ofString, Utf8.ofString, output, Utf8.decode?_encode, Option.getD_some,
    String.toList_ofList]

variable {ε : Type}

/-- **The minified form of a text is one text however its bytes arrive**: cut into chunks, read from
a reader, or whole. It is read back without replacement characters, and of the characters outside
ASCII each is kept whole or dropped, in the order of the script. -/
theorem minify_text_however_cut (s : String) :
    (∀ chunks : List Bytes, chunks.flatten = Utf8.ofString s →
      minifyChunks chunks = Utf8.ofString (minifyText s) ∧
      ((∀ chunk ∈ chunks, chunk ≠ []) → ∀ later : List (Except ε Bytes),
        minifyReads (chunks.map .ok ++ .ok [] :: later) = .ok (Utf8.ofString (minifyText s)))) ∧
    Utf8.decode? (minify (Utf8.ofString s)) = some (minifyText s).toList ∧
    ((minifyText s).toList.filter isWide).Sublist (s.toList.filter isWide) := by
  obtain ⟨cs, output, order⟩ := exists_minify_eq s.toList
  have readable : Utf8.decode? (minify (Utf8.ofString s)) = some cs := by
    rw [Utf8.ofString, output, Utf8.decode?_encode]
  have text : (minifyText s).toList = cs := by
    rw [minifyText, readable, Option.getD_some, String.toList_ofList]
  have bytes : Utf8.ofString (minifyText s) = minify (Utf8.ofString s) := by
    rw [Utf8.ofString, text, ← output]
    rfl
  refine ⟨fun chunks whole => ⟨?_, fun nonempty later => ?_⟩, by rw [readable, text], ?_⟩
  · rw [minifyChunks_eq, whole, bytes]
  · rw [minifyReads_eq nonempty, whole, bytes]
  · rw [text]
    exact order

/-- The script `a = 'é' // ñ` with another line, cut inside of both characters and inside of the
line terminator. -/
theorem minify_text_cut_inside_characters :
    let text := "a = 'é' // ñ\r\nb"
    let chunks : List Bytes := [[0x61, 0x20, 0x3D, 0x20, 0x27, 0xC3], [0xA9, 0x27, 0x20, 0x2F],
      [0x2F, 0x20, 0xC3], [0xB1, 0x0D], [0x0A, 0x62]]
    let minified := [0x61, 0x20, 0x3D, 0x27, 0xC3, 0xA9, 0x27, 0x0A, 0x62]
    minifyChunks chunks = minified ∧ Utf8.ofString (minifyText text) = minified ∧
      (minifyReads (chunks.map .ok ++ [.ok []]) : Except String Bytes) = .ok minified := by
  intro text chunks minified
  obtain ⟨fed, delivered⟩ := (@minify_text_however_cut String text).1 chunks (by decide)
  have output : minifyChunks chunks = minified := by decide
  have same : Utf8.ofString (minifyText text) = minified := fed.symm.trans output
  exact ⟨output, same, by rw [← same]; exact delivered (by decide) []⟩

end PageBundle.Script
