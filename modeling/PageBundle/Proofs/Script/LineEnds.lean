import PageBundle.Artifact.Merge
import PageBundle.Proofs.Resource.Membership
import PageBundle.Proofs.Script.Characters
import PageBundle.Proofs.Script.Edge
import PageBundle.Proofs.Script.RegexLine
import PageBundle.Proofs.Text.Lines

/-!
# Minifying merged scripts

Merging ends every line by a line feed alone, and to the machine a carriage return before a line feed
makes no difference. So a script is minified alike whether its parts are merged or put one after
another. It is different only where a carriage return stands before a line terminator of two
characters: without the second carriage return the first one and the line feed are one terminator
instead of two. In plain text and in comments two are as good as one, but where line feeds are copied
one is lost (`minify_merged_iff`).
-/

namespace PageBundle.Script

open Text (closed endFrom missingEnd missingEnd_cons)
open Utf8 (encode)

/-- When the texts are read one after another, a carriage return and a line terminator of two
characters follow each other where line feeds are copied. -/
def LosesTerminator (texts : List String) : Prop :=
  ∃ earlier text later u v, texts = earlier ++ text :: later ∧
    text.toList = u ++ '\r' :: '\r' :: '\n' :: v ∧
    (after (encode (earlier.flatMap (closed ·.toList) ++ (u ++ ['\r'])))).state.isVerbatim = true

namespace Machine

/-! ## Reading ended lines -/

/-- Reading `ended` leads to where reading `plain` leads. It writes at most as many bytes, and the
same unless `loses`. -/
structure Ends (m : Machine) (ended plain : Bytes) (loses : Prop) : Prop where
  machine : (m.feed ended).1 = (m.feed plain).1
  length_le : (m.feed ended).2.length ≤ (m.feed plain).2.length
  written : (m.feed ended).2 = (m.feed plain).2 ↔ ¬ loses

theorem Ends.refl (m : Machine) (x : Bytes) : Ends m x x False :=
  ⟨rfl, Nat.le_refl _, by simp⟩

theorem Ends.append {m : Machine} {ended plain ended' plain' : Bytes} {loses loses' : Prop}
    (first : Ends m ended plain loses) (second : Ends (m.feed plain).1 ended' plain' loses') :
    Ends m (ended ++ ended') (plain ++ plain') (loses ∨ loses') := by
  have fewer := first.length_le
  have fewer' := second.length_le
  constructor
  · rw [feed_append, feed_append, first.machine, second.machine]
  · rw [feed_append, feed_append, first.machine, List.length_append, List.length_append]
    omega
  · rw [feed_append, feed_append, first.machine, not_or, ← first.written, ← second.written]
    constructor
    · intro same
      have total := congrArg List.length same
      simp only [List.length_append] at total
      exact List.append_inj same (by omega)
    · rintro ⟨same, same'⟩
      rw [same, same']

theorem Ends.congr {m : Machine} {ended plain : Bytes} {loses loses' : Prop}
    (ends : Ends m ended plain loses) (same : loses ↔ loses') : Ends m ended plain loses' :=
  ⟨ends.machine, ends.length_le, ends.written.trans (not_congr same)⟩

/-- A carriage return and a line feed are read as one line feed. -/
theorem feed_return_newline (m : Machine) : m.feed [carriageReturn, newline] =
    ((m.read newline).1.withMemory newline false, (m.read newline).2) := by
  have noSpace : (newline == space) = false := by decide
  have marked : ({ m with afterReturn := carriageReturn == carriageReturn } : Machine) =
      m.withMemory m.lastRead true := rfl
  have first : m.step carriageReturn =
      ((m.read newline).1.withMemory newline true, (m.read newline).2) := by
    rw [step_of_meaning (meaning_return m), marked, read_withMemory _ _ fun _ => rfl, noSpace]
    rfl
  have second : ((m.read newline).1.withMemory newline true).step newline =
      ((m.read newline).1.withMemory newline false, []) :=
    step_of_meaningless rfl
  rw [feed_cons, feed_cons, first, second]
  simp

theorem feed_newline {m : Machine} (unreturned : m.afterReturn = false) : m.feed [newline] =
    ((m.read newline).1.withMemory newline false, (m.read newline).2) := by
  have still : (m.read newline).1.afterReturn = false :=
    (reads_read m newline).afterReturn.trans unreturned
  rw [feed_cons, feed_nil, step_newline unreturned, List.append_nil]
  exact congrArg (·, _) (mark_eq (m := { (m.read newline).1 with lastRead := newline }) still).symm

end Machine

open Machine

/-- **A carriage return before a line feed makes a difference** only after another one, and only
where it is copied. -/
theorem ends_newline (p : Bytes) : Ends (after p) [newline] [carriageReturn, newline]
    ((after p).afterReturn = true ∧ (after p).state.isVerbatim = true) := by
  cases returned : (after p).afterReturn with
  | false =>
    have same : (after p).feed [newline] = (after p).feed [carriageReturn, newline] := by
      rw [feed_newline returned, feed_return_newline]
    exact ⟨by rw [same], by rw [same], by simp [same]⟩
  | true =>
    have unmoved : (after p).withMemory newline false = { after p with afterReturn := false } := by
      rw [← lastRead_of_afterReturn p returned]
      rfl
    have silent : (after p).feed [newline] = ((after p).withMemory newline false, []) := by
      rw [feed_cons, feed_nil, unmoved, step_of_meaningless (by rw [meaning_newline, returned]; rfl)]
      rfl
    have pair : (after p).feed [carriageReturn, newline] =
        ((after p).withMemory newline false,
          if (after p).state.isVerbatim then [newline] else []) := by
      rw [feed_return_newline, read_newline_of_afterReturn p returned]
    refine ⟨by rw [silent, pair], by rw [silent, pair]; simp, ?_⟩
    rw [silent, pair]
    cases (after p).state.isVerbatim <;> simp

theorem Machine.Ends.further {p ended plain ended' plain' : Bytes} {loses loses' : Prop}
    (first : Ends (after p) ended plain loses)
    (second : Ends (after (p ++ plain)) ended' plain' loses') :
    Ends (after p) (ended ++ ended') (plain ++ plain') (loses ∨ loses') :=
  first.append (after_append p plain ▸ second)

/-- What is read before both makes no difference. -/
theorem Machine.Ends.behind {p ended plain x : Bytes} {loses : Prop}
    (ends : Ends (after (p ++ x)) ended plain loses) :
    Ends (after p) (x ++ ended) (x ++ plain) loses :=
  ((Ends.refl (after p) x).further ends).congr (false_or loses).to_iff

/-! ## Reading ended texts -/

theorem encode_newline : encode ['\n'] = [newline] := rfl

theorem encode_return : encode ['\r'] = [carriageReturn] := rfl

/-- A line terminator of two characters in `cs`, read after `p`, follows a carriage return where
line feeds are copied. -/
def LosesFrom (p : Bytes) (cs : List Char) : Prop :=
  ∃ u v, cs = u ++ '\r' :: '\n' :: v ∧
    (after (p ++ encode u)).afterReturn = true ∧ (after (p ++ encode u)).state.isVerbatim = true

theorem not_losesFrom_nil (p : Bytes) : ¬ LosesFrom p [] := by
  rintro ⟨u, v, split, -⟩
  simp at split

theorem losesFrom_cons (p : Bytes) (c : Char) (cs : List Char) : LosesFrom p (c :: cs) ↔
    ((c = '\r' ∧ cs.head? = some '\n') ∧
      (after p).afterReturn = true ∧ (after p).state.isVerbatim = true) ∨
    LosesFrom (p ++ encode [c]) cs := by
  constructor
  · rintro ⟨u, v, split, copied⟩
    cases u with
    | nil =>
      obtain ⟨rfl, rfl⟩ := List.cons.inj split
      exact .inl ⟨⟨rfl, rfl⟩, by simpa using copied⟩
    | cons d u =>
      obtain ⟨rfl, rfl⟩ := List.cons.inj split
      refine .inr ⟨u, v, rfl, ?_⟩
      rwa [List.append_assoc, ← Utf8.encode_append]
  · rintro (⟨⟨rfl, next⟩, copied⟩ | ⟨u, v, rfl, copied⟩)
    · obtain ⟨v, rfl⟩ := List.head?_eq_some_iff.1 next
      exact ⟨[], v, rfl, by simpa using copied⟩
    · refine ⟨c :: u, v, rfl, ?_⟩
      rwa [List.append_assoc, ← Utf8.encode_append] at copied

/-- A text is read alike with its lines ended. -/
theorem ends_endFrom (begun : Bool) (cs : List Char) (p : Bytes) :
    Ends (after p) (encode (endFrom begun cs)) (encode (cs ++ missingEnd begun cs))
      (LosesFrom p cs) := by
  fun_induction endFrom begun cs generalizing p with
  | case1 => simpa [missingEnd] using (Ends.refl _ _).congr (iff_of_false id (not_losesFrom_nil p))
  | case2 begun unbegun =>
    simpa [missingEnd, unbegun] using
      (Ends.refl (after p) []).congr (iff_of_false id (not_losesFrom_nil p))
  | case3 begun cs ih =>
    have first : LosesFrom p ('\n' :: cs) ↔ LosesFrom (p ++ [newline]) cs := by
      simp [losesFrom_cons p, encode_newline]
    rw [missingEnd_cons]
    exact (ih (p ++ [newline])).behind.congr first.symm
  | case4 begun cs ih =>
    have first : LosesFrom p ('\r' :: '\n' :: cs) ↔
        ((after p).afterReturn = true ∧ (after p).state.isVerbatim = true) ∨
          LosesFrom (p ++ [carriageReturn, newline]) cs := by
      simp [losesFrom_cons, encode_return, encode_newline]
    rw [missingEnd_cons, missingEnd_cons]
    exact ((ends_newline p).further (ih _)).congr first.symm
  | case5 begun c cs noBreak noPair ih =>
    have noTerminator : ¬ (c = '\r' ∧ cs.head? = some '\n') := by
      rintro ⟨rfl, next⟩
      obtain ⟨cs, rfl⟩ := List.head?_eq_some_iff.1 next
      exact noPair cs rfl rfl
    have first : LosesFrom p (c :: cs) ↔ LosesFrom (p ++ encode [c]) cs := by
      simp [losesFrom_cons p, noTerminator]
    have bytes (xs : List Char) : encode (c :: xs) = encode [c] ++ encode xs :=
      Utf8.encode_append [c] xs
    have last : (c != '\n') = true := bne_iff_ne.2 fun same => noBreak same
    rw [missingEnd_cons, last, List.cons_append, bytes (endFrom true cs), bytes (cs ++ _)]
    exact (ih (p ++ encode [c])).behind.congr first.symm

/-- Among the texts, read after `p` one after another, is one of which a line terminator of two
characters follows a carriage return where line feeds are copied. -/
def LosesAmong (p : Bytes) (texts : List String) : Prop :=
  ∃ earlier text later, texts = earlier ++ text :: later ∧
    LosesFrom (p ++ encode (earlier.flatMap (closed ·.toList))) text.toList

theorem not_losesAmong_nil (p : Bytes) : ¬ LosesAmong p [] := by
  rintro ⟨earlier, text, later, split, -⟩
  simp at split

theorem losesAmong_cons (p : Bytes) (text : String) (texts : List String) :
    LosesAmong p (text :: texts) ↔
      LosesFrom p text.toList ∨ LosesAmong (p ++ encode (closed text.toList)) texts := by
  constructor
  · rintro ⟨earlier, other, later, split, loses⟩
    cases earlier with
    | nil =>
      obtain ⟨rfl, rfl⟩ := List.cons.inj split
      exact .inl (by simpa using loses)
    | cons first earlier =>
      obtain ⟨rfl, rfl⟩ := List.cons.inj split
      exact .inr ⟨earlier, other, later, rfl, by simpa using loses⟩
  · rintro (loses | ⟨earlier, other, later, rfl, loses⟩)
    · exact ⟨[], text, texts, rfl, by simpa using loses⟩
    · exact ⟨text :: earlier, other, later, rfl, by simpa using loses⟩

/-- Texts are read alike merged. -/
theorem ends_contributions (texts : List String) (p : Bytes) :
    Ends (after p) (encode (texts.flatMap contribution))
      (encode (texts.flatMap (closed ·.toList))) (LosesAmong p texts) := by
  induction texts generalizing p with
  | nil => exact (Ends.refl _ _).congr (iff_of_false id (not_losesAmong_nil p))
  | cons text texts ih =>
    have first := ends_endFrom false text.toList p
    rw [← Text.endLines_eq, ← Text.closed_eq] at first
    rw [List.flatMap_cons, List.flatMap_cons, Utf8.encode_append, Utf8.encode_append]
    exact (first.further (ih _)).congr (losesAmong_cons p text texts).symm

/-- After a text the machine remembers a carriage return if the text ends in one. -/
theorem afterReturn_encode (cs : List Char) :
    (after (encode cs)).afterReturn = true ↔ cs.getLast? = some '\r' := by
  rcases List.eq_nil_or_concat' cs with rfl | ⟨cs, c, rfl⟩
  · simp [Machine.start]
  have last : encode [c] = String.utf8EncodeChar c := by simp [Utf8.encode]
  rw [Utf8.encode_append, last, List.getLast?_concat]
  cases wide : Utf8.isWide c with
  | false =>
    rw [Utf8.encode_narrow wide, after_snoc, afterReturn_step, beq_iff_eq, Option.some.injEq]
    constructor
    · intro isReturn
      have small : c.toNat < 0x80 := by simpa [Utf8.isWide] using wide
      have code : c.toNat = 0x0D := by
        rw [← Utf8.toNat_ofNat (show c.toNat < 256 by omega), isReturn]
        rfl
      exact Char.ext (UInt32.toNat_inj.1 code)
    · rintro rfl
      rfl
  | true =>
    obtain ⟨bs, b, bytes⟩ := (List.eq_nil_or_concat' _).resolve_left
      (String.utf8EncodeChar_ne_nil (c := c))
    have high : ¬ b < 0x80 := Utf8.encode_wide wide b (by simp [bytes])
    have noReturn : c ≠ '\r' := by
      rintro rfl
      cases wide
    rw [bytes, ← List.append_assoc, after_snoc, afterReturn_step]
    simp [ne_of_high high (show carriageReturn < 0x80 by decide), noReturn]

theorem losesFrom_iff {before : List Char} (ended : Text.Ended before) (cs : List Char) :
    LosesFrom (encode before) cs ↔ ∃ u v, cs = u ++ '\r' :: '\r' :: '\n' :: v ∧
      (after (encode (before ++ (u ++ ['\r'])))).state.isVerbatim = true := by
  constructor
  · rintro ⟨u, v, rfl, returned, copied⟩
    rw [← Utf8.encode_append] at returned copied
    rw [afterReturn_encode, List.getLast?_append] at returned
    -- The carriage return belongs to the text: nothing ended has one last.
    rcases List.eq_nil_or_concat' u with rfl | ⟨u, c, rfl⟩
    · rcases ended with rfl | last
      · cases returned
      · rw [last] at returned
        cases returned
    · obtain rfl : c = '\r' := by simpa using returned
      exact ⟨u, v, by simp, copied⟩
  · rintro ⟨u, v, rfl, copied⟩
    refine ⟨u ++ ['\r'], v, by simp, ?_, ?_⟩
    · rw [← Utf8.encode_append, afterReturn_encode]
      simp
    · rwa [← Utf8.encode_append]

theorem losesTerminator_iff (texts : List String) :
    LosesTerminator texts ↔ LosesAmong [] texts := by
  have here (earlier : List String) := losesFrom_iff
    (Text.ended_flatMap (fun text => Text.ended_closed text.toList) earlier)
  constructor
  · rintro ⟨earlier, text, later, u, v, split, terminator, copied⟩
    exact ⟨earlier, text, later, split, (here earlier _).2 ⟨u, v, terminator, copied⟩⟩
  · rintro ⟨earlier, text, later, split, loses⟩
    obtain ⟨u, v, terminator, copied⟩ := (here earlier _).1 loses
    exact ⟨earlier, text, later, u, v, split, terminator, copied⟩

/-- **A script is minified alike with its parts merged**, each line of each ended by a line feed, and
put one after another, each part that does not end in a line feed followed by one, unless a line
terminator is lost where line feeds are copied. -/
theorem minify_merged_iff (texts : List String) :
    minifyText (String.ofList (texts.flatMap contribution)) =
      minifyText (String.ofList (texts.flatMap (closed ·.toList))) ↔ ¬ LosesTerminator texts := by
  have ends := ends_contributions texts []
  rw [losesTerminator_iff, ← ends.written]
  have text (cs : List Char) : Utf8.ofString (minifyText (String.ofList cs)) =
      written (encode cs) ++ (after (encode cs)).finish := by
    rw [ofString_minifyText, Utf8.ofString, String.toList_ofList, minify_eq]
  have reached : after (encode (texts.flatMap contribution)) =
      after (encode (texts.flatMap (closed ·.toList))) := ends.machine
  constructor
  · intro same
    have bytes := congrArg Utf8.ofString same
    rw [text, text, reached] at bytes
    exact List.append_cancel_right bytes
  · intro same
    refine Utf8.ofString_injective ?_
    rw [text, text, reached]
    exact congrArg (· ++ _) same

/-- A template literal that has two carriage returns before a line feed has one line break less
when it is merged. -/
theorem minify_merged_template :
    let merged := minifyText (String.ofList (["\x60\r\r\n\x60"].flatMap contribution))
    let plain := minifyText (String.ofList (["\x60\r\r\n\x60"].flatMap (closed ·.toList)))
    merged = "\x60\n\x60\n" ∧ plain = "\x60\n\n\x60\n" ∧ merged ≠ plain := by
  decide +kernel

end PageBundle.Script
