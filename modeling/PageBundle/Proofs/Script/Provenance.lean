import PageBundle.Proofs.Script.Run
import Mathlib.Data.Fin.Pigeonhole
import Mathlib.Order.Fin.Basic

/-!
# Where the bytes of a minified script come from

Nothing in a minified script is reordered, duplicated or invented. The machine delays up to three
bytes, which `held` collects: a space that is owed, or may be owed after a dropped comment, the
slash that was held back, and the star after it. What one byte writes together with what is held
afterwards is a sublist of what was held before and one byte more (`Steps.held`), so output and
held bytes together keep the order of the input.
-/

namespace PageBundle.Script

/-- The slash that is held back in a state, and the star after it. -/
def State.heldSlash : State → Bytes
  | .slash | .regexSlash => [ascii '/']
  | .blockComment true => [ascii '/', ascii '*']
  | _ => []

/-- The bytes of `x` from `first` up to `stop` are a block comment that is dropped: plain text
stands before and after it, and in between the machine never leaves the comment. -/
structure DroppedComment (x : Bytes) (first stop : Nat) : Prop where
  bound : first < stop ∧ stop ≤ x.length
  before : (after (x.take first)).state.isText = true
  within : ∀ k, first < k → k < stop → (after (x.take k)).state.opensBlock = true
  star : (after (x.take (stop - 1))).state = .blockCommentStar
  closed : (after (x.take stop)).state.isText = true

/-- The written byte stems from the byte of `x` at the position. -/
inductive StemsFrom (x : Bytes) : UInt8 → Nat → Prop
  /-- Any byte but a space is the byte that was read. -/
  | copy {c : UInt8} {i : Nat} (noSpace : c ≠ space) (read : x[i]?.map shown = some c) :
      StemsFrom x c i
  | blank {i : Nat} (read : x[i]? = some space ∨ x[i]? = some tab) : StemsFrom x space i
  | comment {i first stop : Nat} (dropped : DroppedComment x first stop)
      (inside : first ≤ i ∧ i < stop) : StemsFrom x space i

theorem DroppedComment.append {x : Bytes} {first stop : Nat} (h : DroppedComment x first stop)
    (y : Bytes) : DroppedComment (x ++ y) first stop := by
  have same (k : Nat) (le : k ≤ stop) : (x ++ y).take k = x.take k :=
    List.take_append_of_le_length (Nat.le_trans le h.bound.2)
  have bound := h.bound
  refine ⟨⟨bound.1, by simp; omega⟩, ?_, ?_, ?_, ?_⟩
  · rw [same _ (by omega)]; exact h.before
  · intro k lower upper
    rw [same _ (by omega)]; exact h.within k lower upper
  · rw [same _ (by omega)]; exact h.star
  · rw [same _ (by omega)]; exact h.closed

theorem StemsFrom.append {x : Bytes} {c : UInt8} {i : Nat} (h : StemsFrom x c i) (y : Bytes)
    (bound : i < x.length) : StemsFrom (x ++ y) c i := by
  have same : (x ++ y)[i]? = x[i]? := List.getElem?_append_left bound
  cases h with
  | copy noSpace read => exact .copy noSpace (same ▸ read)
  | blank read => exact .blank (same ▸ read)
  | comment dropped inside => exact .comment (dropped.append y) inside

namespace Machine

/-- The space that is owed or may be owed after a dropped comment. -/
def heldSpace (m : Machine) : Bytes :=
  if m.spaceOwed || m.commentGap then [space] else []

/-- The bytes that were read and may yet be written. -/
def held (m : Machine) : Bytes :=
  m.heldSpace ++ m.state.heldSlash

theorem lead_sublist (m : Machine) (c : UInt8) : (m.lead c).Sublist m.heldSpace := by
  unfold lead heldSpace
  cases m.spaceOwed <;> cases c != newline <;> simp

/-- Where nothing is held back, only what is written has to be accounted for. -/
theorem sublist_of_free {m : Machine} {out kept : Bytes} (owed : m.spaceOwed = false)
    (gap : m.commentGap = false) (slash : m.state.heldSlash = []) (le : out.Sublist kept) :
    (out ++ m.held).Sublist kept := by
  simpa [held, heldSpace, owed, gap, slash] using le

theorem settle_lead_sublist (m : Machine) (c : UInt8) :
    ((m.settle c).lead c).Sublist m.heldSpace := by
  refine (lead_sublist _ c).trans ?_
  unfold heldSpace settle
  cases m.spaceOwed <;> cases m.commentGap <;> simp

theorem ReadsText.held {m m' : Machine} {c : UInt8} {out : Bytes} (h : ReadsText m c m' out) :
    (out ++ m'.held).Sublist (m.heldSpace ++ [c]) := by
  cases h with
  | owe isSpace =>
    subst isSpace
    exact List.sublist_append_right _ _
  | hold isSlash =>
    subst isSlash
    have : ({ m with commentGap := false } : Machine).heldSpace.Sublist m.heldSpace := by
      unfold heldSpace
      cases m.spaceOwed <;> cases m.commentGap <;> simp
    cases precedesRegex m.lastRead <;> exact this.append (List.Sublist.refl _)
  | quote =>
    exact sublist_of_free rfl rfl rfl ((settle_lead_sublist m c).append (List.Sublist.refl [c]))
  | plain =>
    exact sublist_of_free rfl rfl rfl ((settle_lead_sublist m c).append (List.Sublist.refl [c]))

theorem finish_sublist (m : Machine) : m.finish.Sublist m.held := by
  have slash := (lead_sublist m (ascii '/')).append (List.Sublist.refl [ascii '/'])
  unfold finish held
  cases m.state with
  | slash | regexSlash => simpa only [write_eq, State.heldSlash] using slash
  | _ => exact List.nil_sublist _

/-- A byte that is copied follows the space that was held. -/
theorem copy_held (m : Machine) (c : UInt8) : (m.lead c ++ [c]).Sublist (m.held ++ [c]) :=
  ((lead_sublist m c).trans (List.sublist_append_left _ _)).append (List.Sublist.refl [c])

/-- **A byte is written or held at most once, and in the order of the input.** Only the end of a
dropped comment gives a space that was not read. -/
theorem Reads.held {m m' : Machine} {c : UInt8} {out : Bytes} (h : Reads m c m' out)
    (settled : Settled m) :
    ∃ y, (out ++ m'.held).Sublist (m.held ++ [y]) ∧
      (y = c ∨ y = space ∧ m.state = .blockCommentStar ∧ m'.state.isText = true) := by
  have slash := lead_sublist m (ascii '/')
  cases h with
  | text mode here _ reads =>
    refine ⟨c, ?_, .inl rfl⟩
    simpa [Machine.held, State.heldSlash, here] using reads.held
  | divide here _ _ reads =>
    refine ⟨c, ?_, .inl rfl⟩
    have gap := settled.noGap (by simp [here])
    have rest := reads.held
    have none : ((m.wrote (ascii '/')).enter (.text .solid)).heldSpace = [] := by
      simp [heldSpace, wrote, enter, gap]
    rw [none] at rest
    simpa [Machine.held, State.heldSlash, here] using slash.append (rest.cons_cons (ascii '/'))
  | openRegex here =>
    refine ⟨c, sublist_of_free rfl (settled.noGap (by simp [here])) ?_ ?_, .inl rfl⟩
    · by_cases isBreak : c = newline <;> simp [enter, isBreak, State.heldSlash]
    · simpa [Machine.held, State.heldSlash, here] using
        slash.append (List.Sublist.refl [ascii '/', c])
  | keep here =>
    refine ⟨c, sublist_of_free rfl (settled.noGap (by simp [here])) rfl ?_, .inl rfl⟩
    simpa [Machine.held, State.heldSlash, here] using
      slash.append (List.Sublist.refl [ascii '/', ascii '*', c])
  | breakLine here isBreak | lineBreak here isBreak =>
    refine ⟨c, sublist_of_free rfl (settled.noGap (by simp [here])) rfl ?_, .inl rfl⟩
    rw [isBreak]
    exact List.sublist_append_right _ _
  | regexLine here | keptMore here | keptEnd here | quotedMore _ _ here | quotedEnd here =>
    refine ⟨c, sublist_of_free rfl (settled.noGap (by grind)) ?_ (copy_held m c), .inl rfl⟩
    grind [enter, enterText, State.heldSlash]
  | skip | lineSkip => exact ⟨c, List.sublist_append_left _ _, .inl rfl⟩
  | openLine | lineEnd | blockSkip =>
    refine ⟨c, ?_, .inl rfl⟩
    rw [List.nil_append, Machine.held, Machine.held, List.append_assoc]
    refine (List.Sublist.refl m.heldSpace).append ?_
    grind [enter, enterText, State.heldSlash]
  | openBlock here isStar =>
    refine ⟨c, ?_, .inl rfl⟩
    have : m.held = m.heldSpace ++ [ascii '/'] := by
      rcases here with here | here <;> simp [Machine.held, here, State.heldSlash]
    rw [this, isStar, List.append_assoc]
    exact List.Sublist.refl _
  | blockEnd here =>
    refine ⟨space, ?_, .inr ⟨rfl, here, rfl⟩⟩
    refine .trans ?_ (List.sublist_append_right _ _)
    rw [Machine.held, heldSpace]
    split <;> simp [State.heldSlash]

/-- What a byte lets the machine write or hold: the byte as it is written, or a space for a blank
and for the end of a dropped comment. -/
theorem Steps.held {m m' : Machine} {b : UInt8} {out : Bytes} (h : Steps m b m' out)
    (settled : Settled m) :
    ∃ y : Option UInt8, (out ++ m'.held).Sublist (m.held ++ y.toList) ∧ ∀ c ∈ y,
      c ≠ space ∧ shown b = c ∨ c = space ∧ (b = space ∨ b = tab ∨
        m.state = .blockCommentStar ∧ m'.state.isText = true) := by
  cases h with
  | nothing => exact ⟨none, by simp [Machine.held, heldSpace], by simp⟩
  | @reads c m' out means reads =>
    obtain ⟨y, le, gives⟩ := reads.held (settled.mark _)
    refine ⟨some y, le, fun d isY => ?_⟩
    obtain rfl : y = d := by simpa using isY
    rcases gives with rfl | ended
    · have := shown_of_meaning means
      tauto
    · exact .inr ⟨ended.1, .inr (.inr ended.2)⟩

/-- The states inside a comment are entered from plain text or from one another. -/
theorem Reads.opensBlock {m m' : Machine} {c : UInt8} {out : Bytes} (h : Reads m c m' out)
    (opened : m'.state.opensBlock = true) :
    m.state.isText = true ∨ m.state.opensBlock = true := by
  cases h with
  | text _ here => simp [here, State.isText]
  | _ => grind [enter, enterText, wrote, State.opensBlock, State.isText]

theorem Steps.opensBlock {m m' : Machine} {b : UInt8} {out : Bytes} (h : Steps m b m' out)
    (opened : m'.state.opensBlock = true) :
    m.state.isText = true ∨ m.state.opensBlock = true := by
  cases h with
  | nothing => exact .inr opened
  | reads _ reads => exact reads.opensBlock opened

end Machine

/-- The slash that opens the comment the machine is inside. -/
theorem exists_opening (p : Bytes) (opened : (after p).state.opensBlock = true) :
    ∃ first < p.length, (after (p.take first)).state.isText = true ∧
      ∀ k, first < k → k ≤ p.length → (after (p.take k)).state.opensBlock = true := by
  revert opened
  refine run_induction (P := fun p m _ => m.state.opensBlock = true → ∃ first < p.length,
    (after (p.take first)).state.isText = true ∧
      ∀ k, first < k → k ≤ p.length → (after (p.take k)).state.opensBlock = true) nofun ?_ p
  intro p b m' out ih stepped reached _ opened
  have whole (k : Nat) (lower : p.length < k) :
      (after ((p ++ [b]).take k)).state.opensBlock = true := by
    rw [List.take_of_length_le (by simp; omega), reached]
    exact opened
  have earlier (k : Nat) (upper : k ≤ p.length) : (p ++ [b]).take k = p.take k :=
    List.take_append_of_le_length upper
  rcases stepped.opensBlock opened with inText | inBlock
  · refine ⟨p.length, by simp, ?_, fun k lower _ => whole k lower⟩
    rw [earlier _ (Nat.le_refl _), List.take_length]
    exact inText
  · obtain ⟨first, lt, inText, within⟩ := ih inBlock
    refine ⟨first, by simp; omega, by rwa [earlier _ (by omega)], fun k lower _ => ?_⟩
    by_cases upper : k ≤ p.length
    · rw [earlier k upper]
      exact within k lower upper
    · exact whole k (by omega)

/-- A byte that takes the machine from the last star of a comment to plain text ends a comment that
was dropped. -/
theorem exists_droppedComment {p : Bytes} {b : UInt8}
    (star : (after p).state = .blockCommentStar)
    (closed : (after (p ++ [b])).state.isText = true) :
    ∃ first ≤ p.length, DroppedComment (p ++ [b]) first (p.length + 1) := by
  obtain ⟨first, lt, before, within⟩ := exists_opening p (by simp [star, State.opensBlock])
  have earlier (k : Nat) (upper : k ≤ p.length) : (p ++ [b]).take k = p.take k :=
    List.take_append_of_le_length upper
  refine ⟨first, by omega, ⟨by omega, by simp⟩, ?_, fun k lower upper => ?_, ?_, ?_⟩
  · rwa [earlier first (by omega)]
  · rw [earlier k (by omega)]
    exact within k lower (by omega)
  · rwa [Nat.add_sub_cancel, earlier _ (Nat.le_refl _), List.take_length]
  · rwa [List.take_of_length_le (by simp)]

/-- Bytes with the positions of `x` they stem from, in increasing order. -/
structure Traced (x : Bytes) (log : List (UInt8 × Nat)) : Prop where
  ordered : log.Pairwise fun a b => a.2 < b.2
  stems : ∀ e ∈ log, e.2 < x.length ∧ StemsFrom x e.1 e.2

theorem Traced.sublist {x : Bytes} {log part : List (UInt8 × Nat)} (h : Traced x log)
    (le : part.Sublist log) : Traced x part :=
  ⟨h.ordered.sublist le, fun e mem => h.stems e (le.subset mem)⟩

/-- One byte more may add one byte to a log, which stems from it. -/
theorem Traced.snoc {x : Bytes} {log : List (UInt8 × Nat)} (h : Traced x log) (b : UInt8)
    (y : Option UInt8) (stems : ∀ c ∈ y, StemsFrom (x ++ [b]) c x.length) :
    Traced (x ++ [b]) (log ++ y.toList.map fun c => (c, x.length)) := by
  constructor
  · rw [List.pairwise_append]
    refine ⟨h.ordered, by cases y <;> simp, fun e mem e' mem' => ?_⟩
    obtain ⟨c, -, rfl⟩ := List.mem_map.1 mem'
    exact (h.stems e mem).1
  · intro e mem
    rcases List.mem_append.1 mem with mem | mem
    · have old := h.stems e mem
      exact ⟨by simp; omega, old.2.append [b] old.1⟩
    · obtain ⟨c, inY, rfl⟩ := List.mem_map.1 mem
      exact ⟨by simp, stems c (by simpa using inY)⟩

/-- **What is written and what is held stem from the input in its order.** -/
theorem exists_traced (p : Bytes) :
    ∃ log, Traced p log ∧ log.map Prod.fst = written p ++ (after p).held := by
  refine run_induction
    (P := fun p m out => ∃ log, Traced p log ∧ log.map Prod.fst = out ++ m.held)
    ⟨[], ⟨.nil, by simp⟩, rfl⟩ ?_ p
  rintro p b m' out ⟨log, traced, total⟩ stepped reached -
  obtain ⟨y, le, gives⟩ := stepped.held (settled_after p)
  have stems : ∀ c ∈ y, StemsFrom (p ++ [b]) c p.length := by
    intro c isY
    have read : (p ++ [b])[p.length]? = some b := by simp
    rcases gives c isY with ⟨noSpace, isShown⟩ | ⟨rfl, rfl | rfl | ⟨star, closed⟩⟩
    · exact .copy noSpace (by simp [isShown])
    · exact .blank (.inl read)
    · exact .blank (.inr read)
    · obtain ⟨first, le, dropped⟩ := exists_droppedComment star (reached ▸ closed)
      exact .comment dropped ⟨le, Nat.lt_succ_self _⟩
  have longer := traced.snoc b y stems
  have whole : ((written p ++ out) ++ m'.held).Sublist
      ((log ++ y.toList.map fun c => (c, p.length)).map Prod.fst) := by
    have bytes : (y.toList.map fun c => (c, p.length)).map Prod.fst = y.toList := by
      cases y <;> rfl
    rw [List.map_append, total, bytes, List.append_assoc, List.append_assoc]
    exact le.append_left (written p)
  obtain ⟨part, sub, eq⟩ := List.sublist_map_iff.1 whole
  exact ⟨part, longer.sublist sub, eq.symm⟩

theorem Traced.origin {x : Bytes} {log : List (UInt8 × Nat)} (h : Traced x log) :
    ∃ origin : Fin (log.map Prod.fst).length → Fin x.length, StrictMono origin ∧
      ∀ k, StemsFrom x ((log.map Prod.fst).get k) (origin k) := by
  have bound (k : Fin (log.map Prod.fst).length) : k < log.length := by simpa using k.isLt
  refine ⟨fun k => ⟨(log.get ⟨k, bound k⟩).2, (h.stems _ (List.getElem_mem _)).1⟩, ?_, fun k => ?_⟩
  · intro j k lt
    exact List.pairwise_iff_getElem.1 h.ordered j k (bound j) (bound k) lt
  · simpa using (h.stems _ (List.getElem_mem (bound k))).2

/-- **Nothing is reordered, duplicated or invented.** The positions of a minified script map in
order to the positions of the script they stem from, so minifying never makes a script longer. -/
theorem exists_strictMono_stemsFrom (x : Bytes) :
    (∃ origin : Fin (minify x).length → Fin x.length, StrictMono origin ∧
      ∀ k, StemsFrom x ((minify x).get k) (origin k)) ∧ (minify x).length ≤ x.length := by
  obtain ⟨log, traced, total⟩ := exists_traced x
  have output : (minify x).Sublist (log.map Prod.fst) := by
    rw [total, minify_eq]
    exact (Machine.finish_sublist _).append_left (written x)
  generalize minify x = out at output ⊢
  obtain ⟨part, sub, rfl⟩ := List.sublist_map_iff.1 output
  obtain ⟨origin, mono, stems⟩ := (traced.sublist sub).origin
  exact ⟨⟨origin, mono, stems⟩, Fin.le_of_injective origin mono.injective⟩

end PageBundle.Script
