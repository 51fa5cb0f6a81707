import PageBundle.Proofs.Script.LineBreak
import PageBundle.Proofs.Script.Verbatim

/-!
# Tokens stay apart

White space, line breaks and comments are dropped only where this makes no token of two. A byte
that may continue a token is written when it is read, last of what is then written (`Copied`), and
as long as only ignored control bytes follow, it is `Recent`. As soon as the machine reads anything
else without writing, it is `Guarded`: a space is owed, a dropped comment is remembered, or a slash
or comment is open. Then what it writes next fuses with nothing (`Reads.not_guarded`), so bytes that
fuse in the output stood next to each other in the input (`neighbours_of_fuses`).
-/

namespace PageBundle.Script

/-- The control bytes that are dropped wherever they stand. -/
def isIgnored (b : UInt8) : Bool :=
  b < 0x20 && b != newline && b != carriageReturn && b != tab

/-- A byte that means nothing is dropped wherever it stands, unless it completes a line
terminator. -/
theorem isIgnored_of_meaningless {m : Machine} {b : UInt8} (meaningless : m.meaning b = none) :
    (b = newline ∧ m.afterReturn = true) ∨ isIgnored b = true := by
  refine (Machine.meaning_eq_none meaningless).imp_right ?_
  rintro ⟨control, noBreak, noReturn, noTab⟩
  simp [isIgnored, control, noBreak, noReturn, noTab]

/-- The bytes that may be one token with the byte before or after them. -/
def isJoining (b : UInt8) : Bool :=
  isWord b || isOneOf ['+', '-'] b

/-- Reading `c` after `p` writes it, and the output before it is `out`. -/
def Copied (p : Bytes) (c : UInt8) (out : Bytes) : Prop :=
  ∃ lead, out = written p ++ lead ∧ ((after p).step c).2 = lead ++ [c]

/-- The bytes `a` and `b` were written after `out` when they were read from `x`, and only ignored
bytes stand between them there. -/
def Neighbours (x out : Bytes) (a b : UInt8) : Prop :=
  ∃ p s r, x = p ++ a :: s ++ b :: r ∧ Copied p a out ∧ Copied (p ++ a :: s) b (out ++ [a]) ∧
    ∀ d ∈ s, isIgnored d = true

/-- The byte `c` was written after `out` when it was read from `p`, and only ignored bytes follow
it there. -/
def Recent (p : Bytes) (c : UInt8) (out : Bytes) : Prop :=
  ∃ q s, p = q ++ c :: s ∧ Copied q c out ∧ ∀ d ∈ s, isIgnored d = true

theorem isJoining_of_fuses {a b : UInt8} (fused : fuses a b = true) :
    isJoining a = true ∧ isJoining b = true := by
  simp only [fuses, Bool.or_eq_true, Bool.and_eq_true, beq_iff_eq] at fused
  rcases fused with ⟨wordA, wordB⟩ | ⟨sign, rfl⟩
  · simp [isJoining, wordA, wordB]
  · simp [isJoining, sign]

/-- A byte of a token is none of the bytes with a meaning of their own to the machine. -/
theorem ne_of_isJoining {c d : UInt8} (joining : isJoining c = true) (apart : isJoining d = false) :
    c ≠ d := by
  rintro rfl
  exact absurd joining (by simp [apart])

theorem swallowsSpace_of_isJoining {c : UInt8} (joining : isJoining c = true) :
    swallowsSpace c = false := by
  by_contra swallows
  have apart : (!isJoining c) = true :=
    of_isOneOf (p := (!isJoining ·)) (by decide) (Bool.not_eq_false _ ▸ swallows)
  simp [joining] at apart

/-- Two bytes next to each other in `out ++ more` stand in either part or where these meet. -/
theorem pair_cases {out more u v : Bytes} {a b : UInt8} (total : out ++ more = u ++ a :: b :: v) :
    (∃ w, out = u ++ a :: b :: w) ∨ (out = u ++ [a] ∧ more = b :: v) ∨
      ∃ w, more = w ++ a :: b :: v := by
  rcases List.append_eq_append_iff.1 total with ⟨w, -, later⟩ | ⟨w, rfl, rest⟩
  · exact .inr (.inr ⟨w, later⟩)
  · match w, rest with
    | [], rest => exact .inr (.inr ⟨[], rest.symm⟩)
    | [d], rest =>
      obtain ⟨rfl, rfl⟩ := List.cons.inj rest
      exact .inr (.inl ⟨rfl, rfl⟩)
    | d :: e :: w, rest =>
      simp only [List.cons_append, List.cons.injEq] at rest
      obtain ⟨rfl, rfl, -⟩ := rest
      exact .inl ⟨w, rfl⟩

theorem Neighbours.append {x out : Bytes} {a b : UInt8} (h : Neighbours x out a b) (y : Bytes) :
    Neighbours (x ++ y) out a b := by
  obtain ⟨p, s, r, rfl, first, second, ignored⟩ := h
  exact ⟨p, s, r ++ y, by simp, first, second, ignored⟩

theorem Recent.snoc {p out : Bytes} {c b : UInt8} (h : Recent p c out)
    (ignored : isIgnored b = true) : Recent (p ++ [b]) c out := by
  obtain ⟨q, s, rfl, copied, rest⟩ := h
  refine ⟨q, s ++ [b], by simp, copied, fun d mem => ?_⟩
  rcases List.mem_append.1 mem with mem | mem
  · exact rest d mem
  · rwa [List.mem_singleton.1 mem]

theorem Recent.of_copied {p out : Bytes} {c : UInt8} (copied : Copied p c out) :
    Recent (p ++ [c]) c out :=
  ⟨p, [], rfl, copied, nofun⟩

/-- A byte that follows a recent one at once is its neighbour. -/
theorem Recent.neighbours {p out : Bytes} {a b : UInt8} (recent : Recent p a out)
    (copied : Copied p b (out ++ [a])) : Neighbours (p ++ [b]) out a b := by
  obtain ⟨q, s, rfl, first, ignored⟩ := recent
  exact ⟨q, s, [], rfl, first, copied, ignored⟩

/-- No carriage return was read since a recent byte of a token. -/
theorem Recent.unreturned {p out : Bytes} {c : UInt8} (recent : Recent p c out)
    (joining : isJoining c = true) : (after p).afterReturn = false := by
  obtain ⟨q, s, rfl, -, ignored⟩ := recent
  have last (r : Bytes) (b : UInt8) (other : b ≠ carriageReturn) :
      (after (r ++ [b])).afterReturn = false := by
    rw [after_snoc, Machine.afterReturn_step]
    exact beq_false_of_ne other
  rcases List.eq_nil_or_concat s with rfl | ⟨s, b, rfl⟩
  · exact last q c (ne_of_isJoining joining (by decide))
  · rw [List.concat_eq_append, ← List.cons_append, ← List.append_assoc]
    refine last _ b ?_
    rintro rfl
    exact absurd (ignored carriageReturn (by simp)) (by decide)

namespace Machine

/-- Whatever is written next is written apart from what was written before. -/
def Guarded (m : Machine) : Prop :=
  m.spaceOwed = true ∨ m.commentGap = true ∨ m.state.opensBlock = true ∨ m.state = .lineComment

theorem Guarded.mark {m : Machine} (guarded : Guarded m) (returned : Bool) :
    Guarded { m with afterReturn := returned } :=
  guarded

theorem isJoining_of_mem_lead {m : Machine} {c d : UInt8} (mem : d ∈ m.lead c) :
    isJoining d = false := by
  rcases lead_cases m c with none | ⟨blank, -⟩
  · simp [none] at mem
  · rw [blank, List.mem_singleton] at mem
    exact mem ▸ by decide

/-- What is written consists of bytes apart from any token and the byte that was read. -/
def WritesApart (c : UInt8) (out : Bytes) : Prop :=
  ∃ lead, (∀ d ∈ lead, isJoining d = false) ∧ (out = lead ∨ out = lead ++ [c])

theorem writesApart_copy (m : Machine) (c : UInt8) : WritesApart c (m.lead c ++ [c]) :=
  ⟨m.lead c, fun _ => isJoining_of_mem_lead, .inr rfl⟩

theorem WritesApart.append {c : UInt8} {before out : Bytes} (h : WritesApart c out)
    (apart : ∀ d ∈ before, isJoining d = false) : WritesApart c (before ++ out) := by
  obtain ⟨lead, leadApart, total⟩ := h
  refine ⟨before ++ lead, fun d mem => ?_, ?_⟩
  · exact (List.mem_append.1 mem).elim (apart d) (leadApart d)
  · rcases total with rfl | rfl
    · exact .inl rfl
    · exact .inr (by simp)

/-- A byte of a token that is written is the byte that was read, and written last. -/
theorem WritesApart.last {c a : UInt8} {out w v : Bytes} (h : WritesApart c out)
    (total : out = w ++ a :: v) (joining : isJoining a = true) : v = [] ∧ a = c := by
  obtain ⟨lead, apart, rfl | rfl⟩ := h
  · exact absurd joining (by simp [apart a (by simp [total])])
  · rcases List.eq_nil_or_concat v with rfl | ⟨v, d, rfl⟩
    · exact ⟨rfl, (List.singleton_inj.1 (List.append_inj' total rfl).2).symm⟩
    · rw [List.concat_eq_append, ← List.cons_append, ← List.append_assoc] at total
      have inside : a ∈ lead := by simp [(List.append_inj' total rfl).1]
      exact absurd joining (by simp [apart a inside])

theorem ReadsText.writesApart {m m' : Machine} {c : UInt8} {out : Bytes}
    (h : ReadsText m c m' out) : WritesApart c out := by
  cases h with
  | owe | hold => exact ⟨[], nofun, .inl rfl⟩
  | quote | plain => exact writesApart_copy _ c

/-- Only the byte that is read may be written as part of a token, and then last. -/
theorem Reads.writesApart {m m' : Machine} {c : UInt8} {out : Bytes} (h : Reads m c m' out) :
    WritesApart c out := by
  have slash : ∀ d ∈ m.lead (ascii '/') ++ [ascii '/'], isJoining d = false := by
    intro d mem
    rcases List.mem_append.1 mem with mem | mem
    · exact isJoining_of_mem_lead mem
    · exact List.mem_singleton.1 mem ▸ by decide
  cases h with
  | skip | openLine | openBlock | lineSkip | lineEnd | blockSkip | blockEnd =>
    exact ⟨[], nofun, .inl rfl⟩
  | breakLine _ isBreak | lineBreak _ isBreak =>
    exact ⟨[], nofun, .inr (by rw [isBreak]; rfl)⟩
  | text _ _ _ reads => exact reads.writesApart
  | divide _ _ _ reads => simpa using reads.writesApart.append slash
  | openRegex => exact ⟨_, slash, .inr (by simp)⟩
  | keep =>
    refine ⟨m.lead (ascii '/') ++ [ascii '/', ascii '*'], fun d mem => ?_, .inr (by simp)⟩
    rw [List.append_cons] at mem
    rcases List.mem_append.1 mem with mem | mem
    · exact slash d mem
    · exact List.mem_singleton.1 mem ▸ by decide
  | regexLine | keptMore | keptEnd | quotedMore | quotedEnd => exact writesApart_copy m c

theorem isJoining_of_mem_finish {m : Machine} {d : UInt8} (mem : d ∈ m.finish) :
    isJoining d = false := by
  have slash : d ∈ m.lead (ascii '/') ++ [ascii '/'] → isJoining d = false := by
    intro mem
    rcases List.mem_append.1 mem with mem | mem
    · exact isJoining_of_mem_lead mem
    · exact List.mem_singleton.1 mem ▸ by decide
  unfold finish at mem
  split at mem
  next => exact slash (by simpa only [write_eq] using mem)
  next => exact slash (by simpa only [write_eq] using mem)
  next => simp at mem

/-- A byte of a token means itself only. -/
theorem byte_of_isJoining {m : Machine} {b c : UInt8} (means : m.meaning b = some c)
    (joining : isJoining c = true) : b = c :=
  byte_of_meaning means (ne_of_isJoining joining (by decide)) (ne_of_isJoining joining (by decide))
    (ne_of_isJoining joining (by decide))

/-- Nothing is written before `c` only if no space is owed and no comment is remembered. -/
theorem unguarded_of_settle {m : Machine} {a c : UInt8} (fused : fuses a c = true)
    (last : m.lastWritten = some a) (alone : (m.settle c).lead c = []) :
    m.spaceOwed = false ∧ m.commentGap = false := by
  have noBreak : c ≠ newline := ne_of_isJoining (isJoining_of_fuses fused).2 (by decide)
  have free : (m.settle c).spaceOwed = false := by simpa [lead, noBreak] using alone
  simpa [settle, last, fused] using free

/-- **Where the machine is guarded, no byte is written that fuses with the last one.** -/
theorem Reads.not_guarded {m m' : Machine} {a c : UInt8} (h : Reads m c m' [c])
    (settled : Settled m) (last : m.lastWritten = some a) (fused : fuses a c = true) :
    ¬ Guarded m := by
  have noSlash : c ≠ ascii '/' := ne_of_isJoining (isJoining_of_fuses fused).2 (by decide)
  have noBreak : c ≠ newline := ne_of_isJoining (isJoining_of_fuses fused).2 (by decide)
  have copied (verbatim : m.state.isVerbatim = true) (alone : m.lead c = []) : ¬ Guarded m := by
    have place := State.verbatim_cases verbatim
    have owed : m.spaceOwed = false := by simpa [lead, noBreak] using alone
    have gap : m.commentGap = false := settled.noGap (by
      intro here
      simp [here] at place)
    rintro (guard | guard | guard | guard)
    · simp [owed] at guard
    · simp [gap] at guard
    · rcases place with ⟨_, _, here⟩ | here | here | here <;> simp [here, State.opensBlock] at guard
    · simp [guard] at place
  generalize whole : [c] = out at h
  cases h with
  | text mode here _ reads =>
    have free : m.spaceOwed = false ∧ m.commentGap = false := by
      cases reads with
      | owe | hold => simp at whole
      | quote | plain =>
        refine unguarded_of_settle fused last ?_
        simpa using whole.symm
    simp [Guarded, free.1, free.2, here, State.opensBlock]
  | breakLine | lineBreak => exact absurd (List.singleton_inj.1 whole) noBreak
  | divide | openRegex | keep =>
    rcases lead_cases m (ascii '/') with none | ⟨blank, -⟩
    · simp_all
    · simp_all
  | regexLine here | keptEnd here | quotedMore _ _ here | quotedEnd here =>
    exact copied (by rw [here]; rfl) (by simpa using whole.symm)
  | keptMore here =>
    exact copied (by rcases here with here | here <;> rw [here] <;> rfl) (by simpa using whole.symm)
  | _ => simp at whole

/-- **A byte that is read and not written guards the machine** where the output ends in a token. -/
theorem Reads.guarded {m m' : Machine} {c : UInt8} (h : Reads m c m' []) (keeps : KeepsBreak m)
    (ends : m.mayEndStatement = true) : Guarded m' := by
  generalize whole : [] = out at h
  cases h with
  | skip mode here soft =>
    rcases keeps ends mode (by simp [textMode?, here]) with solid | ⟨-, owed⟩
    · exact absurd solid soft
    · exact .inl owed
  | text _ _ _ reads =>
    cases reads with
    | owe => exact .inl rfl
    | hold =>
      refine .inr (.inr (.inl ?_))
      cases isRegex : precedesRegex m.lastRead <;> rfl
    | quote | plain => simp at whole
  | openLine => exact .inr (.inr (.inr rfl))
  | lineSkip here => exact .inr (.inr (.inr here))
  | openBlock => exact .inr (.inr (.inl rfl))
  | blockSkip =>
    refine .inr (.inr (.inl ?_))
    split <;> rfl
  | lineEnd _ _ free => simp [ends] at free
  | blockEnd here =>
    rcases keeps ends m.resume (by simp [textMode?, here]) with solid | ⟨-, owed⟩
    · exact .inr (.inl (by simp [solid]))
    · exact .inl owed
  | _ => simp at whole

end Machine

open Machine

/-- After a kept comment the output ends in its slash. -/
theorem getLast?_of_afterKeptComment {p : Bytes} (h : AfterKeptComment p) :
    (written p).getLast? = some (ascii '/') := by
  obtain ⟨q, s, rfl, star, -, same⟩ := h
  rw [same, written_snoc]
  obtain ⟨n, reads, -⟩ :=
    (steps_step (after q) (ascii '/')).of_meaning (meaning_printable _ (by decide))
  generalize ((after q).step (ascii '/')).2 = out at reads ⊢
  cases reads with
  | keptEnd => simp
  | keptMore _ unended => exact absurd rfl (unended star)
  | _ => simp_all

/-- A token at the end of the output waits for nothing: white space after it is owed or kept. -/
theorem keepsBreak_of_isJoining {p out : Bytes} {a : UInt8} (total : written p = out ++ [a])
    (joining : isJoining a = true) : KeepsBreak (after p) ∧ (after p).mayEndStatement = true ∧
      (after p).lastWritten = some a := by
  have noSpace : a ≠ space := ne_of_isJoining joining (by decide)
  have noBreak : a ≠ newline := ne_of_isJoining joining (by decide)
  have last : (after p).lastWritten = some a := by
    simp [lastWritten_after, total, lastVisible_append, lastVisible_cons, noSpace]
  refine ⟨(keepsBreak_or_afterKeptComment p).resolve_right fun kept => ?_, ?_, last⟩
  · have isSlash := getLast?_of_afterKeptComment kept
    rw [total] at isSlash
    exact ne_of_isJoining joining (d := ascii '/') (by decide) (by simpa using isSlash)
  · simp [mayEndStatement_eq last, noBreak, swallowsSpace_of_isJoining joining]

/-- What holds of the last byte written, if it belongs to a token. -/
def EndsApart (p : Bytes) (m : Machine) (out : Bytes) : Prop :=
  ∀ u a, out = u ++ [a] → isJoining a = true → Recent p a u ∨ Guarded m

theorem EndsApart.nothing {p : Bytes} {b : UInt8} (h : EndsApart p (after p) (written p))
    (meaningless : (after p).meaning b = none) :
    EndsApart (p ++ [b]) { after p with afterReturn := b == carriageReturn } (written p) := by
  intro u a total joining
  rcases h u a total joining with recent | guarded
  · rcases isIgnored_of_meaningless meaningless with ⟨-, returned⟩ | ignored
    · exact absurd (recent.unreturned joining) (by simp [returned])
    · exact .inl (recent.snoc ignored)
  · exact .inr (guarded.mark _)

theorem EndsApart.reads {p out : Bytes} {b c : UInt8} {m m' : Machine}
    (means : (after p).meaning b = some c) (reads : Reads m c m' out)
    (stepped : ((after p).step b).2 = out)
    (keeps : ∀ u a, written p = u ++ [a] → isJoining a = true →
      KeepsBreak m ∧ m.mayEndStatement = true) :
    EndsApart (p ++ [b]) m' (written p ++ out) := by
  intro u a total joining
  rcases List.eq_nil_or_concat out with rfl | ⟨lead, d, rfl⟩
  · obtain ⟨keeps, ends⟩ := keeps u a (by simpa using total) joining
    exact .inr (reads.guarded keeps ends)
  · rw [List.concat_eq_append] at total reads stepped
    rw [← List.append_assoc] at total
    obtain ⟨rfl, same⟩ := List.append_inj' total rfl
    obtain rfl : d = a := List.singleton_inj.1 same
    obtain ⟨-, rfl⟩ := reads.writesApart.last rfl joining
    obtain rfl := byte_of_isJoining means joining
    exact .inl (.of_copied ⟨lead, rfl, stepped⟩)

/-- Bytes that fuse in the output are neighbours in the input. -/
theorem neighbours_of_fuses_written (p : Bytes) :
    EndsApart p (after p) (written p) ∧ ∀ u a b v, written p = u ++ a :: b :: v →
      fuses a b = true → Neighbours p u a b := by
  refine run_induction (P := fun p m out => EndsApart p m out ∧
    ∀ u a b v, out = u ++ a :: b :: v → fuses a b = true → Neighbours p u a b)
    ⟨by simp [EndsApart], by simp⟩ ?_ p
  rintro p d m' out ⟨ends, pairs⟩ stepped reached wrote
  have step := (step_of_snoc reached wrote).2
  cases stepped with
  | nothing meaningless =>
    rw [List.append_nil]
    exact ⟨ends.nothing meaningless, fun u a b v total fused =>
      (pairs u a b v total fused).append [d]⟩
  | @reads c m' out means reads =>
    have later : EndsApart (p ++ [d]) m' (written p ++ out) := by
      refine .reads means reads step fun u a total joining => ?_
      have kept := keepsBreak_of_isJoining total joining
      exact ⟨kept.1, kept.2.1⟩
    refine ⟨later, fun u a b v total fused => ?_⟩
    obtain ⟨joinA, joinB⟩ := isJoining_of_fuses fused
    rcases pair_cases total with ⟨w, earlier⟩ | ⟨before, rfl⟩ | ⟨w, rfl⟩
    · exact (pairs u a b w earlier fused).append [d]
    · obtain ⟨rfl, rfl⟩ := reads.writesApart.last (w := []) rfl joinB
      obtain rfl := byte_of_isJoining means joinB
      have last := (keepsBreak_of_isJoining before joinA).2.2
      have unguarded := reads.not_guarded ((settled_after p).mark _) last fused
      exact ((ends u a before joinA).resolve_right unguarded).neighbours
        ⟨[], by simp [before], step⟩
    · exact absurd (reads.writesApart.last rfl joinA).1 (by simp)

/-- **Tokens stay apart.** Two bytes that are one token where they stand next to each other in a
minified script are copies of bytes of the script with only ignored control bytes between them. -/
theorem neighbours_of_fuses (x u v : Bytes) (a b : UInt8) (output : minify x = u ++ a :: b :: v)
    (fused : fuses a b = true) : Neighbours x u a b := by
  obtain ⟨joinA, joinB⟩ := isJoining_of_fuses fused
  have apart : ∀ d ∈ (after x).finish, isJoining d = false := fun d => isJoining_of_mem_finish
  rw [minify_eq] at output
  rcases pair_cases output with ⟨w, earlier⟩ | ⟨-, finish⟩ | ⟨w, finish⟩
  · exact (neighbours_of_fuses_written x).2 u a b w earlier fused
  · exact absurd joinB (by simp [apart b (by simp [finish])])
  · exact absurd joinA (by simp [apart a (by simp [finish])])

/-- A control byte inside a name is ignored, and the space before the name is kept. -/
theorem neighbours_in_name :
    let x := ['i', 'n', '/', '*', '*', '/', 'a', '\x07', 'b'].map ascii
    let u := ['i', 'n', ' '].map ascii
    minify x = u ++ ascii 'a' :: ascii 'b' :: [] ∧ fuses (ascii 'a') (ascii 'b') = true ∧
      Neighbours x u (ascii 'a') (ascii 'b') := by
  intro x u
  have output : minify x = u ++ ascii 'a' :: ascii 'b' :: [] := by decide
  have fused : fuses (ascii 'a') (ascii 'b') = true := by decide
  exact ⟨output, fused, neighbours_of_fuses x u [] _ _ output fused⟩

end PageBundle.Script
