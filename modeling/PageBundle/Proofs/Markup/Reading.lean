import PageBundle.Proofs.Markup.Places
import PageBundle.Proofs.Text.Search

/-!
# What the reading of an element depends on

A tag is read up to its `>` and an element up to the end of its last tag. What comes after has no
part in it: `Reads` says so of an element, and `reads_of_mem_piecesFrom` shows it for each element
that is cut from a page. For scripts this rests on an end tag having no `<` but its first character,
so that none can begin in the content and end beyond it.
-/

namespace PageBundle.Markup

/-! ## Start tags -/

/-- What is read up to the closing `>` is read with any other text behind it. -/
theorem exists_of_untilClose {quote : Option Char} {read cs attributes rest : List Char}
    (closed : untilClose quote read cs = some (attributes, rest)) :
    ∃ taken, attributes = read.reverse ++ taken ∧
      ∀ rest', untilClose quote read (taken ++ '>' :: rest') = some (attributes, rest') := by
  induction cs generalizing quote read with
  | nil => cases closed
  | cons c cs ih =>
    rw [untilClose] at closed
    split at closed
    · rename_i here
      cases closed
      simp only [Bool.and_eq_true] at here
      exact ⟨[], by simp, fun rest' => by simp [untilClose, here.1]⟩
    · rename_i further
      obtain ⟨taken, rfl, again⟩ := ih closed
      refine ⟨c :: taken, by simp, fun rest' => ?_⟩
      rw [List.cons_append, untilClose, if_neg further, again]

theorem attributeText?_append {cs attributes rest : List Char}
    (taken : attributeText? cs = some (attributes, rest)) (rest' : List Char) :
    attributeText? (attributes ++ '>' :: rest') = some (attributes, rest') := by
  cases cs with
  | nil => cases taken
  | cons c cs =>
    rw [attributeText?] at taken
    split at taken
    · cases taken
      rfl
    · rename_i further
      split at taken
      · rename_i begins
        obtain ⟨others, rfl, again⟩ := exists_of_untilClose taken
        rw [List.reverse_singleton, List.singleton_append, List.cons_append, attributeText?,
          if_neg further, if_pos begins, again]
        rfl
      · cases taken

/-- A start tag is read with any other text behind it. -/
theorem startTag?_append {name cs : List Char} {tag : StartTag}
    (begins : startTag? name cs = some tag) (rest' : List Char) :
    startTag? name (tag.text ++ rest') = some { tag with rest := rest' } := by
  unfold startTag? at begins
  split at begins
  · rename_i cs
    obtain ⟨after, named, begins⟩ := Option.bind_eq_some_iff.1 begins
    obtain ⟨⟨attributes, rest⟩, taken, begins⟩ := Option.bind_eq_some_iff.1 begins
    cases begins
    obtain ⟨word, rfl, letters⟩ := Text.dropWord?_eq_some_iff.1 named
    have width : word.length = name.length := by simpa using congrArg List.length letters
    have named' : Text.dropWord? name (word ++ (attributes ++ '>' :: rest')) =
        some (attributes ++ '>' :: rest') := Text.dropWord?_eq_some_iff.2 ⟨word, rfl, letters⟩
    simp [startTag?, ← width, named', attributeText?_append taken]
  · cases begins

/-! ## End tags -/

/-- An end tag is `</`, the name up to case folding, blanks and `>`. -/
theorem endTag?_eq_some_iff {name cs tag rest : List Char} :
    endTag? name cs = some (tag, rest) ↔ cs = tag ++ rest ∧ ∃ word blanks,
      tag = '<' :: '/' :: (word ++ blanks ++ ['>']) ∧ word.map Text.fold = name ∧
        blanks.all Text.isBlank = true := by
  constructor
  · intro ends
    have split := (eq_append_of_endTag? ends).1
    refine ⟨split, ?_⟩
    unfold endTag? at ends
    split at ends
    · rename_i cs
      obtain ⟨after, named, ends⟩ := Option.bind_eq_some_iff.1 ends
      split at ends
      · rename_i behind blanksDropped
        simp only [Option.some.injEq, Prod.mk.injEq] at ends
        obtain ⟨rfl, rfl⟩ := ends
        obtain ⟨word, rfl, letters⟩ := Text.dropWord?_eq_some_iff.1 named
        obtain ⟨blanks, blank, rfl⟩ : ∃ blanks, blanks.all Text.isBlank = true ∧
            after = blanks ++ '>' :: behind :=
          ⟨after.takeWhile Text.isBlank, List.all_takeWhile, by
            rw [← blanksDropped, List.takeWhile_append_dropWhile]⟩
        refine ⟨word, blanks, List.append_cancel_right (split.symm.trans ?_), letters, blank⟩
        simp
      · cases ends
    · cases ends
  · rintro ⟨rfl, word, blanks, rfl, letters, blank⟩
    have named : Text.dropWord? name (word ++ (blanks ++ '>' :: rest)) =
        some (blanks ++ '>' :: rest) := Text.dropWord?_eq_some_iff.2 ⟨word, rfl, letters⟩
    have closing : Text.isBlank '>' = false := by decide
    have dropped : (blanks ++ '>' :: rest).dropWhile Text.isBlank = '>' :: rest := by
      rw [List.dropWhile_append_of_pos (List.all_eq_true.1 blank)]
      simp [closing]
    have taken : (word ++ (blanks ++ '>' :: rest)).take
        ((word ++ (blanks ++ '>' :: rest)).length - rest.length) = word ++ (blanks ++ ['>']) := by
      rw [show word ++ (blanks ++ '>' :: rest) = word ++ (blanks ++ ['>']) ++ rest by simp]
      exact List.take_left' (by simp only [List.length_append, List.length_cons]; omega)
    simp only [endTag?, List.cons_append, List.append_assoc, List.nil_append, named,
      Option.bind_eq_bind, Option.bind_some, dropped, taken]

/-- The only `<` of an end tag is its first character. -/
theorem lt_notMem_of_endTag? {name cs rest others : List Char} {c : Char}
    (letters : '<' ∉ name) (ends : endTag? name cs = some (c :: others, rest)) : '<' ∉ others := by
  obtain ⟨-, word, blanks, shape, folded, blank⟩ := endTag?_eq_some_iff.1 ends
  obtain ⟨-, rfl⟩ := List.cons.inj shape
  have inWord : '<' ∉ word := fun member =>
    letters (folded ▸ List.mem_map.2 ⟨'<', member, by decide⟩)
  have inBlanks : '<' ∉ blanks := fun member =>
    absurd (List.all_eq_true.1 blank _ member) (by decide)
  simp [inWord, inBlanks]

/-- The first end tag is the first with any other text behind it. -/
theorem find_endTag?_append {name cs body close rest : List Char} (letters : '<' ∉ name)
    (found : Text.find? (endTag? name) cs = some (body, close, rest)) (rest' : List Char) :
    Text.find? (endTag? name) (body ++ (close ++ rest')) = some (body, close, rest') := by
  obtain ⟨behind, rfl, ends, first⟩ := Text.find?_eq_some_iff.1 found
  obtain ⟨rfl, word, blanks, shape, -⟩ := endTag?_eq_some_iff.1 ends
  have alike {tag r s : List Char} (there : endTag? name (tag ++ r) = some (tag, r)) :
      endTag? name (tag ++ s) = some (tag, s) := by
    obtain ⟨-, others⟩ := endTag?_eq_some_iff.1 there
    exact endTag?_eq_some_iff.2 ⟨rfl, others⟩
  refine Text.find?_eq_some_iff.2 ⟨close ++ rest', rfl, alike ends, fun x y split filled => ?_⟩
  by_contra early
  -- An end tag that begins in the content either ends before the text behind, and was there
  -- already, or it reaches beyond the `<` of the closing one.
  obtain ⟨⟨tag, after⟩, early⟩ := Option.ne_none_iff_exists'.1 early
  have same := (endTag?_eq_some_iff.1 early).1
  rw [← List.append_assoc] at same early
  rcases List.append_eq_append_iff.1 same with ⟨beyond, rfl, -⟩ | ⟨left, within, -⟩
  · obtain ⟨c, y', rfl⟩ := List.exists_cons_of_ne_nil filled
    have := lt_notMem_of_endTag? letters early
    simp [shape] at this
  · have before := first x y split filled
    rw [← List.append_assoc, within, List.append_assoc] at before
    have there : endTag? name (tag ++ after) = some (tag, after) := same ▸ early
    rw [alike there] at before
    cases before

/-! ## Elements -/

theorem lt_notMem_tag (kind : Kind) : '<' ∉ kind.tag.toList := by
  cases kind <;> decide

/-- The content of an element is read with any other text behind it. -/
theorem content?_append {kind : Kind} {tag : StartTag} {content rest : List Char} {inline : Bool}
    (read : content? kind tag = some (content, inline, rest)) (rest' : List Char) :
    content? kind { tag with rest := content ++ rest' } = some (content, inline, rest') := by
  unfold content? at read ⊢
  split at read
  · rename_i short
    cases read
    rw [if_pos short]
    rfl
  · rename_i long
    rw [if_neg long]
    obtain ⟨⟨body, close, after⟩, found, shape⟩ := Option.map_eq_some_iff.1 read
    cases shape
    rw [List.append_assoc, find_endTag?_append (lt_notMem_tag kind) found]
    rfl

/-- Where the element stands it is read, whatever comes after. -/
def Reads (keywords : List String) (kind : Kind) (e : Element) : Prop :=
  ∀ rest, ∃ tag content inline, startTag? kind.tag.toList (e.source ++ rest) = some tag ∧
    content? kind tag = some (content, inline, rest) ∧
    e = elementOf keywords kind (tag.text ++ content) tag.attributes inline

theorem reads_elementOf {keywords : List String} {kind : Kind} {cs content rest : List Char}
    {tag : StartTag} {inline : Bool} (begins : startTag? kind.tag.toList cs = some tag)
    (ends : content? kind tag = some (content, inline, rest)) :
    Reads keywords kind (elementOf keywords kind (tag.text ++ content) tag.attributes inline) := by
  intro rest'
  refine ⟨{ tag with rest := content ++ rest' }, content, inline, ?_, content?_append ends rest',
    rfl⟩
  simpa [elementOf] using startTag?_append begins (content ++ rest')

/-- An element that was cut from a page is read anywhere. -/
theorem reads_of_mem_piecesFrom {keywords : List String} {kind : Kind} {comments : List Span}
    {offset : Nat} {cs : List Char} {ps : List Piece}
    (cut : piecesFrom keywords kind comments offset cs = .ok ps) :
    ∀ e, .element e ∈ ps → Reads keywords kind e := by
  fun_induction piecesFrom keywords kind comments offset cs generalizing ps with
  | case1 offset cs =>
    cases cut
    simp
  | case2 offset cs before tag found start next _ =>
    rename_i ih
    obtain ⟨qs, others, rfl⟩ := exists_of_map_ok cut
    simpa using ih others
  | case3 => cases cut
  | case4 offset cs before tag found start next _ content inline rest ends =>
    rename_i ih
    obtain ⟨qs, others, rfl⟩ := exists_of_map_ok cut
    obtain ⟨behind, -, begins⟩ := Text.exists_of_find? found
    intro e member
    simp only [List.mem_cons, reduceCtorEq, Piece.element.injEq, false_or] at member
    rcases member with rfl | later
    · exact reads_elementOf begins ends
    · exact ih others e later

end PageBundle.Markup
