import PageBundle.Markup.Rewrite
import PageBundle.Proofs.Markup.Reading

/-!
# Where a start tag ends

A start tag ends at the first `>` outside quotes, and to its reader every quote opens a stretch that
another one closes. The reader of attributes takes a quote for the beginning of a value only behind
an equals sign and passes over the others. `parts` tells what it makes of each character. The two
readers agree unless a quote is passed over and, later, a `>` (`confined_iff`): then the element
goes on into the text of the page behind it.
-/

namespace PageBundle.Markup

/-- The quotes of attribute values. -/
def quotes : List Char :=
  ['"', '\'']

/-- The characters that decide where a start tag ends. -/
def marks : List Char :=
  '>' :: quotes

theorem free_of_all {p : Char → Bool} (free : marks.all (!p ·) = true) {c : Char}
    (member : p c = true) : c ∉ marks := by
  intro mark
  have other := List.all_eq_true.1 free c mark
  rw [member] at other
  cases other

theorem free_takeWhile {p : Char → Bool} (free : marks.all (!p ·) = true) (cs : List Char) :
    ∀ c ∈ cs.takeWhile p, c ∉ marks :=
  fun c member => free_of_all free (List.all_eq_true.1 List.all_takeWhile c member)

/-! ## The parts of attribute text -/

/-- A value as it stands behind a name. -/
structure Assigned where
  /-- The equals sign with the blanks around it. -/
  equals : List Char
  /-- The quote around the value, if there is one. -/
  quote : Option Char
  value : List Char
  deriving DecidableEq, Repr

namespace Assigned

/-- The text of the value, from the blanks before the equals sign. -/
def source (a : Assigned) : List Char :=
  a.equals ++ (a.quote.toList ++ (a.value ++ a.quote.toList))

/-- What of it does not stand between quotes. -/
def outside (a : Assigned) : List Char :=
  a.equals ++ if a.quote.isSome then [] else a.value

/-- Between quotes there is no such quote, and elsewhere nothing that decides where a tag ends. -/
structure Sound (a : Assigned) : Prop where
  equals : ∀ c ∈ a.equals, c ∉ marks
  quoted : ∀ q, a.quote = some q → q ∈ quotes ∧ q ∉ a.value
  bare : a.quote = none → ∀ c ∈ a.value, c ∉ marks

end Assigned

/-- The value at the start of a text as it stands there, and the rest. -/
def assigned? (cs : List Char) : Option (Assigned × List Char) :=
  let ds := (cs.dropWhile Text.isBlank).tail
  (value? cs).map fun r =>
    (⟨cs.takeWhile Text.isBlank ++ '=' :: ds.takeWhile Text.isBlank,
      (ds.dropWhile Text.isBlank).head?.filter quotes.contains, r.1⟩, r.2)

theorem value?_eq (cs : List Char) : value? cs = (assigned? cs).map fun r => (r.1.value, r.2) := by
  rw [assigned?, Option.map_map]
  exact Option.map_id'.symm

section Shape

variable {equals value es rest : List Char}

theorem shape_quoted {q : Char} (free : ∀ c ∈ equals, c ∉ marks) (quote : q ∈ quotes)
    (broken : Text.breakOn? [q] es = some (value, rest)) :
    equals ++ q :: es = (⟨equals, some q, value⟩ : Assigned).source ++ rest ∧
      (⟨equals, some q, value⟩ : Assigned).Sound := by
  obtain ⟨rfl, inside⟩ := Text.breakOn?_singleton_iff.1 broken
  refine ⟨by simp [Assigned.source], free, ?_, nofun⟩
  rintro q' same
  obtain rfl : q = q' := Option.some.inj same
  exact ⟨quote, inside⟩

theorem shape_bare (free : ∀ c ∈ equals, c ∉ marks) (es : List Char) :
    equals ++ es = (⟨equals, none, es.takeWhile isBareChar⟩ : Assigned).source ++
        es.dropWhile isBareChar ∧
      (⟨equals, none, es.takeWhile isBareChar⟩ : Assigned).Sound :=
  ⟨by simp [Assigned.source], free, nofun, fun _ => free_takeWhile (by decide) es⟩

end Shape

/-- A value is read from the start of the text, and no character in it is a mark that is not meant
to be one. -/
theorem shape_of_assigned? {cs rest : List Char} {a : Assigned}
    (read : assigned? cs = some (a, rest)) : cs = a.source ++ rest ∧ a.Sound := by
  obtain ⟨⟨value, rest⟩, valued, shape⟩ := Option.map_eq_some_iff.1 read
  cases shape
  have blanks (xs : List Char) : ∀ c ∈ xs.takeWhile Text.isBlank, c ∉ marks :=
    free_takeWhile (by decide) xs
  unfold value? at valued
  split at valued
  next ds assigns =>
    have free : ∀ c ∈ cs.takeWhile Text.isBlank ++ '=' :: ds.takeWhile Text.isBlank,
        c ∉ marks := by
      simp only [List.forall_mem_append, List.forall_mem_cons]
      exact ⟨blanks cs, by decide, blanks ds⟩
    have whole : cs = cs.takeWhile Text.isBlank ++ '=' :: ds.takeWhile Text.isBlank ++
        ds.dropWhile Text.isBlank := by
      rw [List.append_assoc, List.cons_append, List.takeWhile_append_dropWhile, ← assigns,
        List.takeWhile_append_dropWhile]
    simp only [assigns, List.tail_cons]
    nth_rewrite 1 [whole]
    split at valued
    next es behind =>
      rw [behind]
      exact shape_quoted free (by decide) valued
    next es behind =>
      rw [behind]
      exact shape_quoted free (by decide) valued
    next noDouble noSingle =>
      split at valued
      next begins =>
        cases valued
        have unquoted : (ds.dropWhile Text.isBlank).head?.filter quotes.contains = none := by
          refine Option.filter_eq_none_iff.2 fun c first => ?_
          rw [first] at begins
          have unmarked : c ∉ marks := free_of_all (p := isBareChar) (by decide) begins
          simpa [marks] using fun quote : c ∈ quotes => unmarked (List.mem_cons_of_mem _ quote)
        rw [unquoted]
        exact shape_bare free _
      next => cases valued
  next => cases valued

/-- What the reader of attributes makes of a stretch of text. -/
inductive Part where
  /-- A character that begins no name. -/
  | passed (c : Char)
  | named (name : List Char) (assigned : Option Assigned)
  deriving DecidableEq, Repr

namespace Part

/-- The text of a part. -/
def source : Part → List Char
  | .passed c => [c]
  | .named name assigned => name ++ assigned.elim [] Assigned.source

/-- What of a part does not stand in a quoted value. -/
def outside : Part → List Char
  | .passed c => [c]
  | .named name assigned => name ++ assigned.elim [] Assigned.outside

/-- The attribute that a part states. -/
def attribute? : Part → Option (List Char × Option (List Char))
  | .passed _ => none
  | .named name assigned => some (name, assigned.map Assigned.value)

/-- No mark is in a name, and none in a value but between quotes. -/
def Sound : Part → Prop
  | .passed _ => True
  | .named name assigned => (∀ c ∈ name, c ∉ marks) ∧ ∀ a ∈ assigned, a.Sound

end Part

/-- The parts of attribute text, in order. -/
def parts : List Char → List Part
  | [] => []
  | c :: cs =>
    if isNameChar c then
      match _h : assigned? (cs.dropWhile isNameChar) with
      | some (a, rest) => .named (c :: cs.takeWhile isNameChar) (some a) :: parts rest
      | none => .named (c :: cs.takeWhile isNameChar) none :: parts (cs.dropWhile isNameChar)
    else .passed c :: parts cs
termination_by cs => cs.length
decreasing_by
  · have total := congrArg List.length (shape_of_assigned? _h).1
    have := Text.length_dropWhile_le isNameChar cs
    simp only [List.length_append, List.length_cons] at total ⊢
    omega
  · have := Text.length_dropWhile_le isNameChar cs
    simp only [List.length_cons]
    omega
  · simp

/-- The parts of a text are the text. -/
theorem flatMap_source_parts (cs : List Char) : (parts cs).flatMap Part.source = cs := by
  fun_induction parts cs with
  | case1 => rfl
  | case2 c cs named a rest read ih =>
    rw [List.flatMap_cons, ih, Part.source, Option.elim_some, List.append_assoc,
      ← (shape_of_assigned? read).1, List.cons_append, List.takeWhile_append_dropWhile]
  | case3 c cs named missing ih =>
    rw [List.flatMap_cons, ih, Part.source, Option.elim_none, List.append_nil, List.cons_append,
      List.takeWhile_append_dropWhile]
  | case4 c cs other ih => rw [List.flatMap_cons, ih, Part.source, List.singleton_append]

/-- The attributes are those that the parts state. -/
theorem rawAttributes_eq (cs : List Char) :
    rawAttributes cs = (parts cs).filterMap Part.attribute? := by
  fun_induction parts cs with
  | case1 => rw [rawAttributes]; rfl
  | case2 c cs named a rest read ih =>
    rw [rawAttributes_named named, value?_eq, read, List.filterMap_cons, ← ih]
    rfl
  | case3 c cs named missing ih =>
    rw [rawAttributes_named named, value?_eq, missing, List.filterMap_cons, ← ih]
    rfl
  | case4 c cs other ih =>
    rw [rawAttributes_passed (by simpa using other), ih]
    rfl

theorem sound_of_mem_parts {cs : List Char} : ∀ p ∈ parts cs, p.Sound := by
  have free {c : Char} (named : isNameChar c = true) (cs : List Char) :
      ∀ d ∈ c :: cs.takeWhile isNameChar, d ∉ marks :=
    List.forall_mem_cons.2 ⟨free_of_all (p := isNameChar) (by decide) named,
      free_takeWhile (by decide) cs⟩
  fun_induction parts cs with
  | case1 => nofun
  | case2 c cs named a rest read ih =>
    refine List.forall_mem_cons.2 ⟨⟨free named cs, ?_⟩, ih⟩
    rintro b same
    obtain rfl : a = b := Option.mem_some_iff.1 same
    exact (shape_of_assigned? read).2
  | case3 c cs named missing ih => exact List.forall_mem_cons.2 ⟨⟨free named cs, nofun⟩, ih⟩
  | case4 c cs other ih => exact List.forall_mem_cons.2 ⟨trivial, ih⟩

/-- Outside quoted values a mark is a part of its own. -/
theorem eq_passed_of_mark {p : Part} (sound : p.Sound) {c : Char} (outside : c ∈ p.outside)
    (mark : c ∈ marks) : p = .passed c := by
  cases p with
  | passed d => rw [List.mem_singleton.1 outside]
  | named name assigned =>
    obtain ⟨named, valued⟩ := sound
    refine absurd mark ?_
    rcases List.mem_append.1 outside with inName | inValue
    · exact named c inName
    · cases assigned with
      | none => cases inValue
      | some a =>
        have read := valued a rfl
        rcases List.mem_append.1 inValue with inEquals | bare
        · exact read.equals c inEquals
        · cases quote : a.quote with
          | none => exact read.bare quote c (by simpa [quote] using bare)
          | some q => simp [quote] at bare

/-! ## The reader of start tags -/

theorem foldl_unquoted {cs : List Char} (free : ∀ c ∈ cs, c ∉ quotes) :
    cs.foldl quoteAfter none = none := by
  induction cs with
  | nil => rfl
  | cons c cs ih =>
    rw [List.forall_mem_cons] at free
    have other : quoteAfter none c = none := by simpa [quotes, quoteAfter] using free.1
    rw [List.foldl_cons, other, ih free.2]

theorem foldl_quoted {q : Char} {cs : List Char} (free : q ∉ cs) :
    cs.foldl quoteAfter (some q) = some q := by
  induction cs with
  | nil => rfl
  | cons c cs ih =>
    rw [List.mem_cons, not_or] at free
    have same : quoteAfter (some q) c = some q := by simp [quoteAfter, Ne.symm free.1]
    rw [List.foldl_cons, same, ih free.2]

theorem notMem_quotes {c : Char} (free : c ∉ marks) : c ∉ quotes :=
  fun quote => free (List.mem_cons_of_mem _ quote)

namespace Assigned

/-- The quotes of a value belong together. -/
theorem Sound.foldl_source {a : Assigned} (sound : a.Sound) :
    a.source.foldl quoteAfter none = none := by
  have before := foldl_unquoted fun c member => notMem_quotes (sound.equals c member)
  rw [source, List.foldl_append, before]
  cases quote : a.quote with
  | none =>
    simpa using foldl_unquoted fun c member => notMem_quotes (sound.bare quote c member)
  | some q =>
    obtain ⟨isQuote, inside⟩ := sound.quoted q quote
    have opens : quoteAfter none q = some q := if_pos (by simpa [quotes] using isQuote)
    have closes : quoteAfter (some q) q = none := by simp [quoteAfter]
    simp [opens, closes, foldl_quoted inside]

end Assigned

/-- No part leaves a quote open but a quote that is passed over. -/
theorem Part.Sound.foldl_source {p : Part} (sound : p.Sound)
    (noQuote : ∀ q ∈ quotes, p ≠ .passed q) : p.source.foldl quoteAfter none = none := by
  cases p with
  | passed c =>
    refine foldl_unquoted fun d member quote => noQuote d quote ?_
    rw [List.mem_singleton.1 member]
  | named name assigned =>
    have before := foldl_unquoted fun c member => notMem_quotes (sound.1 c member)
    rw [Part.source, List.foldl_append, before]
    cases assigned with
    | none => rfl
    | some a => exact (sound.2 a rfl).foldl_source

theorem foldl_sources {ps : List Part} (closed : ∀ p ∈ ps, p.source.foldl quoteAfter none = none) :
    (ps.flatMap Part.source).foldl quoteAfter none = none := by
  induction ps with
  | nil => rfl
  | cons p ps ih =>
    rw [List.forall_mem_cons] at closed
    rw [List.flatMap_cons, List.foldl_append, closed.1, ih closed.2]

/-- Where the reader of start tags passes a `>`, a quote is open. -/
theorem isSome_of_untilClose {quote : Option Char} {read cs attributes rest : List Char}
    (closed : untilClose quote read cs = some (attributes, rest)) :
    ∃ taken, attributes = read.reverse ++ taken ∧
      ∀ u v, taken = u ++ '>' :: v → (u.foldl quoteAfter quote).isSome = true := by
  induction cs generalizing quote read with
  | nil => cases closed
  | cons c cs ih =>
    rw [untilClose] at closed
    split at closed
    next =>
      cases closed
      exact ⟨[], by simp, by simp⟩
    next further =>
      obtain ⟨taken, rfl, open_⟩ := ih closed
      refine ⟨c :: taken, by simp, fun u v split => ?_⟩
      cases u with
      | nil =>
        obtain ⟨rfl, -⟩ := List.cons.inj split
        simpa [Option.isSome_iff_ne_none] using further
      | cons d u =>
        obtain ⟨rfl, rest⟩ := List.cons.inj split
        exact open_ u v rest

theorem isSome_of_attributeText? {cs attributes rest u v : List Char}
    (taken : attributeText? cs = some (attributes, rest)) (split : attributes = u ++ '>' :: v) :
    (u.foldl quoteAfter none).isSome = true := by
  cases cs with
  | nil => cases taken
  | cons c cs =>
    rw [attributeText?] at taken
    split at taken
    next =>
      cases taken
      simp at split
    next =>
      split at taken
      next begins =>
        obtain ⟨others, rfl, open_⟩ := isSome_of_untilClose taken
        -- The blank or the slash behind the name opens no quote.
        have other : c ∉ marks := free_of_all
          (p := fun c => Text.isBlank c || c == '/') (by decide) begins
        have still : quoteAfter none c = none := by
          simpa [quotes, quoteAfter] using notMem_quotes other
        rw [List.reverse_singleton, List.singleton_append] at split
        cases u with
        | nil =>
          obtain ⟨rfl, -⟩ := List.cons.inj split
          exact absurd List.mem_cons_self other
        | cons d u =>
          obtain ⟨rfl, rest⟩ := List.cons.inj split
          rw [List.foldl_cons, still]
          exact open_ u v rest
      next => cases taken

/-- The attributes of a start tag are read by `attributeText?`. -/
theorem exists_of_startTag? {name cs : List Char} {tag : StartTag}
    (begins : startTag? name cs = some tag) :
    ∃ behind, attributeText? behind = some (tag.attributes, tag.rest) := by
  unfold startTag? at begins
  split at begins
  next cs =>
    obtain ⟨behind, -, begins⟩ := Option.bind_eq_some_iff.1 begins
    obtain ⟨⟨attributes, rest⟩, taken, begins⟩ := Option.bind_eq_some_iff.1 begins
    cases begins
    exact ⟨behind, taken⟩
  next => cases begins

/-! ## Where the two agree -/

/-- Every `>` of attribute text stands in a quoted value. -/
def Confined (attributes : List Char) : Prop :=
  ∀ p ∈ parts attributes, '>' ∉ p.outside

instance : DecidablePred Confined :=
  fun attributes => List.decidableBAll (fun p : Part => '>' ∉ p.outside) (parts attributes)

/-- A quote is passed over and, later, a `>`. -/
def Strays (attributes : List Char) : Prop :=
  ∃ q ∈ quotes, [.passed q, .passed '>'].Sublist (parts attributes)

instance : DecidablePred Strays :=
  fun attributes =>
    List.decidableBEx (fun q => [Part.passed q, .passed '>'].Sublist (parts attributes)) quotes

/-- **The two readers agree** unless a quote is passed over and, later, a `>`. -/
theorem confined_iff_not_strays {name cs : List Char} {tag : StartTag}
    (begins : startTag? name cs = some tag) :
    Confined tag.attributes ↔ ¬ Strays tag.attributes := by
  constructor
  · rintro confined ⟨q, -, stray⟩
    have passed : Part.passed '>' ∈ parts tag.attributes := stray.subset (by simp)
    exact confined _ passed (List.mem_singleton_self '>')
  · intro orderly p member outside
    obtain rfl := eq_passed_of_mark (sound_of_mem_parts p member) outside (by decide)
    obtain ⟨us, vs, split⟩ := List.append_of_mem member
    -- Up to the first `>` that is passed over no quote is, so none is open there.
    have noQuote : ∀ p ∈ us, ∀ q ∈ quotes, p ≠ .passed q := by
      rintro p before q quote rfl
      refine orderly ⟨q, quote, ?_⟩
      rw [split]
      exact (List.singleton_sublist.2 before).append (List.singleton_sublist.2 List.mem_cons_self)
    have closed : (us.flatMap Part.source).foldl quoteAfter none = none := by
      refine foldl_sources fun p before => Part.Sound.foldl_source ?_ (noQuote p before)
      exact sound_of_mem_parts p (split ▸ List.mem_append_left _ before)
    have whole : tag.attributes = us.flatMap Part.source ++ '>' :: vs.flatMap Part.source := by
      rw [← flatMap_source_parts tag.attributes, split, List.flatMap_append]
      rfl
    obtain ⟨behind, taken⟩ := exists_of_startTag? begins
    have open_ := isSome_of_attributeText? taken whole
    rw [closed] at open_
    cases open_

theorem mem_of_mem_tagsFrom {offset : Nat} {ps : List Piece} {u : Tag}
    (member : u ∈ tagsFrom offset ps) : .element u.element ∈ ps := by
  induction ps generalizing offset with
  | nil => cases member
  | cons p ps ih =>
    cases p with
    | text cs => exact List.mem_cons_of_mem _ (ih member)
    | element e =>
      rcases List.mem_cons.1 member with rfl | later
      · exact List.mem_cons_self
      · exact List.mem_cons_of_mem _ (ih later)

/-- **Where a start tag ends the reader of its attributes ends as well**, which is to say that every
`>` of the attribute text stands in a quoted value, unless that reader passes over a quote and,
later, a `>`. Its parts are the attribute text, and what they state is the reference of the
element. -/
theorem confined_iff (keywords : List String) (kind : Kind) {page : String} {found : List Tag}
    (scanned : scan keywords kind page = .ok found) :
    ∀ u ∈ found, ∃ tag content, startTag? kind.tag.toList u.element.source = some tag ∧
      u.element.source = tag.text ++ content ∧
      u.element.reference = referenceOf kind tag.attributes ∧
      (parts tag.attributes).flatMap Part.source = tag.attributes ∧
      (parts tag.attributes).filterMap Part.attribute? = rawAttributes tag.attributes ∧
      (Confined tag.attributes ↔ ¬ Strays tag.attributes) := by
  intro u member
  obtain ⟨ps, cut, rfl⟩ := exists_of_map_ok scanned
  have reads := reads_of_mem_piecesFrom cut u.element (mem_of_mem_tagsFrom member)
  obtain ⟨tag, content, inline, begins, -, element⟩ := reads []
  rw [List.append_nil] at begins
  exact ⟨tag, content, begins, congrArg Element.source element, congrArg Element.reference element,
    flatMap_source_parts _, (rawAttributes_eq _).symm, confined_iff_not_strays begins⟩

/-- A `>` in a title, and an apostrophe behind the tag. -/
theorem confined_in_title :
    let page := "<link rel=stylesheet href=/a title='a > b'><p>it's</p>"
    ∃ found, scan [] .style page = .ok found ∧ ∃ u ∈ found, ∃ tag,
      startTag? Kind.style.tag.toList u.element.source = some tag ∧
        tag.attributes = " rel=stylesheet href=/a title='a > b'".toList ∧
        Confined tag.attributes := by
  intro page
  obtain ⟨found, scanned, told⟩ := exists_ok_of_any (r := scan [] .style page) (p := fun found =>
    ∃ u ∈ found, (startTag? Kind.style.tag.toList u.element.source).any fun tag =>
      tag.attributes = " rel=stylesheet href=/a title='a > b'".toList ∧ ¬ Strays tag.attributes)
    (by decide +kernel)
  obtain ⟨u, member, there⟩ := of_decide_eq_true told
  obtain ⟨tag, content, begins, -, -, -, -, agree⟩ := confined_iff [] .style scanned u member
  rw [begins] at there
  obtain ⟨text, orderly⟩ := of_decide_eq_true there
  exact ⟨found, scanned, u, member, tag, begins, text, agree.2 orderly⟩

/-- An apostrophe among the attributes and the next one in the page: the text between them belongs
to the tag and is deleted with it. -/
theorem start_tag_runs_into_text :
    let page := "<link rel=stylesheet href=/a '><p>it's</p>"
    ∃ ps, pieces [] .style page.toList = .ok ps ∧ scan [] .style page = .ok (tags ps) ∧
      rewrite .style "/m" ps = "<link type=\"text/css\" rel=\"stylesheet\" href=\"/m\">" ∧
      ∃ u ∈ tags ps, ∃ tag, startTag? Kind.style.tag.toList u.element.source = some tag ∧
        tag.text = page.toList ∧ ¬ Confined tag.attributes := by
  intro page
  obtain ⟨ps, cut, told⟩ := exists_ok_of_any (r := pieces [] .style page.toList) (p := fun ps =>
    rewrite .style "/m" ps = "<link type=\"text/css\" rel=\"stylesheet\" href=\"/m\">" ∧
    ∃ u ∈ tags ps, (startTag? Kind.style.tag.toList u.element.source).any fun tag =>
      tag.text = page.toList ∧ ¬ Confined tag.attributes) (by decide +kernel)
  obtain ⟨rewritten, u, member, there⟩ := of_decide_eq_true told
  have scanned : scan [] .style page = .ok (tags ps) := by
    rw [scan, cut]
    rfl
  cases begins : startTag? Kind.style.tag.toList u.element.source with
  | none =>
    rw [begins] at there
    cases there
  | some tag =>
    rw [begins] at there
    obtain ⟨text, overrun⟩ := of_decide_eq_true there
    exact ⟨ps, cut, scanned, rewritten, u, member, tag, begins, text, overrun⟩

end PageBundle.Markup
