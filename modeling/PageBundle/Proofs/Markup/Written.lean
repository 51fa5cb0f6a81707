import PageBundle.Proofs.Markup.Reading

/-!
# Reading what was written

An element is written with quotes around the values of its attributes and with references for the
characters that would end them. Reading gives back what was written: `unescape_escape` for values,
`rawAttributes_writtenAttributes` for lists of attributes, `referenceOf_escaped` for what they say
of a resource, and `reads_stated` for the element. The element that refers to an artifact is one of
these, so that it names the artifact: `reads_merged`.
-/

namespace PageBundle.Markup

open Text (Becomes)

/-! ## Values -/

/-- The characters that are written as references. -/
def escapedChars : List Char := ['&', '"', '<']

theorem escape_singleton_of_notMem {c : Char} (plain : c ∉ escapedChars) : escape [c] = [c] := by
  simp only [escapedChars, List.mem_cons, List.not_mem_nil, or_false, not_or] at plain
  simp only [escape, List.flatMap_cons, List.flatMap_nil, beq_iff_eq, plain, if_false,
    List.append_nil]

/-- How a character is written when only those of a list are written as references. -/
def escapeAmong (chars : List Char) (c : Char) : List Char :=
  if c ∈ chars then escape [c] else [c]

theorem escape_eq_flatMap (value : List Char) :
    escape value = value.flatMap (escapeAmong escapedChars) := by
  have one (c : Char) : escape [c] = escapeAmong escapedChars c := by
    rw [escapeAmong]
    split
    · rfl
    · rename_i plain
      exact escape_singleton_of_notMem plain
  rw [← funext one]
  simp only [escape, List.flatMap_singleton]

/-- Replacing a reference in an escaped value, when it is known what becomes of the characters that
may be escaped. -/
theorem replaceAll_escapeAmong {name new chars chars' : List Char}
    (amp : Becomes ('&' :: name) new (escapeAmong chars '&') (escapeAmong chars' '&'))
    (quote : Becomes ('&' :: name) new (escapeAmong chars '"') (escapeAmong chars' '"'))
    (less : Becomes ('&' :: name) new (escapeAmong chars '<') (escapeAmong chars' '<'))
    (value : List Char) :
    Text.replaceAll ('&' :: name) new (value.flatMap (escapeAmong chars)) =
      value.flatMap (escapeAmong chars') := by
  refine Text.replaceAll_flatMap (fun c => ?_) value
  by_cases special : c ∈ escapedChars
  · rcases special with _ | ⟨_, _ | ⟨_, _ | ⟨_, ⟨⟩⟩⟩⟩
    · exact amp
    · exact quote
    · exact less
  · have plain (chars : List Char) : escapeAmong chars c = [c] := by
      rw [escapeAmong]
      split
      · exact escape_singleton_of_notMem special
      · rfl
    rw [plain, plain]
    refine Text.becomes_self ?_
    rintro (_ | ⟨_, ⟨⟩⟩)
    exact special List.mem_cons_self

/-- **A value is read as it was before it was written.** -/
theorem unescape_escape (value : List Char) : unescape (escape value) = value := by
  -- The references are replaced one after the other. `&amp;` is the last, so that what it leaves is
  -- not taken for the beginning of another reference.
  have quot : Text.replaceAll "&quot;".toList ['"'] (value.flatMap (escapeAmong escapedChars)) =
      value.flatMap (escapeAmong ['&', '<']) :=
    replaceAll_escapeAmong (fun _ => rfl) (fun _ => rfl) (fun _ => rfl) value
  have apos : Text.replaceAll "&#39;".toList ['\''] (value.flatMap (escapeAmong ['&', '<'])) =
      value.flatMap (escapeAmong ['&', '<']) :=
    replaceAll_escapeAmong (fun _ => rfl) (fun _ => rfl) (fun _ => rfl) value
  have less : Text.replaceAll "&lt;".toList ['<'] (value.flatMap (escapeAmong ['&', '<'])) =
      value.flatMap (escapeAmong ['&']) :=
    replaceAll_escapeAmong (fun _ => rfl) (fun _ => rfl) (fun _ => rfl) value
  have greater : Text.replaceAll "&gt;".toList ['>'] (value.flatMap (escapeAmong ['&'])) =
      value.flatMap (escapeAmong ['&']) :=
    replaceAll_escapeAmong (fun _ => rfl) (fun _ => rfl) (fun _ => rfl) value
  have amp : Text.replaceAll "&amp;".toList ['&'] (value.flatMap (escapeAmong ['&'])) =
      value.flatMap (escapeAmong []) :=
    replaceAll_escapeAmong (fun _ => rfl) (fun _ => rfl) (fun _ => rfl) value
  have bare : escapeAmong [] = fun c => [c] := funext fun c => if_neg List.not_mem_nil
  rw [escape_eq_flatMap, unescape, references]
  simp only [List.foldl_cons, List.foldl_nil, quot, apos, less, greater, amp, bare,
    List.flatMap_singleton']

/-- A written value does not end the quotes around it. -/
theorem quote_notMem_escape (value : List Char) : '"' ∉ escape value := by
  rw [escape_eq_flatMap, List.mem_flatMap]
  rintro ⟨c, -, member⟩
  by_cases special : c ∈ escapedChars
  · rcases special with _ | ⟨_, _ | ⟨_, _ | ⟨_, ⟨⟩⟩⟩⟩ <;> revert member <;> decide
  · rw [escapeAmong, if_neg special, List.mem_singleton] at member
    exact special (member ▸ List.mem_cons_of_mem _ List.mem_cons_self)

/-! ## Attributes -/

/-- A list of attributes as it is written: each with a blank before it and quotes around its
value. -/
def writtenAttributes (attributes : List (List Char × List Char)) : List Char :=
  attributes.flatMap fun a => ' ' :: (a.1 ++ '=' :: '"' :: (a.2 ++ ['"']))

/-- What may be written as an attribute: a name, and a value that does not end the quotes. -/
def Writable (a : List Char × List Char) : Prop :=
  a.1 ≠ [] ∧ a.1.all isNameChar = true ∧ '"' ∉ a.2

instance (a : List Char × List Char) : Decidable (Writable a) :=
  inferInstanceAs (Decidable (a.1 ≠ [] ∧ a.1.all isNameChar = true ∧ '"' ∉ a.2))

theorem value?_quoted {value : List Char} (free : '"' ∉ value) (rest : List Char) :
    value? ('=' :: '"' :: (value ++ '"' :: rest)) = some (value, rest) := by
  rw [value?, List.dropWhile_cons_of_neg (by decide)]
  simp only
  rw [List.dropWhile_cons_of_neg (by decide)]
  exact Text.breakOn?_singleton_iff.2 ⟨rfl, free⟩

theorem rawAttributes_cons {a : List Char × List Char} (writable : Writable a) (rest : List Char) :
    rawAttributes (' ' :: (a.1 ++ '=' :: '"' :: (a.2 ++ '"' :: rest))) =
      (a.1, some a.2) :: rawAttributes rest := by
  obtain ⟨name, value⟩ := a
  obtain ⟨filled, named, free⟩ := writable
  obtain ⟨c, name, rfl⟩ := List.exists_cons_of_ne_nil filled
  simp only [List.all_cons, Bool.and_eq_true, List.all_eq_true] at named
  let behind := '=' :: '"' :: (value ++ '"' :: rest)
  have ends : isNameChar '=' = false := by decide
  have taken : (name ++ behind).takeWhile isNameChar = name := by
    rw [List.takeWhile_append_of_pos named.2, List.takeWhile_cons_of_neg (by simp [ends]),
      List.append_nil]
  have left : (name ++ behind).dropWhile isNameChar = behind := by
    rw [List.dropWhile_append_of_pos named.2, List.dropWhile_cons_of_neg (by simp [ends])]
  rw [rawAttributes_passed (by decide), List.cons_append, rawAttributes_named named.1, taken, left,
    value?_quoted free]

/-- **Attributes are read as they were written.** -/
theorem rawAttributes_writtenAttributes {attributes : List (List Char × List Char)}
    (writable : ∀ a ∈ attributes, Writable a) :
    rawAttributes (writtenAttributes attributes) = attributes.map fun a => (a.1, some a.2) := by
  induction attributes with
  | nil => rw [writtenAttributes, List.flatMap_nil, rawAttributes]; rfl
  | cons a attributes ih =>
    rw [List.forall_mem_cons] at writable
    have first := rawAttributes_cons writable.1 (writtenAttributes attributes)
    rw [List.map_cons, ← ih writable.2, ← first]
    simp [writtenAttributes]

/-- Between quotes nothing ends a tag. -/
theorem untilClose_quoted {value : List Char} (free : '"' ∉ value) (read cs : List Char) :
    untilClose (some '"') read (value ++ '"' :: cs) =
      untilClose none ('"' :: (value.reverse ++ read)) cs := by
  induction value generalizing read with
  | nil => rfl
  | cons c value ih =>
    rw [List.mem_cons, not_or] at free
    have open_ : quoteAfter (some '"') c = some '"' := by simp [quoteAfter, Ne.symm free.1]
    rw [List.cons_append, untilClose, open_, if_neg (by simp), ih free.2]
    simp

/-- Characters that are neither quotes nor `>` are passed over. -/
theorem untilClose_append {xs : List Char} (plain : ∀ c ∈ xs, c ∉ ['>', '"', '\''])
    (read cs : List Char) :
    untilClose none read (xs ++ cs) = untilClose none (xs.reverse ++ read) cs := by
  induction xs generalizing read with
  | nil => rfl
  | cons c xs ih =>
    rw [List.forall_mem_cons] at plain
    have other := plain.1
    simp only [List.mem_cons, List.not_mem_nil, or_false, not_or] at other
    have still : quoteAfter none c = none := by simp [quoteAfter, other]
    rw [List.cons_append, untilClose, still, if_neg (by simp [other]), ih plain.2]
    simp

/-- Written attributes are passed over. -/
theorem untilClose_writtenAttributes {attributes : List (List Char × List Char)}
    (writable : ∀ a ∈ attributes, Writable a) (read cs : List Char) :
    untilClose none read (writtenAttributes attributes ++ cs) =
      untilClose none ((writtenAttributes attributes).reverse ++ read) cs := by
  induction attributes generalizing read with
  | nil => rfl
  | cons a attributes ih =>
    rw [List.forall_mem_cons] at writable
    obtain ⟨-, named, free⟩ := writable.1
    have plain : ∀ c ∈ ' ' :: (a.1 ++ ['=']), c ∉ ['>', '"', '\''] := by
      intro c member special
      simp only [List.mem_cons, List.mem_append, List.not_mem_nil, or_false] at member special
      rcases member with rfl | member | rfl
      · simp at special
      · have := List.all_eq_true.1 named c member
        rcases special with rfl | rfl | rfl <;> revert this <;> decide
      · simp at special
    have split : writtenAttributes (a :: attributes) ++ cs =
        ' ' :: (a.1 ++ ['=']) ++ ('"' :: (a.2 ++ '"' :: (writtenAttributes attributes ++ cs))) := by
      simp [writtenAttributes]
    rw [split, untilClose_append plain, untilClose, if_neg (by decide)]
    rw [show quoteAfter none '"' = some '"' from rfl, untilClose_quoted free, ih writable.2]
    simp [writtenAttributes]

/-! ## What attributes say -/

/-- Whether a text may stand as the name of an attribute. Capitals may not: a name is looked up in
small letters. -/
def isAttributeName (name : String) : Bool :=
  !name.isEmpty && name.toList.all fun c => isNameChar c && !c.isUpper

/-- Attributes with their values as they stand between the quotes. -/
def escaped (attributes : List (String × String)) : List (List Char × List Char) :=
  attributes.map fun a => (a.1.toList, escape a.2.toList)

theorem writable_escaped {attributes : List (String × String)}
    (named : ∀ a ∈ attributes, isAttributeName a.1 = true) :
    ∀ a ∈ escaped attributes, Writable a := by
  refine List.forall_mem_map.2 fun a member => ?_
  have name := named a member
  simp only [isAttributeName, Bool.and_eq_true, Bool.not_eq_true', List.all_eq_true] at name
  obtain ⟨filled, plain⟩ := name
  refine ⟨fun empty => ?_, List.all_eq_true.2 fun c inName => (plain c inName).1,
    quote_notMem_escape a.2.toList⟩
  rw [String.toList_eq_nil_iff] at empty
  simp [empty] at filled

/-- Letters that are not capitals stay as they are. -/
theorem toLower_of_not_isUpper {c : Char} (small : c.isUpper = false) : c.toLower = c := by
  have between : ¬ (c.val ≥ 'A'.val ∧ c.val ≤ 'Z'.val) := of_decide_eq_false small
  exact dif_neg between

theorem toLower_of_isAttributeName {name : String} (plain : isAttributeName name = true) :
    String.ofList (name.toList.map Char.toLower) = name := by
  simp only [isAttributeName, Bool.and_eq_true, Bool.not_eq_true', List.all_eq_true] at plain
  rw [List.map_congr_left fun c inName => toLower_of_not_isUpper (plain.2 c inName).2,
    List.map_id', String.ofList_toList]

/-- **An attribute has the value that it was written with.** Of several with one name the first
counts. -/
theorem attribute?_escaped {attributes : List (String × String)}
    (named : ∀ a ∈ attributes, isAttributeName a.1 = true) (name : String) :
    attribute? ((escaped attributes).map fun a => (a.1, some a.2)) name =
      attributes.lookup name := by
  induction attributes with
  | nil => rfl
  | cons a attributes ih =>
    obtain ⟨here, value⟩ := a
    rw [List.forall_mem_cons] at named
    have later := ih named.2
    have same : String.ofList (here.toList.map Char.toLower) = here :=
      toLower_of_isAttributeName named.1
    rw [attribute?] at later ⊢
    rw [escaped, List.map_cons, List.map_cons, ← escaped, List.find?_cons, List.lookup_cons]
    simp only [same]
    by_cases wanted : name = here
    · simp [wanted, unescape_escape]
    · rw [beq_false_of_ne wanted, beq_false_of_ne (Ne.symm wanted)]
      exact later

/-- What an element of a kind with these attributes says of the resource it refers to. -/
def statedReference (kind : Kind) (attributes : List (String × String)) : Reference :=
  { id := (attributes.lookup kind.sourceAttribute).getD ""
    mediaType := attributes.lookup "type"
    rel := attributes.lookup "rel"
    optOut := (attributes.lookup "noopt").any fun v => Text.sameLetters (Text.trim v) "true" }

/-- **A reference is read as it was stated.** -/
theorem referenceOf_escaped (kind : Kind) {attributes : List (String × String)}
    (named : ∀ a ∈ attributes, isAttributeName a.1 = true) :
    referenceOf kind (writtenAttributes (escaped attributes)) = statedReference kind attributes := by
  rw [referenceOf, rawAttributes_writtenAttributes (writable_escaped named)]
  simp only [attribute?_escaped named, statedReference]

/-! ## Elements -/

/-- The end of an element after its start tag. -/
def writtenContent : Kind → List Char
  | .script => "</script>".toList
  | .style => []

/-- The text of an element with these attributes. -/
def writtenElement (kind : Kind) (attributes : List (String × String)) : String :=
  String.ofList ('<' :: (kind.tag.toList ++
    (writtenAttributes (escaped attributes) ++ '>' :: writtenContent kind)))

/-- The element with these attributes, as it should be read. -/
def stated (keywords : List String) (kind : Kind) (attributes : List (String × String)) : Element :=
  let reference := statedReference kind attributes
  { source := (writtenElement kind attributes).toList
    reference
    inline := false
    eligible := reference.isMergeableAs kind && !isExcluded keywords reference.id }

/-- The attribute text of a start tag ends where the written attributes end. -/
theorem attributeText?_writtenAttributes {attributes : List (List Char × List Char)}
    (writable : ∀ a ∈ attributes, Writable a) (rest : List Char) :
    attributeText? (writtenAttributes attributes ++ '>' :: rest) =
      some (writtenAttributes attributes, rest) := by
  cases attributes with
  | nil => rfl
  | cons a attributes =>
    have passed := untilClose_writtenAttributes writable [] ('>' :: rest)
    have closes (read : List Char) : untilClose none read ('>' :: rest) =
        some (read.reverse, rest) := rfl
    rw [closes, List.append_nil, List.reverse_reverse] at passed
    exact passed

/-- The written attributes end with a quote, not with a slash. -/
theorem closesItself_writtenAttributes (attributes : List (List Char × List Char)) :
    closesItself (writtenAttributes attributes) = false := by
  rcases List.eq_nil_or_concat attributes with rfl | ⟨attributes, a, rfl⟩
  · rfl
  · have ends : writtenAttributes (attributes.concat a) =
        writtenAttributes attributes ++ ' ' :: (a.1 ++ '=' :: '"' :: a.2) ++ ['"'] := by
      simp [writtenAttributes]
    rw [closesItself, ends, Text.dropEnd_append_singleton (by decide), List.getLast?_concat]
    decide

theorem content?_writtenAttributes (kind : Kind) (attributes : List (List Char × List Char))
    (text rest : List Char) :
    content? kind ⟨text, writtenAttributes attributes, writtenContent kind ++ rest⟩ =
      some (writtenContent kind, false, rest) := by
  cases kind with
  | style => rfl
  | script =>
    have ends : Text.find? (endTag? Kind.script.tag.toList) (writtenContent .script ++ rest) =
        some ([], writtenContent .script, rest) :=
      Text.find?_of_some (endTag?_eq_some_iff.2
        ⟨rfl, Kind.script.tag.toList, [], rfl, by decide, rfl⟩)
    rw [content?, closesItself_writtenAttributes, ends]
    rfl

/-- **An element is read as it is meant**, wherever it stands. -/
theorem reads_stated (keywords : List String) (kind : Kind) {attributes : List (String × String)}
    (named : ∀ a ∈ attributes, isAttributeName a.1 = true) :
    Reads keywords kind (stated keywords kind attributes) := by
  intro rest
  let written := writtenAttributes (escaped attributes)
  let text := '<' :: (kind.tag.toList ++ written ++ ['>'])
  have whole : (writtenElement kind attributes).toList = text ++ writtenContent kind := by
    simp [writtenElement, text, written]
  refine ⟨⟨text, written, writtenContent kind ++ rest⟩, writtenContent kind, false, ?_,
    content?_writtenAttributes kind (escaped attributes) text rest, ?_⟩
  · have tagged : Text.dropWord? kind.tag.toList
        (kind.tag.toList ++ (written ++ '>' :: (writtenContent kind ++ rest))) =
          some (written ++ '>' :: (writtenContent kind ++ rest)) :=
      Text.dropWord?_eq_some_iff.2 ⟨_, rfl, by cases kind <;> decide⟩
    have taken := attributeText?_writtenAttributes (writable_escaped named)
      (writtenContent kind ++ rest)
    simp [stated, whole, text, startTag?, tagged, written, taken]
  · rw [stated, elementOf, referenceOf_escaped kind named, whole]
    rfl

/-! ## The merged element -/

/-- The attributes of the merged element, the one that names the artifact last. -/
def artifactAttributes (kind : Kind) (source : String) : List (String × String) :=
  kind.mergedAttributes ++ [(kind.sourceAttribute, source)]

theorem isAttributeName_artifactAttributes (kind : Kind) (source : String) :
    ∀ a ∈ artifactAttributes kind source, isAttributeName a.1 = true := by
  have last : isAttributeName kind.sourceAttribute = true := by cases kind <;> decide
  refine List.forall_mem_append.2 ⟨?_, List.forall_mem_singleton.2 last⟩
  cases kind <;> decide

/-- The merged element is written as any other. -/
theorem mergedElement_eq (kind : Kind) (source : String) :
    mergedElement kind source = writtenElement kind (artifactAttributes kind source) := by
  have opens : "<".toList = ['<'] := rfl
  have closes : ">".toList = ['>'] := rfl
  refine String.toList_injective ?_
  simp only [mergedElement, writtenElement, artifactAttributes, escaped, writtenAttributes,
    String.toList_append, opens, closes, String.toList_join, List.map_append, List.flatMap_append,
    List.flatMap_map, List.flatMap_singleton, List.map_cons, List.map_nil, String.toList_ofList,
    List.append_assoc, List.cons_append, List.nil_append]
  -- The values of the fixed attributes have no character that is written as a reference.
  cases kind <;> rfl

/-- What the merged element says: it refers to the artifact, as a resource of the kind. -/
def mergedReference (kind : Kind) (source : String) : Reference :=
  { id := source
    mediaType := kind.mergedAttributes.lookup "type"
    rel := kind.mergedAttributes.lookup "rel" }

theorem statedReference_artifactAttributes (kind : Kind) (source : String) :
    statedReference kind (artifactAttributes kind source) = mergedReference kind source := by
  cases kind <;> rfl

/-- The merged element as a scan should report it. -/
def merged (keywords : List String) (kind : Kind) (source : String) : Element :=
  let reference := mergedReference kind source
  { source := (mergedElement kind source).toList
    reference
    inline := false
    eligible := reference.isMergeableAs kind && !isExcluded keywords source }

theorem stated_artifactAttributes (keywords : List String) (kind : Kind) (source : String) :
    stated keywords kind (artifactAttributes kind source) = merged keywords kind source := by
  rw [stated, merged, statedReference_artifactAttributes, mergedElement_eq]
  rfl

/-- **The merged element is read as it is meant**, wherever it stands. -/
theorem reads_merged (keywords : List String) (kind : Kind) (source : String) :
    Reads keywords kind (merged keywords kind source) := by
  rw [← stated_artifactAttributes]
  exact reads_stated keywords kind (isAttributeName_artifactAttributes kind source)

end PageBundle.Markup
