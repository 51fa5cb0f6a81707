import PageBundle.Proofs.Markup.Rescan

/-!
# Scanning a written element

A page that consists of one written element is scanned to this element alone: `scan_written`. The
values of its attributes may hold all that has a meaning in a page, among it what ends a tag or
opens a comment. What a value says is not taken for markup, since between quotes nothing ends a tag
and since no comment can begin before the element does.
-/

namespace PageBundle.Markup

open Text (byteLength)

/-! ## Comments behind the beginning of a page -/

theorem le_start_of_mem_commentSpans {offset : Nat} {cs : List Char} {s : Span}
    (member : s ∈ commentSpans offset cs) : offset ≤ s.start := by
  fun_induction commentSpans offset cs with
  | case1 => cases member
  | case2 offset cs before comment after found start stop ih =>
    rcases List.mem_cons.1 member with rfl | later
    · exact Nat.le_add_right _ _
    · have := ih later
      omega

/-- A comment begins with what opens it. -/
theorem prefix_of_firstComment? {cs before comment after : List Char}
    (found : firstComment? cs = some (before, comment, after)) : commentStart <+: comment := by
  unfold firstComment? at found
  split at found
  · cases found
  · split at found
    · cases found
    · rename_i body _ _
      cases found
      exact ⟨body ++ commentEnd, by simp⟩

/-- Where a text does not begin with a comment, its beginning is in none. -/
theorem outside_commentSpans {cs : List Char} (other : ¬ commentStart <+: cs) (offset : Nat) :
    (commentSpans offset cs).any (·.contains offset) = false := by
  rw [commentSpans]
  split
  · rfl
  · rename_i before comment after found
    have filled : before ≠ [] := by
      rintro rfl
      obtain ⟨body, rfl⟩ := prefix_of_firstComment? found
      exact other ⟨body ++ after, by simp [(eq_append_of_firstComment? found).1]⟩
    have width := byteLength_pos filled
    simp only [List.any_eq_false, Span.contains, Bool.and_eq_true, decide_eq_true_eq, not_and]
    intro s member
    rcases List.mem_cons.1 member with rfl | later
    · simp only
      omega
    · have := le_start_of_mem_commentSpans later
      omega

/-! ## The element alone -/

/-- An element that is read anywhere is found in the page that consists of it. -/
theorem scan_of_reads {keywords : List String} {kind : Kind} {e : Element}
    (reads : Reads keywords kind e) (other : ¬ commentStart <+: e.source) :
    scan keywords kind (String.ofList e.source) = .ok [⟨⟨0, byteLength e.source⟩, e⟩] := by
  have found := scanFrom_of_reads reads (outside_commentSpans other 0) []
  rw [List.append_nil, scanFrom_nil, Nat.zero_add] at found
  rw [scan_eq_scanFrom, String.toList_ofList, found]
  rfl

theorem not_commentStart_writtenElement (kind : Kind) (attributes : List (String × String)) :
    ¬ commentStart <+: (writtenElement kind attributes).toList := by
  rw [writtenElement, String.toList_ofList]
  rintro ⟨rest, same⟩
  cases kind <;> cases same

theorem scan_writtenElement (keywords : List String) (kind : Kind)
    {attributes : List (String × String)}
    (named : ∀ a ∈ attributes, isAttributeName a.1 = true) :
    let page := writtenElement kind attributes
    scan keywords kind page =
      .ok [⟨⟨0, page.utf8ByteSize⟩, stated keywords kind attributes⟩] := by
  intro page
  have found := scan_of_reads (reads_stated keywords kind named)
    (not_commentStart_writtenElement kind attributes)
  rw [stated, String.ofList_toList, ← utf8ByteSize_eq] at found
  exact found

/-- **A written element is scanned as it was meant.** A page that consists of an element of the kind
has this element, from its beginning to its end and without content of its own, and no other; the
identifier, the media type, the relation and the opting out are the ones that its attributes state,
whatever their values hold. The merged element is written like that, and it names the artifact. -/
theorem scan_written (keywords : List String) (kind : Kind) :
    (∀ attributes : List (String × String), (∀ a ∈ attributes, isAttributeName a.1 = true) →
      let page := writtenElement kind attributes
      scan keywords kind page =
        .ok [⟨⟨0, page.utf8ByteSize⟩, stated keywords kind attributes⟩]) ∧
    ∀ source, ∃ t, scan keywords kind (mergedElement kind source) = .ok [t] ∧
      t.element.reference.id = source := by
  refine ⟨fun attributes named => scan_writtenElement keywords kind named, fun source => ?_⟩
  have named := isAttributeName_artifactAttributes kind source
  rw [mergedElement_eq]
  refine ⟨_, scan_writtenElement keywords kind named, ?_⟩
  rw [stated_artifactAttributes]
  rfl

/-- The values hold an end tag, the beginning of a comment and a second attribute. -/
theorem scan_written_script :
    let id := "/a?b&lt;\"'></script>\n<!-- src='c'"
    let attributes := [("src", id), ("noopt", " True\n"), ("type", "")]
    let written := "<script src=\"/a?b&amp;lt;&quot;'>&lt;/script>\n&lt;!-- src='c'\"" ++
      " noopt=\" True\n\" type=\"\"></script>"
    (∀ a ∈ attributes, isAttributeName a.1 = true) ∧
      writtenElement .script attributes = written ∧
      ∃ t, scan [] .script written = .ok [t] ∧ t.span = ⟨0, 95⟩ ∧
        t.element.reference = ⟨id, some "", none, true⟩ := by
  intro id attributes written
  have named : ∀ a ∈ attributes, isAttributeName a.1 = true := by decide
  have same : writtenElement .script attributes = written := by decide +kernel
  have found := (scan_written [] .script).1 attributes named
  rw [same] at found
  refine ⟨named, same, _, found, ?_, ?_⟩ <;> decide +kernel

end PageBundle.Markup
