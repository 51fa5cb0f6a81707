import PageBundle.Proofs.Markup.Places

/-!
# Elements of two kinds

The elements of each kind are found by a reading of the page that knows nothing of the other kind.
So elements of two kinds may lie one in the other: a link in the text of a script, a script in an
attribute of a link. To tell what rewriting for one kind does to an element of the other, each
character of the rewritten page is marked with the place that it is copied from (`origins`). The
copied characters are those outside the eligible spans, in the order of the page (`copied_origins`),
and so an element keeps all of its characters exactly if no eligible element begins in it and it
begins in no eligible element (`rewrite_keeps_element_iff`).
-/

namespace PageBundle.Markup

open Text (byteLength)

/-- The characters of a text that begins at an offset, each with the offset where it begins. -/
def placesFrom : Nat → List Char → List (Char × Nat)
  | _, [] => []
  | offset, c :: cs => (c, offset) :: placesFrom (offset + c.utf8Size) cs

/-- The text of rewritten pieces. Each character comes with the place of the one that it is a copy
of; the characters of `merged` are copies of none. -/
def originsFrom (merged : List Char) (offset : Nat) : List Piece → List (Char × Option Nat)
  | [] => []
  | .text cs :: ps =>
    (placesFrom offset cs).map (fun p => (p.1, some p.2)) ++
      originsFrom merged (offset + byteLength cs) ps
  | .element e :: ps =>
    let stop := offset + byteLength e.source
    if e.eligible then merged.map (fun c => (c, none)) ++ originsFrom [] stop ps
    else (placesFrom offset e.source).map (fun p => (p.1, some p.2)) ++ originsFrom merged stop ps

/-- The characters of the rewritten page and where each is copied from. -/
def origins (kind : Kind) (source : String) (ps : List Piece) : List (Char × Option Nat) :=
  originsFrom (mergedElement kind source).toList 0 ps

/-- The characters that are copied, with the places that they had. -/
def copied (marked : List (Char × Option Nat)) : List (Char × Nat) :=
  marked.filterMap fun p => p.2.map fun offset => (p.1, offset)

/-- Whether a character begins outside all the spans. -/
def isOutside (spans : List Span) (p : Char × Nat) : Bool :=
  spans.all fun s => !s.contains p.2

/-! ## Places of characters -/

theorem placesFrom_append (offset : Nat) (xs ys : List Char) :
    placesFrom offset (xs ++ ys) =
      placesFrom offset xs ++ placesFrom (offset + byteLength xs) ys := by
  induction xs generalizing offset with
  | nil => rfl
  | cons x xs ih =>
    rw [List.cons_append, placesFrom, placesFrom, ih, byteLength_cons, Nat.add_assoc]
    rfl

theorem map_fst_placesFrom (offset : Nat) (cs : List Char) :
    (placesFrom offset cs).map (·.1) = cs := by
  induction cs generalizing offset with
  | nil => rfl
  | cons c cs ih => rw [placesFrom, List.map_cons, ih]

/-- A character begins in the stretch that its text takes. -/
theorem bounds_of_mem_placesFrom {offset : Nat} {cs : List Char} {p : Char × Nat}
    (member : p ∈ placesFrom offset cs) : offset ≤ p.2 ∧ p.2 < offset + byteLength cs := by
  induction cs generalizing offset with
  | nil => cases member
  | cons c cs ih =>
    have size := c.utf8Size_pos
    rw [byteLength_cons]
    rcases List.mem_cons.1 member with rfl | later
    · exact ⟨Nat.le_refl _, by omega⟩
    · obtain ⟨low, high⟩ := ih later
      exact ⟨by omega, by omega⟩

/-- What begins in the stretch of a part of a text is in that part. -/
theorem mem_placesFrom_of_bounds {offset : Nat} {before between after : List Char} {p : Char × Nat}
    (member : p ∈ placesFrom offset (before ++ (between ++ after)))
    (low : offset + byteLength before ≤ p.2)
    (high : p.2 < offset + byteLength before + byteLength between) :
    p ∈ placesFrom (offset + byteLength before) between := by
  rw [placesFrom_append, placesFrom_append, List.mem_append, List.mem_append] at member
  rcases member with early | here | late
  · have := (bounds_of_mem_placesFrom early).2
    omega
  · exact here
  · have := (bounds_of_mem_placesFrom late).1
    omega

/-! ## What is copied -/

@[simp] theorem copied_append (xs ys : List (Char × Option Nat)) :
    copied (xs ++ ys) = copied xs ++ copied ys :=
  List.filterMap_append

@[simp] theorem copied_map_some (places : List (Char × Nat)) :
    copied (places.map fun p => (p.1, some p.2)) = places := by
  simp [copied, List.filterMap_map]

@[simp] theorem copied_map_none (cs : List Char) :
    copied (cs.map fun c => (c, (none : Option Nat))) = [] := by
  simp [copied, List.filterMap_map]

/-- The marks are beside the text of the rewritten page. -/
theorem map_fst_originsFrom (merged : List Char) (offset : Nat) (ps : List Piece) :
    (originsFrom merged offset ps).map (·.1) = rewriteFrom merged ps := by
  have text (offset : Nat) (cs : List Char) :
      ((placesFrom offset cs).map fun p => (p.1, some p.2)).map (·.1) = cs := by
    simpa [Function.comp_def] using map_fst_placesFrom offset cs
  fun_induction originsFrom merged offset ps with
  | case1 => rfl
  | case2 merged offset cs ps ih => rw [List.map_append, text, ih, rewriteFrom]
  | case3 merged offset e ps stop eligible ih =>
    rw [List.map_append, ih, rewriteFrom, if_pos eligible]
    simp [Function.comp_def]
  | case4 merged offset e ps stop kept ih =>
    rw [List.map_append, text, ih, rewriteFrom, if_neg kept]

theorem le_start_of_mem_eligibleSpans {offset : Nat} {ps : List Piece} {s : Span}
    (member : s ∈ eligibleSpans (tagsFrom offset ps)) : offset ≤ s.start := by
  obtain ⟨t, found, rfl⟩ := List.mem_map.1 member
  obtain ⟨before, -, -, start, -⟩ := split_of_mem_tagsFrom (List.mem_filter.1 found).1
  omega

/-- A text in front of the spans is outside of them. -/
theorem filter_isOutside_of_before {offset : Nat} {cs : List Char} {spans : List Span}
    (after : ∀ s ∈ spans, offset + byteLength cs ≤ s.start) :
    (placesFrom offset cs).filter (isOutside spans) = placesFrom offset cs := by
  refine List.filter_eq_self.2 fun p member => List.all_eq_true.2 fun s known => ?_
  have before := (bounds_of_mem_placesFrom member).2
  have start := after s known
  simp only [Span.contains, Bool.not_eq_true', Bool.and_eq_false_iff, decide_eq_false_iff_not]
  omega

/-- A text that takes the first of the spans is outside of none. -/
theorem filter_isOutside_of_within (offset : Nat) (cs : List Char) (spans : List Span) :
    (placesFrom offset cs).filter (isOutside (⟨offset, offset + byteLength cs⟩ :: spans)) = [] := by
  refine List.filter_eq_nil_iff.2 fun p member outside => ?_
  obtain ⟨low, high⟩ := bounds_of_mem_placesFrom member
  simp [isOutside, Span.contains, low, high] at outside

/-- A span in front of a text does not matter to it. -/
theorem filter_isOutside_cons_of_after (start offset : Nat) (cs : List Char) (spans : List Span) :
    (placesFrom offset cs).filter (isOutside (⟨start, offset⟩ :: spans)) =
      (placesFrom offset cs).filter (isOutside spans) := by
  refine List.filter_congr fun p member => ?_
  have low := (bounds_of_mem_placesFrom member).1
  simp [isOutside, Span.contains, Nat.not_lt.2 low]

/-- **What is copied**: the characters outside the eligible spans, in the order of the page. -/
theorem copied_originsFrom (merged : List Char) (offset : Nat) (ps : List Piece) :
    copied (originsFrom merged offset ps) =
      (placesFrom offset (ps.flatMap Piece.source)).filter
        (isOutside (eligibleSpans (tagsFrom offset ps))) := by
  fun_induction originsFrom merged offset ps with
  | case1 => rfl
  | case2 merged offset cs ps ih =>
    rw [copied_append, copied_map_some, ih, List.flatMap_cons, Piece.source, placesFrom_append,
      List.filter_append, tagsFrom]
    rw [filter_isOutside_of_before fun s => le_start_of_mem_eligibleSpans]
  | case3 merged offset e ps stop eligible ih =>
    have spans : eligibleSpans (tagsFrom offset (.element e :: ps)) =
        ⟨offset, stop⟩ :: eligibleSpans (tagsFrom stop ps) := by
      simp [eligibleSpans, tagsFrom, eligible, stop]
    rw [copied_append, copied_map_none, ih, List.flatMap_cons, Piece.source, placesFrom_append,
      List.filter_append, spans, filter_isOutside_of_within, filter_isOutside_cons_of_after]
  | case4 merged offset e ps stop kept ih =>
    have spans : eligibleSpans (tagsFrom offset (.element e :: ps)) =
        eligibleSpans (tagsFrom stop ps) := by
      simp [eligibleSpans, tagsFrom, kept, stop]
    rw [copied_append, copied_map_some, ih, List.flatMap_cons, Piece.source, placesFrom_append,
      List.filter_append, spans]
    rw [filter_isOutside_of_before fun s => le_start_of_mem_eligibleSpans]

theorem copied_origins {keywords : List String} {kind : Kind} {page : String} {ps : List Piece}
    (cut : pieces keywords kind page.toList = .ok ps) (source : String) :
    copied (origins kind source ps) =
      (placesFrom 0 page.toList).filter (isOutside (eligibleSpans (tags ps))) := by
  rw [origins, copied_originsFrom, flatten_pieces cut, tags]

/-! ## Elements that stay whole -/

/-- Whether an element, of whatever kind, keeps all its characters when the page is rewritten. -/
def Keeps (kind : Kind) (source : String) (ps : List Piece) (u : Tag) : Prop :=
  ∀ p ∈ placesFrom u.span.start u.element.source, p ∈ copied (origins kind source ps)

instance (kind : Kind) (source : String) (ps : List Piece) (u : Tag) :
    Decidable (Keeps kind source ps u) :=
  inferInstanceAs (Decidable (∀ p ∈ placesFrom u.span.start u.element.source,
    p ∈ copied (origins kind source ps)))

/-- Of two elements one begins in the other. -/
def Span.Meets (s s' : Span) : Prop :=
  s.contains s'.start = true ∨ s'.contains s.start = true

instance (s s' : Span) : Decidable (s.Meets s') :=
  inferInstanceAs (Decidable (s.contains s'.start = true ∨ s'.contains s.start = true))

/-- A character of an element that lies in a span shows that the two meet. -/
theorem meets_of_contains {s u : Span} {offset : Nat} (inside : u.start ≤ offset)
    (inside' : offset < u.stop) (taken : s.contains offset = true) : s.Meets u := by
  simp only [Span.contains, Bool.and_eq_true, decide_eq_true_eq] at taken
  rcases Nat.le_total s.start u.start with first | first
  · exact .inl (by simp only [Span.contains, Bool.and_eq_true, decide_eq_true_eq]; omega)
  · exact .inr (by simp only [Span.contains, Bool.and_eq_true, decide_eq_true_eq]; omega)

/-- An element in its page: the text is not empty, its characters are in their places in the page,
and those are all that begin in the span. -/
structure Stands (page : List Char) (span : Span) (text : List Char) : Prop where
  first : ∃ c, (c, span.start) ∈ placesFrom span.start text
  bounds : ∀ p ∈ placesFrom span.start text, span.start ≤ p.2 ∧ p.2 < span.stop
  places : ∀ p ∈ placesFrom span.start text, p ∈ placesFrom 0 page
  complete : ∀ p ∈ placesFrom 0 page, span.contains p.2 = true → p ∈ placesFrom span.start text

theorem stands_of_mem_tags {keywords : List String} {kind : Kind} {page : String} {ps : List Piece}
    (cut : pieces keywords kind page.toList = .ok ps) {t : Tag} (member : t ∈ tags ps) :
    Stands page.toList t.span t.element.source := by
  obtain ⟨before, after, split, start, stop⟩ := split_of_mem_tagsFrom member
  rw [flatten_pieces cut] at split
  rw [Nat.zero_add] at start
  have nonempty := (tagsFrom_piecesFrom cut t member).1
  refine ⟨?_, fun p here => ?_, fun p here => ?_, fun p known inside => ?_⟩
  · obtain ⟨c, cs, text⟩ := List.exists_cons_of_ne_nil nonempty
    exact ⟨c, by rw [text]; exact List.mem_cons_self⟩
  · have := bounds_of_mem_placesFrom here
    omega
  · rw [split, placesFrom_append, placesFrom_append, Nat.zero_add, ← start]
    exact List.mem_append_right _ (List.mem_append_left _ here)
  · rw [split] at known
    simp only [Span.contains, Bool.and_eq_true, decide_eq_true_eq] at inside
    have := mem_placesFrom_of_bounds known (by omega) (by omega)
    rwa [Nat.zero_add, ← start] at this

/-- An element is outside of some elements exactly if it meets none of them. -/
theorem isOutside_iff_not_meets {page text : List Char} {u : Span} (stands : Stands page u text)
    {spans : List Span} (real : ∀ s ∈ spans, ∃ text, Stands page s text) :
    (∀ p ∈ placesFrom u.start text, isOutside spans p = true) ↔ ∀ s ∈ spans, ¬ s.Meets u := by
  constructor
  · intro outside s known meets
    have free (p : Char × Nat) (here : p ∈ placesFrom u.start text) : s.contains p.2 = false := by
      simpa using List.all_eq_true.1 (outside p here) s known
    rcases meets with within | around
    · obtain ⟨c, first⟩ := stands.first
      rw [free _ first] at within
      cases within
    · -- The span begins in the element, so its first character is one of the element's.
      obtain ⟨text', stands'⟩ := real s known
      obtain ⟨c, first⟩ := stands'.first
      have shared := stands.complete _ (stands'.places _ first) around
      have bounds := stands'.bounds _ first
      simpa [Span.contains, bounds.2] using free _ shared
  · intro apart p here
    refine List.all_eq_true.2 fun s known => ?_
    obtain ⟨low, high⟩ := stands.bounds p here
    by_contra taken
    exact apart s known (meets_of_contains low high (by simpa using taken))

/-- **Rewriting for one kind and elements of another**: the rewritten page is marked with where its
characters are copied from, copied is in order what lies outside the eligible elements, and an
element of any kind keeps all its characters exactly if it meets none of the eligible elements. -/
theorem rewrite_keeps_element_iff (keywords : List String) (kind other : Kind) (source : String)
    {page : String} {ps : List Piece} {found : List Tag}
    (cut : pieces keywords kind page.toList = .ok ps)
    (scanned : scan keywords other page = .ok found) :
    rewrite kind source ps = String.ofList ((origins kind source ps).map (·.1)) ∧
    copied (origins kind source ps) =
      (placesFrom 0 page.toList).filter (isOutside (eligibleSpans (tags ps))) ∧
    ∀ u ∈ found, (Keeps kind source ps u ↔
      ∀ t ∈ tags ps, t.element.eligible = true → ¬ t.span.Meets u.span) := by
  obtain ⟨qs, cut', rfl⟩ := exists_of_map_ok scanned
  refine ⟨?_, copied_origins cut source, fun u member => ?_⟩
  · rw [origins, map_fst_originsFrom, rewrite]
  have stands := stands_of_mem_tags cut' member
  have real : ∀ s ∈ eligibleSpans (tags ps), ∃ text, Stands page.toList s text := by
    intro s known
    obtain ⟨t, eligible, rfl⟩ := List.mem_map.1 known
    exact ⟨_, stands_of_mem_tags cut (List.mem_filter.1 eligible).1⟩
  have kept : Keeps kind source ps u ↔ ∀ p ∈ placesFrom u.span.start u.element.source,
      isOutside (eligibleSpans (tags ps)) p = true := by
    rw [Keeps, copied_origins cut]
    exact forall₂_congr fun p here => by simp [stands.places p here]
  rw [kept, isOutside_iff_not_meets stands real]
  simp only [eligibleSpans, List.forall_mem_map, List.mem_filter, and_imp]

/-- A script between a link that is commented out and one that is merged keeps its characters. -/
theorem rewrite_keeps_script_beside_links :
    let page := "<!--<link rel=stylesheet href=/o>--><script>a()</script>" ++
      "<link rel=stylesheet href=/a>"
    ∃ ps found, pieces [] .style page.toList = .ok ps ∧ scan [] .script page = .ok found ∧
      rewrite .style "/m" ps = "<!--<link rel=stylesheet href=/o>--><script>a()</script>" ++
        "<link type=\"text/css\" rel=\"stylesheet\" href=\"/m\">" ∧
      ∃ u ∈ found, u.span = ⟨36, 56⟩ ∧ Keeps .style "/m" ps u := by
  intro page
  obtain ⟨ps, cut, told⟩ := exists_ok_of_any (r := pieces [] .style page.toList) (p := fun ps =>
    rewrite .style "/m" ps = "<!--<link rel=stylesheet href=/o>--><script>a()</script>" ++
        "<link type=\"text/css\" rel=\"stylesheet\" href=\"/m\">" ∧
      ∀ t ∈ tags ps, t.element.eligible = true → ¬ t.span.Meets ⟨36, 56⟩) (by decide +kernel)
  obtain ⟨found, scanned, there⟩ := exists_ok_of_any (r := scan [] .script page) (p := fun found =>
    ∃ u ∈ found, u.span = ⟨36, 56⟩) (by decide +kernel)
  obtain ⟨rewritten, apart⟩ := of_decide_eq_true told
  obtain ⟨u, member, place⟩ := of_decide_eq_true there
  have iff := (rewrite_keeps_element_iff [] .style .script "/m" cut scanned).2.2 u member
  exact ⟨ps, found, cut, scanned, rewritten, u, member, place, iff.2 (place ▸ apart)⟩

/-- The text of a script is taken for a link, and an attribute of a link for a script. -/
theorem rewrite_breaks_script_and_link :
    let page := "<script>t = \"<link rel='stylesheet' href='/a'>\"</script>"
    let page' := "<link rel=icon href=/i title='<script src=/b></script>'>"
    (∃ ps found, pieces [] .style page.toList = .ok ps ∧ scan [] .script page = .ok found ∧
      rewrite .style "/m" ps =
        "<script>t = \"<link type=\"text/css\" rel=\"stylesheet\" href=\"/m\">\"</script>" ∧
      ∃ u ∈ found, u.element.source = page.toList ∧ ¬ Keeps .style "/m" ps u) ∧
    ∃ ps found, pieces [] .script page'.toList = .ok ps ∧ scan [] .style page' = .ok found ∧
      rewrite .script "/m" ps = "<link rel=icon href=/i title='" ++
        "<script type=\"text/javascript\" src=\"/m\"></script>'>" ∧
      ∃ u ∈ found, u.element.source = page'.toList ∧ ¬ Keeps .script "/m" ps u := by
  intro page page'
  constructor
  · obtain ⟨ps, cut, told⟩ := exists_ok_of_any (r := pieces [] .style page.toList) (p := fun ps =>
      (scan [] .script page).toOption.any fun found =>
        rewrite .style "/m" ps =
          "<script>t = \"<link type=\"text/css\" rel=\"stylesheet\" href=\"/m\">\"</script>" ∧
        ∃ u ∈ found, u.element.source = page.toList ∧ ¬ Keeps .style "/m" ps u) (by decide +kernel)
    obtain ⟨found, scanned, broken⟩ := exists_ok_of_any told
    exact ⟨ps, found, cut, scanned, of_decide_eq_true broken⟩
  · obtain ⟨ps, cut, told⟩ := exists_ok_of_any (r := pieces [] .script page'.toList) (p := fun ps =>
      (scan [] .style page').toOption.any fun found =>
        rewrite .script "/m" ps = "<link rel=icon href=/i title='" ++
          "<script type=\"text/javascript\" src=\"/m\"></script>'>" ∧
        ∃ u ∈ found, u.element.source = page'.toList ∧ ¬ Keeps .script "/m" ps u)
      (by decide +kernel)
    obtain ⟨found, scanned, broken⟩ := exists_ok_of_any told
    exact ⟨ps, found, cut, scanned, of_decide_eq_true broken⟩

end PageBundle.Markup
