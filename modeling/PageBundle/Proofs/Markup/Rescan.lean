import PageBundle.Proofs.Markup.Written

/-!
# Scanning a rewritten page

A rewritten page should have the merged element where the first eligible one was, the elements that
are not eligible, and no other. Its elements are read as before (`reads_of_mem_piecesFrom`,
`reads_merged`), but the text between them is not: text that was apart is joined where elements are
left out, and comments that began or ended in such an element begin or end elsewhere. `Undisturbed`
says what must hold of the text, and `rescan_eq_ok_iff` that the rewritten page is scanned as it
should be exactly then.
-/

namespace PageBundle.Markup

open Text (byteLength)

/-! ## The elements that a text gives -/

section Reported

variable (keywords : List String) (kind : Kind) (comments : List Span)

/-- The elements that are found in a text which begins at an offset. -/
def scanFrom (offset : Nat) (cs : List Char) : Except Error (List Tag) :=
  (piecesFrom keywords kind comments offset cs).map (tagsFrom offset)

variable {keywords kind comments} {offset : Nat} {cs before : List Char} {tag : StartTag}

theorem scan_eq_scanFrom (page : String) :
    scan keywords kind page =
      scanFrom keywords kind (commentSpans 0 page.toList) 0 page.toList := rfl

/-- Scanning goes from start tag to start tag. -/
theorem scanFrom_eq (keywords : List String) (kind : Kind) (comments : List Span) (offset : Nat)
    (cs : List Char) :
    scanFrom keywords kind comments offset cs =
      match Text.find? (startTag? kind.tag.toList) cs with
      | none => .ok []
      | some (before, tag) =>
        let start := offset + byteLength before
        if comments.any (·.contains start) then
          scanFrom keywords kind comments (start + byteLength tag.text) tag.rest
        else
          match content? kind tag with
          | none => .error (.unterminated start)
          | some (content, inline, rest) =>
            let e := elementOf keywords kind (tag.text ++ content) tag.attributes inline
            (scanFrom keywords kind comments (start + byteLength e.source) rest).map
              (⟨⟨start, start + byteLength e.source⟩, e⟩ :: ·) := by
  rw [scanFrom, piecesFrom]
  split
  · rename_i none
    simp only [none]
    rfl
  · rename_i before tag found
    simp only [found]
    split
    · simp only [scanFrom]
      cases piecesFrom keywords kind comments _ tag.rest with
      | error e => rfl
      | ok ps => simp [Except.map, tagsFrom, Nat.add_assoc]
    · split
      · rename_i unclosed
        simp only [unclosed]
        rfl
      · rename_i content inline rest ends
        simp only [ends, scanFrom, elementOf, Text.byteLength_append, ← Nat.add_assoc]
        cases piecesFrom keywords kind comments _ rest with
        | error e => rfl
        | ok ps => simp [Except.map, tagsFrom, Nat.add_assoc]

theorem scanFrom_nil (offset : Nat) : scanFrom keywords kind comments offset [] = .ok [] := by
  rw [scanFrom_eq]
  rfl

/-- A start tag in a comment is passed over. -/
theorem scanFrom_of_hidden (found : Text.find? (startTag? kind.tag.toList) cs = some (before, tag))
    (hidden : comments.any (·.contains (offset + byteLength before)) = true) :
    scanFrom keywords kind comments offset cs =
      scanFrom keywords kind comments (offset + byteLength before + byteLength tag.text)
        tag.rest := by
  rw [scanFrom_eq, found]
  simp only [hidden, if_true]

/-- A start tag outside the comments begins the first element that is found. -/
theorem start_of_scanFrom {found : List Tag}
    (first : Text.find? (startTag? kind.tag.toList) cs = some (before, tag))
    (outside : comments.any (·.contains (offset + byteLength before)) = false)
    (scanned : scanFrom keywords kind comments offset cs = .ok found) :
    ∃ t others, found = t :: others ∧ t.span.start = offset + byteLength before := by
  rw [scanFrom_eq, first] at scanned
  simp only [outside, Bool.false_eq_true, if_false] at scanned
  split at scanned
  · cases scanned
  · obtain ⟨others, -, rfl⟩ := exists_of_map_ok scanned
    exact ⟨_, others, rfl, rfl⟩

/-- What is found begins where the text begins or later. -/
theorem le_start_of_scanFrom {found : List Tag}
    (scanned : scanFrom keywords kind comments offset cs = .ok found) :
    ∀ t ∈ found, offset ≤ t.span.start := by
  obtain ⟨ps, -, rfl⟩ := exists_of_map_ok scanned
  intro t member
  obtain ⟨before, -, -, start, -⟩ := split_of_mem_tagsFrom member
  omega

theorem Reads.find? {e : Element} (reads : Reads keywords kind e) (rest : List Char) :
    ∃ tag content inline,
      Text.find? (startTag? kind.tag.toList) (e.source ++ rest) = some ([], tag) ∧
      content? kind tag = some (content, inline, rest) ∧
      e = elementOf keywords kind (tag.text ++ content) tag.attributes inline := by
  obtain ⟨tag, content, inline, begins, others⟩ := reads rest
  exact ⟨tag, content, inline, Text.find?_of_some begins, others⟩

/-- An element that is read here is the first that is found, if it does not begin in a comment. -/
theorem scanFrom_of_reads {e : Element} (reads : Reads keywords kind e)
    (outside : comments.any (·.contains offset) = false) (rest : List Char) :
    scanFrom keywords kind comments offset (e.source ++ rest) =
      (scanFrom keywords kind comments (offset + byteLength e.source) rest).map
        (⟨⟨offset, offset + byteLength e.source⟩, e⟩ :: ·) := by
  obtain ⟨tag, content, inline, first, ends, same⟩ := reads.find? rest
  rw [scanFrom_eq, first]
  simp only [byteLength_nil, Nat.add_zero, outside, Bool.false_eq_true, if_false, ends]
  rw [← same]

/-- An element that is found where it is read does not begin in a comment. -/
theorem outside_of_scanFrom {e : Element} (reads : Reads keywords kind e) {rest : List Char}
    {stop : Nat} {e' : Element} {others : List Tag}
    (scanned : scanFrom keywords kind comments offset (e.source ++ rest) =
      .ok (⟨⟨offset, stop⟩, e'⟩ :: others)) :
    comments.any (·.contains offset) = false := by
  by_contra covered
  obtain ⟨tag, content, inline, first, -, -⟩ := reads.find? rest
  obtain ⟨_, -, begins⟩ := Text.exists_of_find? first
  rw [scanFrom_of_hidden first (by simpa using covered)] at scanned
  have bound : offset + byteLength [] + byteLength tag.text ≤ offset :=
    le_start_of_scanFrom scanned _ List.mem_cons_self
  have width := byteLength_pos (eq_append_of_startTag? begins).2
  rw [byteLength_nil] at bound
  omega

end Reported

/-! ## Text that gives no element -/

/-- No start tag begins in the text `cs` when `rest` follows it. -/
def NoStart (kind : Kind) (rest cs : List Char) : Prop :=
  Text.Nowhere (startTag? kind.tag.toList) rest cs

/-- In the text `cs`, with `rest` after it, no element is found: the start tags that are met one
after the other begin in comments and end in the text. -/
inductive Silent (kind : Kind) (comments : List Span) (rest : List Char) : Nat → List Char → Prop
  | clear {offset : Nat} {cs : List Char} (quiet : NoStart kind rest cs) :
      Silent kind comments rest offset cs
  | hidden {offset : Nat} {before cs : List Char} {tag : StartTag}
      (quiet : NoStart kind (tag.text ++ (cs ++ rest)) before)
      (begins : startTag? kind.tag.toList (tag.text ++ (cs ++ rest)) = some tag)
      (hidden : comments.any (·.contains (offset + byteLength before)) = true)
      (later : Silent kind comments rest (offset + byteLength before + byteLength tag.text) cs) :
      Silent kind comments rest offset (before ++ (tag.text ++ cs))

section Silence

variable {keywords : List String} {kind : Kind} {comments : List Span} {rest : List Char}

theorem scanFrom_of_noStart {cs : List Char} (offset : Nat) (quiet : NoStart kind rest cs) :
    scanFrom keywords kind comments offset (cs ++ rest) =
      scanFrom keywords kind comments (offset + byteLength cs) rest := by
  rw [scanFrom_eq, scanFrom_eq _ _ _ _ rest, Text.find?_append_of_nowhere quiet]
  cases Text.find? (startTag? kind.tag.toList) rest with
  | none => rfl
  | some first => simp only [Option.map_some, Text.byteLength_append, ← Nat.add_assoc]

/-- Silent text is passed over. -/
theorem Silent.scanFrom_eq {offset : Nat} {cs : List Char}
    (silent : Silent kind comments rest offset cs) :
    scanFrom keywords kind comments offset (cs ++ rest) =
      scanFrom keywords kind comments (offset + byteLength cs) rest := by
  induction silent with
  | clear quiet => exact scanFrom_of_noStart _ quiet
  | @hidden offset before cs tag quiet begins hidden _ ih =>
    have found : Text.find? (startTag? kind.tag.toList) (before ++ (tag.text ++ (cs ++ rest))) =
        some (before, tag) := Text.find?_eq_some_iff.2 ⟨_, rfl, begins, quiet⟩
    have after : tag.rest = cs ++ rest :=
      (List.append_cancel_left (eq_append_of_startTag? begins).1).symm
    rw [List.append_assoc, List.append_assoc, scanFrom_of_hidden found hidden, after, ih]
    simp only [Text.byteLength_append, Nat.add_assoc]

/-- A start tag that is passed over ends where the text ends, if what is found next begins there or
nothing is left. -/
theorem exists_within_of_next {offset : Nat} {inside text after : List Char} {found : List Tag}
    (split : inside ++ rest = text ++ after)
    (first : ∀ t others, found = t :: others → t.span.start = offset + byteLength inside)
    (last : found = [] → rest = [])
    (next : ∀ t ∈ found, offset + byteLength text ≤ t.span.start) :
    ∃ later, inside = text ++ later ∧ after = later ++ rest := by
  rcases List.append_eq_append_iff.1 split with ⟨beyond, rfl, rfl⟩ | ⟨later, rfl, rfl⟩
  · have empty : beyond = [] := by
      by_contra filled
      have width := byteLength_pos filled
      cases found with
      | nil => exact filled (List.append_eq_nil_iff.1 (last rfl)).1
      | cons t others =>
        have start := first t others rfl
        have bound := next t List.mem_cons_self
        rw [Text.byteLength_append] at bound
        omega
    subst empty
    exact ⟨[], by simp, by simp⟩
  · exact ⟨later, rfl, rfl⟩

/-- Text in front of the first element that is found is silent. -/
theorem silent_of_scanFrom {offset : Nat} {cs : List Char} {found : List Tag}
    (scanned : scanFrom keywords kind comments offset (cs ++ rest) = .ok found)
    (first : ∀ t others, found = t :: others → t.span.start = offset + byteLength cs)
    (last : found = [] → rest = []) : Silent kind comments rest offset cs := by
  -- By the length of the text: behind a start tag in a comment the rest of the text is shorter.
  induction size : cs.length using Nat.strongRecOn generalizing offset cs with
  | _ n ih =>
  cases met : Text.find? (startTag? kind.tag.toList) (cs ++ rest) with
  | none =>
    have quiet := (Text.nowhere_append.1 (Text.find?_eq_none_iff.1 met).1).1
    rw [List.append_nil] at quiet
    exact .clear quiet
  | some result =>
    obtain ⟨before, tag⟩ := result
    obtain ⟨behind, split, begins, quiet⟩ := Text.find?_eq_some_iff.1 met
    rcases List.append_eq_append_iff.1 split with ⟨between, rfl, rfl⟩ | ⟨inside, rfl, rfl⟩
    · -- The first start tag begins behind the text.
      exact .clear (Text.nowhere_append.1 quiet).1
    · by_cases ended : inside = []
      · rw [ended, List.append_nil]
        exact .clear (by simpa [ended, NoStart] using quiet)
      have width := byteLength_pos ended
      cases covered : comments.any (·.contains (offset + byteLength before)) with
      | false =>
        obtain ⟨t, others, rfl, start⟩ := start_of_scanFrom met covered scanned
        have := first t others rfl
        simp only [Text.byteLength_append] at this
        omega
      | true =>
        rw [scanFrom_of_hidden met covered] at scanned
        have beginsAt (t : Tag) (others : List Tag) (same : found = t :: others) :
            t.span.start = offset + byteLength before + byteLength inside := by
          have := first t others same
          simp only [Text.byteLength_append] at this
          omega
        obtain ⟨later, rfl, after⟩ :
            ∃ later, inside = tag.text ++ later ∧ tag.rest = later ++ rest :=
          exists_within_of_next (eq_append_of_startTag? begins).1 beginsAt last
            (le_start_of_scanFrom scanned)
        have shorter := List.length_pos_iff.2 (eq_append_of_startTag? begins).2
        rw [after] at scanned
        rw [List.append_assoc] at begins
        refine .hidden (by simpa [NoStart] using quiet) begins covered
          (ih later.length ?_ scanned ?_ rfl)
        · simp only [List.length_append] at size
          omega
        · intro t others same
          rw [beginsAt t others same, Text.byteLength_append, Nat.add_assoc _ (byteLength tag.text)]

end Silence

/-! ## The pieces of the rewritten page -/

/-- The pieces that should be in the rewritten page: the merged element in the place of the first
eligible one, and no other eligible one. -/
def settle : Option Element → List Piece → List Piece
  | _, [] => []
  | m, .text cs :: ps => .text cs :: settle m ps
  | m, .element e :: ps =>
    if e.eligible then (m.map Piece.element).toList ++ settle none ps else .element e :: settle m ps

/-- The text of these pieces is the rewritten page. -/
theorem flatMap_source_settle (m : Option Element) (ps : List Piece) :
    (settle m ps).flatMap Piece.source = rewriteFrom ((m.map (·.source)).getD []) ps := by
  fun_induction settle m ps with
  | case1 => rfl
  | case2 m cs ps ih => rw [List.flatMap_cons, ih]; rfl
  | case3 m e ps eligible ih =>
    rw [List.flatMap_append, ih, rewriteFrom, if_pos eligible]
    cases m <;> simp [Piece.source]
  | case4 m e ps kept ih => rw [List.flatMap_cons, ih, rewriteFrom, if_neg kept]; rfl

/-- Its elements are the merged one and elements of the page. -/
theorem mem_settle {m : Option Element} {ps : List Piece} {e : Element}
    (member : .element e ∈ settle m ps) : m = some e ∨ .element e ∈ ps := by
  fun_induction settle m ps with
  | case1 => cases member
  | case2 m cs ps ih =>
    simp only [List.mem_cons, reduceCtorEq, false_or] at member
    exact (ih member).imp_right (List.mem_cons_of_mem _)
  | case3 m e' ps eligible ih =>
    rcases List.mem_append.1 member with placed | later
    · left
      simpa [eq_comm] using placed
    · rcases ih later with ⟨⟨⟩⟩ | later
      exact .inr (List.mem_cons_of_mem _ later)
  | case4 m e' ps kept ih =>
    rcases List.mem_cons.1 member with same | later
    · exact .inr (same ▸ List.mem_cons_self)
    · exact (ih later).imp_right (List.mem_cons_of_mem _)

/-- Behind the merged element no eligible element is left. -/
theorem elements_settle_none (offset offset' : Nat) (ps : List Piece) :
    (tagsFrom offset (settle none ps)).map (·.element) =
      ((tagsFrom offset' ps).map (·.element)).filter (!·.eligible) := by
  induction ps generalizing offset offset' with
  | nil => rfl
  | cons p ps ih =>
    cases p with
    | text cs => exact ih _ _
    | element e =>
      by_cases eligible : e.eligible = true
      · simpa [settle, tagsFrom, eligible] using ih offset (offset' + byteLength e.source)
      · simpa [settle, tagsFrom, eligible] using
          ih (offset + byteLength e.source) (offset' + byteLength e.source)

/-- **Where the elements of the rewritten page should be.** -/
theorem exists_tagsFrom_settle {offset : Nat} {ps : List Piece} (m : Element)
    (anyEligible : ∃ t ∈ tagsFrom offset ps, t.element.eligible = true) :
    ∃ before first after later, tagsFrom offset ps = before ++ first :: after ∧
      (∀ t ∈ before, t.element.eligible = false) ∧ first.element.eligible = true ∧
      tagsFrom offset (settle (some m) ps) =
        before ++ ⟨⟨first.span.start, first.span.start + byteLength m.source⟩, m⟩ :: later ∧
      later.map (·.element) = (after.map (·.element)).filter (!·.eligible) := by
  induction ps generalizing offset with
  | nil => simp [tagsFrom] at anyEligible
  | cons p ps ih =>
    cases p with
    | text cs => exact ih anyEligible
    | element e =>
      by_cases eligible : e.eligible = true
      · refine ⟨[], _, _, tagsFrom (offset + byteLength m.source) (settle none ps), rfl, by simp,
          eligible, ?_, ?_⟩
        · simp [settle, eligible, tagsFrom]
        · exact elements_settle_none _ _ ps
      · obtain ⟨before, first, after, later, split, kept, chosen, settled, rest⟩ :=
          @ih (offset + byteLength e.source) (by simpa [tagsFrom, eligible] using anyEligible)
        refine ⟨⟨⟨offset, offset + byteLength e.source⟩, e⟩ :: before, first, after, later, ?_, ?_,
          chosen, ?_, rest⟩
        · simp [tagsFrom, split]
        · simpa [eligible] using kept
        · simp [settle, eligible, tagsFrom, settled]

/-! ## Scanning again -/

/-- In a text that begins at an offset with `held` and the pieces, the elements of the pieces begin
outside the comments and the text between them is silent. -/
def UndisturbedFrom (kind : Kind) (comments : List Span) (offset : Nat) (held : List Char) :
    List Piece → Prop
  | [] => Silent kind comments [] offset held
  | .text cs :: qs => UndisturbedFrom kind comments offset (held ++ cs) qs
  | .element e :: qs =>
    Silent kind comments (e.source ++ qs.flatMap Piece.source) offset held ∧
      comments.any (·.contains (offset + byteLength held)) = false ∧
      UndisturbedFrom kind comments (offset + byteLength held + byteLength e.source) [] qs

/-- The elements of the pieces begin outside the comments of the page that the pieces are put
together to, and no other element is found in the text between them. -/
def Undisturbed (kind : Kind) (qs : List Piece) : Prop :=
  UndisturbedFrom kind (commentSpans 0 (qs.flatMap Piece.source)) 0 [] qs

/-- Pieces are found again exactly if nothing disturbs them. -/
theorem scanFrom_eq_ok_iff {keywords : List String} {kind : Kind} {comments : List Span}
    {qs : List Piece} (reads : ∀ e, .element e ∈ qs → Reads keywords kind e) (offset : Nat)
    (held : List Char) :
    scanFrom keywords kind comments offset (held ++ qs.flatMap Piece.source) =
        .ok (tagsFrom (offset + byteLength held) qs) ↔
      UndisturbedFrom kind comments offset held qs := by
  induction qs generalizing offset held with
  | nil =>
    constructor
    · intro scanned
      exact silent_of_scanFrom scanned
        (fun t others same => absurd same.symm (List.cons_ne_nil t others)) fun _ => rfl
    · intro silent
      exact (Silent.scanFrom_eq silent).trans (scanFrom_nil _)
  | cons q qs ih =>
    cases q with
    | text cs =>
      have later := ih (fun e member => reads e (List.mem_cons_of_mem _ member)) offset (held ++ cs)
      rw [Text.byteLength_append, ← Nat.add_assoc, List.append_assoc] at later
      exact later
    | element e =>
      have readsHere := reads e List.mem_cons_self
      have later := ih (fun e member => reads e (List.mem_cons_of_mem _ member))
        (offset + byteLength held + byteLength e.source) []
      rw [byteLength_nil, Nat.add_zero, List.nil_append] at later
      rw [List.flatMap_cons, Piece.source, tagsFrom, UndisturbedFrom]
      constructor
      · intro scanned
        have silent : Silent kind comments (e.source ++ qs.flatMap Piece.source) offset held :=
          silent_of_scanFrom scanned (fun t others same => by rw [(List.cons.inj same).1.symm])
            fun empty => absurd empty (List.cons_ne_nil _ _)
        rw [silent.scanFrom_eq] at scanned
        have outside := outside_of_scanFrom readsHere scanned
        rw [scanFrom_of_reads readsHere outside] at scanned
        obtain ⟨others, next, same⟩ := exists_of_map_ok scanned
        rw [← (List.cons.inj same).2] at next
        exact ⟨silent, outside, later.1 next⟩
      · rintro ⟨silent, outside, undisturbed⟩
        rw [silent.scanFrom_eq, scanFrom_of_reads readsHere outside, later.2 undisturbed]
        rfl

/-! ## Plain text -/

/-- Text in which no tag and no comment begins. -/
def Piece.isPlain : Piece → Bool
  | .text cs => !cs.contains '<'
  | .element _ => true

theorem noStart_of_notMem {kind : Kind} {cs : List Char} (plain : '<' ∉ cs) (rest : List Char) :
    NoStart kind rest cs :=
  Text.nowhere_of_notMem (fun c cs other => by simp [startTag?, other]) plain rest

/-- Plain text between the elements disturbs nothing in a page without comments. -/
theorem undisturbedFrom_of_plain {kind : Kind} {qs : List Piece}
    (plain : qs.all Piece.isPlain = true) (offset : Nat) {held : List Char} (plain' : '<' ∉ held) :
    UndisturbedFrom kind [] offset held qs := by
  induction qs generalizing offset held with
  | nil => exact .clear (noStart_of_notMem plain' _)
  | cons q qs ih =>
    rw [List.all_cons, Bool.and_eq_true] at plain
    cases q with
    | text cs =>
      have plainText : '<' ∉ cs := by simpa [Piece.isPlain] using plain.1
      exact ih plain.2 offset (by simp [plain', plainText])
    | element e => exact ⟨.clear (noStart_of_notMem plain' _), rfl, ih plain.2 _ List.not_mem_nil⟩

/-- **A rewritten page is scanned as it should be exactly if nothing disturbs it.** The elements
before the first eligible one stay as they are, the merged element begins where that one began, and
of those behind it the ones that are not eligible follow. These are the tags of the rewritten page's
own pieces, each where its piece stands. -/
theorem rescan_eq_ok_iff (keywords : List String) (kind : Kind) (source : String) {page : String}
    {ps : List Piece} (cut : pieces keywords kind page.toList = .ok ps)
    (anyEligible : ∃ t ∈ tags ps, t.element.eligible = true) :
    ∃ before first after later,
      scan keywords kind page = .ok (before ++ first :: after) ∧
      (∀ t ∈ before, t.element.eligible = false) ∧ first.element.eligible = true ∧
      later.map (·.element) = (after.map (·.element)).filter (!·.eligible) ∧
      let m := merged keywords kind source
      let stop := first.span.start + byteLength m.source
      tags (settle (some m) ps) = before ++ ⟨⟨first.span.start, stop⟩, m⟩ :: later ∧
      (scan keywords kind (rewrite kind source ps) =
          .ok (before ++ ⟨⟨first.span.start, stop⟩, m⟩ :: later) ↔
        Undisturbed kind (settle (some m) ps)) := by
  obtain ⟨before, first, after, later, split, kept, chosen, settled, others⟩ :=
    exists_tagsFrom_settle (merged keywords kind source) anyEligible
  refine ⟨before, first, after, later, ?_, kept, chosen, others, ?_⟩
  · rw [scan, cut, ← split]
    rfl
  · intro m stop
    refine ⟨settled, ?_⟩
    have text : (rewrite kind source ps).toList =
        (settle (some m) ps).flatMap Piece.source := by
      rw [rewrite, String.toList_ofList, flatMap_source_settle]
      rfl
    have reads : ∀ e, .element e ∈ settle (some m) ps → Reads keywords kind e := by
      intro e member
      rcases mem_settle member with same | there
      · rw [← Option.some.inj same]
        exact reads_merged keywords kind source
      · exact reads_of_mem_piecesFrom cut e there
    rw [scan_eq_scanFrom, text, ← settled]
    exact scanFrom_eq_ok_iff reads 0 []

/-- Two scripts are merged around one that is excluded, with plain text between them. -/
theorem rescan_of_plain_page :
    let page := "a<script src=/a></script> > <script src=/v></script>b<script src=/b></script>"
    let vendor := "<script src=/v></script>"
    let written := "<script type=\"text/javascript\" src=\"/m\"></script>"
    ∃ ps found, pieces ["v"] .script page.toList = .ok ps ∧
      rewrite .script "/m" ps = "a" ++ written ++ " > " ++ vendor ++ "b" ∧
      Undisturbed .script (settle (some (merged ["v"] .script "/m")) ps) ∧
      scan ["v"] .script (rewrite .script "/m" ps) = .ok found ∧
      found.map (·.element.source) = [written.toList, vendor.toList] := by
  intro page vendor written
  obtain ⟨ps, cut, told⟩ := exists_ok_of_any (r := pieces ["v"] .script page.toList) (p := fun ps =>
    let qs := settle (some (merged ["v"] .script "/m")) ps
    (scan ["v"] .script (rewrite .script "/m" ps)).toOption.any fun found : List Tag =>
      (∃ t ∈ tags ps, t.element.eligible = true) ∧
      rewrite .script "/m" ps = "a" ++ written ++ " > " ++ vendor ++ "b" ∧
      commentSpans 0 (qs.flatMap Piece.source) = [] ∧ qs.all Piece.isPlain = true ∧
      found.map (·.element.source) = [written.toList, vendor.toList]) (by decide +kernel)
  obtain ⟨found, scanned, told⟩ := exists_ok_of_any told
  obtain ⟨anyEligible, rewritten, noComment, plain, shown⟩ := of_decide_eq_true told
  obtain ⟨before, first, after, later, -, -, -, -, -, iff⟩ :=
    rescan_eq_ok_iff ["v"] .script "/m" cut anyEligible
  have undisturbed : Undisturbed .script (settle (some (merged ["v"] .script "/m")) ps) := by
    rw [Undisturbed, noComment]
    exact undisturbedFrom_of_plain plain 0 List.not_mem_nil
  have rescanned := iff.2 undisturbed
  obtain rfl := Except.ok.inj (scanned.symm.trans rescanned)
  exact ⟨ps, _, cut, rewritten, undisturbed, rescanned, shown⟩

/-- A comment that began in the title of the first link hid the second one, which is found when the
first one has been merged. -/
theorem rescan_shows_hidden_link :
    let page := "<link rel=stylesheet href=/a title='<!--'><link rel=stylesheet href=/b><!-- -->"
    let written := "<link type=\"text/css\" rel=\"stylesheet\" href=\"/m\">"
    let hidden := "<link rel=stylesheet href=/b>"
    ∃ ps found, pieces [] .style page.toList = .ok ps ∧
      (tags ps).map (·.element.eligible) = [true] ∧
      rewrite .style "/m" ps = written ++ hidden ++ "<!-- -->" ∧
      scan [] .style (rewrite .style "/m" ps) = .ok found ∧
      found.map (·.element.source) = [written.toList, hidden.toList] := by
  intro page written hidden
  obtain ⟨ps, cut, told⟩ := exists_ok_of_any (r := pieces [] .style page.toList) (p := fun ps =>
    (scan [] .style (rewrite .style "/m" ps)).toOption.any fun found : List Tag =>
      (tags ps).map (·.element.eligible) = [true] ∧
      rewrite .style "/m" ps = written ++ hidden ++ "<!-- -->" ∧
      found.map (·.element.source) = [written.toList, hidden.toList]) (by decide +kernel)
  obtain ⟨found, scanned, told⟩ := exists_ok_of_any told
  obtain ⟨eligible, rewritten, shown⟩ := of_decide_eq_true told
  exact ⟨ps, found, cut, eligible, rewritten, scanned, shown⟩

end PageBundle.Markup
