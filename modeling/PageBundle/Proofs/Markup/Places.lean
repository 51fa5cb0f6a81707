import PageBundle.Markup.Rewrite
import Mathlib.Data.List.Basic

/-!
# Places of elements, and what rewriting keeps

Cutting a page gives elements that stand apart from each other: `Placed` collects where in the page
their spans lie. Rewriting is then described by the page and the spans alone. `stretches?` takes the
text between the spans of the eligible elements out of the page, with a check of every bound, and
`placed_and_rewrite_eq_joinWith` says that the checks pass and that the rewritten page is these
stretches in order, with the merged element after the first.
-/

namespace PageBundle.Markup

open Text (byteLength cut?)

/-- The text between two offsets; nothing if they are out of order, past the end of the text or
inside a character. -/
def slice? (start stop : Nat) (cs : List Char) : Option (List Char) := do
  guard (start ≤ stop)
  let (_, rest) ← cut? start cs
  let (between, _) ← cut? (stop - start) rest
  return between

/-- The stretches of a text outside some spans: from an offset to the first span, from each span to
the next one, and from the last one to the end. -/
def stretches? (cs : List Char) : Nat → List Span → Option (List (List Char))
  | cursor, [] => (slice? cursor (byteLength cs) cs).map ([·])
  | cursor, span :: spans => do
    let stretch ← slice? cursor span.start cs
    let others ← stretches? cs span.stop spans
    return stretch :: others

/-- Stretches of a text in order, with `merged` after the first if another one follows. -/
def joinWith (merged : List Char) : List (List Char) → List Char
  | first :: second :: others => first ++ merged ++ (second :: others).flatten
  | stretches => stretches.flatten

/-- The spans of the eligible elements, in order. -/
def eligibleSpans (tags : List Tag) : List Span :=
  (tags.filter (·.element.eligible)).map (·.span)

/-- Where the elements of a page lie. -/
structure Placed (page : String) (tags : List Tag) : Prop where
  nonempty : ∀ t ∈ tags, t.span.start < t.span.stop
  inside : ∀ t ∈ tags, t.span.stop ≤ page.utf8ByteSize
  /-- A span begins and ends between characters. -/
  boundaries : ∀ t ∈ tags, (⟨t.span.start⟩ : String.Pos.Raw).IsValid page ∧
    (⟨t.span.stop⟩ : String.Pos.Raw).IsValid page
  source : ∀ t ∈ tags, slice? t.span.start t.span.stop page.toList = some t.element.source
  increasing : tags.Pairwise fun a b => a.span.start < b.span.start
  disjoint : tags.Pairwise fun a b => a.span.stop ≤ b.span.start
  /-- No element begins inside a comment. -/
  visible : ∀ t ∈ tags, ∀ comment ∈ commentSpans 0 page.toList,
    comment.contains t.span.start = false

/-- At the offset a script begins outside the comments that neither closes itself nor is followed by
an end tag. -/
def UnclosedScript (page : String) (offset : Nat) : Prop :=
  ∃ before rest tag, page.toList = before ++ rest ∧ byteLength before = offset ∧
    startTag? Kind.script.tag.toList rest = some tag ∧ closesItself tag.attributes = false ∧
    Text.find? (endTag? Kind.script.tag.toList) tag.rest = none ∧
    ∀ comment ∈ commentSpans 0 page.toList, comment.contains offset = false

/-! ## Offsets -/

@[simp] theorem byteLength_nil : byteLength [] = 0 := rfl

theorem byteLength_cons (c : Char) (cs : List Char) :
    byteLength (c :: cs) = c.utf8Size + byteLength cs := rfl

theorem byteLength_pos {cs : List Char} (nonempty : cs ≠ []) : 0 < byteLength cs := by
  cases cs with
  | nil => exact absurd rfl nonempty
  | cons c cs =>
    have := c.utf8Size_pos
    rw [byteLength_cons]
    omega

theorem utf8ByteSize_ofList (cs : List Char) :
    (String.ofList cs).utf8ByteSize = byteLength cs := by
  induction cs with
  | nil => rfl
  | cons c cs ih =>
    rw [byteLength_cons, ← ih, ← List.singleton_append, String.ofList_append]
    simp

theorem utf8ByteSize_eq (page : String) : page.utf8ByteSize = byteLength page.toList := by
  rw [← utf8ByteSize_ofList, String.ofList_toList]

theorem cut?_append (xs ys : List Char) : cut? (byteLength xs) (xs ++ ys) = some (xs, ys) := by
  induction xs with
  | nil => cases ys <;> rfl
  | cons x xs ih =>
    have size := x.utf8Size_pos
    obtain ⟨n, hn⟩ : ∃ n, x.utf8Size + byteLength xs = n + 1 := ⟨_, (Nat.succ_pred (by omega)).symm⟩
    have left : n + 1 - x.utf8Size = byteLength xs := by omega
    have fits : x.utf8Size ≤ n + 1 := by omega
    rw [byteLength_cons, List.cons_append, hn, cut?, left, ih]
    simp [fits]

/-- A slice at the places where a text is put together is the part that was put there. -/
theorem slice?_append (before between after : List Char) :
    slice? (byteLength before) (byteLength before + byteLength between)
      (before ++ (between ++ after)) = some between := by
  have inOrder : byteLength before ≤ byteLength before + byteLength between := by omega
  have width : byteLength before + byteLength between - byteLength before = byteLength between := by
    omega
  simp [slice?, guard, inOrder, cut?_append, width]

/-- The offset after a part of a text lies between characters. -/
theorem isValid_byteLength {page : String} {before after : List Char}
    (split : page.toList = before ++ after) :
    (⟨byteLength before⟩ : String.Pos.Raw).IsValid page := by
  rw [String.Pos.Raw.isValid_iff_exists_append]
  refine ⟨String.ofList before, String.ofList after, ?_, ?_⟩
  · rw [← String.ofList_append, ← split, String.ofList_toList]
  · rw [String.rawEndPos, utf8ByteSize_ofList]

/-! ## Elements -/

theorem source_ne_nil {keywords : List String} {kind : Kind} {cs before content : List Char}
    {tag : StartTag} {inline : Bool}
    (found : Text.find? (startTag? kind.tag.toList) cs = some (before, tag)) :
    (elementOf keywords kind (tag.text ++ content) tag.attributes inline).source ≠ [] := by
  obtain ⟨rest, -, atTag⟩ := Text.exists_of_find? found
  simp [elementOf, (eq_append_of_startTag? atTag).2]

theorem exists_of_map_ok {α β ε : Type} {f : α → β} {r : Except ε α} {b : β}
    (mapped : r.map f = .ok b) : ∃ a, r = .ok a ∧ b = f a := by
  cases r with
  | error e => cases mapped
  | ok a =>
    cases mapped
    exact ⟨a, rfl, rfl⟩

/-- A result that is told by evaluation to be there and to pass a test. -/
theorem exists_ok_of_any {α ε : Type} {r : Except ε α} {p : α → Bool}
    (passes : r.toOption.any p = true) : ∃ a, r = .ok a ∧ p a = true := by
  cases r with
  | error e => cases passes
  | ok a => exact ⟨a, rfl, passes⟩

/-- Each element has text and begins outside the comments. -/
theorem tagsFrom_piecesFrom {keywords : List String} {kind : Kind} {comments : List Span}
    {offset : Nat} {cs : List Char} {ps : List Piece}
    (cut : piecesFrom keywords kind comments offset cs = .ok ps) :
    ∀ t ∈ tagsFrom offset ps, t.element.source ≠ [] ∧
      comments.any (·.contains t.span.start) = false := by
  -- The cases are those of the cutting: no start tag, one in a comment, one that is never closed,
  -- and an element.
  fun_induction piecesFrom keywords kind comments offset cs generalizing ps with
  | case1 offset cs =>
    cases cut
    simp [tagsFrom]
  | case2 offset cs before tag found start next _ =>
    rename_i ih
    obtain ⟨qs, others, rfl⟩ := exists_of_map_ok cut
    simpa [tagsFrom, next, start, Nat.add_assoc] using ih others
  | case3 => cases cut
  | case4 offset cs before tag found start next outside content inline rest closed =>
    rename_i ih
    obtain ⟨qs, others, rfl⟩ := exists_of_map_ok cut
    intro t member
    simp only [tagsFrom, List.mem_cons] at member
    rcases member with rfl | later
    · exact ⟨source_ne_nil found, by simpa using outside⟩
    · apply ih others
      simpa [elementOf, next, start, Nat.add_assoc] using later

/-- An element stands in the page at its span. -/
theorem split_of_mem_tagsFrom {offset : Nat} {ps : List Piece} {t : Tag}
    (member : t ∈ tagsFrom offset ps) :
    ∃ before after, ps.flatMap Piece.source = before ++ (t.element.source ++ after) ∧
      t.span.start = offset + byteLength before ∧
      t.span.stop = t.span.start + byteLength t.element.source := by
  induction ps generalizing offset with
  | nil => simp [tagsFrom] at member
  | cons p ps ih =>
    cases p with
    | text cs =>
      obtain ⟨before, after, split, start, stop⟩ := ih member
      refine ⟨cs ++ before, after, by simp [Piece.source, split], ?_, stop⟩
      rw [start, Text.byteLength_append]
      omega
    | element e =>
      simp only [tagsFrom, List.mem_cons] at member
      rcases member with rfl | later
      · exact ⟨[], ps.flatMap Piece.source, by simp [Piece.source], rfl, rfl⟩
      · obtain ⟨before, after, split, start, stop⟩ := ih later
        refine ⟨e.source ++ before, after, by simp [Piece.source, split], ?_, stop⟩
        rw [start, Text.byteLength_append]
        omega

/-- Elements follow each other. -/
theorem tagsFrom_pairwise (offset : Nat) (ps : List Piece) :
    (tagsFrom offset ps).Pairwise fun a b => a.span.stop ≤ b.span.start := by
  induction ps generalizing offset with
  | nil => exact List.Pairwise.nil
  | cons p ps ih =>
    cases p with
    | text cs => exact ih _
    | element e =>
      refine List.pairwise_cons.2 ⟨fun t later => ?_, ih _⟩
      obtain ⟨before, -, -, start, -⟩ := split_of_mem_tagsFrom later
      show offset + byteLength e.source ≤ t.span.start
      omega

theorem placed_tags {keywords : List String} {kind : Kind} {page : String} {ps : List Piece}
    (cut : pieces keywords kind page.toList = .ok ps) : Placed page (tags ps) := by
  have whole : ps.flatMap Piece.source = page.toList := flatten_pieces cut
  have nonempty (t : Tag) (member : t ∈ tags ps) : t.span.start < t.span.stop := by
    obtain ⟨-, -, -, -, stop⟩ := split_of_mem_tagsFrom member
    have := byteLength_pos (tagsFrom_piecesFrom cut t member).1
    omega
  have split (t : Tag) (member : t ∈ tags ps) : ∃ before after,
      page.toList = before ++ (t.element.source ++ after) ∧ t.span.start = byteLength before ∧
        t.span.stop = byteLength before + byteLength t.element.source := by
    obtain ⟨before, after, split, start, stop⟩ := split_of_mem_tagsFrom member
    refine ⟨before, after, whole ▸ split, by omega, by omega⟩
  constructor
  · exact nonempty
  · intro t member
    obtain ⟨before, after, split, -, stop⟩ := split t member
    rw [utf8ByteSize_eq, split, stop]
    simp only [Text.byteLength_append]
    omega
  · intro t member
    obtain ⟨before, after, split, start, stop⟩ := split t member
    rw [start, stop, ← Text.byteLength_append]
    rw [← List.append_assoc] at split
    exact ⟨isValid_byteLength (by rw [split, List.append_assoc]), isValid_byteLength split⟩
  · intro t member
    obtain ⟨before, after, split, start, stop⟩ := split t member
    rw [start, stop, split]
    exact slice?_append before t.element.source after
  · refine (tagsFrom_pairwise 0 ps).imp_of_mem fun {a b} first second apart => ?_
    exact Nat.lt_of_lt_of_le (nonempty a first) apart
  · exact tagsFrom_pairwise 0 ps
  · intro t member comment known
    have outside := (tagsFrom_piecesFrom cut t member).2
    simpa using List.any_eq_false.1 outside comment known

/-! ## Rewriting -/

/-- The stretches of pieces outside the eligible elements, the first of which begins with `held`. -/
def stretchesFrom (held : List Char) : List Piece → List (List Char)
  | [] => [held]
  | .text cs :: ps => stretchesFrom (held ++ cs) ps
  | .element e :: ps =>
    if e.eligible then held :: stretchesFrom [] ps else stretchesFrom (held ++ e.source) ps

theorem stretchesFrom_ne_nil (held : List Char) (ps : List Piece) : stretchesFrom held ps ≠ [] := by
  fun_induction stretchesFrom held ps <;> simp_all

/-- Without an element to put in, rewriting joins the stretches. -/
theorem append_rewriteFrom_nil (held : List Char) (ps : List Piece) :
    held ++ rewriteFrom [] ps = (stretchesFrom held ps).flatten := by
  fun_induction stretchesFrom held ps with
  | case1 held => simp [rewriteFrom]
  | case2 held cs ps ih => rw [← ih, rewriteFrom, List.append_assoc]
  | case3 held e ps eligible ih => simp [rewriteFrom, eligible, ← ih]
  | case4 held e ps kept ih => simp [rewriteFrom, kept, ← ih]

/-- Rewriting joins the stretches, with the merged element after the first. -/
theorem append_rewriteFrom (merged held : List Char) (ps : List Piece) :
    held ++ rewriteFrom merged ps = joinWith merged (stretchesFrom held ps) := by
  fun_induction stretchesFrom held ps with
  | case1 held => simp [rewriteFrom, joinWith]
  | case2 held cs ps ih => rw [← ih, rewriteFrom, List.append_assoc]
  | case3 held e ps eligible ih =>
    obtain ⟨second, others, more⟩ := List.exists_cons_of_ne_nil (stretchesFrom_ne_nil [] ps)
    have rest := append_rewriteFrom_nil [] ps
    rw [List.nil_append, more] at rest
    rw [rewriteFrom, if_pos eligible, rest, more, joinWith, List.append_assoc]
  | case4 held e ps kept ih =>
    rw [← ih, rewriteFrom, if_neg kept, List.append_assoc]

/-- **The bounds of all slices hold**: the text between the spans of the eligible elements is that of
the pieces. The page is what stands before the cursor, what is held since, and the pieces. -/
theorem stretches?_eligibleSpans (before held : List Char) (ps : List Piece) :
    stretches? (before ++ (held ++ ps.flatMap Piece.source)) (byteLength before)
      (eligibleSpans (tagsFrom (byteLength before + byteLength held) ps)) =
        some (stretchesFrom held ps) := by
  fun_induction stretchesFrom held ps generalizing before with
  | case1 held =>
    have := slice?_append before held []
    simpa [stretches?, eligibleSpans, tagsFrom] using this
  | case2 held cs ps ih =>
    have := ih before
    simpa [tagsFrom, Piece.source, Nat.add_assoc] using this
  | case3 held e ps eligible ih =>
    let start := byteLength before + byteLength held
    let stop := start + byteLength e.source
    have spans : eligibleSpans (tagsFrom start (.element e :: ps)) =
        ⟨start, stop⟩ :: eligibleSpans (tagsFrom stop ps) := by
      simp [eligibleSpans, tagsFrom, eligible, stop]
    have first := slice?_append before held (e.source ++ ps.flatMap Piece.source)
    have others : stretches? (before ++ (held ++ (e.source ++ ps.flatMap Piece.source))) stop
        (eligibleSpans (tagsFrom stop ps)) = some (stretchesFrom [] ps) := by
      simpa [stop, start, Nat.add_assoc] using ih (before ++ (held ++ e.source))
    rw [spans, stretches?, List.flatMap_cons, Piece.source, first, others]
    rfl
  | case4 held e ps kept ih =>
    have := ih before
    simpa [eligibleSpans, tagsFrom, kept, Piece.source, Nat.add_assoc] using this

/-- Without eligible elements the page is one stretch. -/
theorem stretchesFrom_eq_singleton {offset : Nat} {ps : List Piece}
    (noneEligible : eligibleSpans (tagsFrom offset ps) = []) (held : List Char) :
    stretchesFrom held ps = [held ++ ps.flatMap Piece.source] := by
  fun_induction stretchesFrom held ps generalizing offset with
  | case1 held => simp
  | case2 held cs ps ih => simpa [Piece.source] using ih noneEligible
  | case3 held e ps eligible => simp [eligibleSpans, tagsFrom, eligible] at noneEligible
  | case4 held e ps kept ih =>
    have later : eligibleSpans (tagsFrom (offset + byteLength e.source) ps) = [] := by
      simpa [eligibleSpans, tagsFrom, kept] using noneEligible
    simpa [Piece.source] using ih later

/-! ## Failure -/

theorem eq_error_of_map {α β ε : Type} {f : α → β} {r : Except ε α} {e : ε}
    (mapped : r.map f = .error e) : r = .error e := by
  cases r with
  | error e' =>
    cases mapped
    rfl
  | ok a => cases mapped

/-- The content of a start tag is missing only for a script that is never closed. -/
theorem content?_eq_none {kind : Kind} {tag : StartTag} (missing : content? kind tag = none) :
    kind = .script ∧ closesItself tag.attributes = false ∧
      Text.find? (endTag? Kind.script.tag.toList) tag.rest = none := by
  unfold content? at missing
  split at missing
  · cases missing
  · rename_i continues
    simp only [Bool.or_eq_true, decide_eq_true_eq, not_or, Bool.not_eq_true] at continues
    cases kind with
    | script => exact ⟨rfl, continues.2, Option.map_eq_none_iff.1 missing⟩
    | style => exact absurd rfl continues.1

/-- A page that cannot be cut has a script that is never closed. -/
theorem unclosedScript_of_error {keywords : List String} {kind : Kind} {page : String}
    {offset : Nat} {cs : List Char} {e : Error} (before : List Char)
    (split : page.toList = before ++ cs) (place : byteLength before = offset)
    (failed : piecesFrom keywords kind (commentSpans 0 page.toList) offset cs = .error e) :
    ∃ offset, e = .unterminated offset ∧ kind = .script ∧ UnclosedScript page offset := by
  generalize known : commentSpans 0 page.toList = comments at failed
  fun_induction piecesFrom keywords kind comments offset cs generalizing before with
  | case1 => cases failed
  | case2 offset cs between tag found start next _ =>
    rename_i ih
    refine ih (before ++ between ++ tag.text) ?_ ?_ (eq_error_of_map failed)
    · rw [split, (eq_append_of_find_startTag? found).1]
      simp
    · simp [next, start, ← place, Nat.add_assoc]
  | case3 offset cs between tag found start outside =>
    rename_i unclosed
    cases failed
    obtain ⟨rest, parts, begins⟩ := Text.exists_of_find? found
    obtain ⟨rfl, open_, endless⟩ := content?_eq_none unclosed
    refine ⟨start, rfl, rfl, before ++ between, rest, tag, ?_, ?_, begins, open_, endless, ?_⟩
    · rw [split, parts, List.append_assoc]
    · simp [start, ← place]
    · intro comment member
      rw [known] at member
      exact Bool.eq_false_iff.2 fun inside => outside (List.any_eq_true.2 ⟨comment, member, inside⟩)
  | case4 offset cs between tag found start next _ content inline rest closed =>
    rename_i ih
    refine ih (before ++ between ++ tag.text ++ content) ?_ ?_ (eq_error_of_map failed)
    · rw [split, (eq_append_of_find_startTag? found).1, eq_append_of_content? closed]
      simp
    · simp [next, start, ← place, Nat.add_assoc]

/-! ## The whole page -/

/-- **Scanning and rewriting lose nothing of a page.** Either a script is never closed, and scanning
says where it begins, or scanning gives elements at places in the page that are in order and apart
from each other; then rewriting keeps the stretches outside the eligible ones, whose bounds all hold,
and puts the merged element where the first eligible one begins. -/
theorem placed_and_rewrite_eq_joinWith (keywords : List String) (kind : Kind) (page : String) :
    (∃ ps, pieces keywords kind page.toList = .ok ps ∧ scan keywords kind page = .ok (tags ps) ∧
      Placed page (tags ps) ∧
      ∀ source, ∃ stretches,
        stretches? page.toList 0 (eligibleSpans (tags ps)) = some stretches ∧
        rewrite kind source ps =
          String.ofList (joinWith (mergedElement kind source).toList stretches) ∧
        (eligibleSpans (tags ps) = [] → rewrite kind source ps = page)) ∨
    ∃ offset, scan keywords kind page = .error (.unterminated offset) ∧ kind = .script ∧
      UnclosedScript page offset := by
  cases cut : pieces keywords kind page.toList with
  | error e =>
    obtain ⟨offset, rfl, isScript, unclosed⟩ := unclosedScript_of_error [] rfl rfl cut
    exact .inr ⟨offset, by rw [scan, cut]; rfl, isScript, unclosed⟩
  | ok ps =>
    have whole : ps.flatMap Piece.source = page.toList := flatten_pieces cut
    refine .inl ⟨ps, rfl, by rw [scan, cut]; rfl, placed_tags cut, fun source => ?_⟩
    have rewritten := append_rewriteFrom (mergedElement kind source).toList [] ps
    refine ⟨stretchesFrom [] ps, ?_, ?_, ?_⟩
    · simpa [whole, tags] using stretches?_eligibleSpans [] [] ps
    · rw [rewrite, ← rewritten, List.nil_append]
    · intro noneEligible
      rw [rewrite, ← List.nil_append (rewriteFrom _ ps), rewritten, stretchesFrom_eq_singleton noneEligible]
      simp [joinWith, whole]

end PageBundle.Markup
