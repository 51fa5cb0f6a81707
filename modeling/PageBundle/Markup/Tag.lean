import PageBundle.Text.Blank
import PageBundle.Text.Letter
import PageBundle.Text.Search

/-!
# Start tags and end tags

A start tag is `<` and an element name, then nothing or attribute text that begins with a blank or a
slash, then `>`. In attribute text a `>` between quotes does not end the tag. An end tag may have
blanks before its `>`. Names are matched up to case folding.
-/

namespace PageBundle.Markup

/-- A start tag at the start of a text. -/
structure StartTag where
  /-- The whole tag. -/
  text : List Char
  /-- What stands between the element name and the closing `>`. -/
  attributes : List Char
  /-- What follows the tag. -/
  rest : List Char
  deriving DecidableEq, Repr

/-- The quote that is open after `c`, when `quote` was open before it. -/
def quoteAfter (quote : Option Char) (c : Char) : Option Char :=
  match quote with
  | none => if c == '"' || c == '\'' then some c else none
  | some q => if c == q then none else some q

/-- Reads up to the first `>` outside quotes: `read`, held backwards, with what stands before it,
and what follows it. -/
def untilClose (quote : Option Char) (read : List Char) :
    List Char → Option (List Char × List Char)
  | [] => none
  | c :: cs =>
    if quote.isNone && c == '>' then some (read.reverse, cs)
    else untilClose (quoteAfter quote c) (c :: read) cs

/-- What follows the element name of a start tag: the attribute text and the text after the tag. -/
def attributeText? : List Char → Option (List Char × List Char)
  | [] => none
  | c :: cs =>
    if c == '>' then some ([], cs)
    else if Text.isBlank c || c == '/' then untilClose none [c] cs
    else none

/-- The start tag of an element of this name at the start of a text. -/
def startTag? (name : List Char) : List Char → Option StartTag
  | '<' :: cs => do
    let rest ← Text.dropWord? name cs
    let (attributes, rest) ← attributeText? rest
    some ⟨'<' :: (cs.take name.length ++ attributes ++ ['>']), attributes, rest⟩
  | _ => none

/-- The end tag of an element of this name at the start of a text, and the text after it. -/
def endTag? (name : List Char) : List Char → Option (List Char × List Char)
  | '<' :: '/' :: cs => do
    let rest ← Text.dropWord? name cs
    match rest.dropWhile Text.isBlank with
    | '>' :: after =>
      some ('<' :: '/' :: cs.take (cs.length - after.length), after)
    | _ => none
  | _ => none

theorem eq_append_of_untilClose {quote : Option Char} {read cs attributes rest : List Char}
    (h : untilClose quote read cs = some (attributes, rest)) :
    read.reverse ++ cs = attributes ++ '>' :: rest := by
  induction cs generalizing quote read with
  | nil => simp [untilClose] at h
  | cons c cs ih =>
    unfold untilClose at h
    split at h
    · rename_i hc
      simp only [Bool.and_eq_true, beq_iff_eq] at hc
      cases h
      rw [hc.2]
    · simpa using ih h

theorem eq_append_of_attributeText? {cs attributes rest : List Char}
    (h : attributeText? cs = some (attributes, rest)) : cs = attributes ++ '>' :: rest := by
  cases cs with
  | nil => simp [attributeText?] at h
  | cons c cs =>
    rw [attributeText?] at h
    by_cases hc : c = '>'
    · simp only [hc, beq_self_eq_true, if_true, Option.some.injEq, Prod.mk.injEq] at h
      simp [← h.1, ← h.2, hc]
    · simp only [beq_iff_eq, hc, if_false] at h
      split at h
      · simpa using eq_append_of_untilClose h
      · cases h

theorem eq_append_of_dropWord? {word cs rest : List Char} (h : Text.dropWord? word cs = some rest) :
    cs = cs.take word.length ++ rest := by
  induction word generalizing cs with
  | nil => simp_all [Text.dropWord?]
  | cons w word ih =>
    cases cs with
    | nil => simp [Text.dropWord?] at h
    | cons c cs =>
      unfold Text.dropWord? at h
      split at h
      · simpa using ih h
      · cases h

/-- A start tag is what the text begins with. -/
theorem eq_append_of_startTag? {name cs : List Char} {t : StartTag} (h : startTag? name cs = some t) :
    cs = t.text ++ t.rest ∧ t.text ≠ [] := by
  unfold startTag? at h
  split at h
  · rename_i cs
    obtain ⟨rest, h1, h⟩ := Option.bind_eq_some_iff.1 h
    obtain ⟨⟨attributes, after⟩, h2, h⟩ := Option.bind_eq_some_iff.1 h
    cases h
    have e1 := eq_append_of_dropWord? h1
    have e2 := eq_append_of_attributeText? h2
    refine ⟨?_, by simp⟩
    conv => lhs; rw [e1, e2]
    simp
  · cases h

/-- An end tag is what the text begins with. -/
theorem eq_append_of_endTag? {name cs tag rest : List Char} (h : endTag? name cs = some (tag, rest)) :
    cs = tag ++ rest ∧ tag ≠ [] := by
  unfold endTag? at h
  split at h
  · rename_i cs
    obtain ⟨r, h1, h⟩ := Option.bind_eq_some_iff.1 h
    have e1 := eq_append_of_dropWord? h1
    have e2 := List.takeWhile_append_dropWhile (p := Text.isBlank) (l := r)
    split at h
    · rename_i after h3
      simp only [Option.some.injEq, Prod.mk.injEq] at h
      obtain ⟨rfl, rfl⟩ := h
      refine ⟨?_, by simp⟩
      have e : cs = (cs.take name.length ++ r.takeWhile Text.isBlank ++ ['>']) ++ after := by
        conv => lhs; rw [e1, ← e2, h3]
        simp
      have hlen : cs.length - after.length =
          (cs.take name.length ++ r.takeWhile Text.isBlank ++ ['>']).length := by
        have := congrArg List.length e
        simp only [List.length_append] at this ⊢
        omega
      rw [hlen]
      have ht : cs.take (cs.take name.length ++ r.takeWhile Text.isBlank ++ ['>']).length =
          cs.take name.length ++ r.takeWhile Text.isBlank ++ ['>'] := by
        conv => lhs; rw [e]
        exact List.take_left' (by simp only [← e])
      rw [ht]
      simpa using e
    · cases h
  · cases h

end PageBundle.Markup
