import PageBundle.Text.Blank
import PageBundle.Text.Letter
import PageBundle.Text.Search

/-!
# Attributes of elements

The attribute text of a start tag is read as a list of names, each with or without a value. A value
follows an equals sign, in quotes or bare; characters that begin neither a name nor a value are
passed over. In a value five character references are understood.
-/

namespace PageBundle.Markup

/-- The characters of attribute names. -/
def isNameChar (c : Char) : Bool :=
  !Text.isBlank c && !(['"', '\'', '>', '/', '='].contains c)

/-- The characters of values without quotes. -/
def isBareChar (c : Char) : Bool :=
  !Text.isBlank c && !(['"', '\'', '=', '<', '>', '\x60'].contains c)

/-- The value at the start of a text, and the rest. -/
def value? (cs : List Char) : Option (List Char × List Char) :=
  match cs.dropWhile Text.isBlank with
  | '=' :: cs =>
    match cs.dropWhile Text.isBlank with
    | '"' :: cs => Text.breakOn? ['"'] cs
    | '\'' :: cs => Text.breakOn? ['\''] cs
    | cs =>
      if cs.head?.any isBareChar then some (cs.takeWhile isBareChar, cs.dropWhile isBareChar)
      else none
  | _ => none

theorem length_of_value? {cs value rest : List Char} (h : value? cs = some (value, rest)) :
    rest.length ≤ cs.length := by
  have h0 := Text.length_dropWhile_le Text.isBlank cs
  unfold value? at h
  split at h
  · rename_i r hr
    have h1 := Text.length_dropWhile_le Text.isBlank r
    rw [hr] at h0
    simp only [List.length_cons] at h0
    split at h
    · rename_i q hq
      have := congrArg List.length (Text.eq_append_of_breakOn? h)
      rw [hq] at h1
      simp only [List.length_append, List.length_cons] at this h1
      omega
    · rename_i q hq
      have := congrArg List.length (Text.eq_append_of_breakOn? h)
      rw [hq] at h1
      simp only [List.length_append, List.length_cons] at this h1
      omega
    · have h2 := Text.length_dropWhile_le isBareChar (r.dropWhile Text.isBlank)
      split at h
      · cases h
        omega
      · cases h
  · cases h

/-- The attributes in order, as they are written: names, and values where there are any. -/
def rawAttributes (cs : List Char) : List (List Char × Option (List Char)) :=
  match _h : cs.dropWhile (!isNameChar ·) with
  | [] => []
  | c :: cs' =>
    match _hv : value? (cs'.dropWhile isNameChar) with
    | some (value, rest) => (c :: cs'.takeWhile isNameChar, some value) :: rawAttributes rest
    | none => (c :: cs'.takeWhile isNameChar, none) :: rawAttributes (cs'.dropWhile isNameChar)
termination_by cs.length
decreasing_by
  all_goals
    have h0 := Text.length_dropWhile_le (!isNameChar ·) cs
    have h1 := Text.length_dropWhile_le isNameChar cs'
    rw [_h] at h0
    simp only [List.length_cons] at h0
  · have h2 := length_of_value? _hv
    omega
  · omega

/-- One step of reading attributes: from the first character that begins a name. -/
theorem rawAttributes_step (cs : List Char) :
    rawAttributes cs = match cs.dropWhile (!isNameChar ·) with
      | [] => []
      | c :: cs =>
        match value? (cs.dropWhile isNameChar) with
        | some (value, rest) => (c :: cs.takeWhile isNameChar, some value) :: rawAttributes rest
        | none => (c :: cs.takeWhile isNameChar, none) ::
            rawAttributes (cs.dropWhile isNameChar) := by
  rw [rawAttributes]
  split
  next none => rw [none]
  next begins =>
    rw [begins]
    dsimp only
    split
    next valued => rw [valued]
    next missing => rw [missing]

theorem rawAttributes_passed {c : Char} (other : isNameChar c = false) (cs : List Char) :
    rawAttributes (c :: cs) = rawAttributes cs := by
  rw [rawAttributes_step, rawAttributes_step cs, List.dropWhile_cons_of_pos (by simp [other])]

theorem rawAttributes_named {c : Char} (named : isNameChar c = true) (cs : List Char) :
    rawAttributes (c :: cs) = match value? (cs.dropWhile isNameChar) with
      | some (value, rest) => (c :: cs.takeWhile isNameChar, some value) :: rawAttributes rest
      | none => (c :: cs.takeWhile isNameChar, none) ::
          rawAttributes (cs.dropWhile isNameChar) := by
  rw [rawAttributes_step, List.dropWhile_cons_of_neg (by simp [named])]

/-- The character references that are understood, in the order in which they are replaced. -/
def references : List (List Char × List Char) :=
  [("&quot;".toList, ['"']), ("&#39;".toList, ['\'']), ("&lt;".toList, ['<']),
   ("&gt;".toList, ['>']), ("&amp;".toList, ['&'])]

/-- A value with the character references in it replaced. -/
def unescape (value : List Char) : List Char :=
  references.foldl (fun cs r => Text.replaceAll r.1 r.2 cs) value

/-- A value as it is written between double quotes. -/
def escape (value : List Char) : List Char :=
  value.flatMap fun c =>
    if c == '&' then "&amp;".toList
    else if c == '"' then "&quot;".toList
    else if c == '<' then "&lt;".toList
    else [c]

/-- The value of the first attribute of a name, which is compared without regard to case; an empty
one if the attribute has none. -/
def attribute? (attributes : List (List Char × Option (List Char))) (name : String) :
    Option String :=
  (attributes.find? fun a => String.ofList (a.1.map Char.toLower) == name).map fun a =>
    String.ofList (unescape (a.2.getD []))

end PageBundle.Markup
