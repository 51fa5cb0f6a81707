import PageBundle.File.Disk

/-!
# Names in a path

A name of a path stands between two slashes, or between a slash and an end of the path. Reading the
names finds exactly what stands so (`mem_namesIn_iff`): names on either side of a slash are read
apart (`namesIn_append_slash`), and from this all else follows.
-/

namespace PageBundle.File

/-- The names in a text, `.` and `..` included. -/
def namesIn (cs : List Char) : List String :=
  ((cs.splitOn '/').map String.ofList).filter (· != "")

theorem namesOf_eq_namesIn (path : String) : namesOf path = namesIn path.toList := rfl

theorem namesIn_append_slash (xs ys : List Char) :
    namesIn (xs ++ '/' :: ys) = namesIn xs ++ namesIn ys := by
  rw [namesIn, List.splitOn, List.splitOnP_append_cons xs ys (by simp), List.map_append,
    List.filter_append]
  rfl

@[simp] theorem namesIn_nil : namesIn [] = [] := rfl

@[simp] theorem namesIn_slash (cs : List Char) : namesIn ('/' :: cs) = namesIn cs :=
  namesIn_append_slash [] cs

/-- A text without slashes is one name. -/
theorem namesIn_of_whole {name : List Char} (nonempty : name ≠ []) (whole : '/' ∉ name) :
    namesIn name = [String.ofList name] := by
  rw [namesIn, List.splitOn_eq_singleton whole]
  simp [nonempty]

/-- Whether a text ends where a name may begin. -/
def IsFront (cs : List Char) : Prop := cs = [] ∨ cs.getLast? = some '/'

/-- Whether a text begins where a name may end. -/
def IsBack (cs : List Char) : Prop := cs = [] ∨ cs.head? = some '/'

theorem IsFront.afterSlash {before : List Char} (front : IsFront before) (first : List Char) :
    IsFront (first ++ '/' :: before) := by
  right
  rcases front with rfl | slash
  · simp
  · obtain ⟨start, rfl⟩ := List.getLast?_eq_some_iff.1 slash
    exact List.getLast?_eq_some_iff.2 ⟨first ++ '/' :: start, by simp⟩

/-- A name and what stands on either side of it are read apart. -/
theorem namesIn_around {before name after : List Char} (front : IsFront before)
    (nonempty : name ≠ []) (whole : '/' ∉ name) (back : IsBack after) :
    namesIn (before ++ (name ++ after)) =
      namesIn before ++ String.ofList name :: namesIn after := by
  have here := namesIn_of_whole nonempty whole
  have onward : namesIn (name ++ after) = String.ofList name :: namesIn after := by
    rcases back with rfl | slash
    · simpa using here
    · obtain ⟨rest, rfl⟩ := List.head?_eq_some_iff.1 slash
      rw [namesIn_append_slash, here, namesIn_slash]
      rfl
  rcases front with rfl | slash
  · exact onward
  · obtain ⟨rest, rfl⟩ := List.getLast?_eq_some_iff.1 slash
    rw [List.append_assoc, List.singleton_append, namesIn_append_slash, onward,
      namesIn_append_slash, namesIn_nil, List.append_nil]

/-- A name stands in a text: it is not empty, no slash is in it, and a slash or an end of the text
is on either side of it. -/
structure StandsIn (name cs : List Char) : Prop where
  nonempty : name ≠ []
  whole : '/' ∉ name
  placed : ∃ before after, cs = before ++ (name ++ after) ∧ IsFront before ∧ IsBack after

/-- A text is one name, or none, up to its first slash. -/
theorem whole_or_exists_slash (cs : List Char) :
    '/' ∉ cs ∨ ∃ first rest, cs = first ++ '/' :: rest ∧ '/' ∉ first := by
  by_cases slash : '/' ∈ cs
  · obtain ⟨first, rest, split, before⟩ := List.eq_append_cons_of_mem slash
    exact .inr ⟨first, rest, split, before⟩
  · exact .inl slash

/-- The first name of a text, or none, ends at a back. -/
theorem exists_back (cs : List Char) :
    ∃ name after, cs = name ++ after ∧ '/' ∉ name ∧ IsBack after := by
  rcases whole_or_exists_slash cs with whole | ⟨first, rest, split, whole⟩
  · exact ⟨cs, [], by simp, whole, .inl rfl⟩
  · exact ⟨first, '/' :: rest, split, whole, .inr rfl⟩

/-- The last name of a text, or none, stands at a front. -/
theorem exists_front (cs : List Char) :
    ∃ before name, cs = before ++ name ∧ IsFront before ∧ '/' ∉ name := by
  obtain ⟨name, after, split, whole, back⟩ := exists_back cs.reverse
  refine ⟨after.reverse, name.reverse, ?_, ?_, by simpa using whole⟩
  · rw [← List.reverse_append, ← split, List.reverse_reverse]
  · rcases back with rfl | slash
    · exact .inl rfl
    · right
      rwa [List.getLast?_reverse]

theorem standsIn_of_mem_namesIn {cs : List Char} {name : String} (member : name ∈ namesIn cs) :
    StandsIn name.toList cs := by
  -- The induction is on the length of the text; what follows the first slash is shorter.
  induction hn : cs.length using Nat.strongRecOn generalizing cs with
  | ind n ih =>
    have single {xs : List Char} (whole : '/' ∉ xs) (member : name ∈ namesIn xs) :
        xs ≠ [] ∧ name.toList = xs := by
      by_cases none : xs = []
      · rw [none, namesIn_nil] at member
        cases member
      · rw [namesIn_of_whole none whole] at member
        exact ⟨none, by rw [List.mem_singleton.1 member, String.toList_ofList]⟩
    rcases whole_or_exists_slash cs with whole | ⟨first, rest, rfl, whole⟩
    · obtain ⟨nonempty, same⟩ := single whole member
      rw [same]
      exact ⟨nonempty, whole, [], [], by simp, .inl rfl, .inl rfl⟩
    · rw [namesIn_append_slash] at member
      rcases List.mem_append.1 member with here | later
      · obtain ⟨nonempty, same⟩ := single whole here
        rw [same]
        exact ⟨nonempty, whole, [], '/' :: rest, rfl, .inl rfl, .inr rfl⟩
      · have shorter : rest.length < n := by
          rw [← hn, List.length_append, List.length_cons]
          omega
        obtain ⟨nonempty, whole, before, after, rfl, front, back⟩ := ih _ shorter later rfl
        refine ⟨nonempty, whole, first ++ '/' :: before, after, by simp, ?_, back⟩
        exact front.afterSlash first

theorem mem_namesIn_iff {cs : List Char} {name : String} :
    name ∈ namesIn cs ↔ StandsIn name.toList cs := by
  constructor
  · exact standsIn_of_mem_namesIn
  · rintro ⟨nonempty, whole, before, after, rfl, front, back⟩
    rw [namesIn_around front nonempty whole back, String.ofList_toList]
    simp

/-- Every character but a slash is in a name. -/
theorem exists_standsIn_of_mem {cs : List Char} {c : Char} (member : c ∈ cs) (other : c ≠ '/') :
    ∃ name, StandsIn name cs ∧ c ∈ name := by
  obtain ⟨xs, ys, rfl⟩ := List.append_of_mem member
  obtain ⟨before, start, rfl, front, wholeStart⟩ := exists_front xs
  obtain ⟨stop, after, rfl, wholeStop, back⟩ := exists_back ys
  refine ⟨start ++ c :: stop, ⟨by simp, ?_, before, after, by simp, front, back⟩, by simp⟩
  simp [wholeStart, wholeStop, other.symm]

/-! ## Paths written from names -/

section Written

variable {names : List String}

/-- The text that writes names with a slash in front of each. -/
def written (names : List String) : List Char :=
  names.flatMap fun name => '/' :: name.toList

theorem namesIn_written (nonempty : ∀ name ∈ names, name ≠ "")
    (whole : ∀ name ∈ names, '/' ∉ name.toList) : namesIn (written names) = names := by
  induction names with
  | nil => rfl
  | cons name names ih =>
    obtain ⟨hereFilled, laterFilled⟩ := List.forall_mem_cons.1 nonempty
    obtain ⟨hereWhole, laterWhole⟩ := List.forall_mem_cons.1 whole
    have back : IsBack (written names) := by
      cases names with
      | nil => exact .inl rfl
      | cons next names => exact .inr rfl
    have filled : name.toList ≠ [] := by simpa using hereFilled
    have around := namesIn_around (.inr rfl : IsFront ['/']) filled hereWhole back
    rw [ih laterFilled laterWhole, String.ofList_toList] at around
    exact around

/-- No two slashes follow each other. -/
theorem not_infix_written (nonempty : ∀ name ∈ names, name ≠ "")
    (whole : ∀ name ∈ names, '/' ∉ name.toList) : ¬ "//".toList <:+: written names := by
  rintro ⟨before, after, split⟩
  induction names generalizing before with
  | nil => simp [written] at split
  | cons name names ih =>
    obtain ⟨hereFilled, laterFilled⟩ := List.forall_mem_cons.1 nonempty
    obtain ⟨hereWhole, laterWhole⟩ := List.forall_mem_cons.1 whole
    have later := ih laterFilled laterWhole
    have parts : before ++ '/' :: '/' :: after = '/' :: (name.toList ++ written names) := by
      simpa [written] using split
    cases before with
    | nil =>
      have filled : name.toList ≠ [] := by simpa using hereFilled
      obtain ⟨c, cs, chars⟩ := List.exists_cons_of_ne_nil filled
      rw [chars] at parts hereWhole
      simp only [List.nil_append, List.cons_append, List.cons.injEq, true_and] at parts
      obtain ⟨rfl, -⟩ := parts
      exact hereWhole (by simp)
    | cons b before =>
      rw [List.cons_append, List.cons.injEq] at parts
      rcases List.append_eq_append_iff.1 parts.2 with ⟨rest, same, slashes⟩ | ⟨rest, -, slashes⟩
      · cases rest with
        | nil => exact later [] (by simpa using slashes)
        | cons c rest =>
          obtain ⟨rfl, -⟩ := List.cons.inj slashes
          exact hereWhole (by simp [same])
      · exact later rest (by simpa using slashes.symm)

end Written

end PageBundle.File
