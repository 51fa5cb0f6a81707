import PageBundle.Proofs.File.Walk
import PageBundle.Proofs.Store.Resolution

/-!
# Places of identifiers below a root

An identifier that writes plain names is the same as the names (`IsIdentifier`). Without a context
path it resolves to them, and their path begins where the root does and has the names of the root
before them (`startOf_pathTo`, `namesOf_pathTo`). So on a disk without limits where the root leads
to a directory (`Rooted`), a resource is read from the place below the root that its names spell
(`Rooted.read_eq_ok_iff`), and writing one makes the directories on the way to it and changes
nothing else below the root (`Rooted.exists_writeFile`).
-/

namespace PageBundle.Store

open File (Disk Place namesOf namesIn)
open Deployment (IsPlainName)

/-- Names that lead onward and that a disk can hold. -/
def AllPlain (names : List String) : Prop :=
  ∀ name ∈ names, IsPlainName name ∧ '\x00' ∉ name.toList

/-- An identifier writes plain names, at least one, each behind a slash. -/
structure IsIdentifier (id : String) : Prop where
  spelled : id.toList = File.written (namesOf id)
  nonempty : namesOf id ≠ []
  plain : AllPlain (namesOf id)

instance (names : List String) : Decidable (AllPlain names) :=
  decidable_of_iff (∀ name ∈ names, (name ≠ "" ∧ '/' ∉ name.toList ∧ name ≠ "." ∧ name ≠ "..") ∧
      '\x00' ∉ name.toList)
    (forall₂_congr fun _ _ => and_congr_left fun _ =>
      ⟨fun h => ⟨h.1, h.2.1, h.2.2.1, h.2.2.2⟩, fun h => ⟨h.nonempty, h.whole, h.notHere, h.notUp⟩⟩)

instance (id : String) : Decidable (IsIdentifier id) :=
  decidable_of_iff (id.toList = File.written (namesOf id) ∧ namesOf id ≠ [] ∧ AllPlain (namesOf id))
    ⟨fun h => ⟨h.1, h.2.1, h.2.2⟩, fun h => ⟨h.spelled, h.nonempty, h.plain⟩⟩

theorem AllPlain.of_prefix {names q : List String} (plain : AllPlain names) (start : q <+: names) :
    AllPlain q :=
  fun name mem => plain name (start.subset mem)

theorem AllPlain.isOnward {names : List String} (plain : AllPlain names) :
    ∀ name ∈ names, File.IsOnward name :=
  fun name mem => ⟨(plain name mem).1.notHere, (plain name mem).1.notUp⟩

theorem namesIn_written_of_plain {names : List String} (plain : AllPlain names) :
    namesIn (File.written names) = names :=
  File.namesIn_written (fun name mem => (plain name mem).1.nonempty)
    fun name mem => (plain name mem).1.whole

/-- Identifiers with the same names are the same. -/
theorem IsIdentifier.eq_of_namesOf {a b : String} (first : IsIdentifier a) (second : IsIdentifier b)
    (same : namesOf a = namesOf b) : a = b :=
  String.toList_injective (by rw [first.spelled, second.spelled, same])

/-! ## Paths below a root -/

section Paths

variable {root : String} {names : List String}

theorem written_eq_intercalate (nonempty : names ≠ []) :
    File.written names = '/' :: ("/".intercalate names).toList := by
  induction names with
  | nil => exact absurd rfl nonempty
  | cons name names ih =>
    by_cases last : names = []
    · simp [last, File.written]
    · rw [String.intercalate_cons_of_ne_nil last, String.toList_append, String.toList_append,
        List.append_assoc]
      exact congrArg (fun cs => '/' :: (name.toList ++ cs)) (ih last)

/-- The root and what separates the names from it. -/
def front (root : String) : List Char :=
  root.toList ++ (Deployment.separator root).toList

/-- The path of names below a root is the root and the names, with a slash between them unless the
root has one. -/
theorem toList_pathTo (root : String) (nonempty : names ≠ []) (plain : AllPlain names) :
    ((Deployment.of root "").pathTo names).toList = front root ++ (File.written names).tail := by
  rw [Deployment.pathTo, Deployment.foldl_join_eq nonempty fun name mem => (plain name mem).1,
    written_eq_intercalate nonempty, String.toList_append, String.toList_append]
  rfl

theorem front_cases (root : String) : root = "" ∧ front root = [] ∨
    (front root).getLast? = some '/' ∧ (front root).head? = root.toList.head? ∧
      namesIn (front root) = namesOf root := by
  by_cases blank : root = ""
  · subst blank
    exact .inl ⟨rfl, rfl⟩
  · right
    obtain ⟨c, cs, chars⟩ := List.exists_cons_of_ne_nil (by simpa using blank : root.toList ≠ [])
    by_cases closed : root.toList.getLast? = some '/'
    · have same : front root = root.toList := by simp [front, Deployment.separator, closed]
      rw [same]
      exact ⟨closed, rfl, rfl⟩
    · have more : front root = root.toList ++ ['/'] := by
        simp [front, Deployment.separator, blank, closed]
      rw [more, List.getLast?_concat, File.namesIn_append_slash, File.namesIn_nil, List.append_nil]
      exact ⟨rfl, by simp [chars], rfl⟩

/-- What stands before a slash and what follows it are read apart. -/
theorem namesIn_append {before after : List Char} (closed : before.getLast? = some '/') :
    namesIn (before ++ after) = namesIn before ++ namesIn after := by
  obtain ⟨rest, rfl⟩ := List.getLast?_eq_some_iff.1 closed
  rw [List.append_assoc, List.singleton_append, File.namesIn_append_slash,
    File.namesIn_append_slash, File.namesIn_nil, List.append_nil]

theorem getLast?_written (nonempty : names ≠ []) (plain : AllPlain names) :
    (File.written names).getLast? ≠ some '/' := by
  obtain ⟨init, last, rfl⟩ := (List.eq_nil_or_concat' names).resolve_left nonempty
  have here := (plain last (by simp)).1
  have filled : last.toList ≠ [] := by simpa using here.nonempty
  obtain ⟨cs, c, chars⟩ := (List.eq_nil_or_concat' last.toList).resolve_left filled
  have split : File.written (init ++ [last]) = File.written init ++ '/' :: cs ++ [c] := by
    simp [File.written, chars]
  rw [split, List.getLast?_concat]
  rintro ⟨rfl⟩
  exact here.whole (by simp [chars])

/-- Without their first slash, plain names begin and end with other characters. -/
theorem tail_written (nonempty : names ≠ []) (plain : AllPlain names) :
    namesIn (File.written names).tail = names ∧
      (∃ c, (File.written names).tail.head? = some c ∧ c ≠ '/') ∧
        (File.written names).tail.getLast? ≠ some '/' := by
  obtain ⟨name, rest, rfl⟩ := List.exists_cons_of_ne_nil nonempty
  have first := (plain name (by simp)).1
  obtain ⟨c, cs, chars⟩ := List.exists_cons_of_ne_nil
    (by simpa using first.nonempty : name.toList ≠ [])
  have tail : (File.written (name :: rest)).tail = name.toList ++ File.written rest := rfl
  refine ⟨(File.namesIn_slash _).symm.trans (namesIn_written_of_plain plain), ⟨c, ?_, ?_⟩, ?_⟩
  · rw [tail, chars]
    rfl
  · rintro rfl
    exact first.whole (by simp [chars])
  · intro closed
    apply getLast?_written nonempty plain
    have whole : File.written (name :: rest) = ['/'] ++ (File.written (name :: rest)).tail := rfl
    rw [whole, List.getLast?_append, closed]
    rfl

/-- The path of names below a root has the names of the root before them. -/
theorem namesOf_pathTo (plain : AllPlain names) :
    namesOf ((Deployment.of root "").pathTo names) = namesOf root ++ names := by
  by_cases none : names = []
  · subst none
    exact (List.append_nil _).symm
  · rw [File.namesOf_eq_namesIn, toList_pathTo root none plain]
    rcases front_cases root with ⟨rfl, blank⟩ | ⟨closed, -, read⟩
    · rw [blank]
      exact (tail_written none plain).1
    · rw [namesIn_append closed, read, (tail_written none plain).1]

theorem startOf_pathTo (d : Disk) (plain : AllPlain names) :
    d.startOf ((Deployment.of root "").pathTo names) = d.startOf root := by
  by_cases none : names = []
  · subst none
    rfl
  · rw [Disk.startOf, Disk.startOf, toList_pathTo root none plain]
    rcases front_cases root with ⟨rfl, blank⟩ | ⟨closed, first, -⟩
    · obtain ⟨c, begins, other⟩ := (tail_written none plain).2.1
      simp [blank, begins, other]
    · rw [List.head?_append, first]
      cases begins : root.toList with
      | nil => simp [begins] at first; simp [first] at closed
      | cons => rfl

theorem noNul_pathTo (noNul : '\x00' ∉ root.toList) (plain : AllPlain names) :
    '\x00' ∉ ((Deployment.of root "").pathTo names).toList := by
  by_cases none : names = []
  · subst none
    exact noNul
  · rw [toList_pathTo root none plain, List.mem_append, front, List.mem_append]
    rintro ((nul | nul) | nul)
    · exact noNul nul
    · unfold Deployment.separator at nul
      split at nul <;> simp at nul
    · obtain ⟨name, mem, nul⟩ := List.mem_flatMap.1 (List.mem_of_mem_tail nul)
      rcases List.mem_cons.1 nul with isSlash | nul
      · exact absurd isSlash (by decide)
      · exact (plain name mem).2 nul

theorem opened_pathTo (root : String) (nonempty : names ≠ []) (plain : AllPlain names) :
    (Deployment.of root "").pathTo names ≠ "" ∧
      ((Deployment.of root "").pathTo names).toList.getLast? ≠ some '/' := by
  obtain ⟨-, ⟨c, begins, -⟩, ends⟩ := tail_written nonempty plain
  have path := toList_pathTo root nonempty plain
  constructor
  · intro blank
    rw [blank] at path
    have none := (List.append_eq_nil_iff.1 path.symm).2
    simp [none] at begins
  · rw [path, List.getLast?_append]
    cases last : (File.written names).tail.getLast? with
    | none => simp [List.getLast?_eq_none_iff.1 last] at begins
    | some d => simpa [last] using ends

end Paths

/-! ## Stores under a root -/

/-- The root of a store leads to a directory, on a disk without limits. -/
structure Rooted (d : Disk) (root : String) (base : Place) : Prop where
  free : d.Unlimited
  noNul : '\x00' ∉ root.toList
  led : d.walk (d.startOf root) (namesOf root) = .ok base
  directory : d.node? base = some .directory

namespace Rooted

variable {d : Disk} {root : String} {base : Place} {names : List String}

/-- A root stays one as long as directories stay what they are. -/
theorem of_keeps (rooted : Rooted d root base) {d' : Disk} (limits : d'.limits = d.limits)
    (workingDirectory : d'.workingDirectory = d.workingDirectory)
    (keeps : ∀ p, d.node? p = some .directory → d'.node? p = some .directory) :
    Rooted d' root base := by
  have start : d'.startOf root = d.startOf root := by
    rw [Disk.startOf, workingDirectory]
    rfl
  exact ⟨limits.trans rooted.free, rooted.noNul,
    start ▸ Disk.walk_of_keeps limits keeps rooted.led, keeps base rooted.directory⟩

/-- Plain names lead from the root to the place that they spell, through directories. -/
theorem walk_pathTo (rooted : Rooted d root base) (plain : AllPlain names) {place : Place} :
    d.walk (d.startOf ((Deployment.of root "").pathTo names))
        (namesOf ((Deployment.of root "").pathTo names)) = .ok place ↔
      base ++ names = place ∧
        ∀ q, q <+: names → q ≠ names → d.node? (base ++ q) = some .directory := by
  rw [startOf_pathTo d plain, namesOf_pathTo plain, Disk.walk_append_eq_ok_iff, rooted.led,
    ← Disk.walk_eq_ok_iff rooted.free plain.isOnward]
  simp

/-- **A file is read from the place that its names spell**, through directories. -/
theorem read_eq_ok_iff (rooted : Rooted d root base) (nonempty : names ≠ [])
    (plain : AllPlain names) {contents : Bytes} :
    d.read ((Deployment.of root "").pathTo names) = .ok contents ↔
      d.node? (base ++ names) = some (.file contents) ∧
        ∀ q, q <+: names → q ≠ names → d.node? (base ++ q) = some .directory := by
  obtain ⟨shown, opened⟩ := opened_pathTo root nonempty plain
  rw [Disk.read_eq_ok_iff rooted.free (noNul_pathTo rooted.noNul plain) shown opened]
  simp only [rooted.walk_pathTo plain]
  grind

theorem prefix_dropLast_iff {names q : List String} (nonempty : names ≠ []) :
    q <+: names.dropLast ↔ q <+: names ∧ q ≠ names := by
  obtain ⟨init, last, rfl⟩ := (List.eq_nil_or_concat' names).resolve_left nonempty
  rw [List.dropLast_concat, List.prefix_concat_iff]
  constructor
  · intro start
    refine ⟨.inr start, ?_⟩
    rintro rfl
    have shorter := start.length_le
    rw [List.length_append, List.length_singleton] at shorter
    omega
  · rintro ⟨rfl | start, other⟩
    · exact absurd rfl other
    · exact start

/-- **Writing a file makes the directories on the way to it** and changes nothing else below the
root, if no file is on the way and no directory at its place. -/
theorem exists_writeFile (rooted : Rooted d root base) (nonempty : names ≠ [])
    (plain : AllPlain names) (contents : Bytes)
    (way : ∀ q, q <+: names → q ≠ names → ∀ other, d.node? (base ++ q) ≠ some (.file other))
    (clear : d.node? (base ++ names) ≠ some .directory) :
    ∃ d', ((Deployment.of root "").writeFile Disk.system names contents).run d = (.ok (), d') ∧
      Rooted d' root base ∧ ∀ r, d'.node? (base ++ r) =
        if r = names then some (.file contents) else if r <+: names then some .directory
          else d.node? (base ++ r) := by
  have start : names.dropLast <+: names := List.dropLast_prefix names
  have onWay_iff {q : List String} := prefix_dropLast_iff (q := q) nonempty
  obtain ⟨d₁, made, limits, workingDirectory, onWay, rest⟩ :=
    Disk.exists_makeFrom rooted.free (plain.of_prefix start).isOnward rooted.directory
      fun q sub => way q (onWay_iff.1 sub).1 (onWay_iff.1 sub).2
  have rooted₁ : Rooted d₁ root base := by
    refine rooted.of_keeps limits workingDirectory fun p directory => ?_
    by_cases below : ∃ q, q <+: names.dropLast ∧ p = base ++ q
    · obtain ⟨q, sub, rfl⟩ := below
      exact onWay q sub
    · rw [rest p fun q sub same => below ⟨q, sub, same⟩, directory]
  have dirs : d.makeDirectories ((Deployment.of root "").pathTo names.dropLast) = (.ok (), d₁) := by
    rw [Disk.makeDirectories_eq rooted.free (noNul_pathTo rooted.noNul (plain.of_prefix start)),
      startOf_pathTo d (plain.of_prefix start), namesOf_pathTo (plain.of_prefix start),
      Disk.makeFrom_append rooted.led rooted.directory, made]
  have clear₁ : d₁.node? (base ++ names) ≠ some .directory := by
    rwa [rest _ fun q sub same => (onWay_iff.1 sub).2 (List.append_cancel_left same).symm]
  have led : d₁.walk (d₁.startOf ((Deployment.of root "").pathTo names))
      (namesOf ((Deployment.of root "").pathTo names)) = .ok (base ++ names) := by
    exact (rooted₁.walk_pathTo plain).2 ⟨rfl, fun q sub other => onWay q (onWay_iff.2 ⟨sub, other⟩)⟩
  obtain ⟨shown, opened⟩ := opened_pathTo root nonempty plain
  have wrote := Disk.write_eq rooted₁.free (noNul_pathTo rooted.noNul plain) shown opened led clear₁
    contents
  refine ⟨d₁.put (base ++ names) (.file contents), ?_, ?_, fun r => ?_⟩
  · simp [Deployment.writeFile, Disk.system, dirs, wrote, StateT.run, bind, StateT.bind]
  · refine rooted₁.of_keeps rfl rfl fun p directory => ?_
    have other : p ≠ base ++ names := by
      rintro rfl
      exact clear₁ directory
    by_cases top : p = [] <;> simp [Disk.node?_put, top, other, directory]
  · simp only [Disk.node?_put, List.append_cancel_left_eq]
    by_cases here : r = names
    · simp [here, nonempty]
    by_cases sub : r <+: names
    · simp [here, sub, onWay r (onWay_iff.2 ⟨sub, here⟩)]
    · have apart (q : List String) (start : q <+: names.dropLast) : base ++ r ≠ base ++ q := by
        intro same
        exact sub (List.append_cancel_left same ▸ (onWay_iff.1 start).1)
      have below : r ≠ [] := by
        rintro rfl
        exact sub (List.nil_prefix)
      simp [here, sub, below, rest _ apart]

end Rooted

end PageBundle.Store
