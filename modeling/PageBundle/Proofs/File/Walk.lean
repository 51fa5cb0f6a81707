import PageBundle.Proofs.File.Names

/-!
# Walks on a disk

A walk along names that only lead onward ends at the place that they spell, if every place before it
is a directory (`walk_eq_ok_iff`). It goes the same way as long as directories stay what they are
(`walk_of_keeps`). Making directories along such names puts directories on the way and changes
nothing else (`exists_makeFrom`). Reading, writing and making directories under a path follow from
the walk along its names. Here nothing limits the length of names and paths.
-/

namespace PageBundle.File

/-- A name leads into the directory it is looked up in. -/
def IsOnward (name : String) : Prop := name ≠ "." ∧ name ≠ ".."

theorem step_of_isOnward {name : String} (onward : IsOnward name) (here : Place) :
    step here name = here ++ [name] := by
  simp [step, onward.1, onward.2]

namespace Disk

/-- Nothing limits the length of names and paths. -/
def Unlimited (d : Disk) : Prop := d.limits = ⟨none, none⟩

/-- Where a path begins on a disk. -/
def startOf (d : Disk) (path : String) : Place :=
  if path.toList.head? == some '/' then [] else d.workingDirectory

section Put

variable (d : Disk) (place : Place) (node : Node)

@[simp] theorem node?_top : d.node? [] = some .directory := rfl

theorem node?_put (p : Place) : (d.put place node).node? p =
    if p = [] then some .directory else if p = place then some node else d.node? p := by
  by_cases top : p = []
  · simp [top]
  by_cases here : p = place
  · subst here
    simp [node?, put, top, Table.get?_insert_self]
  · have other : (d.nodes.insert place node).get? p = d.nodes.get? p :=
      Table.get?_insert_of_ne _ _ (by simpa using here) fun q same => by
        rw [← beq_iff_eq.1 same]
        exact beq_false_of_ne (Ne.symm here)
    simp [node?, put, top, here, other]

end Put

section Walk

variable {d : Disk} {here there : Place} {name : String} {names : List String}

theorem directory_of_enter (entered : d.enter here name = .ok there) :
    d.node? here = some .directory := by
  unfold enter at entered
  split at entered
  next => cases entered
  next => cases entered
  next directory => exact directory

theorem enter_eq_ok_iff (free : d.Unlimited) :
    d.enter here name = .ok there ↔ d.node? here = some .directory ∧ step here name = there := by
  rw [Unlimited] at free
  unfold enter
  split <;> simp_all [exceeds]

theorem walk_nil : d.walk here [] = .ok here := rfl

theorem walk_cons_eq_ok_iff : d.walk here (name :: names) = .ok there ↔
    ∃ next, d.enter here name = .ok next ∧ d.walk next names = .ok there := by
  rw [walk, List.foldlM_cons]
  cases d.enter here name with
  | error => simp [bind, Except.bind]
  | ok next => simp [bind, Except.bind, walk]

theorem walk_append_eq_ok_iff {front : List String} : d.walk here (front ++ names) = .ok there ↔
    ∃ next, d.walk here front = .ok next ∧ d.walk next names = .ok there := by
  rw [walk, List.foldlM_append]
  cases led : d.walk here front with
  | error => rw [walk] at led; simp [led, bind, Except.bind]
  | ok next => rw [walk] at led; simp [led, bind, Except.bind, walk]

/-- A walk to a directory begins at one. -/
theorem directory_of_walk (led : d.walk here names = .ok there)
    (directory : d.node? there = some .directory) : d.node? here = some .directory := by
  cases names with
  | nil =>
    obtain rfl : here = there := by simpa [walk_nil] using led
    exact directory
  | cons name names =>
    obtain ⟨next, entered, -⟩ := walk_cons_eq_ok_iff.1 led
    exact directory_of_enter entered

/-- **Names that lead onward lead to the place they spell**, through directories. -/
theorem walk_eq_ok_iff (free : d.Unlimited) (onward : ∀ name ∈ names, IsOnward name) :
    d.walk here names = .ok there ↔ here ++ names = there ∧
      ∀ q, q <+: names → q ≠ names → d.node? (here ++ q) = some .directory := by
  induction names generalizing here with
  | nil =>
    have none (q : List String) (start : q <+: []) : q = [] := List.prefix_nil.1 start
    simp +contextual [walk_nil, none]
  | cons name names ih =>
    obtain ⟨first, later⟩ := List.forall_mem_cons.1 onward
    simp only [walk_cons_eq_ok_iff, enter_eq_ok_iff free, step_of_isOnward first]
    constructor
    · rintro ⟨next, ⟨directory, rfl⟩, led⟩
      obtain ⟨rfl, onWay⟩ := (ih later).1 led
      refine ⟨by simp, fun q start other => ?_⟩
      rcases List.prefix_cons_iff.1 start with rfl | ⟨r, rfl, start⟩
      · simpa using directory
      · simpa using onWay r (by simpa using start) (by simpa using other)
    · rintro ⟨rfl, onWay⟩
      refine ⟨here ++ [name], ⟨by simpa using onWay [] (by simp) (by simp), rfl⟩, ?_⟩
      refine (ih later).2 ⟨by simp, fun q start other => ?_⟩
      simpa using onWay (name :: q) (by simpa using start) (by simpa using other)

/-- A walk is not disturbed as long as directories stay what they are. -/
theorem walk_of_keeps {d' : Disk} (same : d'.limits = d.limits)
    (keeps : ∀ p, d.node? p = some .directory → d'.node? p = some .directory)
    (led : d.walk here names = .ok there) : d'.walk here names = .ok there := by
  induction names generalizing here with
  | nil => exact led
  | cons name names ih =>
    obtain ⟨next, entered, led⟩ := walk_cons_eq_ok_iff.1 led
    refine walk_cons_eq_ok_iff.2 ⟨next, ?_, ih led⟩
    have directory := directory_of_enter entered
    simpa [enter, directory, keeps here directory, same] using entered

/-- Along a walk to a directory there is nothing to make. -/
theorem makeFrom_append {front : List String} (led : d.walk here front = .ok there)
    (directory : d.node? there = some .directory) :
    d.makeFrom here (front ++ names) = d.makeFrom there names := by
  induction front generalizing here with
  | nil =>
    obtain rfl : here = there := by simpa [walk_nil] using led
    rfl
  | cons name front ih =>
    obtain ⟨next, entered, led⟩ := walk_cons_eq_ok_iff.1 led
    rw [List.cons_append, makeFrom, entered]
    simp only [directory_of_walk led directory]
    exact ih led

/-- Where no file is, making a directory leads into it and changes nothing else. -/
theorem exists_makeFrom_cons (free : d.Unlimited) (onward : IsOnward name)
    (directory : d.node? here = some .directory)
    (clear : ∀ contents, d.node? (here ++ [name]) ≠ some (.file contents)) :
    ∃ d' : Disk, (∀ names, d.makeFrom here (name :: names) = d'.makeFrom (here ++ [name]) names) ∧
      d'.limits = d.limits ∧ d'.workingDirectory = d.workingDirectory ∧
      d'.node? (here ++ [name]) = some .directory ∧
      ∀ p, p ≠ here ++ [name] → d'.node? p = d.node? p := by
  have entered : d.enter here name = .ok (here ++ [name]) :=
    (enter_eq_ok_iff free).2 ⟨directory, step_of_isOnward onward here⟩
  cases there : d.node? (here ++ [name]) with
  | none =>
    refine ⟨d.put (here ++ [name]) .directory, fun names => ?_, rfl, rfl, ?_, fun p other => ?_⟩
    · simp [makeFrom, entered, there]
    · simp [node?_put]
    · by_cases top : p = [] <;> simp [node?_put, other, top]
  | some node =>
    cases node with
    | file contents => exact absurd there (clear contents)
    | directory =>
      refine ⟨d, fun names => ?_, rfl, rfl, there, fun _ _ => rfl⟩
      simp [makeFrom, entered, there]

/-- **Making directories puts directories on the way**, where no file is, and changes nothing
else. -/
theorem exists_makeFrom (free : d.Unlimited) (onward : ∀ name ∈ names, IsOnward name)
    (directory : d.node? here = some .directory)
    (clear : ∀ q, q <+: names → ∀ contents, d.node? (here ++ q) ≠ some (.file contents)) :
    ∃ d', d.makeFrom here names = (.ok (), d') ∧ d'.limits = d.limits ∧
      d'.workingDirectory = d.workingDirectory ∧
      (∀ q, q <+: names → d'.node? (here ++ q) = some .directory) ∧
      ∀ p, (∀ q, q <+: names → p ≠ here ++ q) → d'.node? p = d.node? p := by
  induction names generalizing d here with
  | nil =>
    refine ⟨d, rfl, rfl, rfl, fun q start => ?_, fun _ _ => rfl⟩
    rw [List.prefix_nil.1 start, List.append_nil]
    exact directory
  | cons name names ih =>
    obtain ⟨first, later⟩ := List.forall_mem_cons.1 onward
    obtain ⟨d₁, made, limits, workingDirectory, there, others⟩ :=
      exists_makeFrom_cons free first directory (clear [name] (by simp))
    have clear₁ (q : List String) (start : q <+: names) (contents : Bytes) :
        d₁.node? (here ++ [name] ++ q) ≠ some (.file contents) := by
      cases q with
      | nil => simp [there]
      | cons r q =>
        rw [others _ (by simp), List.append_assoc]
        exact clear (name :: r :: q) (by simpa using start) contents
    obtain ⟨d', made', limits', workingDirectory', onWay, rest⟩ :=
      ih (limits.trans free) later there clear₁
    refine ⟨d', (made names).trans made', limits'.trans limits,
      workingDirectory'.trans workingDirectory, fun q start => ?_, fun p apart => ?_⟩
    · rcases List.prefix_cons_iff.1 start with rfl | ⟨r, rfl, start⟩
      · rw [List.append_nil, rest here (by simp), others here (by simp)]
        exact directory
      · simpa using onWay r (by simpa using start)
    · have away (q : List String) (start : q <+: names) : p ≠ here ++ [name] ++ q := by
        simpa using apart (name :: q) (by simpa using start)
      rw [rest p away, others p (by simpa using away [] (by simp))]

end Walk

/-! ## Paths -/

section Path

variable {d : Disk} {path : String} {place : Place}

theorem ofString_eq (free : d.Unlimited) (noNul : '\x00' ∉ path.toList) (nonempty : path ≠ "") :
    Path.ofString d.limits path =
      .ok ⟨path.toList.head? == some '/', namesOf path, path.toList.getLast? == some '/'⟩ := by
  rw [Unlimited] at free
  simp [Path.ofString, noNul, nonempty, free, exceeds]

variable (free : d.Unlimited) (noNul : '\x00' ∉ path.toList)
include free noNul

/-- Making a directory makes those on the way from where its path begins. -/
theorem makeDirectories_eq :
    d.makeDirectories path = d.makeFrom (d.startOf path) (namesOf path) := by
  by_cases blank : path = ""
  · subst blank
    rfl
  · simp [makeDirectories, blank, ofString_eq free noNul blank, Path.start, startOf]

variable (nonempty : path ≠ "") (opened : path.toList.getLast? ≠ some '/')
include nonempty opened

/-- A file is read at the place to which the names of its path lead. -/
theorem read_eq_ok_iff {contents : Bytes} : d.read path = .ok contents ↔
    ∃ place, d.walk (d.startOf path) (namesOf path) = .ok place ∧
      d.node? place = some (.file contents) := by
  have located : d.locate path = d.walk (d.startOf path) (namesOf path) := by
    simp [locate, ofString_eq free noNul nonempty, Path.start, startOf, opened, bind, Except.bind]
  rw [read, located]
  cases d.walk (d.startOf path) (namesOf path) with
  | error => simp [bind, Except.bind]
  | ok place =>
    cases there : d.node? place with
    | none => simp [bind, Except.bind, there]
    | some node => cases node <;> simp [bind, Except.bind, there]

/-- A file is put where the names of its path lead, unless a directory is there. -/
theorem write_eq (led : d.walk (d.startOf path) (namesOf path) = .ok place)
    (clear : d.node? place ≠ some .directory) (contents : Bytes) :
    d.write path contents = (.ok (), d.put place (.file contents)) := by
  have target : d.target path = .ok place := by
    simp only [startOf, beq_iff_eq] at led
    simp only [Disk.target, ofString_eq free noNul nonempty, Path.start, bind, Except.bind,
      beq_iff_eq, opened, if_false, led]
  rw [write, target]

end Path

end Disk

end PageBundle.File
