import PageBundle.Store.Memory

/-!
# What reading and writing leave alone

Reading leaves all files of a memory as they are (`SameFiles`). A writing at a path leaves all other
files as they are and takes none away (`ChangedAt`); if it is refused, it leaves this one as well.
Both hold of any number of readings, or of writings at one path, one after another.
-/

namespace PageBundle.Store.Memory

variable {path : String} {s t u : Memory}

/-- The files are the same, and writings are taken alike. -/
structure SameFiles (s t : Memory) : Prop where
  resources : t.resources = s.resources
  readOnly : t.readOnly = s.readOnly

/-- All files but the one at `path` are the same, and writings are taken alike. -/
structure ChangedAt (path : String) (s t : Memory) : Prop where
  elsewhere : ∀ other, other ≠ path → t.get? other = s.get? other
  /-- The file may change, and there may be a new one, but it is not taken away. -/
  present : (s.get? path).isSome → (t.get? path).isSome
  readOnly : t.readOnly = s.readOnly

namespace SameFiles

theorem refl (s : Memory) : SameFiles s s :=
  ⟨rfl, rfl⟩

theorem trans (first : SameFiles s t) (second : SameFiles t u) : SameFiles s u :=
  ⟨second.resources.trans first.resources, second.readOnly.trans first.readOnly⟩

theorem get? (same : SameFiles s t) (path : String) : t.get? path = s.get? path := by
  rw [Memory.get?, same.resources]
  rfl

theorem changedAt (same : SameFiles s t) (path : String) : ChangedAt path s t := by
  refine ⟨fun other _ => same.get? other, ?_, same.readOnly⟩
  intro here
  rwa [same.get? path]

end SameFiles

namespace ChangedAt

theorem trans (first : ChangedAt path s t) (second : ChangedAt path t u) : ChangedAt path s u := by
  constructor
  · intro other apart
    exact (second.elsewhere other apart).trans (first.elsewhere other apart)
  · intro here
    exact second.present (first.present here)
  · exact second.readOnly.trans first.readOnly

/-- No file is taken away. -/
theorem isSome_get? (changed : ChangedAt path s t) {other : String}
    (here : (s.get? other).isSome) : (t.get? other).isSome := by
  by_cases same : other = path
  · subst same
    exact changed.present here
  · rwa [changed.elsewhere other same]

end ChangedAt

theorem sameFiles_read (s : Memory) (path : String) : SameFiles s (s.read path).2 :=
  ⟨rfl, rfl⟩

/-- What is read is the file that is there. -/
theorem get?_of_read {contents : Bytes} (succeeded : (s.read path).1 = .ok contents) :
    s.get? path = some contents := by
  rw [read] at succeeded
  cases found : s.get? path with
  | none => simp [found] at succeeded
  | some bs => simpa [found] using succeeded

/-- A memory that refuses writings is left as it is. -/
theorem write_of_readOnly (contents : Bytes) (refuses : s.readOnly = true) :
    s.write path contents = (.error (.write path .readOnly), s) := by
  rw [write, if_pos refuses]

theorem write_of_writable (contents : Bytes) (takes : s.readOnly = false) :
    s.write path contents = (.ok (), { s.insert path contents with writes := s.writes + 1 }) := by
  rw [write, takes]
  rfl

theorem get?_write_self (contents : Bytes) (takes : s.readOnly = false) :
    (s.write path contents).2.get? path = some contents := by
  rw [write_of_writable contents takes]
  exact s.get?_insert_self path contents

theorem changedAt_write (s : Memory) (path : String) (contents : Bytes) :
    ChangedAt path s (s.write path contents).2 := by
  cases takes : s.readOnly with
  | true =>
    rw [write_of_readOnly contents takes]
    exact (SameFiles.refl s).changedAt path
  | false =>
    constructor
    · intro other apart
      rw [write_of_writable contents takes]
      exact s.get?_insert_of_ne contents apart
    · intro _
      rw [get?_write_self contents takes]
      rfl
    · rw [write_of_writable contents takes]
      rfl

/-- A writing that is refused changes nothing. -/
theorem write_of_error {contents : Bytes} {e : Error}
    (failed : (s.write path contents).1 = .error e) : (s.write path contents).2 = s := by
  cases takes : s.readOnly with
  | true => rw [write_of_readOnly contents takes]
  | false =>
    rw [write_of_writable contents takes] at failed
    cases failed

theorem sameFiles_readText (s : Memory) (charset : Charset) (path : String) :
    SameFiles s ((store.readText charset path).run s).2 :=
  sameFiles_read s path

end PageBundle.Store.Memory
