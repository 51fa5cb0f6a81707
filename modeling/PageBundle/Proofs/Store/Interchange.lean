import PageBundle.Proofs.Store.Placement
import PageBundle.Store.Memory

/-!
# Stores in files and in memory are interchangeable

On a disk without limits, a store under an empty root does what a store in memory does, as long as
no identifier is a path to another. The memory says what each file holds (`Mirrors`), and the
directories lie on the way to identifiers in use, so none of them takes the place of a file. Each
call keeps this (`Mirrors.step`), so after any calls both stores have answered alike and hold the
same (`stores_interchangeable`).
-/

namespace PageBundle.Store

open File (Disk Place namesOf)

/-- A call of a store. -/
inductive Call where
  | read (id : String)
  | write (id : String) (contents : Bytes)
  | contains (id : String)

/-- What a call that succeeds answers. -/
inductive Reply where
  | contents (bs : Bytes)
  | done
  | found (yes : Bool)
  deriving DecidableEq

/-- The identifier a call is about. -/
def Call.id : Call → String
  | .read id | .write id _ | .contains id => id

/-- Makes a call; nothing is answered where it fails. -/
def Call.run {m : Type → Type} [Monad m] (store : Store m) : Call → m (Option Reply)
  | .read id => return (← store.read id).toOption.map .contents
  | .write id contents => return (← store.write id contents).toOption.map fun _ => .done
  | .contains id => return (← store.contains id).toOption.map .found

/-- Makes calls one after another. -/
def Call.runAll {m : Type → Type} [Monad m] (store : Store m) (calls : List Call) :
    m (List (Option Reply)) :=
  calls.mapM (Call.run store)

/-- The store in the files under a root, without a context path. -/
def filesUnder (root : String) : Store (StateM Disk) :=
  (Deployment.of root "").store Disk.system

/-- No identifier is a path to another. -/
def Apart (ids : List String) : Prop :=
  ∀ a ∈ ids, ∀ b ∈ ids, namesOf a <+: namesOf b → a = b

/-- Below the root are the files that the memory holds, at identifiers in use, and the directories
that lead to them. -/
structure Mirrors (base : Place) (used : List String) (d : Disk) (s : Memory) : Prop where
  files : ∀ id, IsIdentifier id → ∀ contents,
    d.node? (base ++ namesOf id) = some (.file contents) ↔ s.get? id = some contents
  /-- A file is at an identifier in use. -/
  placed : ∀ r contents, d.node? (base ++ r) = some (.file contents) → ∃ id ∈ used, namesOf id = r
  /-- A directory is on the way to an identifier in use. -/
  onWay : ∀ r, r ≠ [] → d.node? (base ++ r) = some .directory →
    ∃ id ∈ used, r <+: namesOf id ∧ r ≠ namesOf id
  /-- Directories lead to what is there. -/
  tree : ∀ r node, d.node? (base ++ r) = some node → ∀ q, q <+: r → q ≠ r →
    d.node? (base ++ q) = some .directory
  writable : s.readOnly = false

theorem resolve_of_isIdentifier {id : String} (identifier : IsIdentifier id) (root : String) :
    (Deployment.of root "").resolve id = .ok (namesOf id) :=
  Deployment.resolve_of_written identifier.nonempty (fun name mem => (identifier.plain name mem).1)
    ((Deployment.withoutContext_of_append rfl).trans identifier.spelled)

theorem run_bind_pure {σ α β : Type} (x : StateM σ α) (f : α → β) (s : σ) :
    (do return f (← x)).run s = (f (x.run s).1, (x.run s).2) := rfl

section Files

variable {d : Disk} {root id : String}

theorem run_read (identifier : IsIdentifier id) : ((filesUnder root).read id).run d =
    ((d.read ((Deployment.of root "").pathTo (namesOf id))).mapError (.read id), d) := by
  simp only [filesUnder, Deployment.store, resolve_of_isIdentifier identifier]
  rw [run_bind_pure]
  rfl

theorem run_contains (identifier : IsIdentifier id) : ((filesUnder root).contains id).run d =
    (.ok (d.isFile ((Deployment.of root "").pathTo (namesOf id))), d) := by
  simp only [filesUnder, Deployment.store, resolve_of_isIdentifier identifier]
  rw [run_bind_pure]
  rfl

theorem run_write (identifier : IsIdentifier id) {contents : Bytes} {d' : Disk}
    (wrote : ((Deployment.of root "").writeFile Disk.system (namesOf id) contents).run d =
      (.ok (), d')) :
    ((filesUnder root).write id contents).run d = (.ok (), d') := by
  simp only [filesUnder, Deployment.store, resolve_of_isIdentifier identifier]
  rw [run_bind_pure, wrote]
  rfl

end Files

theorem get?_write {s : Memory} (writable : s.readOnly = false) (id other : String)
    (contents : Bytes) : (s.write id contents).2.get? other =
      if other = id then some contents else s.get? other := by
  have wrote : (s.write id contents).2.get? other = (s.insert id contents).get? other := by
    simp [Memory.write, writable, Memory.get?]
  rw [wrote]
  split
  next same => rw [same, Memory.get?_insert_self]
  next apart => exact Memory.get?_insert_of_ne s contents apart

theorem toOption_eq_some_iff {ε α : Type} {x : Except ε α} {a : α} :
    x.toOption = some a ↔ x = .ok a := by
  cases x <;> simp [Except.toOption]

theorem toOption_mapError {ε ε' α : Type} (f : ε → ε') (x : Except ε α) :
    (x.mapError f).toOption = x.toOption := by
  cases x <;> rfl

theorem run_runAll_cons {σ : Type} {store : Store (StateM σ)} {call : Call} {calls : List Call}
    {s s' s'' : σ} {reply : Option Reply} {replies : List (Option Reply)}
    (first : (call.run store).run s = (reply, s'))
    (rest : (Call.runAll store calls).run s' = (replies, s'')) :
    (Call.runAll store (call :: calls)).run s = (reply :: replies, s'') := by
  rw [Call.runAll] at rest
  rw [Call.runAll, List.mapM_cons, StateT.run_bind, first]
  exact (run_bind_pure _ _ s').trans (by rw [rest])

namespace Mirrors

variable {d : Disk} {s : Memory} {root id : String} {base : Place} {used : List String}

/-- **A file is read where the memory holds a resource**, with the same contents. -/
theorem read_eq (mirrors : Mirrors base used d s) (rooted : Rooted d root base)
    (identifier : IsIdentifier id) :
    (d.read ((Deployment.of root "").pathTo (namesOf id))).toOption = s.get? id := by
  refine Option.ext fun contents => ?_
  rw [← mirrors.files id identifier contents, toOption_eq_some_iff,
    rooted.read_eq_ok_iff identifier.nonempty identifier.plain]
  exact ⟨And.left, fun file => ⟨file, mirrors.tree _ _ file⟩⟩

theorem isFile_eq (mirrors : Mirrors base used d s) (rooted : Rooted d root base)
    (identifier : IsIdentifier id) :
    d.isFile ((Deployment.of root "").pathTo (namesOf id)) = (s.get? id).isSome := by
  rw [← mirrors.read_eq rooted identifier, Disk.isFile]
  cases d.read ((Deployment.of root "").pathTo (namesOf id)) <;> rfl

/-- An empty root and an empty memory hold the same. -/
theorem of_empty (rooted : Rooted d root base)
    (empty : ∀ r, r ≠ [] → d.node? (base ++ r) = none) : Mirrors base used d {} := by
  have top (r : List String) {node : File.Node} (there : d.node? (base ++ r) = some node) :
      r = [] := by
    by_contra below
    simp [empty r below] at there
  refine ⟨fun id identifier contents => ?_, fun r contents there => ?_, fun r below there => ?_,
    fun r node there q start other => ?_, rfl⟩
  · simp [empty _ identifier.nonempty, Memory.get?]
  · obtain rfl := top r there
    simp [rooted.directory] at there
  · exact absurd (top r there) below
  · obtain rfl := top r there
    exact absurd (List.prefix_nil.1 start) other

/-- A reading leaves everything as it is. -/
theorem read (mirrors : Mirrors base used d s) (id : String) : Mirrors base used d (s.read id).2 :=
  ⟨mirrors.files, mirrors.placed, mirrors.onWay, mirrors.tree, mirrors.writable⟩

section Write

variable (mirrors : Mirrors base used d s) (ids : ∀ id ∈ used, IsIdentifier id)
  (apart : Apart used) (known : id ∈ used)
include mirrors ids apart known

/-- Nothing is at an extension of an identifier in use. -/
theorem not_below {r : List String} (start : namesOf id <+: r) (other : namesOf id ≠ r) :
    d.node? (base ++ r) = none := by
  by_contra there
  obtain ⟨node, there⟩ := Option.ne_none_iff_exists'.1 there
  cases node with
  | file contents =>
    obtain ⟨id', known', rfl⟩ := mirrors.placed r contents there
    exact other (congrArg namesOf (apart id known id' known' start))
  | directory =>
    have below : r ≠ [] := by
      rintro rfl
      exact (ids id known).nonempty (List.prefix_nil.1 start)
    obtain ⟨id', known', onWay, longer⟩ := mirrors.onWay r below there
    obtain rfl := apart id known id' known' (start.trans onWay)
    exact longer (onWay.eq_of_length_le start.length_le)

/-- No file is on the way to an identifier in use, and no directory at its place. -/
theorem clear : (∀ q, q <+: namesOf id → q ≠ namesOf id →
      ∀ contents, d.node? (base ++ q) ≠ some (.file contents)) ∧
    d.node? (base ++ namesOf id) ≠ some .directory := by
  constructor
  · intro q start other contents there
    obtain ⟨id', known', rfl⟩ := mirrors.placed q contents there
    exact other (congrArg namesOf (apart id' known' id known start))
  · intro there
    obtain ⟨id', known', start, other⟩ := mirrors.onWay _ (ids id known).nonempty there
    exact other (congrArg namesOf (apart id known id' known' start))

/-- **A writing keeps both alike.** -/
theorem write {d' : Disk} {contents : Bytes} (after : ∀ r, d'.node? (base ++ r) =
      if r = namesOf id then some (.file contents) else if r <+: namesOf id then some .directory
        else d.node? (base ++ r)) :
    Mirrors base used d' (s.write id contents).2 := by
  refine ⟨fun id' identifier contents' => ?_, fun r contents' there => ?_,
    fun r below there => ?_, fun r node there q start other => ?_, ?_⟩
  · rw [after, get?_write mirrors.writable]
    by_cases here : namesOf id' = namesOf id
    · obtain rfl := identifier.eq_of_namesOf (ids id known) here
      simp
    have other : id' ≠ id := fun same => here (congrArg namesOf same)
    rw [if_neg here, if_neg other]
    by_cases start : namesOf id' <+: namesOf id
    · rw [if_pos start, ← mirrors.files id' identifier]
      have clear := (mirrors.clear ids apart known).1 _ start here contents'
      simp [clear]
    · rw [if_neg start]
      exact mirrors.files id' identifier contents'
  · rw [after] at there
    split at there
    next here => exact ⟨id, known, here.symm⟩
    next =>
      split at there
      next => cases there
      next => exact mirrors.placed r contents' there
  · rw [after] at there
    split at there
    next => cases there
    next other =>
      split at there
      next start => exact ⟨id, known, start, other⟩
      next => exact mirrors.onWay r below there
  · rw [after] at there ⊢
    by_cases here : q = namesOf id
    · -- Below an identifier in use there was nothing, and nothing is made there.
      subst here
      have longer : ¬ r <+: namesOf id := fun back =>
        other (start.eq_of_length_le back.length_le)
      rw [if_neg (Ne.symm other), if_neg longer,
        mirrors.not_below ids apart known start other] at there
      cases there
    rw [if_neg here]
    by_cases sub : q <+: namesOf id
    · rw [if_pos sub]
    · have away : r ≠ namesOf id := fun same => sub (same ▸ start)
      rw [if_neg away, if_neg fun back => sub (start.trans back)] at there
      rw [if_neg sub]
      exact mirrors.tree r node there q start other
  · simp [Memory.write, Memory.insert, mirrors.writable]

end Write

/-- **A call is answered alike** and keeps both alike. -/
theorem step (mirrors : Mirrors base used d s) (rooted : Rooted d root base)
    (ids : ∀ id ∈ used, IsIdentifier id) (apart : Apart used) (call : Call)
    (known : call.id ∈ used) :
    ∃ reply d' s', (call.run (filesUnder root)).run d = (reply, d') ∧
      (call.run Memory.store).run s = (reply, s') ∧ Rooted d' root base ∧
        Mirrors base used d' s' := by
  cases call with
  | read id =>
    have identifier : IsIdentifier id := ids id known
    refine ⟨(s.get? id).map .contents, d, (s.read id).2, ?_, ?_, rooted, mirrors.read id⟩
    · rw [← mirrors.read_eq rooted identifier, Call.run, run_bind_pure, run_read identifier,
        toOption_mapError]
    · rw [Call.run, run_bind_pure]
      cases held : s.get? id <;> simp [Memory.store, Memory.read, held, StateT.run, Except.toOption]
  | write id contents =>
    have identifier : IsIdentifier id := ids id known
    have known : id ∈ used := known
    obtain ⟨way, clear⟩ := mirrors.clear ids apart known
    obtain ⟨d', wrote, rooted', after⟩ :=
      rooted.exists_writeFile identifier.nonempty identifier.plain contents way clear
    refine ⟨some .done, d', (s.write id contents).2, ?_, ?_, rooted',
      mirrors.write ids apart known after⟩
    · rw [Call.run, run_bind_pure, run_write identifier wrote]
      rfl
    · rw [Call.run, run_bind_pure]
      simp [Memory.store, Memory.write, mirrors.writable, StateT.run, Except.toOption]
  | contains id =>
    have identifier : IsIdentifier id := ids id known
    refine ⟨some (.found (s.get? id).isSome), d, s, ?_, ?_, rooted, mirrors⟩
    · rw [← mirrors.isFile_eq rooted identifier, Call.run, run_bind_pure, run_contains identifier]
      rfl
    · rw [Memory.get?, ← Table.contains_iff_isSome]
      rfl

/-- **Calls are answered alike** and keep both alike. -/
theorem run (mirrors : Mirrors base used d s) (rooted : Rooted d root base)
    (ids : ∀ id ∈ used, IsIdentifier id) (apart : Apart used) {calls : List Call}
    (known : ∀ call ∈ calls, call.id ∈ used) :
    ∃ replies d' s', (Call.runAll (filesUnder root) calls).run d = (replies, d') ∧
      (Call.runAll Memory.store calls).run s = (replies, s') ∧
        Rooted d' root base ∧ Mirrors base used d' s' := by
  induction calls generalizing d s with
  | nil => exact ⟨[], d, s, rfl, rfl, rooted, mirrors⟩
  | cons call calls ih =>
    obtain ⟨here, later⟩ := List.forall_mem_cons.1 known
    obtain ⟨reply, d₁, s₁, ranFiles, ranMemory, rooted₁, mirrors₁⟩ :=
      mirrors.step rooted ids apart call here
    obtain ⟨replies, d', s', restFiles, restMemory, rooted', mirrors'⟩ :=
      ih mirrors₁ rooted₁ later
    refine ⟨reply :: replies, d', s', ?_, ?_, rooted', mirrors'⟩
    · exact run_runAll_cons ranFiles restFiles
    · exact run_runAll_cons ranMemory restMemory

end Mirrors

/-- **Stores in files and in memory are interchangeable.** On a disk without limits, let the root
be an empty directory, and let no identifier be a path to another. Then any calls are answered alike
by the store under the root and by an empty store in memory, and afterwards both hold the same
contents under every identifier. -/
theorem stores_interchangeable {d : Disk} {root : String} {base : Place} {calls : List Call}
    (rooted : Rooted d root base) (empty : ∀ r, r ≠ [] → d.node? (base ++ r) = none)
    (ids : ∀ call ∈ calls, IsIdentifier call.id) (apart : Apart (calls.map Call.id)) :
    let files := (Call.runAll (filesUnder root) calls).run d
    let memory := (Call.runAll Memory.store calls).run {}
    files.1 = memory.1 ∧ ∀ id, IsIdentifier id →
      (((filesUnder root).read id).run files.2).1.toOption = memory.2.get? id := by
  intro files memory
  have used : ∀ id ∈ calls.map Call.id, IsIdentifier id := by simpa using ids
  have known : ∀ call ∈ calls, call.id ∈ calls.map Call.id :=
    fun call mem => List.mem_map_of_mem mem
  obtain ⟨replies, d', s', ranFiles, ranMemory, rooted', mirrors⟩ :=
    (Mirrors.of_empty rooted empty).run rooted used apart known
  have ranFiles : files = (replies, d') := ranFiles
  have ranMemory : memory = (replies, s') := ranMemory
  rw [ranFiles, ranMemory]
  refine ⟨rfl, fun id identifier => ?_⟩
  rw [run_read identifier, toOption_mapError]
  exact mirrors.read_eq rooted' identifier

/-- A script is written and read back, and another one is missing. -/
theorem stores_interchangeable_script :
    let d : Disk := { nodes := .ofList [(["srv"], .directory)], limits := ⟨none, none⟩ }
    let calls : List Call :=
      [.contains "/js/a.js", .write "/js/a.js" [1], .read "/js/a.js", .read "/b.js"]
    let files := (Call.runAll (filesUnder "/srv") calls).run d
    Rooted d "/srv" ["srv"] ∧ (∀ r, r ≠ [] → d.node? (["srv"] ++ r) = none) ∧
      (∀ call ∈ calls, IsIdentifier call.id) ∧ Apart (calls.map Call.id) ∧
        files.1 = [some (.found false), some .done, some (.contents [1]), none] := by
  intro d calls files
  have rooted : Rooted d "/srv" ["srv"] :=
    ⟨rfl, by decide, by decide +kernel, by decide +kernel⟩
  have empty : ∀ r, r ≠ [] → d.node? (["srv"] ++ r) = none := by
    intro r below
    obtain ⟨name, rest, rfl⟩ := List.exists_cons_of_ne_nil below
    rfl
  have ids : ∀ call ∈ calls, IsIdentifier call.id := by decide +kernel
  have apart : Apart (calls.map Call.id) := by
    unfold Apart
    decide +kernel
  refine ⟨rooted, empty, ids, apart, ?_⟩
  exact (stores_interchangeable rooted empty ids apart).1.trans (by decide +kernel)

end PageBundle.Store
