import PageBundle.Proofs.Cache.Stored
import Mathlib.Logic.Function.Basic

/-!
# Callers of a build-once map at the same time

Many callers ask a build-once map for values, and what they do is interleaved in any way. The map
is an index of cells. A caller looks its key up in the index; if there is no cell, it comes back to
put one there, unless another caller was faster. It reads the cell, and if that has no value, it
waits to enter the cell, which one caller at a time may do to run its build. A build that succeeds
fills the cell; one that fails leaves it vacant for the next caller that waits.

`Stepped` says all that a step of one caller can do. `Coherent` ties the index, the cells and the
callers together; every step keeps it, and under it no cell is replaced and no value is lost.
-/

namespace PageBundle

deriving instance DecidableEq for Lookup

namespace BuildOnce

variable {ι κ ν ε : Type}

/-- What a caller asks for, and what its own build would give. -/
structure Call (κ ν ε : Type) where
  key : κ
  build : Except ε ν

/-- A place for the value of a key. -/
inductive Cell (ν : Type) where
  | vacant
  /-- A caller runs its build. -/
  | building
  | filled (value : ν)
  deriving DecidableEq

/-- The value of a cell. -/
def Cell.value? : Cell ν → Option ν
  | .vacant => none
  | .building => none
  | .filled value => some value

theorem Cell.value?_eq_some_iff {cell : Cell ν} {value : ν} :
    cell.value? = some value ↔ cell = .filled value := by
  cases cell <;> simp [value?]

/-- How far a caller has come. -/
inductive Phase (ν ε : Type) where
  /-- It has done nothing yet. -/
  | called
  /-- The index had no cell for its key. -/
  | missed
  /-- It has the cell of its key. -/
  | arrived (cell : Nat)
  /-- It read that the cell has no value and waits to enter it. -/
  | waiting (cell : Nat)
  /-- It runs its build in the cell. -/
  | building (cell : Nat)
  /-- It is about to return the value of the cell, which it may have built. -/
  | leaving (cell : Nat) (built : Bool)
  | done (answer : Lookup ν (Except ε ν))
  deriving DecidableEq

namespace Phase

/-- The cell that a caller has. -/
def cell? : Phase ν ε → Option Nat
  | .called => none
  | .missed => none
  | .arrived c => some c
  | .waiting c => some c
  | .building c => some c
  | .leaving c _ => some c
  | .done _ => none

/-- Whether the caller's build succeeded. -/
def succeeded : Phase ν ε → Bool
  | .leaving _ built => built
  | .done (.ran (.ok _)) => true
  | _ => false

/-- Whether the state of a cell is the caller's doing: it runs its build there, or that succeeded. -/
def owns : Phase ν ε → Bool
  | .building _ => true
  | p => p.succeeded

theorem owns_of_succeeded {p : Phase ν ε} (succeeded : p.succeeded = true) : p.owns = true := by
  cases p <;> first | exact succeeded | rfl

end Phase

variable [BEq κ]

/-- What the callers of a map share, and how far each has come. -/
structure Shared (ι κ ν ε : Type) [BEq κ] where
  index : Table κ Nat := .empty
  /-- Cells from here on are not in use. -/
  fresh : Nat := 0
  cells : Nat → Cell ν := fun _ => .vacant
  phases : ι → Phase ν ε := fun _ => .called

namespace Shared

/-- The value that is stored for a key. -/
def get? (s : Shared ι κ ν ε) (key : κ) : Option ν :=
  (s.index.get? key).bind fun c => (s.cells c).value?

/-- How many keys have a value. -/
def size (s : Shared ι κ ν ε) : Nat :=
  s.index.entries.countP fun e => (s.cells e.2).value?.isSome

theorem get?_eq_some_iff {s : Shared ι κ ν ε} {key : κ} {value : ν} :
    s.get? key = some value ↔ ∃ c, s.index.get? key = some c ∧ s.cells c = .filled value := by
  simp [get?, Option.bind_eq_some_iff, Cell.value?_eq_some_iff]

section Steps

variable [DecidableEq ι]

/-- Moves a caller on. -/
def put (s : Shared ι κ ν ε) (i : ι) (p : Phase ν ε) : Shared ι κ ν ε :=
  { s with phases := Function.update s.phases i p }

/-- Moves a caller on that writes its cell. -/
def write (s : Shared ι κ ν ε) (i : ι) (c : Nat) (cell : Cell ν) (p : Phase ν ε) :
    Shared ι κ ν ε :=
  { s with cells := Function.update s.cells c cell, phases := Function.update s.phases i p }

/-- Moves a caller on that puts a new cell into the index. -/
def enlist (s : Shared ι κ ν ε) (i : ι) (key : κ) : Shared ι κ ν ε :=
  { s with
    index := s.index.insert key s.fresh
    fresh := s.fresh + 1
    phases := Function.update s.phases i (.arrived s.fresh) }

section Fields

variable (s : Shared ι κ ν ε) {i j : ι} (c : Nat) (cell : Cell ν) (key : κ) (p : Phase ν ε)

@[simp] theorem cells_put : (s.put i p).cells = s.cells := rfl

@[simp] theorem phases_put_self : (s.put i p).phases i = p := Function.update_self ..

@[simp] theorem phases_put_of_ne (other : j ≠ i) : (s.put i p).phases j = s.phases j :=
  Function.update_of_ne other ..

@[simp] theorem index_write : (s.write i c cell p).index = s.index := rfl

@[simp] theorem cells_write_self : (s.write i c cell p).cells c = cell := Function.update_self ..

@[simp] theorem cells_write_of_ne {d : Nat} (other : d ≠ c) :
    (s.write i c cell p).cells d = s.cells d :=
  Function.update_of_ne other ..

@[simp] theorem phases_write_self : (s.write i c cell p).phases i = p := Function.update_self ..

@[simp] theorem phases_write_of_ne (other : j ≠ i) :
    (s.write i c cell p).phases j = s.phases j :=
  Function.update_of_ne other ..

@[simp] theorem index_enlist : (s.enlist i key).index = s.index.insert key s.fresh := rfl

@[simp] theorem fresh_enlist : (s.enlist i key).fresh = s.fresh + 1 := rfl

@[simp] theorem cells_enlist : (s.enlist i key).cells = s.cells := rfl

@[simp] theorem phases_enlist_self : (s.enlist i key).phases i = .arrived s.fresh :=
  Function.update_self ..

@[simp] theorem phases_enlist_of_ne (other : j ≠ i) :
    (s.enlist i key).phases j = s.phases j :=
  Function.update_of_ne other ..

end Fields

/-- A step of caller `i`; a caller that waits for another one's build stays where it is. -/
def step (calls : ι → Call κ ν ε) (s : Shared ι κ ν ε) (i : ι) : Shared ι κ ν ε :=
  match s.phases i with
  | .called =>
    match s.index.get? (calls i).key with
    | some c => s.put i (.arrived c)
    | none => s.put i .missed
  | .missed =>
    match s.index.get? (calls i).key with
    | some c => s.put i (.arrived c)
    | none => s.enlist i (calls i).key
  | .arrived c =>
    match s.cells c with
    | .filled _ => s.put i (.leaving c false)
    | _ => s.put i (.waiting c)
  | .waiting c =>
    match s.cells c with
    | .vacant => s.write i c .building (.building c)
    | .building => s
    | .filled _ => s.put i (.leaving c false)
  | .building c =>
    match (calls i).build with
    | .ok value => s.write i c (.filled value) (.leaving c true)
    | .error e => s.write i c .vacant (.done (.ran (.error e)))
  | .leaving c built =>
    match s.cells c with
    | .filled value => s.put i (.done (if built then .ran (.ok value) else .cached value))
    | _ => s
  | .done _ => s

/-- The steps of callers in some order. -/
def run (s : Shared ι κ ν ε) (calls : ι → Call κ ν ε) (schedule : List ι) : Shared ι κ ν ε :=
  schedule.foldl (step calls) s

/-- What a step of a caller can do. -/
inductive Stepped (calls : ι → Call κ ν ε) (s : Shared ι κ ν ε) (i : ι) : Shared ι κ ν ε → Prop
  | found {c : Nat} (before : s.phases i = .called ∨ s.phases i = .missed)
      (indexed : s.index.get? (calls i).key = some c) : Stepped calls s i (s.put i (.arrived c))
  | missed (before : s.phases i = .called) (absent : s.index.get? (calls i).key = none) :
      Stepped calls s i (s.put i .missed)
  | enlisted (before : s.phases i = .missed) (absent : s.index.get? (calls i).key = none) :
      Stepped calls s i (s.enlist i (calls i).key)
  | read {c : Nat} {value : ν} (before : s.phases i = .arrived c ∨ s.phases i = .waiting c)
      (filled : s.cells c = .filled value) : Stepped calls s i (s.put i (.leaving c false))
  | unread {c : Nat} (before : s.phases i = .arrived c) (empty : (s.cells c).value? = none) :
      Stepped calls s i (s.put i (.waiting c))
  | entered {c : Nat} (before : s.phases i = .waiting c) (vacant : s.cells c = .vacant) :
      Stepped calls s i (s.write i c .building (.building c))
  | built {c : Nat} {value : ν} (before : s.phases i = .building c)
      (ok : (calls i).build = .ok value) :
      Stepped calls s i (s.write i c (.filled value) (.leaving c true))
  | failed {c : Nat} {e : ε} (before : s.phases i = .building c)
      (error : (calls i).build = .error e) :
      Stepped calls s i (s.write i c .vacant (.done (.ran (.error e))))
  | left {c : Nat} {built : Bool} {value : ν} (before : s.phases i = .leaving c built)
      (filled : s.cells c = .filled value) :
      Stepped calls s i (s.put i (.done (if built then .ran (.ok value) else .cached value)))
  /-- The caller waits for the build of another one. -/
  | held {c : Nat} (before : s.phases i = .waiting c) (building : s.cells c = .building) :
      Stepped calls s i s
  /-- There is no value to return, which does not come about. -/
  | lost {c : Nat} {built : Bool} (before : s.phases i = .leaving c built)
      (empty : (s.cells c).value? = none) : Stepped calls s i s
  | finished {answer : Lookup ν (Except ε ν)} (before : s.phases i = .done answer) :
      Stepped calls s i s

theorem stepped_step (calls : ι → Call κ ν ε) (s : Shared ι κ ν ε) (i : ι) :
    Stepped calls s i (step calls s i) := by
  cases before : s.phases i with
  | called =>
    cases indexed : s.index.get? (calls i).key with
    | some c => simpa [step, before, indexed] using .found (.inl before) indexed
    | none => simpa [step, before, indexed] using .missed before indexed
  | missed =>
    cases indexed : s.index.get? (calls i).key with
    | some c => simpa [step, before, indexed] using .found (.inr before) indexed
    | none => simpa [step, before, indexed] using .enlisted before indexed
  | arrived c =>
    cases cell : s.cells c with
    | vacant | building => simpa [step, before, cell] using .unread before (by rw [cell]; rfl)
    | filled value => simpa [step, before, cell] using .read (.inl before) cell
  | waiting c =>
    cases cell : s.cells c with
    | vacant => simpa [step, before, cell] using .entered before cell
    | building => simpa [step, before, cell] using .held before cell
    | filled value => simpa [step, before, cell] using .read (.inr before) cell
  | building c =>
    cases build : (calls i).build with
    | ok value => simpa [step, before, build] using .built before build
    | error e => simpa [step, before, build] using .failed before build
  | leaving c built =>
    cases cell : s.cells c with
    | vacant | building => simpa [step, before, cell] using .lost before (by rw [cell]; rfl)
    | filled value => simpa [step, before, cell] using .left before cell
  | done answer => simpa [step, before] using .finished before

end Steps

/-- What a caller's phase says of the cell of its key. -/
def Fits (s : Shared ι κ ν ε) (call : Call κ ν ε) : Phase ν ε → Prop
  | .called => True
  | .missed => True
  | .arrived c => s.index.get? call.key = some c
  | .waiting c => s.index.get? call.key = some c
  | .building c => s.index.get? call.key = some c ∧ s.cells c = .building
  | .leaving c built =>
    s.index.get? call.key = some c ∧
      ∃ value, s.cells c = .filled value ∧ (built = true → call.build = .ok value)
  | .done (.cached value) => s.get? call.key = some value
  | .done (.ran (.ok value)) => s.get? call.key = some value ∧ call.build = .ok value
  | .done (.ran (.error e)) => call.build = .error e

/-- What keeps the index, the cells and the callers together. -/
structure Coherent (calls : ι → Call κ ν ε) (s : Shared ι κ ν ε) : Prop where
  used : ∀ k c, s.index.get? k = some c → c < s.fresh
  apart : ∀ k l c, s.index.get? k = some c → s.index.get? l = some c → (k == l) = true
  fits : ∀ i, s.Fits (calls i) (s.phases i)
  /-- A cell is in the hands of one caller. -/
  alone : ∀ i j c, (s.phases i).owns = true → (s.phases j).owns = true →
    s.index.get? (calls i).key = some c → s.index.get? (calls j).key = some c → i = j
  /-- A cell that is not vacant is in the hands of a caller. -/
  owned : ∀ c, s.cells c ≠ .vacant →
    ∃ i, (s.phases i).owns = true ∧ s.index.get? (calls i).key = some c

/-- What later states keep: the cells of the index and the values in them. -/
structure Grows (s t : Shared ι κ ν ε) : Prop where
  index : ∀ k c, s.index.get? k = some c → t.index.get? k = some c
  cells : ∀ c value, s.cells c = .filled value → t.cells c = .filled value

namespace Grows

variable {s t u : Shared ι κ ν ε}

theorem refl (s : Shared ι κ ν ε) : Grows s s :=
  ⟨fun _ _ => id, fun _ _ => id⟩

theorem trans (first : Grows s t) (second : Grows t u) : Grows s u :=
  ⟨fun k c h => second.index k c (first.index k c h),
    fun c value h => second.cells c value (first.cells c value h)⟩

theorem get? (grows : Grows s t) {key : κ} {value : ν} (stored : s.get? key = some value) :
    t.get? key = some value := by
  obtain ⟨c, indexed, filled⟩ := get?_eq_some_iff.1 stored
  exact get?_eq_some_iff.2 ⟨c, grows.index key c indexed, grows.cells c value filled⟩

/-- A caller still fits later, if its build is still running. -/
theorem fits (grows : Grows s t) {call : Call κ ν ε} {p : Phase ν ε} (fits : s.Fits call p)
    (still : ∀ c, p = .building c → t.cells c = .building) : t.Fits call p := by
  cases p with
  | called => trivial
  | missed => trivial
  | arrived c => exact grows.index _ c fits
  | waiting c => exact grows.index _ c fits
  | building c => exact ⟨grows.index _ c fits.1, still c rfl⟩
  | leaving c built =>
    obtain ⟨indexed, value, filled, own⟩ := fits
    exact ⟨grows.index _ c indexed, value, grows.cells c value filled, own⟩
  | done answer =>
    cases answer with
    | cached value => exact grows.get? fits
    | ran report =>
      cases report with
      | ok value => exact ⟨grows.get? fits.1, fits.2⟩
      | error e => exact fits

end Grows

theorem Coherent.start (calls : ι → Call κ ν ε) : Coherent calls {} :=
  ⟨nofun, nofun, fun _ => trivial, nofun, fun _ used => absurd rfl used⟩

namespace Coherent

variable {calls : ι → Call κ ν ε} {s : Shared ι κ ν ε} {i : ι} {p : Phase ν ε}

/-- The cell that a caller has is the one of its key in the index. -/
theorem index_of_cell? (coherent : Coherent calls s) {c : Nat}
    (has : (s.phases i).cell? = some c) : s.index.get? (calls i).key = some c := by
  have fits := coherent.fits i
  cases phase : s.phases i with
  | called | missed | done => simp [phase, Phase.cell?] at has
  | arrived d | waiting d =>
    rw [phase] at fits has
    rw [← has]
    exact fits
  | building d | leaving d =>
    rw [phase] at fits has
    rw [← has]
    exact fits.1

/-- The cell of a caller that owns one is not vacant. -/
theorem cells_of_owns (coherent : Coherent calls s) (owns : (s.phases i).owns = true) :
    ∃ c, s.index.get? (calls i).key = some c ∧
      (s.cells c = .building ∧ s.phases i = .building c ∨
        ∃ value, s.cells c = .filled value ∧ (calls i).build = .ok value ∧
          (s.phases i).succeeded = true) := by
  have fits := coherent.fits i
  cases phase : s.phases i with
  | called | missed | arrived | waiting => simp [phase, Phase.owns, Phase.succeeded] at owns
  | building c =>
    rw [phase] at fits
    exact ⟨c, fits.1, .inl ⟨fits.2, rfl⟩⟩
  | leaving c built =>
    rw [phase] at fits owns
    obtain ⟨indexed, value, filled, own⟩ := fits
    exact ⟨c, indexed, .inr ⟨value, filled, own owns, owns⟩⟩
  | done answer =>
    rw [phase] at fits owns
    cases answer with
    | cached value => cases owns
    | ran report =>
      cases report with
      | error e => cases owns
      | ok value =>
        obtain ⟨c, indexed, filled⟩ := get?_eq_some_iff.1 fits.1
        exact ⟨c, indexed, .inr ⟨value, filled, fits.2, rfl⟩⟩

/-- A cell that is not in use is vacant. -/
theorem vacant_of_fresh (coherent : Coherent calls s) {c : Nat} (unused : s.fresh ≤ c) :
    s.cells c = .vacant := by
  by_contra used
  obtain ⟨i, -, indexed⟩ := coherent.owned c used
  have := coherent.used _ c indexed
  omega

section Moves

variable [DecidableEq ι]

/-- A caller may move on if it keeps what it owns. -/
theorem put (coherent : Coherent calls s) (fits : s.Fits (calls i) p)
    (same : p.owns = (s.phases i).owns) : Coherent calls (s.put i p) := by
  have owns (j : ι) : ((s.put i p).phases j).owns = (s.phases j).owns := by
    by_cases caller : j = i
    · rw [caller, phases_put_self, same]
    · rw [phases_put_of_ne s p caller]
  refine ⟨coherent.used, coherent.apart, fun j => ?_, fun j k c => ?_, fun c used => ?_⟩
  · by_cases caller : j = i
    · rw [caller, phases_put_self]
      exact fits
    · rw [phases_put_of_ne s p caller]
      exact coherent.fits j
  · rw [owns, owns]
    exact coherent.alone j k c
  · obtain ⟨j, owner, indexed⟩ := coherent.owned c used
    exact ⟨j, (owns j).trans owner, indexed⟩

theorem grows_write {c : Nat} {cell : Cell ν} (empty : (s.cells c).value? = none) :
    Grows s (s.write i c cell p) := by
  refine ⟨fun _ _ => id, fun d value filled => ?_⟩
  have other : d ≠ c := by
    rintro rfl
    simp [filled, Cell.value?] at empty
  rw [cells_write_of_ne s c cell p other, filled]

/-- A caller may write a cell without a value that is in no one else's hands. -/
theorem write (coherent : Coherent calls s) {c : Nat} {cell : Cell ν}
    (indexed : s.index.get? (calls i).key = some c) (empty : (s.cells c).value? = none)
    (others : ∀ j, (s.phases j).owns = true → s.index.get? (calls j).key = some c → j = i)
    (fits : (s.write i c cell p).Fits (calls i) p)
    (taken : cell ≠ .vacant → p.owns = true) : Coherent calls (s.write i c cell p) := by
  have owner {j : ι} (owns : ((s.write i c cell p).phases j).owns = true)
      (here : s.index.get? (calls j).key = some c) : j = i := by
    by_contra other
    rw [phases_write_of_ne s c cell p other] at owns
    exact other (others j owns here)
  refine ⟨coherent.used, coherent.apart, fun j => ?_, fun j k d ownsJ ownsK atJ atK => ?_,
    fun d used => ?_⟩
  · by_cases caller : j = i
    · rw [caller, phases_write_self]
      exact fits
    · rw [phases_write_of_ne s c cell p caller]
      have before := coherent.fits j
      refine (grows_write empty).fits before fun d building => ?_
      rw [building] at before
      have other : d ≠ c := by
        rintro rfl
        exact caller (others j (by rw [building]; rfl) before.1)
      rw [cells_write_of_ne s c cell p other, before.2]
  · -- The written cell is in the hands of `i` alone, and any other is in those of callers that have
    -- not moved.
    rw [index_write] at atJ atK
    by_cases here : d = c
    · rw [here] at atJ atK
      rw [owner ownsJ atJ, owner ownsK atK]
    · have elsewhere {l : ι} (atL : s.index.get? (calls l).key = some d) : l ≠ i := by
        rintro rfl
        exact here (Option.some.inj (atL.symm.trans indexed))
      rw [phases_write_of_ne s c cell p (elsewhere atJ)] at ownsJ
      rw [phases_write_of_ne s c cell p (elsewhere atK)] at ownsK
      exact coherent.alone j k d ownsJ ownsK atJ atK
  · by_cases here : d = c
    · subst here
      rw [cells_write_self] at used
      exact ⟨i, by rw [phases_write_self]; exact taken used, indexed⟩
    · rw [cells_write_of_ne s c cell p here] at used
      obtain ⟨j, owns, atJ⟩ := coherent.owned d used
      have other : j ≠ i := by
        rintro rfl
        exact here (Option.some.inj (atJ.symm.trans indexed))
      exact ⟨j, by rw [phases_write_of_ne s c cell p other]; exact owns, atJ⟩

theorem grows_enlist [EquivBEq κ] {key : κ} (absent : s.index.get? key = none) :
    Grows s (s.enlist i key) := by
  refine ⟨fun k c indexed => ?_, fun _ _ => id⟩
  have other : (k == key) = false := by
    by_contra same
    rw [s.index.get?_congr (Bool.not_eq_false _ ▸ same), absent] at indexed
    cases indexed
  rw [index_enlist, s.index.get?_insert_of_not_beq s.fresh other, indexed]

/-- The new cell is at the new key, and the old cells are where they were. -/
theorem get?_index_enlist [EquivBEq κ] {key k : κ} {c : Nat}
    (indexed : (s.enlist i key).index.get? k = some c) :
    (k == key) = true ∧ c = s.fresh ∨ s.index.get? k = some c := by
  rw [index_enlist, Table.get?_insert] at indexed
  split at indexed
  next same => exact .inl ⟨same, (Option.some.inj indexed).symm⟩
  next => exact .inr indexed

/-- A caller may put a cell of its own into the index if there is none for its key. -/
theorem enlist [EquivBEq κ] (coherent : Coherent calls s) (before : (s.phases i).owns = false)
    (absent : s.index.get? (calls i).key = none) : Coherent calls (s.enlist i (calls i).key) := by
  have grows : Grows s (s.enlist i (calls i).key) := grows_enlist absent
  have owner {j : ι} (owns : ((s.enlist i (calls i).key).phases j).owns = true) :
      (s.phases j).owns = true := by
    by_cases caller : j = i
    · rw [caller, phases_enlist_self] at owns
      cases owns
    · rwa [phases_enlist_of_ne s _ caller] at owns
  -- An owner has had its cell before, so the new cell is no one's.
  have owned {j : ι} {c : Nat} (owns : (s.phases j).owns = true)
      (indexed : (s.enlist i (calls i).key).index.get? (calls j).key = some c) :
      s.index.get? (calls j).key = some c := by
    obtain ⟨d, atD, -⟩ := coherent.cells_of_owns owns
    have same : d = c := Option.some.inj ((grows.index _ d atD).symm.trans indexed)
    rw [← same, atD]
  refine ⟨fun k c indexed => ?_, fun k l c atK atL => ?_, fun j => ?_,
    fun j k c ownsJ ownsK atJ atK => ?_, fun c used => ?_⟩
  · rw [fresh_enlist]
    rcases get?_index_enlist indexed with ⟨-, rfl⟩ | old
    · exact Nat.lt_succ_self _
    · exact Nat.lt_succ_of_lt (coherent.used k c old)
  · rcases get?_index_enlist atK with ⟨sameK, rfl⟩ | oldK
    · rcases get?_index_enlist atL with ⟨sameL, -⟩ | oldL
      · exact BEq.trans sameK (BEq.symm sameL)
      · exact absurd (coherent.used l _ oldL) (Nat.lt_irrefl _)
    · rcases get?_index_enlist atL with ⟨-, rfl⟩ | oldL
      · exact absurd (coherent.used k _ oldK) (Nat.lt_irrefl _)
      · exact coherent.apart k l c oldK oldL
  · by_cases caller : j = i
    · rw [caller, phases_enlist_self]
      exact s.index.get?_insert_self _ _
    · rw [phases_enlist_of_ne s _ caller]
      have fits := coherent.fits j
      refine grows.fits fits fun c building => ?_
      rw [building] at fits
      exact fits.2
  · exact coherent.alone j k c (owner ownsJ) (owner ownsK) (owned (owner ownsJ) atJ)
      (owned (owner ownsK) atK)
  · obtain ⟨j, owns, indexed⟩ := coherent.owned c used
    have other : j ≠ i := by
      rintro rfl
      rw [before] at owns
      cases owns
    exact ⟨j, by rw [phases_enlist_of_ne s _ other]; exact owns, grows.index _ c indexed⟩

theorem grows_put : Grows s (s.put i p) :=
  ⟨fun _ _ => id, fun _ _ => id⟩

/-- **A step of a caller keeps everything together** and loses neither cells nor values. -/
theorem stepped [EquivBEq κ] (coherent : Coherent calls s) {t : Shared ι κ ν ε}
    (stepped : Stepped calls s i t) : Coherent calls t ∧ Grows s t := by
  have fits := coherent.fits i
  cases stepped with
  | found before indexed =>
    have unowned : (s.phases i).owns = false :=
      before.elim (congrArg Phase.owns) (congrArg Phase.owns)
    exact ⟨coherent.put indexed unowned.symm, grows_put⟩
  | missed before => exact ⟨coherent.put trivial (by rw [before]; rfl), grows_put⟩
  | enlisted before absent =>
    exact ⟨coherent.enlist (by rw [before]; rfl) absent, grows_enlist absent⟩
  | @read c value before filled =>
    have indexed : s.index.get? (calls i).key = some c :=
      coherent.index_of_cell? (before.elim (congrArg Phase.cell?) (congrArg Phase.cell?))
    have unowned : (s.phases i).owns = false :=
      before.elim (congrArg Phase.owns) (congrArg Phase.owns)
    exact ⟨coherent.put ⟨indexed, value, filled, nofun⟩ unowned.symm, grows_put⟩
  | unread before =>
    rw [before] at fits
    exact ⟨coherent.put fits (by rw [before]; rfl), grows_put⟩
  | @entered c before vacant =>
    rw [before] at fits
    have empty : (s.cells c).value? = none := by rw [vacant]; rfl
    have others (j : ι) (owns : (s.phases j).owns = true)
        (indexed : s.index.get? (calls j).key = some c) : j = i := by
      obtain ⟨d, atD, used⟩ := coherent.cells_of_owns owns
      obtain rfl : d = c := Option.some.inj (atD.symm.trans indexed)
      simp [vacant] at used
    exact ⟨coherent.write fits empty others ⟨fits, cells_write_self ..⟩ fun _ => rfl,
      grows_write empty⟩
  | @built c value before ok =>
    rw [before] at fits
    have empty : (s.cells c).value? = none := by rw [fits.2]; rfl
    have others (j : ι) (owns : (s.phases j).owns = true)
        (indexed : s.index.get? (calls j).key = some c) : j = i :=
      coherent.alone j i c owns (by rw [before]; rfl) indexed fits.1
    exact ⟨coherent.write fits.1 empty others ⟨fits.1, value, cells_write_self .., fun _ => ok⟩
      fun _ => rfl, grows_write empty⟩
  | @failed c e before error =>
    rw [before] at fits
    have empty : (s.cells c).value? = none := by rw [fits.2]; rfl
    have others (j : ι) (owns : (s.phases j).owns = true)
        (indexed : s.index.get? (calls j).key = some c) : j = i :=
      coherent.alone j i c owns (by rw [before]; rfl) indexed fits.1
    exact ⟨coherent.write fits.1 empty others error fun used => absurd rfl used, grows_write empty⟩
  | @left c built value before filled =>
    rw [before] at fits
    obtain ⟨indexed, stored, filled', own⟩ := fits
    obtain rfl : stored = value := by simpa [filled] using filled'.symm
    have found : s.get? (calls i).key = some stored := get?_eq_some_iff.2 ⟨c, indexed, filled⟩
    cases built with
    | true => exact ⟨coherent.put ⟨found, own rfl⟩ (by rw [before]; rfl), grows_put⟩
    | false => exact ⟨coherent.put found (by rw [before]; rfl), grows_put⟩
  | held | lost | finished => exact ⟨coherent, .refl s⟩

/-- **Any steps in any order keep everything together** and lose neither cells nor values. -/
theorem run [EquivBEq κ] (coherent : Coherent calls s) (schedule : List ι) :
    Coherent calls (s.run calls schedule) ∧ Grows s (s.run calls schedule) := by
  induction schedule generalizing s with
  | nil => exact ⟨coherent, .refl s⟩
  | cons i schedule ih =>
    obtain ⟨coherent', grows⟩ := coherent.stepped (stepped_step calls s i)
    obtain ⟨final, growsOn⟩ := ih coherent'
    exact ⟨final, grows.trans growsOn⟩

end Moves

end Coherent

end Shared

end BuildOnce

end PageBundle
