import PageBundle.Proofs.Cache.Interleaving
import Mathlib.Algebra.Order.BigOperators.Group.Finset

/-!
# What callers of a build-once map get

Whatever the order of their steps, the callers of a build-once map get what they would get one after
another: `Serialized` gives an order in which requests to the map, each run to its end, have the same
answers and leave the same values. For each key at most one build succeeds (`eq_of_succeeded`), what
is stored is what was built (`get?_eq_some_iff_succeeded`), and no caller is ever stuck
(`exists_all_done`).
-/

namespace PageBundle

namespace BuildOnce

variable {ι κ ν ε : Type} [BEq κ]

/-- The map after requests of some callers one after another, with their answers. -/
def serial (calls : ι → Call κ ν ε) (order : List ι) :
    BuildOnce κ ν × List (ι × Lookup ν (Except ε ν)) :=
  order.foldl (fun (map, answers) i =>
    let (answer, map) := Id.run (map.request (calls i).key Except.toOption (pure (calls i).build))
    (map, answers ++ [(i, answer)])) ({}, [])

section Serial

variable {calls : ι → Call κ ν ε} {order : List ι} {i : ι}

theorem serial_append (calls : ι → Call κ ν ε) (order : List ι) (i : ι) :
    serial calls (order ++ [i]) =
      let report := Id.run
        ((serial calls order).1.request (calls i).key Except.toOption (pure (calls i).build))
      (report.2, (serial calls order).2 ++ [(i, report.1)]) := by
  rw [serial, List.foldl_append]
  rfl

theorem serial_append_of_stored {value : ν}
    (stored : (serial calls order).1.get? (calls i).key = some value) :
    serial calls (order ++ [i]) =
      ((serial calls order).1, (serial calls order).2 ++ [(i, .cached value)]) := by
  rw [serial_append, request_of_stored _ _ stored]
  rfl

theorem serial_append_of_missing
    (missing : (serial calls order).1.get? (calls i).key = none) :
    serial calls (order ++ [i]) =
      (((serial calls order).1.enlist (calls i).key).record (calls i).key (calls i).build.toOption,
        (serial calls order).2 ++ [(i, .ran (calls i).build)]) := by
  rw [serial_append, request_of_missing _ _ missing]
  rfl

/-- Every caller in the order has one answer. -/
theorem map_fst_serial (calls : ι → Call κ ν ε) (order : List ι) :
    (serial calls order).2.map (·.1) = order := by
  induction order using List.reverseRecOn with
  | nil => rfl
  | append_singleton order i ih =>
    cases stored : (serial calls order).1.get? (calls i).key with
    | some value => rw [serial_append_of_stored stored, List.map_append, ih]; rfl
    | none => rw [serial_append_of_missing stored, List.map_append, ih]; rfl

end Serial

namespace Phase

/-- How many steps a caller is away from being done, if nothing holds it up. -/
def rank : Phase ν ε → Nat
  | .called => 6
  | .missed => 5
  | .arrived _ => 4
  | .waiting _ => 3
  | .building _ => 2
  | .leaving _ _ => 1
  | .done _ => 0

theorem rank_eq_zero {p : Phase ν ε} : p.rank = 0 ↔ ∃ answer, p = .done answer := by
  cases p <;> simp [rank]

end Phase

namespace Shared

/-- What a caller gets, once that is settled. -/
def answer? (s : Shared ι κ ν ε) (i : ι) : Option (Lookup ν (Except ε ν)) :=
  match s.phases i with
  | .called => none
  | .missed => none
  | .arrived _ => none
  | .waiting _ => none
  | .building _ => none
  | .leaving c built =>
    (s.cells c).value?.map fun value => if built then .ran (.ok value) else .cached value
  | .done answer => some answer

/-- What is settled stays. -/
theorem Coherent.answer?_of_grows {calls : ι → Call κ ν ε} {s t : Shared ι κ ν ε} {j : ι}
    (coherent : Coherent calls s) (grows : Grows s t) (same : t.phases j = s.phases j) :
    t.answer? j = s.answer? j := by
  have fits := coherent.fits j
  rw [answer?, answer?, same]
  cases phase : s.phases j with
  | leaving c built =>
    rw [phase] at fits
    obtain ⟨-, value, filled, -⟩ := fits
    simp only [grows.cells c value filled, filled]
  | called | missed | arrived | waiting | building | done => rfl

section Values

variable [DecidableEq ι] {calls : ι → Call κ ν ε} {s : Shared ι κ ν ε} {i : ι} {c : Nat}
  {cell : Cell ν} {p : Phase ν ε}

/-- A cell without a value may be written so that it has none. -/
theorem get?_write_of_empty (before : (s.cells c).value? = none) (after : cell.value? = none)
    (k : κ) : (s.write i c cell p).get? k = s.get? k := by
  rw [get?, get?, index_write]
  cases s.index.get? k with
  | none => rfl
  | some d =>
    by_cases here : d = c
    · subst here
      simp [before, after]
    · simp [cells_write_of_ne s c cell p here]

/-- Filling the cell of a key gives the key its value. -/
theorem get?_write_filled [EquivBEq κ] (coherent : Coherent calls s) {value : ν}
    (indexed : s.index.get? (calls i).key = some c) (k : κ) :
    (s.write i c (.filled value) p).get? k =
      if k == (calls i).key then some value else s.get? k := by
  rw [get?, index_write]
  split
  next same =>
    rw [s.index.get?_congr same, indexed]
    simp [Cell.value?]
  next other =>
    rw [get?]
    cases atK : s.index.get? k with
    | none => rfl
    | some d =>
      have elsewhere : d ≠ c := by
        rintro rfl
        exact other (coherent.apart k _ d atK indexed)
      simp [cells_write_of_ne s c (.filled value) p elsewhere]

/-- A new cell has no value. -/
theorem get?_enlist [EquivBEq κ] (coherent : Coherent calls s) {key : κ}
    (absent : s.index.get? key = none) (k : κ) : (s.enlist i key).get? k = s.get? k := by
  rw [get?, get?, index_enlist, cells_enlist]
  cases same : k == key with
  | true =>
    rw [s.index.get?_insert_of_beq s.fresh same, s.index.get?_congr same, absent]
    simp [coherent.vacant_of_fresh le_rfl, Cell.value?]
  | false => rw [s.index.get?_insert_of_not_beq s.fresh same]

end Values

/-- The callers whose answers are settled, in an order in which requests one after another have these
answers and leave these values. -/
structure Serialized (calls : ι → Call κ ν ε) (s : Shared ι κ ν ε) (order : List ι) : Prop where
  nodup : order.Nodup
  stored : ∀ k, (serial calls order).1.get? k = s.get? k
  answers : ∀ i answer, (i, answer) ∈ (serial calls order).2 ↔ s.answer? i = some answer

namespace Serialized

variable {calls : ι → Call κ ν ε} {s t : Shared ι κ ν ε} {order : List ι} {i : ι}

theorem start (calls : ι → Call κ ν ε) : Serialized calls ({} : Shared ι κ ν ε) [] :=
  ⟨List.nodup_nil, fun _ => rfl, fun _ _ => by simp [serial, answer?]⟩

/-- One after another, the requests leave as many values. -/
theorem size_eq [EquivBEq κ] (serialized : Serialized calls s order) :
    (serial calls order).1.size = s.size := by
  have index (k : κ) :
      (s.index.get? k).any (fun c => (s.cells c).value?.isSome) = (s.get? k).isSome := by
    rw [get?]
    cases s.index.get? k <;> rfl
  exact Table.countP_congr (q := fun c => (s.cells c).value?.isSome) fun k => by
    rw [any_isSome_eq_isSome_get?, serialized.stored, index]

/-- A step that settles nothing keeps the order. -/
theorem keep (serialized : Serialized calls s order) (stored : ∀ k, t.get? k = s.get? k)
    (answers : ∀ j, t.answer? j = s.answer? j) : Serialized calls t order :=
  ⟨serialized.nodup, fun k => (serialized.stored k).trans (stored k).symm,
    fun j answer => by rw [serialized.answers, answers]⟩

/-- A step that settles the answer of a caller puts it at the end of the order. -/
theorem extend (serialized : Serialized calls s order) (answer : Lookup ν (Except ε ν))
    (unsettled : s.answer? i = none) (settled : t.answer? i = some answer)
    (others : ∀ j, j ≠ i → t.answer? j = s.answer? j)
    (log : (serial calls (order ++ [i])).2 = (serial calls order).2 ++ [(i, answer)])
    (stored : ∀ k, (serial calls (order ++ [i])).1.get? k = t.get? k) :
    Serialized calls t (order ++ [i]) := by
  have new : i ∉ order := by
    rw [← map_fst_serial calls order]
    intro member
    obtain ⟨⟨j, earlier⟩, logged, rfl⟩ := List.mem_map.1 member
    simp [(serialized.answers j earlier).1 logged] at unsettled
  refine ⟨?_, stored, fun j given => ?_⟩
  · rw [List.nodup_append_comm]
    exact List.nodup_cons.2 ⟨new, serialized.nodup⟩
  · rw [log, List.mem_append, List.mem_singleton, serialized.answers]
    by_cases caller : j = i
    · subst caller
      simp [unsettled, settled, eq_comm]
    · simp [others j caller, caller]

/-- While a caller runs its build, a request for its key would run one too. -/
theorem missing_of_building (serialized : Serialized calls s order) (coherent : Coherent calls s)
    {c : Nat} (building : s.phases i = .building c) :
    (serial calls order).1.get? (calls i).key = none := by
  have fits := coherent.fits i
  rw [building] at fits
  rw [serialized.stored, get?, fits.1]
  simp [fits.2, Cell.value?]

variable [DecidableEq ι] [EquivBEq κ]

/-- The answers of the callers that do not move are as they were. -/
theorem answer?_of_ne (coherent : Coherent calls s) (stepped : Stepped calls s i t) {j : ι}
    (other : j ≠ i) : t.answer? j = s.answer? j := by
  refine coherent.answer?_of_grows (coherent.stepped stepped).2 ?_
  cases stepped <;> simp [other]

/-- **A step settles at most one answer, as the next request would.** -/
theorem stepped (coherent : Coherent calls s) (serialized : Serialized calls s order)
    (stepped : Stepped calls s i t) :
    ∃ settled : Option ι, Serialized calls t (order ++ settled.toList) := by
  have others (j : ι) (other : j ≠ i) : t.answer? j = s.answer? j :=
    answer?_of_ne coherent stepped other
  have fits := coherent.fits i
  -- If the step settles nothing, only the answer of the caller that moves is to be looked at.
  have keep (stored : ∀ k, t.get? k = s.get? k) (same : t.answer? i = s.answer? i) :
      ∃ settled : Option ι, Serialized calls t (order ++ settled.toList) := by
    refine ⟨none, ?_⟩
    rw [Option.toList_none, List.append_nil]
    refine serialized.keep stored fun j => ?_
    by_cases caller : j = i
    · rw [caller, same]
    · exact others j caller
  cases stepped with
  | found before indexed =>
    refine keep (fun _ => rfl) ?_
    rcases before with called | missed
    · simp [answer?, called]
    · simp [answer?, missed]
  | missed before => exact keep (fun _ => rfl) (by simp [answer?, before])
  | enlisted before absent =>
    exact keep (get?_enlist coherent absent) (by simp [answer?, before])
  | @read c value before filled =>
    have indexed : s.index.get? (calls i).key = some c :=
      coherent.index_of_cell? (before.elim (congrArg Phase.cell?) (congrArg Phase.cell?))
    have stored : (serial calls order).1.get? (calls i).key = some value := by
      rw [serialized.stored]
      exact get?_eq_some_iff.2 ⟨c, indexed, filled⟩
    have unsettled : s.answer? i = none := by
      rcases before with arrived | waiting
      · simp [answer?, arrived]
      · simp [answer?, waiting]
    refine ⟨some i, serialized.extend (.cached value) unsettled ?_ others ?_ ?_⟩
    · simp [answer?, filled, Cell.value?]
    · rw [serial_append_of_stored stored]
    · intro k
      rw [serial_append_of_stored stored]
      exact serialized.stored k
  | unread before => exact keep (fun _ => rfl) (by simp [answer?, before])
  | @entered c before vacant =>
    have empty : (s.cells c).value? = none := by rw [vacant]; rfl
    exact keep (get?_write_of_empty empty rfl) (by simp [answer?, before])
  | @built c value before ok =>
    have missing := serialized.missing_of_building coherent before
    refine ⟨some i, serialized.extend (.ran (calls i).build)
      (by simp [answer?, before]) ?_ others ?_ ?_⟩
    · simp [answer?, ok, Cell.value?]
    · rw [serial_append_of_missing missing]
    · intro k
      have indexed := coherent.index_of_cell? (i := i) (c := c) (by rw [before]; rfl)
      rw [serial_append_of_missing missing, ok, get?_write_filled coherent indexed,
        ← serialized.stored]
      exact (get?_record ..).trans (by rw [BuildOnce.get?_enlist])
  | @failed c e before error =>
    rw [before] at fits
    have empty : (s.cells c).value? = none := by rw [fits.2]; rfl
    have missing := serialized.missing_of_building coherent before
    refine ⟨some i, serialized.extend (.ran (calls i).build)
      (by simp [answer?, before]) ?_ others ?_ ?_⟩
    · simp [answer?, error]
    · rw [serial_append_of_missing missing]
    · intro k
      rw [serial_append_of_missing missing, error, get?_write_of_empty empty rfl]
      exact (BuildOnce.get?_enlist ..).trans (serialized.stored k)
  | @left c built value before filled =>
    refine keep (fun _ => rfl) ?_
    simp [answer?, before, filled, Cell.value?]
  | held | lost | finished => exact keep (fun _ => rfl) rfl

/-- **Any steps in any order settle answers as requests one after another would.** -/
theorem run (coherent : Coherent calls s) (serialized : Serialized calls s order)
    (schedule : List ι) : ∃ settled, Serialized calls (s.run calls schedule) (order ++ settled) := by
  induction schedule generalizing s order with
  | nil => exact ⟨[], by rw [List.append_nil]; exact serialized⟩
  | cons i schedule ih =>
    obtain ⟨settled, serialized'⟩ := serialized.stepped coherent (stepped_step calls s i)
    obtain ⟨later, final⟩ := ih (coherent.stepped (stepped_step calls s i)).1 serialized'
    exact ⟨settled.toList ++ later, by rw [← List.append_assoc]; exact final⟩

end Serialized

namespace Coherent

variable {calls : ι → Call κ ν ε} {s : Shared ι κ ν ε} {i j : ι}

/-- A caller whose build succeeded filled the cell of its key. -/
theorem filled_of_succeeded (coherent : Coherent calls s)
    (succeeded : (s.phases i).succeeded = true) :
    ∃ c value, s.index.get? (calls i).key = some c ∧ s.cells c = .filled value ∧
      (calls i).build = .ok value := by
  obtain ⟨c, indexed, ⟨-, building⟩ | ⟨value, filled, ok, -⟩⟩ :=
    coherent.cells_of_owns (Phase.owns_of_succeeded succeeded)
  · simp [building, Phase.succeeded] at succeeded
  · exact ⟨c, value, indexed, filled, ok⟩

/-- A value in a cell was built by a caller. -/
theorem succeeded_of_filled (coherent : Coherent calls s) {c : Nat} {value : ν}
    (filled : s.cells c = .filled value) :
    ∃ i, s.index.get? (calls i).key = some c ∧ (s.phases i).succeeded = true ∧
      (calls i).build = .ok value := by
  obtain ⟨i, owns, indexed⟩ := coherent.owned c (by rw [filled]; nofun)
  obtain ⟨d, atD, cell⟩ := coherent.cells_of_owns owns
  obtain rfl : d = c := Option.some.inj (atD.symm.trans indexed)
  rcases cell with ⟨building, -⟩ | ⟨value', filled', ok, succeeded⟩
  · simp [filled] at building
  · obtain rfl : value = value' := by simpa [filled] using filled'
    exact ⟨i, indexed, succeeded, ok⟩

/-- **The keys with a value are those for which a build succeeded.** -/
theorem get?_eq_some_iff_succeeded [EquivBEq κ] (coherent : Coherent calls s) {k : κ} {value : ν} :
    s.get? k = some value ↔
      ∃ i, (k == (calls i).key) = true ∧ (s.phases i).succeeded = true ∧
        (calls i).build = .ok value := by
  constructor
  · intro stored
    obtain ⟨c, indexed, filled⟩ := get?_eq_some_iff.1 stored
    obtain ⟨i, atI, succeeded, ok⟩ := coherent.succeeded_of_filled filled
    exact ⟨i, coherent.apart k _ c indexed atI, succeeded, ok⟩
  · rintro ⟨i, same, succeeded, ok⟩
    obtain ⟨c, value', indexed, filled, ok'⟩ := coherent.filled_of_succeeded succeeded
    obtain rfl : value = value' := Except.ok.inj (ok.symm.trans ok')
    exact get?_eq_some_iff.2 ⟨c, (s.index.get?_congr same).trans indexed, filled⟩

/-- **At most one build succeeds for a key.** -/
theorem eq_of_succeeded [EquivBEq κ] (coherent : Coherent calls s)
    (same : ((calls i).key == (calls j).key) = true) (succeededI : (s.phases i).succeeded = true)
    (succeededJ : (s.phases j).succeeded = true) : i = j := by
  obtain ⟨c, value, indexed, -⟩ := coherent.filled_of_succeeded succeededI
  exact coherent.alone i j c (Phase.owns_of_succeeded succeededI)
    (Phase.owns_of_succeeded succeededJ) indexed ((s.index.get?_congr same).symm.trans indexed)

/-- Different entries of the index have different cells. -/
theorem nodup_cells [EquivBEq κ] (coherent : Coherent calls s) :
    (s.index.entries.map (·.2)).Nodup := by
  have atEntry {e : κ × Nat} (member : e ∈ s.index.entries) : s.index.get? e.1 = some e.2 :=
    Table.get?_eq_some_iff.2 ⟨e, member, BEq.refl _, rfl⟩
  refine List.pairwise_map.2 (s.index.distinct.imp_of_mem ?_)
  intro a b memberA memberB apart same
  have atA := atEntry memberA
  rw [same] at atA
  simp [coherent.apart a.1 b.1 b.2 atA (atEntry memberB)] at apart

/-- The cell of a caller whose build succeeded is that of an entry with a value. -/
theorem mem_filled_iff [EquivBEq κ] (coherent : Coherent calls s) {c : Nat} :
    c ∈ (s.index.entries.filter fun e => (s.cells e.2).value?.isSome).map (·.2) ↔
      ∃ i, (s.phases i).succeeded = true ∧ s.index.get? (calls i).key = some c := by
  constructor
  · intro member
    obtain ⟨e, entry, rfl⟩ := List.mem_map.1 member
    obtain ⟨value, cell⟩ := Option.isSome_iff_exists.1 (List.mem_filter.1 entry).2
    obtain ⟨i, indexed, succeeded, -⟩ :=
      coherent.succeeded_of_filled (Cell.value?_eq_some_iff.1 cell)
    exact ⟨i, succeeded, indexed⟩
  · rintro ⟨i, succeeded, indexed⟩
    obtain ⟨d, value, atD, filled, -⟩ := coherent.filled_of_succeeded succeeded
    obtain rfl : d = c := Option.some.inj (atD.symm.trans indexed)
    obtain ⟨e, entry, -, rfl⟩ := Table.get?_eq_some_iff.1 indexed
    refine List.mem_map.2 ⟨e, List.mem_filter.2 ⟨entry, ?_⟩, rfl⟩
    simp [filled, Cell.value?]

/-- **There are as many values as builds that succeeded.** -/
theorem size_eq_card [EquivBEq κ] [Fintype ι] (coherent : Coherent calls s) :
    s.size = (Finset.univ.filter fun i => (s.phases i).succeeded = true).card := by
  -- Entries with a value and callers whose builds succeeded are both told apart by their cells.
  have cells : (Finset.univ.filter fun i => (s.phases i).succeeded = true).image
      (fun i => (s.index.get? (calls i).key).getD 0) =
        ((s.index.entries.filter fun e => (s.cells e.2).value?.isSome).map (·.2)).toFinset := by
    ext c
    rw [List.mem_toFinset, coherent.mem_filled_iff, Finset.mem_image]
    constructor
    · rintro ⟨i, member, rfl⟩
      obtain ⟨c, -, indexed, -⟩ := coherent.filled_of_succeeded (Finset.mem_filter.1 member).2
      exact ⟨i, (Finset.mem_filter.1 member).2, by rw [indexed]; rfl⟩
    · rintro ⟨i, succeeded, indexed⟩
      exact ⟨i, Finset.mem_filter.2 ⟨Finset.mem_univ i, succeeded⟩, by rw [indexed]; rfl⟩
  have distinct : ((s.index.entries.filter fun e => (s.cells e.2).value?.isSome).map
      (·.2)).Nodup := coherent.nodup_cells.sublist (List.filter_sublist.map _)
  rw [size, List.countP_eq_length_filter, ← List.length_map (·.2),
    ← List.toFinset_card_of_nodup distinct, ← cells]
  refine Finset.card_image_of_injOn fun i memberI j memberJ same => ?_
  obtain ⟨c, -, atI, -⟩ := coherent.filled_of_succeeded (Finset.mem_filter.1 memberI).2
  obtain ⟨d, -, atJ, -⟩ := coherent.filled_of_succeeded (Finset.mem_filter.1 memberJ).2
  obtain rfl : c = d := by simpa [atI, atJ] using same
  exact coherent.alone i j c (Phase.owns_of_succeeded (Finset.mem_filter.1 memberI).2)
    (Phase.owns_of_succeeded (Finset.mem_filter.1 memberJ).2) atI atJ

/-- What a caller returns other than an error is the value that is stored for its key. -/
theorem get?_of_done (coherent : Coherent calls s) {value : ν}
    (returned : s.phases i = .done (.cached value) ∨ s.phases i = .done (.ran (.ok value))) :
    s.get? (calls i).key = some value := by
  have fits := coherent.fits i
  rcases returned with cached | built
  · rw [cached] at fits
    exact fits
  · rw [built] at fits
    exact fits.1

/-- A caller that returns an error has it from its own build. -/
theorem build_of_done (coherent : Coherent calls s) {e : ε}
    (returned : s.phases i = .done (.ran (.error e))) : (calls i).build = .error e := by
  have fits := coherent.fits i
  rw [returned] at fits
  exact fits

/-- **Once all callers are done, one of those with a stored key built the value**, and the others
found it or failed. -/
theorem exists_built [EquivBEq κ] (coherent : Coherent calls s)
    (finished : ∀ i, ∃ answer, s.phases i = .done answer) {k : κ} {value : ν}
    (stored : s.get? k = some value) :
    ∃ i, (k == (calls i).key) = true ∧ s.phases i = .done (.ran (.ok value)) ∧
      ∀ j, j ≠ i → (k == (calls j).key) = true →
        s.phases j = .done (.cached value) ∨ ∃ e, s.phases j = .done (.ran (.error e)) := by
  have valueOf {j : ι} {w : ν} (same : (k == (calls j).key) = true)
      (found : s.get? (calls j).key = some w) : w = value := by
    rw [get?, ← s.index.get?_congr same, ← get?, stored] at found
    exact (Option.some.inj found).symm
  obtain ⟨i, same, succeeded, -⟩ := coherent.get?_eq_some_iff_succeeded.1 stored
  have built : s.phases i = .done (.ran (.ok value)) := by
    obtain ⟨answer, done⟩ := finished i
    cases answer with
    | cached w => simp [done, Phase.succeeded] at succeeded
    | ran report =>
      cases report with
      | ok w => rw [done, valueOf same (coherent.get?_of_done (.inr done))]
      | error e => simp [done, Phase.succeeded] at succeeded
  refine ⟨i, same, built, fun j other sameJ => ?_⟩
  obtain ⟨answer, done⟩ := finished j
  cases answer with
  | cached w =>
    refine .inl ?_
    rw [done, valueOf sameJ (coherent.get?_of_done (.inl done))]
  | ran report =>
    cases report with
    | ok w =>
      exact absurd (coherent.eq_of_succeeded (BEq.trans (BEq.symm sameJ) same)
        (by rw [done]; rfl) succeeded) other
    | error e => exact .inr ⟨e, done⟩

end Coherent

section Progress

variable [DecidableEq ι] {calls : ι → Call κ ν ε} {s : Shared ι κ ν ε} {i : ι}

/-- A step brings a caller nearer to its end, unless the caller is done or waits for a build. -/
theorem Coherent.progress (coherent : Coherent calls s) {t : Shared ι κ ν ε}
    (stepped : Stepped calls s i t) :
    (∃ p, t.phases = Function.update s.phases i p ∧ p.rank < (s.phases i).rank) ∨
      (∃ c, s.phases i = .waiting c ∧ s.cells c = .building) ∨
      ∃ answer, s.phases i = .done answer := by
  cases stepped with
  | found before =>
    refine .inl ⟨_, rfl, ?_⟩
    rcases before with called | missed
    · simp [called, Phase.rank]
    · simp [missed, Phase.rank]
  | read before =>
    refine .inl ⟨_, rfl, ?_⟩
    rcases before with arrived | waiting
    · simp [arrived, Phase.rank]
    · simp [waiting, Phase.rank]
  | missed before | enlisted before | unread before | entered before | built before
    | failed before | left before => exact .inl ⟨_, rfl, by simp [before, Phase.rank]⟩
  | held before building => exact .inr (.inl ⟨_, before, building⟩)
  | lost before empty =>
    have fits := coherent.fits i
    rw [before] at fits
    obtain ⟨-, value, filled, -⟩ := fits
    simp [filled, Cell.value?] at empty
  | finished before => exact .inr (.inr ⟨_, before⟩)

/-- While a caller is not done, some caller can move on: this one, or the one it waits for. -/
theorem Coherent.exists_step (coherent : Coherent calls s) (unfinished : (s.phases i).rank ≠ 0) :
    ∃ j p, (step calls s j).phases = Function.update s.phases j p ∧
      p.rank < (s.phases j).rank := by
  rcases coherent.progress (stepped_step calls s i) with ⟨p, moved⟩ | ⟨c, waiting, building⟩ | done
  · exact ⟨i, p, moved⟩
  · obtain ⟨j, owns, indexed⟩ := coherent.owned c (by rw [building]; nofun)
    obtain ⟨d, atD, ⟨-, builds⟩ | ⟨value, filled, -⟩⟩ := coherent.cells_of_owns owns
    · rcases coherent.progress (stepped_step calls s j) with ⟨p, moved⟩ | ⟨_, waits, -⟩ | ⟨_, done⟩
      · exact ⟨j, p, moved⟩
      · simp [builds] at waits
      · simp [builds] at done
    · obtain rfl : d = c := Option.some.inj (atD.symm.trans indexed)
      simp [building] at filled
  · exact absurd (Phase.rank_eq_zero.2 done) unfinished

/-- **Callers are never stuck**: whatever has happened, all of them can still be done. -/
theorem Coherent.exists_all_done [Fintype ι] [EquivBEq κ] (coherent : Coherent calls s) :
    ∃ later, ∀ i, ∃ answer, (s.run calls later).phases i = .done answer := by
  -- Each state short of the end has a step that brings the callers nearer to it in sum.
  induction left : ∑ i, (s.phases i).rank using Nat.strong_induction_on generalizing s with
  | _ n ih =>
    by_cases finished : ∀ i, (s.phases i).rank = 0
    · refine ⟨[], fun i => ?_⟩
      exact Phase.rank_eq_zero.1 (finished i)
    · obtain ⟨i, unfinished⟩ := not_forall.1 finished
      obtain ⟨j, p, moved, less⟩ := coherent.exists_step unfinished
      have fewer : ∑ i, ((step calls s j).phases i).rank < n := by
        rw [← left, moved]
        refine Finset.sum_lt_sum (fun k _ => ?_) ⟨j, Finset.mem_univ j, ?_⟩
        · by_cases same : k = j
          · rw [same, Function.update_self]
            exact less.le
          · rw [Function.update_of_ne same]
        · rwa [Function.update_self]
      obtain ⟨later, done⟩ := ih _ fewer (coherent.stepped (stepped_step calls s j)).1 rfl
      exact ⟨j :: later, done⟩

end Progress

/-- **A value is built once, however its callers interleave.** After any steps of any callers of a
map that was empty: a caller has the cell that the index has for its key, so that callers with the
same key share it, and neither cells nor values are ever replaced; at most one build for a key
succeeds, and at most one caller returns a value as built; a caller returns the value that is stored
for its key, or the error of its own build; once all callers are done, each stored value was
returned as built by one of them. The values that are stored are those of the builds that succeeded,
as many as these. Whatever has happened, all callers can still be done. All this is as if the
callers whose answers are settled had made their requests one after another, which leaves the same
values and as many. -/
theorem builds_once_interleaved [DecidableEq ι] [Fintype ι] [EquivBEq κ] (calls : ι → Call κ ν ε)
    (schedule : List ι) :
    let s := run ({} : Shared ι κ ν ε) calls schedule
    (∀ i c, (s.phases i).cell? = some c → s.index.get? (calls i).key = some c) ∧
    (∀ i j c d, ((calls i).key == (calls j).key) = true → (s.phases i).cell? = some c →
      (s.phases j).cell? = some d → c = d) ∧
    (∀ later,
      (∀ k c, s.index.get? k = some c → (s.run calls later).index.get? k = some c) ∧
      ∀ k value, s.get? k = some value → (s.run calls later).get? k = some value) ∧
    (∀ i j, ((calls i).key == (calls j).key) = true → (s.phases i).succeeded = true →
      (s.phases j).succeeded = true → i = j) ∧
    (∀ i value, s.phases i = .done (.cached value) ∨ s.phases i = .done (.ran (.ok value)) →
      s.get? (calls i).key = some value) ∧
    (∀ i j v w, ((calls i).key == (calls j).key) = true → s.phases i = .done (.ran (.ok v)) →
      s.phases j = .done (.ran (.ok w)) → i = j) ∧
    ((∀ i, ∃ answer, s.phases i = .done answer) → ∀ k value, s.get? k = some value →
      ∃ i, (k == (calls i).key) = true ∧ s.phases i = .done (.ran (.ok value)) ∧
        ∀ j, j ≠ i → (k == (calls j).key) = true →
          s.phases j = .done (.cached value) ∨ ∃ e, s.phases j = .done (.ran (.error e))) ∧
    (∀ i e, s.phases i = .done (.ran (.error e)) → (calls i).build = .error e) ∧
    (∀ k value, s.get? k = some value ↔
      ∃ i, (k == (calls i).key) = true ∧ (s.phases i).succeeded = true ∧
        (calls i).build = .ok value) ∧
    s.size = (Finset.univ.filter fun i => (s.phases i).succeeded = true).card ∧
    (∃ later, ∀ i, ∃ answer, (s.run calls later).phases i = .done answer) ∧
    ∃ order, Serialized calls s order ∧ (serial calls order).1.size = s.size := by
  intro s
  have coherent : Coherent calls s := ((Coherent.start calls).run schedule).1
  obtain ⟨order, serialized⟩ : ∃ order, Serialized calls s order :=
    (Serialized.start calls).run (Coherent.start calls) schedule
  refine ⟨fun i c => coherent.index_of_cell?, fun i j c d same atI atJ => ?_, fun later => ?_,
    fun i j same => coherent.eq_of_succeeded same, fun i value => coherent.get?_of_done,
    fun i j v w same builtI builtJ => ?_, fun finished k value => coherent.exists_built finished,
    fun i e => coherent.build_of_done, fun k value => coherent.get?_eq_some_iff_succeeded,
    coherent.size_eq_card, coherent.exists_all_done, order, serialized, serialized.size_eq⟩
  · have indexed := coherent.index_of_cell? atI
    rw [s.index.get?_congr same, coherent.index_of_cell? atJ] at indexed
    exact (Option.some.inj indexed).symm
  · obtain ⟨-, grows⟩ := coherent.run later
    exact ⟨grows.index, fun k value => grows.get?⟩
  · exact coherent.eq_of_succeeded same (by rw [builtI]; rfl) (by rw [builtJ]; rfl)

/-- Three callers wait for one cell. The first one's build fails, the last one's is next, and the
second finds its value. -/
theorem builds_once_after_failure :
    let calls : Fin 3 → Call Nat Nat String := fun
      | 0 => ⟨1, .error "disk full"⟩
      | 1 => ⟨1, .ok 7⟩
      | 2 => ⟨1, .ok 8⟩
    let s := run {} calls [0, 1, 0, 1, 2, 0, 1, 2, 0, 1, 0, 2, 1, 2, 1, 1, 2]
    s.get? 1 = some 8 ∧ (calls 0).build = .error "disk full" ∧
    (∀ later, (s.run calls later).get? 1 = some 8) ∧
    (∃ i, s.phases i = .done (.ran (.ok 8)) ∧ ∀ j, j ≠ i →
      s.phases j = .done (.cached 8) ∨ ∃ e, s.phases j = .done (.ran (.error e))) ∧
    s.size = 1 ∧ ∃ order, Serialized calls s order ∧ (serial calls order).1.size = 1 := by
  intro calls s
  obtain ⟨-, -, kept, -, returned, -, built, failed, -, size, -, order, serialized, same⟩ :=
    builds_once_interleaved calls [0, 1, 0, 1, 2, 0, 1, 2, 0, 1, 0, 2, 1, 2, 1, 1, 2]
  subst s
  have stored := returned 1 8 (.inl (by decide +kernel))
  have sameKey (i : Fin 3) : ((1 : Nat) == (calls i).key) = true := by
    match i with
    | 0 | 1 | 2 => rfl
  have finished := built fun
    | 0 => ⟨.ran (.error "disk full"), by decide +kernel⟩
    | 1 => ⟨.cached 8, by decide +kernel⟩
    | 2 => ⟨.ran (.ok 8), by decide +kernel⟩
  obtain ⟨i, -, ran, others⟩ := finished 1 8 stored
  refine ⟨stored, failed 0 "disk full" (by decide +kernel),
    fun later => (kept later).2 1 8 stored, ⟨i, ran, fun j other => others j other (sameKey j)⟩,
    ?_, order, serialized, same.trans ?_⟩
  · rw [size]
    decide +kernel
  · rw [size]
    decide +kernel

end Shared

end BuildOnce

end PageBundle
