import PageBundle.Cache.BuildOnce
import Mathlib.Data.Finset.Card
import Mathlib.Data.Finset.Dedup
import Mathlib.Data.List.Pairwise

/-!
# What a build-once map holds

A log lists the keys of requests that succeeded, with the values they gave. A map `Holds` a log if
it stores under each key of the log the value that was given for it, and no other keys. Requests
keep this: one for a stored key repeats the stored value, a build that succeeds stores a new one,
and a build that fails stores nothing. The number of stored values is then the number of distinct
keys in the log (`Holds.size_eq`).
-/

namespace PageBundle

/-- Running one effect after another hands the state on. -/
theorem run_bind {σ α β : Type} (x : StateM σ α) (f : α → StateM σ β) (s : σ) :
    (x >>= f).run s = (f (x.run s).1).run (x.run s).2 := rfl

variable {κ ν β : Type} [BEq κ]

namespace Table

theorem get?_insert_of_beq (t : Table κ ν) {k k' : κ} (v : ν) (same : (k' == k) = true) :
    (t.insert k v).get? k' = some v := by
  simp [get?, insert, same]

/-- Writing at a key leaves the values at other keys. -/
theorem get?_insert_of_not_beq [EquivBEq κ] (t : Table κ ν) {k k' : κ} (v : ν)
    (apart : (k' == k) = false) : (t.insert k v).get? k' = t.get? k' := by
  refine get?_insert_of_ne t v apart fun x same => ?_
  by_contra other
  have : (k' == k) = true := BEq.trans same (BEq.symm (Bool.not_eq_false _ ▸ other))
  simp [this] at apart

theorem get?_insert [EquivBEq κ] (t : Table κ ν) (k : κ) (v : ν) (k' : κ) :
    (t.insert k v).get? k' = if k' == k then some v else t.get? k' := by
  split
  next same => exact t.get?_insert_of_beq v same
  next other => exact t.get?_insert_of_not_beq v (Bool.not_eq_true _ ▸ other)

/-- Entries with the same key are the same entry. -/
theorem eq_of_beq_of_mem [EquivBEq κ] {t : Table κ ν} {a b : κ × ν} (ha : a ∈ t.entries)
    (hb : b ∈ t.entries) (same : (a.1 == b.1) = true) : a = b := by
  have symm : Std.Symm fun a b : κ × ν => (a.1 == b.1) = false :=
    ⟨fun _ _ apart => BEq.symm_false apart⟩
  by_contra differ
  have apart := t.distinct.forall ha hb differ
  simp [same] at apart

theorem get?_eq_some_iff [EquivBEq κ] {t : Table κ ν} {k : κ} {v : ν} :
    t.get? k = some v ↔ ∃ e ∈ t.entries, (k == e.1) = true ∧ e.2 = v := by
  constructor
  · intro found
    obtain ⟨e, first, rfl⟩ := Option.map_eq_some_iff.1 found
    exact ⟨e, List.mem_of_find?_eq_some first, by simpa using List.find?_some first, rfl⟩
  · rintro ⟨e, member, same, rfl⟩
    obtain ⟨first, found⟩ : ∃ first, t.entries.find? (fun e => k == e.1) = some first :=
      Option.isSome_iff_exists.1 (List.find?_isSome.2 ⟨e, member, same⟩)
    have sameFirst : (k == first.1) = true := by simpa using List.find?_some found
    have : first = e := eq_of_beq_of_mem (List.mem_of_find?_eq_some found) member
      (BEq.trans (BEq.symm sameFirst) same)
    rw [get?, found, this]
    rfl

/-- Equal keys have the same value. -/
theorem get?_congr [EquivBEq κ] (t : Table κ ν) {k k' : κ} (same : (k == k') = true) :
    t.get? k = t.get? k' := by
  have every : (fun e : κ × ν => k == e.1) = fun e => k' == e.1 := funext fun e => BEq.congr_left same
  rw [get?, get?, every]

section Counting

variable (p : ν → Bool) {δ : Type} [DecidableEq δ] {name : κ → δ}

theorem mem_names_iff [EquivBEq κ] (t : Table κ ν)
    (names : ∀ a b : κ, (a == b) = true ↔ name a = name b) (d : δ) :
    d ∈ ((t.entries.filter fun e => p e.2).map fun e => name e.1).toFinset ↔
      ∃ k, name k = d ∧ (t.get? k).any p = true := by
  simp only [List.mem_toFinset, List.mem_map, List.mem_filter, Option.any_eq_true_iff_get]
  constructor
  · rintro ⟨e, ⟨member, passes⟩, rfl⟩
    have stored := get?_eq_some_iff.2 ⟨e, member, BEq.refl e.1, rfl⟩
    exact ⟨e.1, rfl, by simp [stored], by simpa [stored] using passes⟩
  · rintro ⟨k, rfl, present, passes⟩
    obtain ⟨v, stored⟩ := Option.isSome_iff_exists.1 present
    obtain ⟨e, member, same, rfl⟩ := get?_eq_some_iff.1 stored
    exact ⟨e, ⟨member, by simpa [stored] using passes⟩, ((names _ _).1 same).symm⟩

/-- How many values pass is how many keys there are with such values; `name` tells keys apart as the
table does. -/
theorem countP_eq_card [EquivBEq κ] (t : Table κ ν)
    (names : ∀ a b : κ, (a == b) = true ↔ name a = name b) {keys : Finset δ}
    (passing : ∀ d, d ∈ keys ↔ ∃ k, name k = d ∧ (t.get? k).any p = true) :
    t.entries.countP (fun e => p e.2) = keys.card := by
  have distinct : ((t.entries.filter fun e => p e.2).map fun e => name e.1).Nodup := by
    refine List.pairwise_map.2 ((t.distinct.filter _).imp fun {a b} apart same => ?_)
    simp [(names a.1 b.1).2 same] at apart
  have same : ((t.entries.filter fun e => p e.2).map fun e => name e.1).toFinset = keys :=
    Finset.ext fun d => (t.mem_names_iff p names d).trans (passing d).symm
  rw [← same, List.toFinset_card_of_nodup distinct, List.length_map, List.countP_eq_length_filter]

end Counting

/-- Tables in which the same keys have values that pass have as many such values. -/
theorem countP_congr [EquivBEq κ] {μ : Type} {t : Table κ ν} {u : Table κ μ} {p : ν → Bool}
    {q : μ → Bool} (agree : ∀ k, (t.get? k).any p = (u.get? k).any q) :
    t.entries.countP (fun e => p e.2) = u.entries.countP (fun e => q e.2) := by
  classical
  let alike : Setoid κ := ⟨fun a b => (a == b) = true, ⟨BEq.refl, BEq.symm, BEq.trans⟩⟩
  have names (a b : κ) : (a == b) = true ↔ Quotient.mk alike a = Quotient.mk alike b :=
    Iff.symm (Quotient.eq (r := alike))
  rw [u.countP_eq_card q names (u.mem_names_iff q names)]
  refine t.countP_eq_card p names fun d => (u.mem_names_iff q names d).trans ?_
  simp only [agree]

end Table

namespace BuildOnce

variable {c : BuildOnce κ ν} {log : List (κ × ν)} {key : κ}

/-- An empty cell is as good as none. -/
@[simp] theorem get?_enlist [EquivBEq κ] (c : BuildOnce κ ν) (key k : κ) :
    (c.enlist key).get? k = c.get? k := by
  rw [enlist]
  split
  · rfl
  · next absent =>
    have none : c.cells.get? key = none := by
      simpa [Table.contains_iff_isSome] using absent
    rw [get?, Table.get?_insert]
    split
    · next same =>
      rw [get?, c.cells.get?_congr same, none]
      rfl
    · rfl

section Request

variable {m : Type → Type} [Monad m] (value? : β → Option ν) (build : m β)

/-- A request for a stored value runs nothing. -/
theorem request_of_stored {value : ν} (stored : c.get? key = some value) :
    c.request key value? build = pure (.cached value, c) := by
  simp [request, stored]

/-- A request for a missing value runs one build, whose value is stored if there is one. -/
theorem request_of_missing (missing : c.get? key = none) :
    c.request key value? build =
      (do let report ← build; return (.ran report, (c.enlist key).record key (value? report))) := by
  simp [request, missing]

end Request

theorem record_none (c : BuildOnce κ ν) (key : κ) : c.record key none = c := rfl

/-- A value is stored for the keys that are the same as its own. -/
theorem get?_record [EquivBEq κ] (c : BuildOnce κ ν) (key : κ) (value : ν) (k : κ) :
    (c.record key (some value)).get? k = if k == key then some value else c.get? k := by
  rw [get?, record, Table.get?_insert]
  split <;> rfl

/-- What is recorded comes to the same in maps that hold the same values. -/
theorem get?_record_congr [EquivBEq κ] {d : BuildOnce κ ν} (same : ∀ k, d.get? k = c.get? k)
    (value? : Option ν) (k : κ) : (d.record key value?).get? k = (c.record key value?).get? k := by
  cases value? with
  | none => exact same k
  | some value => rw [get?_record, get?_record, same]

theorem any_isSome_eq_isSome_get? (c : BuildOnce κ ν) (k : κ) :
    (c.cells.get? k).any Option.isSome = (c.get? k).isSome := by
  rw [get?]
  rcases c.cells.get? k with _ | _ | _ <;> rfl

/-- Which cells are empty makes no difference to the number of values. -/
theorem size_congr [EquivBEq κ] {d : BuildOnce κ ν} (same : ∀ k, c.get? k = d.get? k) :
    c.size = d.size :=
  Table.countP_congr fun k => by simp only [any_isSome_eq_isSome_get?, same]

@[simp] theorem size_enlist [EquivBEq κ] (c : BuildOnce κ ν) (key : κ) :
    (c.enlist key).size = c.size :=
  size_congr (c.get?_enlist key)

/-- A build for a missing value makes the map larger by one. -/
theorem size_record_of_missing [EquivBEq κ] (missing : c.get? key = none) (value : ν) :
    (c.record key (some value)).size = c.size + 1 := by
  have others : ∀ e ∈ c.cells.entries, e.2.isSome = true → (key == e.1) = false := by
    intro e member filled
    by_contra same
    have found : c.cells.get? key = some e.2 :=
      Table.get?_eq_some_iff.2 ⟨e, member, by simpa using same, rfl⟩
    rw [get?, found, Option.join_some] at missing
    simp [missing] at filled
  have kept : (c.cells.entries.filter fun e => !(key == e.1)).countP (·.2.isSome) = c.size := by
    rw [List.countP_filter]
    refine List.countP_congr fun e member => ?_
    simpa using others e member
  rw [← kept]
  exact List.countP_cons_of_pos rfl

/-- The map stores what the requests in a log gave, and nothing else. -/
structure Holds (c : BuildOnce κ ν) (log : List (κ × ν)) : Prop where
  stored : ∀ e ∈ log, ∀ k, (k == e.1) = true → c.get? k = some e.2
  logged : ∀ k v, c.get? k = some v → ∃ e ∈ log, (k == e.1) = true

theorem holds_nil : Holds ({} : BuildOnce κ ν) [] :=
  ⟨nofun, nofun⟩

namespace Holds

theorem get?_eq_some_iff (holds : Holds c log) {k : κ} {v : ν} :
    c.get? k = some v ↔ ∃ e ∈ log, (k == e.1) = true ∧ e.2 = v := by
  constructor
  · intro found
    obtain ⟨e, member, same⟩ := holds.logged k v found
    exact ⟨e, member, same, Option.some.inj ((holds.stored e member k same).symm.trans found)⟩
  · rintro ⟨e, member, same, rfl⟩
    exact holds.stored e member k same

/-- What is held is told by the values alone. -/
theorem congr (holds : Holds c log) {d : BuildOnce κ ν} (same : ∀ k, d.get? k = c.get? k) :
    Holds d log where
  stored e member k equal := (same k).trans (holds.stored e member k equal)
  logged k v found := holds.logged k v ((same k).symm.trans found)

/-- A stored value that is given again changes nothing. -/
theorem cached [EquivBEq κ] (holds : Holds c log) {value : ν} (stored : c.get? key = some value) :
    Holds c (log ++ [(key, value)]) := by
  constructor
  · intro e member k same
    rcases List.mem_append.1 member with old | new
    · exact holds.stored e old k same
    · obtain rfl := List.mem_singleton.1 new
      rw [← stored, get?, get?, c.cells.get?_congr same]
  · intro k v found
    obtain ⟨e, member, same⟩ := holds.logged k v found
    exact ⟨e, List.mem_append_left _ member, same⟩

/-- A build for a missing value adds its value to the log, or nothing. -/
theorem record [EquivBEq κ] (holds : Holds c log) (missing : c.get? key = none)
    (value? : Option ν) :
    Holds (c.record key value?) (log ++ (value?.map (key, ·)).toList) := by
  cases value? with
  | none => simpa [record_none] using holds
  | some value =>
    constructor
    · intro e member k same
      rcases List.mem_append.1 member with old | new
      · have apart : ¬(k == key) = true := by
          intro equal
          have known := holds.stored e old key (BEq.trans (BEq.symm equal) same)
          simp [missing] at known
        rw [get?_record, if_neg apart]
        exact holds.stored e old k same
      · obtain rfl := List.mem_singleton.1 new
        rw [get?_record, if_pos same]
    · intro k v found
      rw [get?_record] at found
      split at found
      · next same => exact ⟨(key, value), by simp, same⟩
      · obtain ⟨e, member, same⟩ := holds.logged k v found
        exact ⟨e, List.mem_append_left _ member, same⟩

/-- **As many values are stored as there are distinct keys in the log.** -/
theorem size_eq [EquivBEq κ] {δ : Type} [DecidableEq δ] (holds : Holds c log) {name : κ → δ}
    (names : ∀ a b : κ, (a == b) = true ↔ name a = name b) :
    c.size = (log.map fun e => name e.1).toFinset.card := by
  refine c.cells.countP_eq_card Option.isSome names fun d => ?_
  simp only [any_isSome_eq_isSome_get?, List.mem_toFinset, List.mem_map]
  constructor
  · rintro ⟨e, member, rfl⟩
    exact ⟨e.1, rfl, by rw [holds.stored e member e.1 (BEq.refl _)]; rfl⟩
  · rintro ⟨k, rfl, stored⟩
    obtain ⟨v, found⟩ := Option.isSome_iff_exists.1 stored
    obtain ⟨e, member, same⟩ := holds.logged k v found
    exact ⟨e, member, ((names _ _).1 same).symm⟩

end Holds

end BuildOnce

end PageBundle
