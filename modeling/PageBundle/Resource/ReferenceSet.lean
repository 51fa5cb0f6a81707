import PageBundle.Collection.Sorted
import PageBundle.Text.Utf8
import PageBundle.Value.Basic

/-!
# Reference sets

The identifiers that are merged into one artifact. They keep the order in which they were found,
without repetitions, since merging follows it. Two sets are the same whenever they have the same
members: `canonical` lists the members in the order of their UTF-8 bytes, and `==` compares these
lists. They are also what a hasher is fed, and what a member is looked for in.
-/

namespace PageBundle

/-- Distinct identifiers, in the order in which they were found. -/
structure ReferenceSet where
  members : List String
  nodup : members.Nodup

namespace ReferenceSet

theorem nodup_eraseDups (ids : List String) : ids.eraseDups.Nodup := by
  match ids with
  | [] => simp
  | id :: ids =>
    rw [List.eraseDups_cons, List.nodup_cons]
    refine ⟨fun h => ?_, nodup_eraseDups _⟩
    simpa using (List.mem_filter.1 (List.mem_eraseDups.1 h)).2
termination_by ids.length
decreasing_by
  have := List.length_filter_le (fun b => !b == id) ids
  simp only [List.length_cons]
  omega

/-- The set of some identifiers; of equal ones, the first counts. -/
def ofList (ids : List String) : ReferenceSet :=
  ⟨ids.eraseDups, nodup_eraseDups ids⟩

/-- The order of texts by their UTF-8 bytes. -/
def byBytes (a b : String) : Bool :=
  decide (Utf8.ofString a ≤ Utf8.ofString b)

/-- The members in the order of their bytes, which does not depend on how they were found. -/
def canonical (s : ReferenceSet) : List String :=
  s.members.mergeSort byBytes

instance : BEq ReferenceSet := ⟨fun a b => a.canonical == b.canonical⟩

/-- How many members there are. -/
def size (s : ReferenceSet) : Nat :=
  s.members.length

/-- Whether there is no member. -/
def isEmpty (s : ReferenceSet) : Bool :=
  s.members.isEmpty

/-- Whether `id` is a member. -/
def contains (s : ReferenceSet) (id : String) : Bool :=
  Sorted.contains byBytes s.canonical id

/-- Something that takes in data piece by piece and has states in `σ`. -/
structure Hasher (σ : Type) where
  /-- Takes in how many items follow. -/
  count : Nat → σ → σ
  bytes : Bytes → σ → σ
  byte : UInt8 → σ → σ

/-- The state of a hasher after it has taken in a set: the number of the members, and each of them in
canonical order with a byte behind it that stands in no text. -/
def feed {σ : Type} (h : Hasher σ) (s : ReferenceSet) (state : σ) : σ :=
  s.canonical.foldl (fun state id => h.byte 0xFF (h.bytes (Utf8.ofString id) state))
    (h.count s.canonical.length state)

/-- The set as a value: its members in the order in which they were found. -/
def toValue (s : ReferenceSet) : Value :=
  Value.ofTexts s.members

/-- The set that a value tells. -/
def ofValue? (v : Value) : Option ReferenceSet :=
  (v.texts? .exact).map ofList

theorem beq_iff {a b : ReferenceSet} : (a == b) = true ↔ a.canonical = b.canonical := by
  change (a.canonical == b.canonical) = true ↔ _
  exact beq_iff_eq

instance : ReflBEq ReferenceSet := ⟨beq_iff.2 rfl⟩

theorem mem_canonical {s : ReferenceSet} {id : String} : id ∈ s.canonical ↔ id ∈ s.members :=
  List.mem_mergeSort

end ReferenceSet

end PageBundle
