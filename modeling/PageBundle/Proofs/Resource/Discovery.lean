import PageBundle.Proofs.Resource.Membership

/-!
# Sets of what was found

What is found is a list of identifiers, in any order and with repetitions. The set of it keeps each
identifier where it was found first (`pairwise_members_ofList`), lists them once more in the strict
order of their bytes (`pairwise_canonical`), and is told from others by membership alone: two lists
give equal sets exactly if they have the same elements, and exactly then a hasher cannot tell the
sets apart (`feed_eq_iff`).
-/

namespace PageBundle.ReferenceSet

/-! ## The order of discovery -/

section Members

variable {ids : List String}

theorem members_ofList (ids : List String) : (ofList ids).members = ids.eraseDups := rfl

theorem mem_members_ofList {id : String} : id ∈ (ofList ids).members ↔ id ∈ ids :=
  List.mem_eraseDups

/-- One more identifier is put behind the others, unless it was found before. -/
theorem members_ofList_concat (ids : List String) (id : String) :
    (ofList (ids ++ [id])).members =
      if id ∈ ids then (ofList ids).members else (ofList ids).members ++ [id] := by
  rw [members_ofList, members_ofList, List.eraseDups_append]
  by_cases found : id ∈ ids <;> simp [List.removeAll, found, List.eraseDups_cons]

/-- **Members stand in the order in which they were found first.** -/
theorem pairwise_members_ofList (ids : List String) :
    (ofList ids).members.Pairwise fun a b => ids.idxOf a < ids.idxOf b := by
  induction ids using List.reverseRecOn with
  | nil => exact .nil
  | append_singleton ids id ih =>
    have earlier : (ofList ids).members.Pairwise fun a b =>
        (ids ++ [id]).idxOf a < (ids ++ [id]).idxOf b := by
      refine ih.imp_of_mem fun {a b} here there before => ?_
      rwa [List.idxOf_append_of_mem (mem_members_ofList.1 here),
        List.idxOf_append_of_mem (mem_members_ofList.1 there)]
    rw [members_ofList_concat]
    split
    · exact earlier
    · rename_i new
      refine List.pairwise_append.2 ⟨earlier, List.pairwise_singleton _ _, ?_⟩
      intro a here b last
      rw [List.mem_singleton.1 last, List.idxOf_append_of_mem (mem_members_ofList.1 here),
        List.idxOf_append_of_notMem new]
      exact Nat.lt_add_right _ (List.idxOf_lt_length_iff.2 (mem_members_ofList.1 here))

/-- Nothing but repetitions is left out. -/
theorem members_ofList_sublist (ids : List String) : (ofList ids).members.Sublist ids := by
  induction ids using List.reverseRecOn with
  | nil => exact .slnil
  | append_singleton ids id ih =>
    rw [members_ofList_concat]
    split
    · exact ih.trans (List.sublist_append_left _ _)
    · exact ih.append (.refl _)

theorem members_ofList_of_nodup (distinct : ids.Nodup) : (ofList ids).members = ids := by
  induction ids using List.reverseRecOn with
  | nil => rfl
  | append_singleton ids id ih =>
    obtain ⟨new, others⟩ := List.nodup_cons.1 (List.nodup_append_comm.1 distinct)
    rw [members_ofList_concat, if_neg (by simpa using new), ih (by simpa using others)]

theorem membership_ofList_eq_iff {xs ys : List String} :
    (ofList xs).membership = (ofList ys).membership ↔ ∀ id, id ∈ xs ↔ id ∈ ys := by
  simp only [Finset.ext_iff, membership, List.mem_toFinset, mem_members_ofList]

end Members

/-! ## The canonical order -/

theorem byBytes_refl (a : String) : byBytes a a = true :=
  decide_eq_true (List.le_refl _)

theorem pairwise_byBytes_canonical (s : ReferenceSet) :
    s.canonical.Pairwise fun a b => byBytes a b = true :=
  List.pairwise_mergeSort byBytes_trans byBytes_total s.members

/-- **The canonical list is in the strict order of bytes.** -/
theorem pairwise_canonical (s : ReferenceSet) :
    s.canonical.Pairwise fun a b => Utf8.ofString a < Utf8.ofString b := by
  have distinct : s.canonical.Nodup := (List.mergeSort_perm _ _).nodup_iff.2 s.nodup
  refine (s.pairwise_byBytes_canonical).imp₂ (fun a b le ne => ?_) distinct
  rcases List.le_iff_lt_or_eq.1 (of_decide_eq_true le) with lt | same
  · exact lt
  · exact absurd (Utf8.ofString_injective same) ne

/-- **What is looked for in the canonical list is found exactly if it is a member.** -/
theorem contains_iff {s : ReferenceSet} {id : String} : s.contains id = true ↔ id ∈ s.members := by
  have antisymm : ∀ a b, byBytes a b = true → byBytes b a = true → a = b := fun _ _ =>
    byBytes_antisymm
  rw [contains, Sorted.contains_iff byBytes_refl antisymm s.pairwise_byBytes_canonical,
    mem_canonical]

/-! ## What hashers are fed -/

/-- A hasher that keeps the texts that it is fed. -/
def recorder : Hasher (List Bytes) where
  count _ state := state
  bytes bs state := state ++ [bs]
  byte _ state := state

theorem feed_recorder (s : ReferenceSet) : s.feed recorder [] = s.canonical.map Utf8.ofString := by
  have fed (ids : List String) (state : List Bytes) :
      ids.foldl (fun state id => recorder.byte 0xFF (recorder.bytes (Utf8.ofString id) state)) state =
        state ++ ids.map Utf8.ofString := by
    induction ids generalizing state with
    | nil => simp
    | cons id ids ih => rw [List.foldl_cons, ih]; simp [recorder]
  exact fed s.canonical []

/-- **Hashers tell sets apart by their members, and by nothing else.** -/
theorem feed_eq_iff {a b : ReferenceSet} :
    (∀ (σ : Type) (h : Hasher σ) (state : σ), a.feed h state = b.feed h state) ↔
      a.membership = b.membership := by
  rw [← canonical_eq_iff]
  constructor
  · intro same
    have recorded := same _ recorder []
    rw [feed_recorder, feed_recorder] at recorded
    exact List.map_injective_iff.2 (fun _ _ => Utf8.ofString_injective) recorded
  · intro same σ h state
    rw [feed, feed, same]

/-! ## Values -/

/-- **A set is read as it was written**, members in the same order. -/
theorem ofValue?_toValue (s : ReferenceSet) : ofValue? s.toValue = some s := by
  have texts : (s.members.map Value.text).mapM (Value.text? .exact) = some s.members := by
    induction s.members with
    | nil => rfl
    | cons id ids ih => simp [ih, Value.text?]
  have read : ofValue? s.toValue = some (ofList s.members) := by
    rw [ofValue?, toValue, Value.ofTexts, Value.texts?, texts]
    rfl
  obtain ⟨members, distinct⟩ := s
  rw [read, Option.some.injEq, ReferenceSet.mk.injEq]
  exact members_ofList_of_nodup distinct

/-- **A reference set is its membership.** Sets of two lists are equal exactly if the lists have the
same elements, and exactly then every hasher takes in the same; their fingerprints are the same then.
A set of a list has its elements, each in the place where it stands first, in strict order of bytes
in the canonical list, and it contains nothing else; as a value it keeps them in their places. -/
theorem ofList_tells_membership (xs ys : List String) :
    ((ofList xs == ofList ys) = true ↔ ∀ id, id ∈ xs ↔ id ∈ ys) ∧
    ((ofList xs == ofList ys) = true ↔
      ∀ (σ : Type) (h : Hasher σ) (state : σ), (ofList xs).feed h state = (ofList ys).feed h state) ∧
    ((ofList xs == ofList ys) = true →
      Fingerprint.of (ofList xs) = Fingerprint.of (ofList ys)) ∧
    (∀ id, id ∈ (ofList xs).members ↔ id ∈ xs) ∧
    (ofList xs).members.Sublist xs ∧
    (ofList xs).members.Pairwise (fun a b => xs.idxOf a < xs.idxOf b) ∧
    (∀ id, id ∈ (ofList xs).canonical ↔ id ∈ xs) ∧
    (ofList xs).canonical.Pairwise (fun a b => Utf8.ofString a < Utf8.ofString b) ∧
    (∀ id, (ofList xs).contains id = true ↔ id ∈ xs) ∧
    ofValue? (ofList xs).toValue = some (ofList xs) := by
  have equal : (ofList xs == ofList ys) = true ↔ (ofList xs).membership = (ofList ys).membership :=
    beq_iff_membership
  refine ⟨equal.trans membership_ofList_eq_iff, equal.trans feed_eq_iff.symm, fun same => ?_,
    fun id => mem_members_ofList, members_ofList_sublist xs, pairwise_members_ofList xs,
    fun id => mem_canonical.trans mem_members_ofList, pairwise_canonical _,
    fun id => contains_iff.trans mem_members_ofList, ofValue?_toValue _⟩
  rw [Fingerprint.of, Fingerprint.of, Fingerprint.stream, Fingerprint.stream, beq_iff.1 same]

end PageBundle.ReferenceSet
