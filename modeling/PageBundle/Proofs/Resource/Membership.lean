import PageBundle.Artifact.Path
import Mathlib.Data.Finset.Dedup
import Mathlib.Data.Finset.Image
import Mathlib.Data.UInt

/-!
# Membership of reference sets

Two reference sets are the same key exactly if they have the same members (`beq_iff_membership`):
the canonical list is sorted by an order in which only equal texts tie, so the members determine it.
What is computed from the canonical list, the path of the artifact above all, depends on the
membership alone.
-/

namespace PageBundle

namespace Utf8

/-- Different texts have different bytes. -/
theorem encode_injective {xs ys : List Char} (same : encode xs = encode ys) : xs = ys := by
  have bytes : (String.ofList xs).toByteArray = (String.ofList ys).toByteArray := by
    rw [String.toByteArray_ofList, String.toByteArray_ofList]
    exact congrArg List.toByteArray same
  exact String.ofList_injective (String.toByteArray_inj.1 bytes)

theorem ofString_injective {s t : String} (same : ofString s = ofString t) : s = t :=
  String.toList_injective (encode_injective same)

end Utf8

namespace ReferenceSet

/-- The members, without an order. -/
def membership (s : ReferenceSet) : Finset String :=
  s.members.toFinset

theorem isEmpty_iff_membership {s : ReferenceSet} : s.isEmpty = true ↔ s.membership = ∅ := by
  rw [isEmpty, membership, List.isEmpty_iff, List.toFinset_eq_empty_iff]

theorem byBytes_trans (a b c : String) (ab : byBytes a b = true) (bc : byBytes b c = true) :
    byBytes a c = true := by
  simp only [byBytes, decide_eq_true_eq] at ab bc ⊢
  exact List.le_trans ab bc

theorem byBytes_total (a b : String) : (byBytes a b || byBytes b a) = true := by
  simpa [byBytes] using List.le_total (Utf8.ofString a) (Utf8.ofString b)

theorem byBytes_antisymm {a b : String} (ab : byBytes a b = true) (ba : byBytes b a = true) :
    a = b := by
  simp only [byBytes, decide_eq_true_eq] at ab ba
  exact Utf8.ofString_injective (List.le_antisymm ab ba)

/-- The canonical list is determined by the membership. -/
theorem canonical_eq_iff {a b : ReferenceSet} :
    a.canonical = b.canonical ↔ a.membership = b.membership := by
  constructor
  · intro same
    ext id
    rw [membership, membership, List.mem_toFinset, List.mem_toFinset, ← mem_canonical, same,
      mem_canonical]
  · intro same
    have members : a.members.Perm b.members :=
      List.perm_of_nodup_nodup_toFinset_eq a.nodup b.nodup same
    have canonical : a.canonical.Perm b.canonical :=
      (List.mergeSort_perm _ _).trans (members.trans (List.mergeSort_perm _ _).symm)
    refine canonical.eq_of_pairwise (fun x y _ _ => byBytes_antisymm) ?_ ?_
    · exact List.pairwise_mergeSort byBytes_trans byBytes_total a.members
    · exact List.pairwise_mergeSort byBytes_trans byBytes_total b.members

/-- **Sets are equal as keys exactly if they have the same members.** -/
theorem beq_iff_membership {a b : ReferenceSet} :
    (a == b) = true ↔ a.membership = b.membership :=
  beq_iff.trans canonical_eq_iff

instance : EquivBEq ReferenceSet where
  symm same := beq_iff_membership.2 (beq_iff_membership.1 same).symm
  trans ab bc := beq_iff_membership.2 ((beq_iff_membership.1 ab).trans (beq_iff_membership.1 bc))

end ReferenceSet

/-- The path of an artifact depends on the membership alone. -/
theorem artifactPath_congr (directory : String) (mode : BuildMode) (kind : Kind)
    {a b : ReferenceSet} (same : a.membership = b.membership) :
    artifactPath directory mode kind a = artifactPath directory mode kind b := by
  have canonical := ReferenceSet.canonical_eq_iff.2 same
  simp only [artifactPath, Fingerprint.of, Fingerprint.stream, canonical]

end PageBundle
