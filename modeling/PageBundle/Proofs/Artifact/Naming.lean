import PageBundle.Proofs.Resource.Membership

/-!
# What the path of an artifact tells

The path of an artifact can be read backwards: its last slash ends the directory, its last dot the
fingerprint, and the file name begins with the build mode (`artifactPath_eq_iff`). The fingerprint
digests a stream of members, each after its length, that can be cut into the members again
(`Fingerprint.stream_eq_iff`). So the path under one directory, mode and kind tells the members,
unless two streams have digests that begin with the same sixteen bytes.
-/

namespace PageBundle

section Cutting

variable {α β : Type}

/-- A list is cut in one way only at the last occurrence of an element. -/
theorem append_cons_inj_last {c : α} {xs xs' ys ys' : List α} (last : c ∉ ys) (last' : c ∉ ys')
    (same : xs ++ c :: ys = xs' ++ c :: ys') : xs = xs' ∧ ys = ys' := by
  rcases List.append_eq_append_iff.1 same with ⟨between, front, back⟩ | ⟨between, front, back⟩
  · cases between with
    | nil => simpa [eq_comm] using And.intro front back
    | cons b between =>
      obtain ⟨rfl, rfl⟩ := List.cons.inj back
      exact absurd (by simp) last
  · cases between with
    | nil => simpa [eq_comm] using And.intro front back
    | cons b between =>
      obtain ⟨rfl, rfl⟩ := List.cons.inj back
      exact absurd (by simp) last'

/-- A sequence of codes is read in one way only if no code is empty and each tells its end. -/
theorem flatMap_inj {code : α → List β} {xs ys : List α} (filled : ∀ x, code x ≠ [])
    (ends : ∀ x ∈ xs, ∀ y ∈ ys, ∀ r s, code x ++ r = code y ++ s → x = y ∧ r = s)
    (same : xs.flatMap code = ys.flatMap code) : xs = ys := by
  induction xs generalizing ys with
  | nil =>
    cases ys with
    | nil => rfl
    | cons y ys => simp [filled] at same
  | cons x xs ih =>
    cases ys with
    | nil => simp [filled] at same
    | cons y ys =>
      rw [List.flatMap_cons, List.flatMap_cons] at same
      obtain ⟨rfl, rest⟩ := ends x (by simp) y (by simp) _ _ same
      rw [ih (fun x' mem y' mem' => ends x' (by simp [mem]) y' (by simp [mem'])) rest]

end Cutting

namespace Hex

theorem digit_inj : ∀ m < 16, ∀ n < 16, digit m = digit n → m = n := by
  decide

theorem ofByte_inj {b c : UInt8} {r s : List Char} (same : ofByte b ++ r = ofByte c ++ s) :
    b = c ∧ r = s := by
  obtain ⟨high, low, rest⟩ : digit (b.toNat / 16) = digit (c.toNat / 16) ∧
      digit (b.toNat % 16) = digit (c.toNat % 16) ∧ r = s := by
    simpa [ofByte] using same
  have bound := b.toNat_lt
  have bound' := c.toNat_lt
  have quotient := digit_inj _ (by omega) _ (by omega) high
  have remainder := digit_inj _ (by omega) _ (by omega) low
  exact ⟨UInt8.toNat_inj.1 (by omega), rest⟩

/-- Different bytes have different digits. -/
theorem ofBytes_injective {bs cs : Bytes} (same : ofBytes bs = ofBytes cs) : bs = cs :=
  flatMap_inj (fun b => by simp [ofByte]) (fun _ _ _ _ _ _ => ofByte_inj)
    (String.ofList_injective same)

theorem slash_notMem_digit : ∀ n < 16, digit n ≠ '/' := by
  decide

theorem slash_notMem_ofBytes (bs : Bytes) : '/' ∉ (ofBytes bs).toList := by
  rw [ofBytes, String.toList_ofList, List.mem_flatMap]
  rintro ⟨b, -, mem⟩
  have bound := b.toNat_lt
  have high := slash_notMem_digit (b.toNat / 16) (by omega)
  have low := slash_notMem_digit (b.toNat % 16) (by omega)
  simp [ofByte, high.symm, low.symm] at mem

end Hex

/-- Whether the lengths of all members fit the eight bytes in which they are hashed. -/
def ReferenceSet.HasShortMembers (s : ReferenceSet) : Prop :=
  ∀ id ∈ s.members, (Utf8.ofString id).length < 2 ^ 64

instance (s : ReferenceSet) : Decidable s.HasShortMembers :=
  inferInstanceAs (Decidable (∀ id ∈ s.members, (Utf8.ofString id).length < 2 ^ 64))

namespace Fingerprint

theorem frame_ne_nil (id : String) : frame id ≠ [] := by
  intro none
  have := congrArg List.length none
  simp [frame] at this

/-- The length in front of a member tells its end. -/
theorem frame_inj {x y : String} {r s : Bytes} (short : (Utf8.ofString x).length < 2 ^ 64)
    (short' : (Utf8.ofString y).length < 2 ^ 64) (same : frame x ++ r = frame y ++ s) :
    x = y ∧ r = s := by
  rw [frame, frame, List.append_assoc, List.append_assoc] at same
  obtain ⟨header, rest⟩ := List.append_inj same (by simp)
  have lengths : (Utf8.ofString x).length = (Utf8.ofString y).length := by
    have modulus : Nat.pow 256 8 = 2 ^ 64 := rfl
    have read := congrArg ofLittleEndian header
    rw [ofLittleEndian_littleEndian, ofLittleEndian_littleEndian, modulus,
      Nat.mod_eq_of_lt short, Nat.mod_eq_of_lt short'] at read
    exact read
  obtain ⟨bytes, rest⟩ := List.append_inj rest lengths
  exact ⟨Utf8.ofString_injective bytes, rest⟩

/-- **What is hashed of a set tells its members, and nothing else.** -/
theorem stream_eq_iff {a b : ReferenceSet} (short : a.HasShortMembers)
    (short' : b.HasShortMembers) : stream a = stream b ↔ a.membership = b.membership := by
  rw [← ReferenceSet.canonical_eq_iff]
  constructor
  · intro same
    refine flatMap_inj frame_ne_nil (fun x mem y mem' _ _ => ?_) same
    exact frame_inj (short x (ReferenceSet.mem_canonical.1 mem))
      (short' y (ReferenceSet.mem_canonical.1 mem'))
  · intro same
    rw [stream, stream, same]

end Fingerprint

theorem slash_notMem_artifactName (mode : BuildMode) (kind : Kind) (f : Fingerprint) :
    '/' ∉ (artifactName mode kind f).toList := by
  have start : '/' ∉ mode.filePrefix.toList := by cases mode <;> decide
  have extension : '/' ∉ kind.fileExtension.toList := by cases kind <;> decide
  simp [artifactName, Fingerprint.hex, start, extension, Hex.slash_notMem_ofBytes]

theorem dot_notMem_fileExtension (kind : Kind) : '.' ∉ kind.fileExtension.toList := by
  cases kind <;> decide

theorem fileExtension_inj {kind kind' : Kind}
    (same : kind.fileExtension.toList = kind'.fileExtension.toList) : kind = kind' := by
  revert same
  cases kind <;> cases kind' <;> decide

/-- No start of a file name begins another. -/
theorem filePrefix_inj {mode mode' : BuildMode} {r s : List Char}
    (same : mode.filePrefix.toList ++ r = mode'.filePrefix.toList ++ s) : mode = mode' ∧ r = s := by
  cases mode <;> cases mode' <;> simp_all [BuildMode.filePrefix]

/-- The file name of an artifact tells the mode, the kind and the fingerprint. -/
theorem artifactName_inj {mode mode' : BuildMode} {kind kind' : Kind} {f f' : Fingerprint}
    (same : artifactName mode kind f = artifactName mode' kind' f') :
    mode = mode' ∧ kind = kind' ∧ f = f' := by
  have chars (mode : BuildMode) (kind : Kind) (f : Fingerprint) :
      (artifactName mode kind f).toList =
        (mode.filePrefix.toList ++ f.hex.toList) ++ '.' :: kind.fileExtension.toList := by
    simp [artifactName]
  have cut := congrArg String.toList same
  rw [chars, chars] at cut
  obtain ⟨stem, extension⟩ :=
    append_cons_inj_last (dot_notMem_fileExtension kind) (dot_notMem_fileExtension kind') cut
  obtain ⟨sameMode, digits⟩ := filePrefix_inj stem
  have bytes : f.bytes = f'.bytes := Hex.ofBytes_injective (String.toList_injective digits)
  exact ⟨sameMode, fileExtension_inj extension, congrArg Fingerprint.mk bytes⟩

/-- What stands before the last slash of an artifact's path. -/
def artifactFolder (directory : String) : List Char :=
  if normalDirectory directory = "" then [] else '/' :: (normalDirectory directory).toList

theorem artifactFolder_eq_iff {d d' : String} :
    artifactFolder d = artifactFolder d' ↔ normalDirectory d = normalDirectory d' := by
  constructor
  · intro same
    unfold artifactFolder at same
    split at same <;> split at same
    next empty empty' => rw [empty, empty']
    next => cases same
    next => cases same
    next => exact String.toList_injective (List.cons.inj same).2
  · intro same
    rw [artifactFolder, artifactFolder, same]

theorem toList_artifactPath (d : String) (mode : BuildMode) (kind : Kind) (s : ReferenceSet) :
    (artifactPath d mode kind s).toList =
      artifactFolder d ++ '/' :: (artifactName mode kind (Fingerprint.of s)).toList := by
  by_cases empty : normalDirectory d = "" <;> simp [artifactPath, artifactFolder, empty]

/-- **A path tells the normalised directory, the mode, the kind and the fingerprint**, even if the
directory looks like an artifact's name. -/
theorem artifactPath_eq_iff {d d' : String} {mode mode' : BuildMode} {kind kind' : Kind}
    {a b : ReferenceSet} :
    artifactPath d mode kind a = artifactPath d' mode' kind' b ↔
      normalDirectory d = normalDirectory d' ∧ mode = mode' ∧ kind = kind' ∧
        Fingerprint.of a = Fingerprint.of b := by
  rw [← String.toList_inj, toList_artifactPath, toList_artifactPath, ← artifactFolder_eq_iff]
  constructor
  · intro same
    obtain ⟨folder, name⟩ := append_cons_inj_last (slash_notMem_artifactName mode kind _)
      (slash_notMem_artifactName mode' kind' _) same
    exact ⟨folder, artifactName_inj (String.toList_injective name)⟩
  · rintro ⟨folder, rfl, rfl, fingerprint⟩
    rw [folder, fingerprint]

/-- **Paths identify memberships up to collisions of the digest.** Paths are equal exactly if the
normalised directories, modes, kinds and fingerprints are, and the streams that are hashed exactly
if the members are. So in one place sets with the same members share a path, and sets with
different members do exactly if their streams differ and have digests that begin with the same
sixteen bytes. -/
theorem artifactPath_identifies_membership (a b : ReferenceSet) :
    (∀ d d' mode mode' kind kind',
      artifactPath d mode kind a = artifactPath d' mode' kind' b ↔
        normalDirectory d = normalDirectory d' ∧ mode = mode' ∧ kind = kind' ∧
          Fingerprint.of a = Fingerprint.of b) ∧
    (a.HasShortMembers → b.HasShortMembers →
      (Fingerprint.stream a = Fingerprint.stream b ↔ a.membership = b.membership)) ∧
    ∀ d mode kind,
      (a.membership = b.membership → artifactPath d mode kind a = artifactPath d mode kind b) ∧
      (a.HasShortMembers → b.HasShortMembers → a.membership ≠ b.membership →
        (artifactPath d mode kind a = artifactPath d mode kind b ↔
          Fingerprint.stream a ≠ Fingerprint.stream b ∧
            (Sha256.digest (Fingerprint.stream a)).take 16 =
              (Sha256.digest (Fingerprint.stream b)).take 16)) := by
  refine ⟨fun _ _ _ _ _ _ => artifactPath_eq_iff, Fingerprint.stream_eq_iff, fun d mode kind =>
    ⟨artifactPath_congr d mode kind, fun short short' other => ?_⟩⟩
  have differ : Fingerprint.stream a ≠ Fingerprint.stream b :=
    fun same => other ((Fingerprint.stream_eq_iff short short').1 same)
  rw [artifactPath_eq_iff]
  simp [Fingerprint.of, differ]

/-- Two scripts found in either order have one stream and one path, however the directory is
written; a script with a longer name in their place has another stream. -/
theorem artifactPath_identifies_reordered :
    let a := ReferenceSet.ofList ["/a.js", "/b.js"]
    let b := ReferenceSet.ofList ["/b.js", "/a.js"]
    let c := ReferenceSet.ofList ["/a.js/b.js"]
    Fingerprint.stream a = Fingerprint.stream b ∧ Fingerprint.stream a ≠ Fingerprint.stream c ∧
      artifactPath "/js/" .static .script a = artifactPath " js " .static .script b := by
  intro a b c
  have short : a.HasShortMembers ∧ b.HasShortMembers ∧ c.HasShortMembers := by decide
  have same : a.membership = b.membership := by decide
  have other : a.membership ≠ c.membership := by decide
  obtain ⟨paths, streams, -⟩ := artifactPath_identifies_membership a b
  have streams' := (artifactPath_identifies_membership a c).2.1 short.1 short.2.2
  have stream := (streams short.1 short.2.1).2 same
  exact ⟨stream, mt streams'.1 other, (paths _ _ _ _ _ _).2 ⟨by decide, rfl, rfl, by
    rw [Fingerprint.of, Fingerprint.of, stream]⟩⟩

end PageBundle
