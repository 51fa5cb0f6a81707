import PageBundle.Artifact.Merge
import PageBundle.Artifact.Pipeline
import PageBundle.Proofs.Cache.Stored
import PageBundle.Proofs.Store.Frame

/-!
# What making an artifact writes

`Merged` and `Step.Applied` say all that a merge and a step do to a memory. Both change at most the
file at the path of the artifact, whatever they read, and none if they fail, so the steps of a
pipeline change no other file (`changedAt_applyAll`).
-/

namespace PageBundle

open Store (Error Memory)
open Store.Memory (SameFiles ChangedAt)

namespace Charset

/-- Whether every text can be encoded. -/
def Total (charset : Charset) : Prop :=
  ∀ path text, ∃ bs, charset.encode path text = .ok bs

theorem total_utf8 : Total utf8 := by
  intro path text
  exact ⟨Utf8.encode text.toList, rfl⟩

variable {charset : Charset} {path text : String}

theorem encode?_of_ok {bs : Bytes} (encoded : charset.encode path text = .ok bs) :
    charset.encode? text = some bs := by
  rw [Charset.encode] at encoded
  split at encoded
  next bytes => rw [bytes, Except.ok.inj encoded]
  next => cases encoded

theorem encode?_of_error {e : Error} (failed : charset.encode path text = .error e) :
    e = .encoding path charset.name ∧ charset.encode? text = none := by
  rw [Charset.encode] at failed
  split at failed
  next => cases failed
  next missing => exact ⟨(Except.error.inj failed).symm, missing⟩

end Charset

variable (s : Memory)

section Merge

variable (charset : Charset) (set : ReferenceSet) (path : String)

theorem sameFiles_gather (ids : List String) :
    SameFiles s ((gather Memory.store charset ids).run s).2 := by
  induction ids generalizing s with
  | nil => exact .refl s
  | cons id ids ih =>
    rw [gather, run_bind, run_bind]
    exact (Memory.sameFiles_readText s charset id).trans (ih _)

/-- How members are merged, and what that leaves. -/
inductive Merged : Merge → Memory → Prop
  | unencodable {g : Gathering} {t : Memory} {e : Error}
      (gathered : (gather Memory.store charset set.members).run s = (g, t))
      (encoded : charset.encode path (String.ofList g.content) = .error e) :
      Merged ⟨path, g.merged, g.omitted, .error e⟩ t
  | encoded {g : Gathering} {t : Memory} {bs : Bytes}
      (gathered : (gather Memory.store charset set.members).run s = (g, t))
      (encoded : charset.encode path (String.ofList g.content) = .ok bs) :
      Merged ⟨path, g.merged, g.omitted, (t.write path bs).1.map fun _ => bs.length⟩
        (t.write path bs).2

theorem merged_merge :
    Merged s charset set path ((merge Memory.store charset set path).run s).1
      ((merge Memory.store charset set path).run s).2 := by
  rw [merge, run_bind]
  split
  · next e encoded => exact .unencodable rfl encoded
  · next bs encoded => exact .encoded rfl encoded

namespace Merged

variable {s charset set path} {report : Merge} {t : Memory}

theorem path_eq (merged : Merged s charset set path report t) : report.path = path := by
  cases merged with
  | unencodable | encoded => rfl

theorem changedAt (merged : Merged s charset set path report t) : ChangedAt path s t := by
  have files := sameFiles_gather s charset set.members
  cases merged with
  | unencodable gathered =>
    rw [gathered] at files
    exact files.changedAt path
  | @encoded g u bs gathered =>
    rw [gathered] at files
    exact (files.changedAt path).trans (Memory.changedAt_write u path bs)

theorem sameFiles_of_error (merged : Merged s charset set path report t) {e : Error}
    (failed : report.written = .error e) : SameFiles s t := by
  have files := sameFiles_gather s charset set.members
  cases merged with
  | unencodable gathered => rwa [gathered] at files
  | @encoded g u bs gathered =>
    rw [gathered] at files
    cases result : (u.write path bs).1 with
    | ok => simp [result, Except.map] at failed
    | error e => rwa [Memory.write_of_error result]

/-- A merge fails if its text cannot be encoded or the memory refuses writings. -/
theorem error_cases (merged : Merged s charset set path report t) {e : Error}
    (failed : report.written = .error e) :
    e = .encoding path charset.name ∨ e = .write path .readOnly := by
  cases merged with
  | @unencodable g u e' gathered encoded =>
    obtain rfl : e' = e := Except.error.inj failed
    exact .inl (Charset.encode?_of_error encoded).1
  | @encoded g u bs gathered =>
    right
    cases takes : u.readOnly with
    | false => simp [Memory.write_of_writable bs takes, Except.map] at failed
    | true =>
      rw [Memory.write_of_readOnly bs takes] at failed
      exact (Except.error.inj failed).symm

/-- After a merge that succeeds, there is a file at the path. -/
theorem isSome_of_ok (merged : Merged s charset set path report t) {size : Nat}
    (written : report.written = .ok size) : (t.get? path).isSome := by
  cases merged with
  | unencodable => cases written
  | @encoded g u bs gathered =>
    cases takes : u.readOnly with
    | false =>
      rw [Memory.get?_write_self bs takes]
      rfl
    | true => simp [Memory.write_of_readOnly bs takes, Except.map] at written

/-- A merge succeeds if the memory takes writings and the charset has every character. -/
theorem exists_written (merged : Merged s charset set path report t) (takes : s.readOnly = false)
    (total : charset.Total) : ∃ size, report.written = .ok size := by
  have files := sameFiles_gather s charset set.members
  cases merged with
  | @unencodable g u e gathered encoded =>
    obtain ⟨bs, encodes⟩ := total path (String.ofList g.content)
    rw [encodes] at encoded
    cases encoded
  | @encoded g u bs gathered =>
    rw [gathered] at files
    refine ⟨bs.length, ?_⟩
    rw [Memory.write_of_writable bs (files.readOnly.trans takes)]
    rfl

end Merged

end Merge

namespace Step

variable (tools : Tools)

/-- What a step makes of the bytes of an artifact. -/
def transform (path : String) : Step → Bytes → Except Error (Option Receipt × Bytes)
  | .minify kind charset, bs => do
    let text ← charset.decode path bs
    let minified ← (kind.minify text tools).mapError Error.styleSheet
    let bs ← charset.encode path minified
    return (none, bs)
  | .compress level ledger, bs => do
    let encoded ← (tools.compress level bs).mapError Error.compression
    return (some ⟨ledger, bs.length, encoded.length⟩, encoded)
  | .refuse _ _, _ => .error (.notFound path)

/-- How a step is applied, and what that leaves. -/
inductive Applied (path : String) (step : Step) :
    Except Error (Option Receipt) → Memory → Prop
  | failed {e : Error} {t : Memory} (made : (s.read path).1.bind (step.transform tools path) = .error e)
      (same : SameFiles s t) : Applied path step (.error e) t
  | refused {receipt : Option Receipt} {bs : Bytes} {t : Memory}
      (made : (s.read path).1.bind (step.transform tools path) = .ok (receipt, bs))
      (refuses : s.readOnly = true) (same : SameFiles s t) :
      Applied path step (.error (.write path .readOnly)) t
  | replaced {receipt : Option Receipt} {bs : Bytes} {t : Memory}
      (made : (s.read path).1.bind (step.transform tools path) = .ok (receipt, bs))
      (takes : s.readOnly = false) (changed : ChangedAt path s t) (here : t.get? path = some bs) :
      Applied path step (.ok receipt) t

/-- What was made of an artifact is written in its place. -/
theorem applied_write {path : String} {step : Step} {receipt : Option Receipt} {bs : Bytes}
    {t : Memory} (made : (s.read path).1.bind (step.transform tools path) = .ok (receipt, bs))
    (same : SameFiles s t) :
    Applied s tools path step ((t.write path bs).1.map fun _ => receipt) (t.write path bs).2 := by
  cases takes : t.readOnly with
  | true =>
    rw [Memory.write_of_readOnly bs takes]
    exact .refused made (same.readOnly ▸ takes) same
  | false =>
    have changed := (same.changedAt path).trans (Memory.changedAt_write t path bs)
    have here : (t.write path bs).2.get? path = some bs := Memory.get?_write_self bs takes
    rw [Memory.write_of_writable bs takes] at changed here ⊢
    exact .replaced made (same.readOnly ▸ takes) changed here

/-- A text is read, minified and encoded, and the first of these that fails is the error. -/
theorem bind_transform_minify (path : String) (kind : Kind) (charset : Charset)
    (r : Except Error Bytes) :
    r.bind (transform tools path (.minify kind charset)) =
      ((r.bind (charset.decode path)).bind fun t =>
        (kind.minify t tools).mapError Error.styleSheet).bind fun text =>
          (charset.encode path text).map (none, ·) := by
  cases r with
  | error e => rfl
  | ok contents =>
    cases decoded : charset.decode path contents with
    | error e => simp [transform, Except.bind, decoded, bind]
    | ok text =>
      cases minified : (kind.minify text tools).mapError Error.styleSheet with
      | error e => simp [transform, Except.bind, decoded, minified, bind]
      | ok text =>
        cases encoded : charset.encode path text with
        | error e => simp [transform, Except.bind, decoded, minified, encoded, bind, Except.map]
        | ok bs =>
          simp [transform, Except.bind, decoded, minified, encoded, bind, Except.map, pure,
            Except.pure]

theorem applied_apply (path : String) (step : Step) :
    Applied s tools path step ((step.apply Memory.store path tools).run s).1
      ((step.apply Memory.store path tools).run s).2 := by
  have same := Memory.sameFiles_read s path
  cases step with
  | minify kind charset =>
    have made := bind_transform_minify tools path kind charset (s.read path).1
    have texts : (Memory.store.readText charset path).run s =
        ((s.read path).1.bind (charset.decode path), (s.read path).2) := rfl
    rw [apply, run_bind, texts]
    dsimp only
    split
    · next e failed =>
      rw [failed] at made
      exact .failed made same
    · next text minified =>
      rw [minified] at made
      rw [run_bind, Store.writeText]
      cases encoded : charset.encode path text with
      | error e =>
        simp only [Except.bind, encoded, Except.map] at made
        exact .failed made same
      | ok bs =>
        simp only [Except.bind, encoded, Except.map] at made
        exact applied_write s tools made same
  | compress level ledger =>
    have bytes : (Memory.store.read path).run s = s.read path := rfl
    rw [apply, run_bind, bytes]
    cases found : (s.read path).1 with
    | error e => exact .failed (by rw [found]; rfl) same
    | ok contents =>
      dsimp only
      cases encoded : tools.compress level contents with
      | error e =>
        refine .failed ?_ same
        simp [found, transform, Except.bind, encoded, bind, Except.mapError]
      | ok bs =>
        refine applied_write s tools ?_ same
        simp [found, transform, Except.bind, encoded, bind, Except.mapError, pure, Except.pure]
  | refuse name encodesBytes =>
    refine .failed ?_ (.refl s)
    rw [Memory.read]
    cases s.get? path with
    | none => rfl
    | some contents => rfl

namespace Applied

variable {s tools} {path : String} {step : Step} {result : Except Error (Option Receipt)} {t : Memory}

theorem changedAt (applied : Applied s tools path step result t) : ChangedAt path s t := by
  cases applied with
  | failed _ same | refused _ _ same => exact same.changedAt path
  | replaced _ _ changed => exact changed

end Applied

end Step

/-- The steps of a pipeline change no other file. -/
theorem changedAt_applyAll (path : String) (steps : List Step) (tools : Tools) :
    ChangedAt path s ((Pipeline.applyAll Memory.store path steps tools).run s).2 := by
  induction steps generalizing s with
  | nil => exact (SameFiles.refl s).changedAt path
  | cons step steps ih =>
    rw [Pipeline.applyAll, run_bind, run_bind]
    exact (Step.applied_apply s tools path step).changedAt.trans (ih _)

end PageBundle
