import PageBundle.Proofs.Artifact.Writing
import PageBundle.Proofs.Cache.Accounts

/-!
# What a request for an artifact writes

A build changes at most the file at the path of the artifact. It changes none if it fails, and there
is a file at the path if it succeeds, which it does in a memory that takes writings and a charset
that has every character. A request does what its build does, if it runs one.
-/

namespace PageBundle.ArtifactCache

open Store (Error Memory)
open Store.Memory (SameFiles ChangedAt)

section Build

variable (s : Memory) (c : ArtifactCache) (set : ReferenceSet)

/-- How an artifact is built, and what that leaves. -/
inductive Built : Build → Memory → Prop
  | failed {report : Merge} {t : Memory} {e : Error}
      (merged : Merged s c.charset set (c.pathOf set) report t)
      (failed : report.written = .error e) : Built ⟨report, []⟩ t
  | done {report : Merge} {run : Run} {t u : Memory} {size : Nat}
      (merged : Merged s c.charset set (c.pathOf set) report t)
      (written : report.written = .ok size)
      (applied : (Pipeline.applyAll Memory.store report.path c.pipeline.steps c.tools).run t =
        (run, u)) :
      Built ⟨report, run⟩ u

theorem built_build :
    Built s c set ((c.build Memory.store set).run s).1 ((c.build Memory.store set).run s).2 := by
  have merged := merged_merge s c.charset set (c.pathOf set)
  rw [build, run_bind]
  split
  · next e failed => exact .failed merged failed
  · next size written => exact .done merged written rfl

namespace Built

variable {s c set} {build : Build} {t : Memory}

/-- **A build changes at most the file at the path of the artifact.** -/
theorem changedAt (built : Built s c set build t) : ChangedAt (c.pathOf set) s t := by
  cases built with
  | failed merged => exact merged.changedAt
  | @done report run u v size merged written applied =>
    have steps := changedAt_applyAll u report.path c.pipeline.steps c.tools
    rw [applied, merged.path_eq] at steps
    exact merged.changedAt.trans steps

/-- A build that fails changes no file. -/
theorem sameFiles_of_error (built : Built s c set build t) {e : Error}
    (failed : build.path = .error e) : SameFiles s t := by
  cases built with
  | failed merged failure => exact merged.sameFiles_of_error failure
  | done merged written => simp [Build.path, written, Except.map] at failed

/-- A build fails with its merge, and no step is applied then. -/
theorem error_cases (built : Built s c set build t) {e : Error} (failed : build.path = .error e) :
    build.run = [] ∧
      (e = .encoding (c.pathOf set) c.charset.name ∨ e = .write (c.pathOf set) .readOnly) := by
  cases built with
  | @failed report t e' merged failure =>
    have same : e' = e := by simpa [Build.path, failure, Except.map] using failed
    exact ⟨rfl, merged.error_cases (same ▸ failure)⟩
  | done merged written => simp [Build.path, written, Except.map] at failed

/-- After a build that succeeds, there is a file at the path of the artifact. -/
theorem isSome_of_ok (built : Built s c set build t) {path : String}
    (succeeded : build.path = .ok path) : (t.get? (c.pathOf set)).isSome := by
  cases built with
  | failed merged failure => simp [Build.path, failure, Except.map] at succeeded
  | @done report run u v size merged written applied =>
    have steps := changedAt_applyAll u report.path c.pipeline.steps c.tools
    rw [applied, merged.path_eq] at steps
    exact steps.present (merged.isSome_of_ok written)

theorem path_eq (built : Built s c set build t) (takes : s.readOnly = false)
    (total : c.charset.Total) : build.path = .ok (c.pathOf set) := by
  cases built with
  | @failed report t e merged failure =>
    obtain ⟨size, written⟩ := merged.exists_written takes total
    rw [written] at failure
    cases failure
  | done merged written => simp [Build.path, written, merged.path_eq, Except.map]

end Built

end Build

namespace Answered

variable {s t : Memory} {c after : ArtifactCache} {set : ReferenceSet} {answer : Request}

theorem charset_eq (answered : Answered Memory.store s c set answer after t) :
    after.charset = c.charset := by
  cases answered with
  | empty | cached | ran => rfl

/-- A request that runs no build leaves the memory as it is. -/
theorem eq_of_stored (answered : Answered Memory.store s c set answer after t) {path : String}
    (stored : c.paths.get? set = some path) : t = s := by
  cases answered with
  | empty | cached => rfl
  | ran _ missing => simp [missing] at stored

theorem path_of_stored (answered : Answered Memory.store s c set answer after t)
    {path given : String} (stored : c.paths.get? set = some path)
    (succeeded : answer.path = .ok given) : given = path := by
  cases answered with
  | empty => cases succeeded
  | cached _ found =>
    rw [stored] at found
    cases found
    exact (Except.ok.inj succeeded).symm
  | ran _ missing => simp [missing] at stored

theorem changedAt (answered : Answered Memory.store s c set answer after t) :
    ChangedAt (c.pathOf set) s t := by
  cases answered with
  | empty | cached => exact (SameFiles.refl s).changedAt _
  | ran _ _ built =>
    have building := built_build s c set
    rw [built] at building
    exact building.changedAt

theorem sameFiles_of_error (answered : Answered Memory.store s c set answer after t) {e : Error}
    (failed : answer.path = .error e) : SameFiles s t := by
  cases answered with
  | empty | cached => exact .refl s
  | ran _ _ built =>
    have building := built_build s c set
    rw [built] at building
    exact building.sameFiles_of_error failed

/-- A request that runs a build and gives a path leaves a file there. -/
theorem isSome_of_missing (answered : Answered Memory.store s c set answer after t)
    (missing : c.paths.get? set = none) {path : String} (given : answer.path = .ok path) :
    (t.get? path).isSome := by
  cases answered with
  | empty => cases given
  | cached _ stored => simp [missing] at stored
  | ran _ _ built =>
    have building := built_build s c set
    have named : path = c.pathOf set := by
      apply path_build Memory.store s c set
      rw [built]
      exact given
    rw [built] at building
    rw [named]
    exact building.isSome_of_ok given

/-- Whether the path is stored or built makes no difference if the memory takes writings and the
charset has every character. -/
theorem path_eq (answered : Answered Memory.store s c set answer after t)
    (something : set.isEmpty = false) (takes : s.readOnly = false) (total : c.charset.Total)
    (named : ∀ path, c.paths.get? set = some path → path = c.pathOf set) :
    answer.path = .ok (c.pathOf set) := by
  cases answered with
  | empty nothing => simp [something] at nothing
  | cached _ stored => exact congrArg Except.ok (named _ stored)
  | ran _ _ built =>
    have building := built_build s c set
    rw [built] at building
    exact building.path_eq takes total

end Answered

end PageBundle.ArtifactCache
