import PageBundle.Cache.Artifacts
import PageBundle.Proofs.Cache.Stored
import PageBundle.Proofs.Store.Frame

/-!
# Counters make no difference

A memory counts readings and writings, but nothing that works on it looks at the counts. What comes
of a computation, and which files it leaves, follows from the files that it finds (`Blind`). Reading
and writing are blind, and so is all that is put together from them, up to the building of an
artifact.
-/

namespace PageBundle

open Store (Memory)

namespace Store.Memory

/-- The computation cannot tell memories with the same files apart, and leaves the same files in
both. -/
def Blind {α : Type} (x : StateM Memory α) : Prop :=
  ∀ s t, SameFiles s t →
    (x.run t).1 = (x.run s).1 ∧ SameFiles (x.run s).2 (x.run t).2

variable {α β : Type}

theorem blind_pure (a : α) : Blind (pure a) :=
  fun _ _ same => ⟨rfl, same⟩

/-- One blind computation after another is blind. -/
theorem Blind.bind {x : StateM Memory α} {f : α → StateM Memory β} (first : Blind x)
    (second : ∀ a, Blind (f a)) : Blind (x >>= f) := by
  intro s t same
  obtain ⟨result, files⟩ := first s t same
  rw [run_bind, run_bind, result]
  exact second _ _ _ files

theorem blind_read (path : String) : Blind (store.read path) := by
  intro s t same
  have found : t.get? path = s.get? path := same.get? path
  refine ⟨?_, same.resources, same.readOnly⟩
  show (t.read path).1 = (s.read path).1
  rw [read, read, found]

theorem blind_write (path : String) (contents : Bytes) : Blind (store.write path contents) := by
  intro s t same
  have policy := same.readOnly
  show (t.write path contents).1 = (s.write path contents).1 ∧
    SameFiles (s.write path contents).2 (t.write path contents).2
  cases takes : s.readOnly with
  | true =>
    rw [write_of_readOnly contents takes, write_of_readOnly contents (policy.trans takes)]
    exact ⟨rfl, same⟩
  | false =>
    rw [write_of_writable contents takes, write_of_writable contents (policy.trans takes)]
    refine ⟨rfl, ?_, policy⟩
    show t.resources.insert path contents = s.resources.insert path contents
    rw [same.resources]

theorem blind_readText (charset : Charset) (path : String) : Blind (store.readText charset path) :=
  (blind_read path).bind fun _ => blind_pure _

theorem blind_writeText (charset : Charset) (path text : String) :
    Blind (store.writeText charset path text) := by
  rw [writeText]
  split
  · exact blind_write path _
  · exact blind_pure _

end Store.Memory

open Store.Memory (Blind blind_pure blind_read blind_write blind_readText blind_writeText)

theorem blind_gather (charset : Charset) (ids : List String) :
    Blind (gather Memory.store charset ids) := by
  induction ids with
  | nil => exact blind_pure _
  | cons id ids ih =>
    exact (blind_readText charset id).bind fun _ => ih.bind fun _ => blind_pure _

theorem blind_merge (charset : Charset) (set : ReferenceSet) (path : String) :
    Blind (merge Memory.store charset set path) := by
  refine (blind_gather charset set.members).bind fun g => ?_
  split
  · exact blind_pure _
  · exact (blind_write path _).bind fun _ => blind_pure _

theorem Step.blind_apply (path : String) (step : Step) (tools : Tools) :
    Blind (step.apply Memory.store path tools) := by
  cases step with
  | minify kind charset =>
    refine (blind_readText charset path).bind fun text => ?_
    split
    · exact blind_pure _
    · exact (blind_writeText charset path _).bind fun _ => blind_pure _
  | compress level ledger =>
    refine (blind_read path).bind fun contents => ?_
    split
    · exact blind_pure _
    · split
      · exact blind_pure _
      · exact (blind_write path _).bind fun _ => blind_pure _
  | refuse name encodesBytes => exact blind_pure _

theorem blind_applyAll (path : String) (steps : List Step) (tools : Tools) :
    Blind (Pipeline.applyAll Memory.store path steps tools) := by
  induction steps with
  | nil => exact blind_pure _
  | cons step steps ih =>
    exact (step.blind_apply path tools).bind fun _ => ih.bind fun _ => blind_pure _

namespace ArtifactCache

variable (c : ArtifactCache) (set : ReferenceSet)

theorem blind_build : Blind (c.build Memory.store set) := by
  refine (blind_merge c.charset set (c.pathOf set)).bind fun merged => ?_
  split
  · exact blind_pure _
  · exact (blind_applyAll merged.path c.pipeline.steps c.tools).bind fun _ => blind_pure _

/-- Memories with the same files are the same to those who request artifacts. -/
theorem blind_request : Blind (c.request Memory.store set) := by
  rw [request]
  split
  · exact blind_pure _
  · refine Blind.bind ?_ fun _ => blind_pure _
    rw [BuildOnce.request]
    split
    · exact blind_pure _
    · exact (c.blind_build set).bind fun _ => blind_pure _

end ArtifactCache

end PageBundle
