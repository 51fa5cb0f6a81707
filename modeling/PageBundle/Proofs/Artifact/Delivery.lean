import PageBundle.Proofs.Artifact.Naming
import PageBundle.Proofs.Store.ContextPath
import PageBundle.Settings.Basic

/-!
# How a page finds its artifact

An artifact is written under its path, and a page refers to it by the context path with the path
behind it. A deployment takes the context path off both, so they lead to one file exactly unless the
path of the artifact itself begins with the context path (`resolve_reference_iff`). If it does, the
artifact is put elsewhere, and the page refers to a file that was not written.
-/

namespace PageBundle

open Store (Deployment)
open Store.Deployment (Clips IsPlainName)

theorem head?_artifactName (mode : BuildMode) (kind : Kind) (f : Fingerprint) :
    (artifactName mode kind f).toList.head? = some 'O' := by
  cases mode <;> simp [artifactName, BuildMode.filePrefix]

theorem isPlainName_artifactName (mode : BuildMode) (kind : Kind) (f : Fingerprint) :
    IsPlainName (artifactName mode kind f) := by
  have first := head?_artifactName mode kind f
  refine ⟨?_, slash_notMem_artifactName mode kind f, ?_, ?_⟩
  all_goals
    intro same
    rw [same] at first
    exact absurd first (by decide)

/-- The path of an artifact begins with one slash. -/
theorem not_prefix_artifactPath (directory : String) (mode : BuildMode) (kind : Kind)
    (set : ReferenceSet) : ¬ "//".toList <+: (artifactPath directory mode kind set).toList := by
  rintro ⟨rest, split⟩
  rw [toList_artifactPath, artifactFolder] at split
  split at split
  · have first := head?_artifactName mode kind (Fingerprint.of set)
    have second : (artifactName mode kind (Fingerprint.of set)).toList.head? = some '/' := by
      rw [← (List.cons.inj split).2]
      rfl
    simp [first] at second
  · rename_i filled
    have first : (normalDirectory directory).toList.head? = some '/' := by
      obtain ⟨c, cs, chars⟩ :=
        List.exists_cons_of_ne_nil (l := (normalDirectory directory).toList) (by simpa using filled)
      rw [chars] at split ⊢
      rw [← (List.cons.inj (List.cons.inj split).2).1]
      rfl
    rw [normalDirectory, String.toList_ofList] at first
    simpa using Text.head?_dropEnds first

/-- A deployment keeps a context path that has no slash at its end. -/
theorem contextPath_of_contextPrefix (root : String) (settings : Settings) :
    (Deployment.of root settings.contextPrefix).contextPath = settings.contextPrefix ∧
      settings.contextPrefix.toList.getLast? ≠ some '/' := by
  have unclosed : ∀ c, settings.contextPrefix.toList.getLast? = some c → (c == '/') = false := by
    intro c last
    rw [Settings.contextPrefix, String.toList_ofList] at last
    exact Text.getLast?_dropEnd (p := (· == '/')) last
  constructor
  · rw [Deployment.of, Text.dropEnd_eq_self unclosed, String.ofList_toList]
  · intro closed
    simpa using unclosed '/' closed

/-- **A page finds its artifact exactly if the context path is not clipped off the artifact's own
path.** If a deployment under the configured context path resolves the path of an artifact, where it
is written, it resolves the reference in the page to the same names just in this case. -/
theorem resolve_reference_iff (settings : Settings) (root : String) (kind : Kind)
    (set : ReferenceSet) :
    let d := Deployment.of root settings.contextPrefix
    let path := artifactPath ((settings.policy kind).directoryFor kind) settings.buildMode kind set
    ∀ names, d.resolve path = .ok names →
      (d.resolve (settings.contextPrefix ++ path) = .ok names ↔
        ¬ Clips settings.contextPrefix.toList path.toList) := by
  intro d path names resolved
  obtain ⟨kept, unclosed⟩ := contextPath_of_contextPrefix root settings
  have reference := Deployment.resolve_append_contextPath_iff (d := d) (by rwa [kept])
    (not_prefix_artifactPath _ _ _ _) resolved
  rwa [kept] at reference

section Scripts

variable (mode : BuildMode) (set : ReferenceSet)

theorem written_scriptPath :
    (artifactPath "/js" mode .script set).toList =
      File.written ["js", artifactName mode .script (Fingerprint.of set)] := by
  have folder : artifactFolder "/js" = "/js".toList := by decide
  rw [toList_artifactPath, folder]
  simp [File.written]

theorem isPlainName_scriptNames :
    ∀ name ∈ ["js", artifactName mode .script (Fingerprint.of set)], IsPlainName name := by
  intro name member
  rcases List.mem_cons.1 member with rfl | member
  · exact ⟨by decide, by decide, by decide, by decide⟩
  · rw [List.mem_singleton.1 member]
    exact isPlainName_artifactName mode .script _

end Scripts

/-- Deployed under `/app`, a script in `/js` is found. -/
theorem resolve_reference_under_app :
    let settings : Settings := { contextPath := "/app/" }
    let set := ReferenceSet.ofList ["/a.js"]
    let names := ["js", artifactName .static .script (Fingerprint.of set)]
    let d := Deployment.of "/srv/www" settings.contextPrefix
    let path :=
      artifactPath ((settings.policy .script).directoryFor .script) settings.buildMode .script set
    d.resolve path = .ok names ∧ d.resolve (settings.contextPrefix ++ path) = .ok names := by
  intro settings set names d path
  have spelled : path.toList = File.written names := written_scriptPath .static set
  have context : d.contextPath.toList = "/app".toList := by decide +kernel
  have configured : settings.contextPrefix.toList = "/app".toList := by decide +kernel
  have apart : ¬ "/app".toList <+: path.toList := by
    rw [spelled]
    rintro ⟨rest, split⟩
    exact absurd (List.cons.inj (List.cons.inj split).2).1 (by decide)
  have resolved : d.resolve path = .ok names := by
    apply Deployment.resolve_of_written (by simp) (isPlainName_scriptNames .static set)
    rw [Deployment.withoutContext_of_not_prefix (by rwa [context])]
    exact spelled
  refine ⟨resolved, (resolve_reference_iff settings "/srv/www" .script set names resolved).2 ?_⟩
  rw [configured]
  rintro ⟨-, rest, split, -⟩
  exact apart ⟨rest, split.symm⟩

/-- Deployed under `/js`, a script that is to be put into `/js` is put into the root, while the page
refers to a file in `/js`. -/
theorem misses_script_under_js :
    let settings : Settings := { contextPath := "/js" }
    let set := ReferenceSet.ofList ["/a.js"]
    let name := artifactName .static .script (Fingerprint.of set)
    let d := Deployment.of "/srv/www" settings.contextPrefix
    let path :=
      artifactPath ((settings.policy .script).directoryFor .script) settings.buildMode .script set
    d.resolve path = .ok [name] ∧
      d.resolve (settings.contextPrefix ++ path) = .ok ["js", name] ∧
      ¬ ∀ names, d.resolve path = .ok names →
        d.resolve (settings.contextPrefix ++ path) = .ok names := by
  intro settings set name d path
  have spelled : path.toList = File.written ["js", name] := written_scriptPath .static set
  have context : d.contextPath.toList = "/js".toList := by decide +kernel
  have here : d.resolve path = .ok [name] := by
    apply Deployment.resolve_of_written (by simp)
    · intro other member
      exact isPlainName_scriptNames .static set other (List.mem_cons_of_mem _ member)
    · apply Deployment.withoutContext_of_append
      rw [spelled, context]
      simp [File.written]
  have there : d.resolve (settings.contextPrefix ++ path) = .ok ["js", name] := by
    apply Deployment.resolve_of_written (by simp) (isPlainName_scriptNames .static set)
    apply Deployment.withoutContext_of_append
    rw [String.toList_append, spelled, context]
    have same : settings.contextPrefix.toList = "/js".toList := by decide +kernel
    rw [same]
  refine ⟨here, there, fun claimed => ?_⟩
  have wrong := claimed [name] here
  rw [there] at wrong
  simp at wrong

end PageBundle
