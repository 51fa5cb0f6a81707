import PageBundle.Proofs.Page.History

/-!
# Optimized pages do not depend on what happened before

In a memory that takes writings, and with a charset that has every character, what becomes of a page
follows from the settings alone (`Settings.optimized`): it makes no difference whether its artifact
was built before, which members can be read, and which steps fail.
-/

namespace PageBundle

open Store (Memory)

/-- What becomes of a page if artifacts can be written. -/
def Settings.optimized (settings : Settings) (kind : Kind) (page : String) :
    Except OptimizeError String :=
  match Markup.pieces settings.excludeKeywords kind (scrub page).toList with
  | .error e => .error (.markup e)
  | .ok pieces =>
    let set := ReferenceSet.ofList (Markup.eligibleIds pieces)
    if set.isEmpty then .ok (scrub page)
    else .ok (Markup.rewrite kind (settings.contextPrefix ++ settings.pathFor kind set) pieces)

namespace Optimizer.History

namespace Accounted

variable {settings : Settings} {tools : Tools} {charset : Charset} {h : History}

/-- What an attempt comes to follows from the settings. -/
theorem result_of_attempted (accounted : Accounted settings tools charset h) (total : charset.Total)
    (takes : h.memory.readOnly = false) {kind : Kind} {page : String} {attempt : Attempt}
    {after : Optimizer} {t : Memory}
    (attempted : Attempted Memory.store h.memory h.optimizer kind page attempt after t) :
    attempt.result = settings.optimized kind page := by
  have told := accounted.told
  cases attempted with
  | unreadable read =>
    rw [told] at read
    rw [Settings.optimized, read]
    rfl
  | unchanged read nothing =>
    rw [told] at read
    rw [Settings.optimized, read]
    simp [nothing, Attempt.result]
  | requested read something answered =>
    have path := accounted.path_of_answered total takes something answered
    rw [told] at read
    rw [Settings.optimized, read]
    simp [something, Attempt.result, path, told]

end Accounted

/-- **Attempts come to the same whatever happened before.** Two optimizers with the same settings,
which tell UTF-8, start over any two memories with any tools and see any uses. If both memories take
writings in the end, an attempt on one page comes to the same for both: what becomes of the page by
the settings. -/
theorem attempts_agree {settings : Settings} {tools tools' : Tools} {start start' : Optimizer}
    (utf8 : Charset.nameOf? settings.charsetLabel = some "UTF-8")
    (valid : ofSettings? settings tools = some start)
    (valid' : ofSettings? settings tools' = some start')
    (memory memory' : Memory) (uses uses' : List Use) (kind : Kind) (page : String) :
    let h := run { optimizer := start, memory } uses
    let h' := run { optimizer := start', memory := memory' } uses'
    h.memory.readOnly = false → h'.memory.readOnly = false →
      let attempted := (h.optimizer.attempt Memory.store kind page).run h.memory
      let attempted' := (h'.optimizer.attempt Memory.store kind page).run h'.memory
      attempted.1.1.result = attempted'.1.1.result ∧
        attempted.1.1.result = settings.optimized kind page := by
  intro h h' takes takes' attempted attempted'
  have outcome {tools : Tools} {start : Optimizer} (valid : ofSettings? settings tools = some start)
      (memory : Memory) (uses : List Use) :
      let h := run { optimizer := start, memory } uses
      h.memory.readOnly = false →
        ((h.optimizer.attempt Memory.store kind page).run h.memory).1.1.result =
          settings.optimized kind page := by
    intro h takes
    obtain ⟨charset, told, begun⟩ := Accounted.start valid memory
    rw [Settings.charset?_of_utf8 utf8] at told
    obtain rfl : Charset.utf8 = charset := Option.some.inj told
    exact (begun.run uses).result_of_attempted Charset.total_utf8 takes
      (attempted_attempt Memory.store h.memory h.optimizer kind page)
  have here := outcome valid memory uses takes
  exact ⟨here.trans (outcome valid' memory' uses' takes').symm, here⟩

/-- An optimizer that could not build the artifact before and has no files to merge, and one that
found the style sheets the other way round and whose minifier fails, come to one page. -/
theorem attempts_agree_after_reordered :
    let settings : Settings := { contextPath := "/app/" }
    let failing : Tools :=
      { Tools.builtIn with minifyStyleSheet := fun _ => .error (.other "unexpected end") }
    let start := (ofSettings? settings).get (by decide +kernel)
    let start' := (ofSettings? settings failing).get (by decide +kernel)
    let page := "<link rel=stylesheet href=/a><link rel=stylesheet href=/b>"
    let reordered := "<link rel=stylesheet href=/b><link rel=stylesheet href=/a>"
    let refused : List Use :=
      [.call (.attempt .style page), .change fun s => { s with readOnly := false }]
    let stored : List Call := [.page .style "/" reordered]
    let memory : Memory := { resources := .ofList [("/a", Utf8.ofString "a()")] }
    let h := run { optimizer := start, memory := { readOnly := true } } refused
    let h' := run { optimizer := start', memory } (stored.map .call)
    let attempted := (h.optimizer.attempt Memory.store .style page).run h.memory
    let attempted' := (h'.optimizer.attempt Memory.store .style page).run h'.memory
    attempted.1.1.result = attempted'.1.1.result ∧ attempted.1.1.result.isOk = true := by
  intro settings failing start start' page reordered refused stored memory h h' attempted attempted'
  subst attempted attempted' h h'
  have valid : ofSettings? settings = some start := (Option.some_get (by decide +kernel)).symm
  have valid' : ofSettings? settings failing = some start' :=
    (Option.some_get (by decide +kernel)).symm
  obtain ⟨charset, -, begun⟩ := Accounted.start valid' memory
  obtain ⟨same, outcome⟩ := attempts_agree (by decide +kernel) valid valid' { readOnly := true }
    memory refused (stored.map .call) .style page rfl (begun.readOnly_run_calls stored)
  refine ⟨same, ?_⟩
  rw [outcome]
  decide +kernel

end Optimizer.History

end PageBundle
