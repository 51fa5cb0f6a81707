import PageBundle.Proofs.Cache.Building
import PageBundle.Proofs.Page.Visits

/-!
# Calls of an optimizer

An optimizer is called to serve a page or to try it. `Attempted` says all that an attempt does, and
`Called` what a call does to artifacts and to the store: nothing, or one order for the set that the
page tells. A call whose attempt fails changes no file (`Called.sameFiles_of_error`).
-/

namespace PageBundle

open Store (Memory)
open Store.Memory (SameFiles)

theorem scrub_scrub (page : String) : scrub (scrub page) = scrub page := by
  rw [scrub, scrub, String.toList_ofList, List.map_map]
  congr 1
  apply List.map_congr_left
  intro c _
  by_cases nul : c = '\x00'
  · subst nul
    rfl
  · simp [nul]

namespace Settings

/-- The path of the artifact of a set. -/
def pathFor (settings : Settings) (kind : Kind) (set : ReferenceSet) : String :=
  artifactPath ((settings.policy kind).directoryFor kind) settings.buildMode kind set

/-- The set whose artifact is to be put into a page, if the page can be read and has an eligible
element. -/
def setFor? (settings : Settings) (kind : Kind) (page : String) : Option ReferenceSet :=
  match Markup.pieces settings.excludeKeywords kind (scrub page).toList with
  | .error _ => none
  | .ok pieces =>
    let set := ReferenceSet.ofList (Markup.eligibleIds pieces)
    if set.isEmpty then none else some set

variable {settings : Settings} {kind : Kind} {page : String} {pieces : List Markup.Piece}

theorem setFor?_eq_some
    (read : Markup.pieces settings.excludeKeywords kind (scrub page).toList = .ok pieces)
    (something : (ReferenceSet.ofList (Markup.eligibleIds pieces)).isEmpty = false) :
    settings.setFor? kind page = some (.ofList (Markup.eligibleIds pieces)) := by
  rw [setFor?, read]
  simp [something]

theorem isEmpty_of_setFor? {set : ReferenceSet} (wanted : settings.setFor? kind page = some set) :
    set.isEmpty = false := by
  cases read : Markup.pieces settings.excludeKeywords kind (scrub page).toList with
  | error e => simp [setFor?, read] at wanted
  | ok pieces =>
    cases something : (ReferenceSet.ofList (Markup.eligibleIds pieces)).isEmpty with
    | true => simp [setFor?, read, something] at wanted
    | false =>
      rw [setFor?_eq_some read something] at wanted
      obtain rfl := Option.some.inj wanted
      exact something

end Settings

/-- The request that an attempt made, if it made one. -/
def Attempt.request? : Attempt → Option Request
  | .unreadable _ => none
  | .unchanged _ => none
  | .requested request _ => some request

/-- An attempt that made a request fails only if the request does. -/
theorem Attempt.path_of_error {attempt : Attempt} {request : Request} {e : OptimizeError}
    (made : attempt.request? = some request) (failed : attempt.result = .error e) :
    ∃ e, request.path = .error e := by
  cases attempt with
  | unreadable | unchanged => cases made
  | requested request' rewritten =>
    obtain rfl := Option.some.inj made
    cases path : request'.path with
    | error e => exact ⟨e, rfl⟩
    | ok path' => simp [Attempt.result, path] at failed

namespace Optimizer

theorem artifacts_withArtifacts_self (o : Optimizer) (kind : Kind) (artifacts : ArtifactCache) :
    (o.withArtifacts kind artifacts).artifacts kind = artifacts := by
  cases kind with
  | script | style => rfl

theorem artifacts_withArtifacts_of_ne (o : Optimizer) {kind other : Kind}
    (artifacts : ArtifactCache) (apart : other ≠ kind) :
    (o.withArtifacts kind artifacts).artifacts other = o.artifacts other := by
  cases kind <;> cases other <;> first | rfl | exact absurd rfl apart

/-- Optimizers with the same artifacts of both kinds. -/
theorem artifacts_congr {o after : Optimizer} (scripts : after.scripts = o.scripts)
    (styles : after.styles = o.styles) (kind : Kind) : after.artifacts kind = o.artifacts kind := by
  cases kind with
  | script => exact scripts
  | style => exact styles

section Attempts

variable {σ : Type} (store : Store (StateM σ)) (s : σ) (o : Optimizer) (kind : Kind) (page : String)

/-- An attempt takes the page with spaces in the place of NUL characters. -/
theorem attempt_scrub : o.attempt store kind (scrub page) = o.attempt store kind page := by
  rw [attempt, attempt, scrub_scrub]

/-- How a page is tried, and what that leaves. -/
inductive Attempted : Attempt → Optimizer → σ → Prop
  | unreadable {e : Markup.Error}
      (read : Markup.pieces o.settings.excludeKeywords kind (scrub page).toList = .error e) :
      Attempted (.unreadable e) o s
  | unchanged {pieces : List Markup.Piece}
      (read : Markup.pieces o.settings.excludeKeywords kind (scrub page).toList = .ok pieces)
      (nothing : (ReferenceSet.ofList (Markup.eligibleIds pieces)).isEmpty = true) :
      Attempted (.unchanged (scrub page)) o s
  | requested {pieces : List Markup.Piece} {request : Request} {artifacts : ArtifactCache} {t : σ}
      (read : Markup.pieces o.settings.excludeKeywords kind (scrub page).toList = .ok pieces)
      (something : (ReferenceSet.ofList (Markup.eligibleIds pieces)).isEmpty = false)
      (answered : ArtifactCache.Answered store s (o.artifacts kind)
        (.ofList (Markup.eligibleIds pieces)) request artifacts t) :
      Attempted
        (.requested request fun path =>
          Markup.rewrite kind (o.settings.contextPrefix ++ path) pieces)
        (o.withArtifacts kind artifacts) t

theorem attempted_attempt :
    Attempted store s o kind page ((o.attempt store kind page).run s).1.1
      ((o.attempt store kind page).run s).1.2 ((o.attempt store kind page).run s).2 := by
  rw [attempt]
  cases read : Markup.pieces o.settings.excludeKeywords kind (scrub page).toList with
  | error e => exact .unreadable read
  | ok pieces =>
    cases nothing : (ReferenceSet.ofList (Markup.eligibleIds pieces)).isEmpty with
    | true =>
      simp only [nothing]
      exact .unchanged read nothing
    | false =>
      simp only [nothing]
      exact .requested read nothing (ArtifactCache.answered_request store s _ _)

variable {store s o kind page} in
/-- An attempt on a page that tells a set requests its artifact. -/
theorem Attempted.exists_request {attempt : Attempt} {after : Optimizer} {t : σ}
    (attempted : Attempted store s o kind page attempt after t) {set : ReferenceSet}
    (wanted : o.settings.setFor? kind page = some set) :
    ∃ request, attempt.request? = some request ∧
      ArtifactCache.Answered store s (o.artifacts kind) set request (after.artifacts kind) t := by
  cases attempted with
  | unreadable read => simp [Settings.setFor?, read] at wanted
  | unchanged read nothing => simp [Settings.setFor?, read, nothing] at wanted
  | @requested pieces request artifacts _ read something answered =>
    rw [Settings.setFor?_eq_some read something] at wanted
    obtain rfl := Option.some.inj wanted
    rw [artifacts_withArtifacts_self]
    exact ⟨request, rfl, answered⟩

end Attempts

/-- What is asked of an optimizer. -/
inductive Call where
  | page (kind : Kind) (route page : String)
  | attempt (kind : Kind) (page : String)

namespace Call

def kind : Call → Kind
  | .page kind _ _ => kind
  | .attempt kind _ => kind

/-- The page as it is given. -/
def markup : Call → String
  | .page _ _ given => given
  | .attempt _ given => given

end Call

/-- What an optimizer replies. -/
inductive Reply where
  | served (service : Service)
  | tried (attempt : Attempt)

/-- The attempt from which the reply came, if there was one. -/
def Reply.attempt? : Reply → Option Attempt
  | .served (.attempted attempt _) => some attempt
  | .served (.disabled _) => none
  | .served (.blank _) => none
  | .served (.cached _) => none
  | .tried attempt => some attempt

/-- Answers a call. -/
def answer {m : Type → Type} [Monad m] (o : Optimizer) (store : Store m) :
    Call → m (Reply × Optimizer)
  | .page kind route page => do
    let (service, o) ← o.page store kind route page
    return (.served service, o)
  | .attempt kind page => do
    let (attempt, o) ← o.attempt store kind page
    return (.tried attempt, o)

/-- An artifact that was ordered, and what came of it. -/
structure Order where
  kind : Kind
  set : ReferenceSet
  request : Request

/-- The order that a call made, if it made one. -/
def order? (settings : Settings) (call : Call) (reply : Reply) : Option Order := do
  let set ← settings.setFor? call.kind call.markup
  let request ← reply.attempt?.bind Attempt.request?
  return ⟨call.kind, set, request⟩

section Orders

variable {settings : Settings} {call : Call} {reply : Reply}

theorem order?_eq_none (untried : reply.attempt?.bind Attempt.request? = none) :
    order? settings call reply = none := by
  rw [order?, untried]
  cases settings.setFor? call.kind call.markup with
  | none => rfl
  | some set => rfl

theorem order?_eq_some {set : ReferenceSet} {request : Request}
    (wanted : settings.setFor? call.kind call.markup = some set)
    (made : reply.attempt?.bind Attempt.request? = some request) :
    order? settings call reply = some ⟨call.kind, set, request⟩ := by
  rw [order?, wanted, made]
  rfl

theorem request?_of_order? {order : Order} {attempt : Attempt}
    (made : order? settings call reply = some order) (reported : reply.attempt? = some attempt) :
    attempt.request? = some order.request := by
  rw [order?, reported] at made
  obtain ⟨set, -, requested⟩ := Option.bind_eq_some_iff.1 made
  obtain ⟨request, answered, same⟩ := Option.bind_eq_some_iff.1 requested
  obtain rfl := Option.some.inj same
  exact answered

end Orders

section Calls

variable {σ : Type} (store : Store (StateM σ)) (s : σ) (o : Optimizer) (call : Call)

/-- How a call is answered, and what that leaves but for the kept bodies. -/
inductive Called : Reply → Optimizer → σ → Prop
  | idle {reply : Reply} {after : Optimizer} (unordered : order? o.settings call reply = none)
      (settings : after.settings = o.settings)
      (artifacts : ∀ kind, after.artifacts kind = o.artifacts kind) : Called reply after s
  | ordered {reply : Reply} {after : Optimizer} {set : ReferenceSet} {request : Request} {t : σ}
      (wanted : o.settings.setFor? call.kind call.markup = some set)
      (made : order? o.settings call reply = some ⟨call.kind, set, request⟩)
      (settings : after.settings = o.settings)
      (answered : ArtifactCache.Answered store s (o.artifacts call.kind) set request
        (after.artifacts call.kind) t)
      (others : ∀ kind, kind ≠ call.kind → after.artifacts kind = o.artifacts kind) :
      Called reply after t

namespace Called

variable {store s o call} {reply : Reply} {after : Optimizer} {t : σ}

/-- A call does what its attempt does. -/
theorem of_attempted {attempt : Attempt} {tried : Optimizer}
    (attempted : Attempted store s o call.kind call.markup attempt tried t)
    (reported : reply.attempt? = some attempt) (settings : after.settings = tried.settings)
    (artifacts : ∀ kind, after.artifacts kind = tried.artifacts kind) :
    Called store s o call reply after t := by
  cases attempted with
  | unreadable | unchanged =>
    refine .idle (order?_eq_none ?_) settings artifacts
    rw [reported]
    rfl
  | @requested pieces request cache _ read something answered =>
    have wanted := Settings.setFor?_eq_some read something
    have made : reply.attempt?.bind Attempt.request? = some request := by
      rw [reported]
      rfl
    have told := settings.trans (settings_withArtifacts o call.kind cache)
    refine .ordered wanted (order?_eq_some wanted made) told ?_ ?_
    · rw [artifacts, artifacts_withArtifacts_self]
      exact answered
    · intro kind apart
      rw [artifacts, artifacts_withArtifacts_of_ne o _ apart]

/-- A page that is served is answered as the attempt is, if there is one. -/
theorem of_served {kind : Kind} {route page : String} {service : Service}
    (served : Served store s o kind route page service after t) :
    Called store s o (.page kind route page) (.served service) after t := by
  have tried := attempted_attempt store s o kind page
  rw [← attempt_scrub store o kind page] at tried
  cases served with
  | disabled | blank => exact .idle (order?_eq_none rfl) rfl fun _ => rfl
  | cached => exact .idle (order?_eq_none rfl) rfl (artifacts_congr rfl rfl)
  | rendered _ _ _ _ attempted =>
    rw [attempted] at tried
    exact .of_attempted tried rfl rfl (artifacts_congr rfl rfl)
  | attempted _ _ _ attempted =>
    rw [attempted] at tried
    exact .of_attempted tried rfl rfl fun _ => rfl

/-- What a call adds: nothing, or the order for the set that the page tells. -/
theorem order?_cases (called : Called store s o call reply after t) :
    order? o.settings call reply = none ∧ t = s ∨
      ∃ set request, o.settings.setFor? call.kind call.markup = some set ∧
        order? o.settings call reply = some ⟨call.kind, set, request⟩ ∧
        ArtifactCache.Answered store s (o.artifacts call.kind) set request
          (after.artifacts call.kind) t := by
  cases called with
  | idle unordered => exact .inl ⟨unordered, rfl⟩
  | ordered wanted made _ answered => exact .inr ⟨_, _, wanted, made, answered⟩

/-- A call whose attempt fails changes no file. -/
theorem sameFiles_of_error {s t : Memory} (called : Called Memory.store s o call reply after t)
    {attempt : Attempt} {e : OptimizeError} (reported : reply.attempt? = some attempt)
    (failed : attempt.result = .error e) : SameFiles s t := by
  cases called with
  | idle => exact .refl s
  | ordered _ made _ answered =>
    obtain ⟨e, refused⟩ := Attempt.path_of_error (request?_of_order? made reported) failed
    exact answered.sameFiles_of_error refused

end Called

theorem called_answer :
    Called store s o call ((o.answer store call).run s).1.1 ((o.answer store call).run s).1.2
      ((o.answer store call).run s).2 := by
  cases call with
  | page kind route page => exact .of_served (served_page store s o kind route page)
  | attempt kind page =>
    exact .of_attempted (attempted_attempt store s o kind page) rfl rfl fun _ => rfl

end Calls

end Optimizer

end PageBundle
