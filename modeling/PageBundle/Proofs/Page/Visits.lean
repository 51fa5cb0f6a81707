import PageBundle.Page.Optimizer
import PageBundle.Proofs.Cache.Stored
import PageBundle.Store.Memory

/-!
# Visits to an optimizer

A session is an optimizer whose pages are asked for while its store changes in any way. It remembers
how every page was served. `Served` says all that serving one page can do; from it follows what the
kept bodies have to do with the visits (`Session.Kept`), and this holds after every session.
-/

namespace PageBundle

/-- The optimized page, if the page was optimized now or before. -/
def Service.success? : Service → Option String
  | .disabled _ => none
  | .blank _ => none
  | .cached body => some body
  | .attempted attempt _ => attempt.result.toOption

theorem Service.body_of_success {service : Service} {body : String}
    (success : service.success? = some body) : service.body = body := by
  cases service with
  | disabled page => cases success
  | blank page => cases success
  | cached page => exact Option.some.inj success
  | attempted attempt page =>
    have optimized : attempt.result.toOption = some body := success
    rw [Service.body, optimized]
    rfl

theorem Service.body_attempted_of_ok {attempt : Attempt} {page body : String}
    (optimized : attempt.result = .ok body) : (Service.attempted attempt page).body = body := by
  rw [Service.body, optimized]
  rfl

theorem Service.body_attempted_of_error {attempt : Attempt} {page : String} {e : OptimizeError}
    (failed : attempt.result = .error e) : (Service.attempted attempt page).body = page := by
  rw [Service.body, failed]
  rfl

namespace BodyCache

section Request

variable {m : Type → Type} [Monad m] [LawfulMonad m] {β : Type} {c : BodyCache} {key : PageKey}
  (body? : β → Option String) (render : m β)

/-- A request for a stored body renders nothing. -/
theorem request_of_stored {body : String} (stored : c.bodies.get? key = some body) :
    c.request key body? render = pure (.cached body, { c with hits := c.hits + 1 }) := by
  rw [request, BuildOnce.request_of_stored body? render stored, pure_bind]
  rfl

/-- A request for a missing body renders the page once. -/
theorem request_of_missing (missing : c.bodies.get? key = none) :
    c.request key body? render = (do
      let report ← render
      let bodies := (c.bodies.enlist key).record key (body? report)
      return (.ran report, c.record bodies body? (.ran report))) := by
  rw [request, BuildOnce.request_of_missing body? render missing, bind_assoc]
  simp only [pure_bind]

end Request

/-- Two caches keep the same bodies and have counted the same; cells without a body make no
difference. -/
structure Alike (c d : BodyCache) : Prop where
  get? : ∀ key, c.get? key = d.get? key
  size : c.size = d.size
  hits : c.hits = d.hits
  renders : c.renders = d.renders

theorem Alike.refl (c : BodyCache) : Alike c c :=
  ⟨fun _ => rfl, rfl, rfl, rfl⟩

/-- A rendering that gives no body leaves nothing but a cell. -/
theorem alike_record_of_none {β : Type} (c : BodyCache) (key : PageKey)
    {body? : β → Option String} {report : β} (failed : body? report = none) :
    Alike (c.record ((c.bodies.enlist key).record key (body? report)) body? (.ran report)) c := by
  rw [record, failed]
  exact ⟨c.bodies.get?_enlist key, c.bodies.size_enlist key, rfl, rfl⟩

@[simp] theorem bodies_record {β : Type} (c : BodyCache)
    (bodies : BuildOnce PageKey String) (body? : β → Option String) (lookup : Lookup String β) :
    (c.record bodies body? lookup).bodies = bodies := by
  cases lookup with
  | cached body => rfl
  | ran report =>
    rw [record]
    split
    · rfl
    · rfl

end BodyCache

namespace Optimizer

@[simp] theorem settings_withArtifacts (o : Optimizer) (kind : Kind) (artifacts : ArtifactCache) :
    (o.withArtifacts kind artifacts).settings = o.settings := by
  cases kind with
  | script => rfl
  | style => rfl

@[simp] theorem bodies_withArtifacts (o : Optimizer) (kind : Kind) (artifacts : ArtifactCache) :
    (o.withArtifacts kind artifacts).bodies = o.bodies := by
  cases kind with
  | script => rfl
  | style => rfl

@[simp] theorem withArtifacts_artifacts (o : Optimizer) (kind : Kind) :
    o.withArtifacts kind (o.artifacts kind) = o := by
  cases kind with
  | script => rfl
  | style => rfl

section Equations

variable {m : Type → Type} [Monad m] [LawfulMonad m] (store : Store m) {o : Optimizer} {kind : Kind}
  {route page : String}

/-- Whether an attempt came to a body. -/
def body? (report : Attempt × Optimizer) : Option String :=
  report.1.result.toOption

theorem serve_of_stored {body : String} (cache : o.settings.cache = true)
    (stored : o.bodies.bodies.get? ⟨kind, route⟩ = some body) :
    o.serve store kind route page =
      pure (.cached body, { o with bodies := { o.bodies with hits := o.bodies.hits + 1 } }) := by
  rw [serve, cache, if_pos rfl]
  simp only [BodyCache.request_of_stored _ _ stored, pure_bind]

theorem serve_of_missing (cache : o.settings.cache = true)
    (missing : o.bodies.bodies.get? ⟨kind, route⟩ = none) :
    o.serve store kind route page = (do
      let report ← o.attempt store kind page
      let bodies := (o.bodies.bodies.enlist ⟨kind, route⟩).record ⟨kind, route⟩ (body? report)
      let bodies := o.bodies.record bodies body? (.ran report)
      return (.attempted report.1 page, { report.2 with bodies })) := by
  rw [serve, cache, if_pos rfl]
  simp only [BodyCache.request_of_missing _ _ missing, bind_assoc, pure_bind]
  rfl

end Equations

section Serve

variable {σ : Type} (store : Store (StateM σ)) (s : σ)

/-- An attempt leaves everything as it is but the artifacts of its kind and the store. -/
theorem attempt_eq_withArtifacts (o : Optimizer) (kind : Kind) (page : String) :
    ∃ artifacts, ((o.attempt store kind page).run s).1.2 = o.withArtifacts kind artifacts := by
  rw [attempt]
  cases read : Markup.pieces o.settings.excludeKeywords kind (scrub page).toList with
  | error e => exact ⟨o.artifacts kind, (withArtifacts_artifacts o kind).symm⟩
  | ok pieces =>
    dsimp only
    split
    · exact ⟨o.artifacts kind, (withArtifacts_artifacts o kind).symm⟩
    · exact ⟨_, rfl⟩

/-- An attempt leaves the settings and the kept bodies as they are. -/
theorem settings_attempted {o tried : Optimizer} {kind : Kind} {page : String} {attempt : Attempt}
    {t : σ} (attempted : (o.attempt store kind page).run s = ((attempt, tried), t)) :
    tried.settings = o.settings ∧ tried.bodies = o.bodies := by
  obtain ⟨artifacts, left⟩ := attempt_eq_withArtifacts store s o kind page
  rw [attempted] at left
  obtain rfl : tried = o.withArtifacts kind artifacts := left
  exact ⟨settings_withArtifacts o kind artifacts, bodies_withArtifacts o kind artifacts⟩

/-- How a page is served, and what that leaves. -/
inductive Served (o : Optimizer) (kind : Kind) (route page : String) :
    Service → Optimizer → σ → Prop
  | disabled (off : o.settings.enabled = false) : Served o kind route page (.disabled page) o s
  | blank (on : o.settings.enabled = true) (blank : Text.isBlankText (scrub page) = true) :
      Served o kind route page (.blank (scrub page)) o s
  | cached {body : String} (on : o.settings.enabled = true)
      (solid : Text.isBlankText (scrub page) = false) (cache : o.settings.cache = true)
      (stored : o.bodies.bodies.get? ⟨kind, route⟩ = some body) :
      Served o kind route page (.cached body)
        { o with bodies := { o.bodies with hits := o.bodies.hits + 1 } } s
  | rendered {attempt : Attempt} {tried : Optimizer} {t : σ} (on : o.settings.enabled = true)
      (solid : Text.isBlankText (scrub page) = false) (cache : o.settings.cache = true)
      (missing : o.bodies.bodies.get? ⟨kind, route⟩ = none)
      (attempted : (o.attempt store kind (scrub page)).run s = ((attempt, tried), t)) :
      Served o kind route page (.attempted attempt (scrub page))
        { tried with
          bodies := o.bodies.record
            ((o.bodies.bodies.enlist ⟨kind, route⟩).record ⟨kind, route⟩ (body? (attempt, tried)))
            body? (.ran (attempt, tried)) } t
  | attempted {attempt : Attempt} {tried : Optimizer} {t : σ} (on : o.settings.enabled = true)
      (solid : Text.isBlankText (scrub page) = false) (uncached : o.settings.cache = false)
      (attempted : (o.attempt store kind (scrub page)).run s = ((attempt, tried), t)) :
      Served o kind route page (.attempted attempt (scrub page)) tried t

theorem served_page (o : Optimizer) (kind : Kind) (route page : String) :
    Served store s o kind route page ((o.page store kind route page).run s).1.1
      ((o.page store kind route page).run s).1.2 ((o.page store kind route page).run s).2 := by
  cases enabled : o.settings.enabled with
  | false =>
    rw [Optimizer.page, enabled]
    exact .disabled enabled
  | true =>
    cases blank : Text.isBlankText (scrub page) with
    | true =>
      rw [Optimizer.page, enabled, blank]
      exact .blank enabled blank
    | false =>
      have serving : o.page store kind route page = o.serve store kind route (scrub page) := by
        rw [Optimizer.page, enabled, blank]
        rfl
      rw [serving]
      cases cache : o.settings.cache with
      | false =>
        rw [serve, cache]
        exact .attempted enabled blank cache rfl
      | true =>
        cases stored : o.bodies.bodies.get? ⟨kind, route⟩ with
        | some body =>
          rw [serve_of_stored store cache stored]
          exact .cached enabled blank cache stored
        | none =>
          rw [serve_of_missing store cache stored]
          exact .rendered enabled blank cache stored rfl

namespace Served

variable {store s} {o after : Optimizer} {kind : Kind} {route page : String} {service : Service}
  {t : σ}

theorem of_disabled (served : Served store s o kind route page service after t)
    (off : o.settings.enabled = false) : service.body = page ∧ after = o ∧ t = s := by
  cases served with
  | disabled => exact ⟨rfl, rfl, rfl⟩
  | blank on | cached on | rendered on | attempted on => simp [off] at on

theorem of_blank (served : Served store s o kind route page service after t)
    (on : o.settings.enabled = true) (blank : Text.isBlankText (scrub page) = true) :
    service.body = scrub page ∧ after = o ∧ t = s := by
  cases served with
  | disabled off => simp [on] at off
  | blank => exact ⟨rfl, rfl, rfl⟩
  | cached _ solid | rendered _ solid | attempted _ solid => simp [blank] at solid

theorem of_stored (served : Served store s o kind route page service after t)
    (on : o.settings.enabled = true) (solid : Text.isBlankText (scrub page) = false)
    (cache : o.settings.cache = true) {body : String}
    (stored : o.bodies.bodies.get? ⟨kind, route⟩ = some body) :
    service.body = body ∧ t = s ∧ after.scripts = o.scripts ∧ after.styles = o.styles := by
  cases served with
  | disabled off => simp [on] at off
  | blank _ blank => simp [blank] at solid
  | cached _ _ _ found => exact ⟨Option.some.inj (found.symm.trans stored), rfl, rfl, rfl⟩
  | rendered _ _ _ missing => simp [stored] at missing
  | attempted _ _ uncached => simp [cache] at uncached

/-- A page that is not kept is served as an attempt has it, or as it is if the attempt fails. -/
theorem of_missing (served : Served store s o kind route page service after t)
    (on : o.settings.enabled = true) (solid : Text.isBlankText (scrub page) = false)
    (missing : o.settings.cache = true → o.bodies.bodies.get? ⟨kind, route⟩ = none) :
    let attempted := (o.attempt store kind (scrub page)).run s
    service = .attempted attempted.1.1 (scrub page) ∧ t = attempted.2 ∧
      after.scripts = attempted.1.2.scripts ∧ after.styles = attempted.1.2.styles ∧
      (attempted.1.1.result.toOption = none → after.bodies.Alike o.bodies) := by
  intro attempted
  cases served with
  | disabled off => simp [on] at off
  | blank _ blank => simp [blank] at solid
  | cached _ _ cache stored => simp [missing cache] at stored
  | rendered _ _ _ _ report =>
    rw [show attempted = _ from report]
    exact ⟨rfl, rfl, rfl, rfl, BodyCache.alike_record_of_none o.bodies ⟨kind, route⟩⟩
  | attempted _ _ _ report =>
    rw [show attempted = _ from report]
    refine ⟨rfl, rfl, rfl, rfl, fun _ => ?_⟩
    rw [(settings_attempted store s report).2]
    exact .refl o.bodies

end Served

end Serve

/-- Something that happens to an optimizer or to the store under it. -/
inductive Action (σ : Type) where
  | page (kind : Kind) (route page : String)
  /-- The store changes in some way. -/
  | change (f : σ → σ)

/-- How a page was served. -/
structure Visit where
  key : PageKey
  service : Service

/-- An optimizer in use over a store with states in `σ`. -/
structure Session (σ : Type) where
  optimizer : Optimizer
  state : σ
  /-- The visits so far, in order. -/
  visits : List Visit := []

namespace Session

variable {σ : Type} (store : Store (StateM σ))

/-- The session after an action. -/
def act (s : Session σ) : Action σ → Session σ
  | .page kind route page =>
    let ((service, optimizer), state) := (s.optimizer.page store kind route page).run s.state
    { optimizer, state, visits := s.visits ++ [⟨⟨kind, route⟩, service⟩] }
  | .change f => { s with state := f s.state }

/-- The session after some actions. -/
def run (s : Session σ) (actions : List (Action σ)) : Session σ :=
  actions.foldl (act store) s

/-- The keys under which pages were optimized, with the bodies. -/
def successes (s : Session σ) : List (PageKey × String) :=
  s.visits.filterMap fun v => v.service.success?.map (v.key, ·)

/-- The keys under which pages were optimized. -/
def optimizedKeys (s : Session σ) : Finset PageKey :=
  (s.successes.map (·.1)).toFinset

theorem mem_successes {s : Session σ} {e : PageKey × String} :
    e ∈ s.successes ↔ ∃ v ∈ s.visits, v.key = e.1 ∧ v.service.success? = some e.2 := by
  simp only [successes, List.mem_filterMap, Option.map_eq_some_iff]
  constructor
  · rintro ⟨v, member, body, success, rfl⟩
    exact ⟨v, member, rfl, success⟩
  · rintro ⟨v, member, key, success⟩
    exact ⟨v, member, e.2, success, by rw [key]⟩

theorem successes_append (optimizer : Optimizer) (state : σ) (visits : List Visit) (key : PageKey)
    (service : Service) :
    successes ⟨optimizer, state, visits ++ [⟨key, service⟩]⟩ =
      successes ⟨optimizer, state, visits⟩ ++ (service.success?.map (key, ·)).toList := by
  cases success : service.success? <;> simp [successes, success]

/-- How the bodies that an optimizer keeps follow from the visits to it. -/
structure Kept (settings : Settings) (s : Session σ) : Prop where
  told : s.optimizer.settings = settings
  holds : settings.cache = true → s.optimizer.bodies.bodies.Holds s.successes
  /-- Nothing is kept unless pages are optimized and bodies are to be kept. -/
  nothing : settings.enabled = false ∨ settings.cache = false → s.optimizer.bodies.size = 0

namespace Kept

variable {settings : Settings} {s : Session σ}

theorem start {tools : Tools} {o : Optimizer} (valid : ofSettings? settings tools = some o)
    (state : σ) :
    Kept settings { optimizer := o, state } := by
  obtain ⟨charset, -, rfl⟩ := Option.map_eq_some_iff.1 valid
  exact ⟨rfl, fun _ => BuildOnce.holds_nil, fun _ => rfl⟩

/-- Serving a page keeps what is known of the bodies. -/
theorem serve {store : Store (StateM σ)} (kept : Kept settings s) {kind : Kind}
    {route page : String} {service : Service} {optimizer : Optimizer} {t : σ}
    (served : Served store s.state s.optimizer kind route page service optimizer t) :
    Kept settings ⟨optimizer, t, s.visits ++ [⟨⟨kind, route⟩, service⟩]⟩ := by
  have logged : successes ⟨optimizer, t, s.visits ++ [⟨⟨kind, route⟩, service⟩]⟩ =
      s.successes ++ (service.success?.map (⟨kind, route⟩, ·)).toList :=
    successes_append optimizer t s.visits ⟨kind, route⟩ service
  cases served with
  | disabled off =>
    refine ⟨kept.told, fun cache => ?_, kept.nothing⟩
    rw [logged]
    simpa [Service.success?] using kept.holds cache
  | blank on blank =>
    refine ⟨kept.told, fun cache => ?_, kept.nothing⟩
    rw [logged]
    simpa [Service.success?] using kept.holds cache
  | cached on solid cache stored =>
    refine ⟨kept.told, fun cache => ?_, kept.nothing⟩
    rw [logged]
    exact (kept.holds cache).cached stored
  | @rendered attempt tried _ on solid cache missing attempted =>
    obtain ⟨sameSettings, sameBodies⟩ := settings_attempted store s.state attempted
    have settingsCache : settings.cache = true := kept.told ▸ cache
    have settingsOn : settings.enabled = true := kept.told ▸ on
    refine ⟨sameSettings.trans kept.told, fun _ => ?_, fun off => ?_⟩
    · rw [logged]
      show BuildOnce.Holds (s.optimizer.bodies.record _ body? (.ran (attempt, tried))).bodies _
      rw [BodyCache.bodies_record]
      refine ((kept.holds settingsCache).congr (BuildOnce.get?_enlist _ _)).record ?_ _
      rw [BuildOnce.get?_enlist, missing]
    · simp [settingsCache, settingsOn] at off
  | attempted on solid uncached attempted =>
    obtain ⟨sameSettings, sameBodies⟩ := settings_attempted store s.state attempted
    have settingsCache : settings.cache = false := kept.told ▸ uncached
    refine ⟨sameSettings.trans kept.told, fun cache => ?_, fun off => ?_⟩
    · simp [settingsCache] at cache
    · show optimizer.bodies.size = 0
      rw [sameBodies]
      exact kept.nothing off

/-- **Every action keeps what is known of the bodies.** -/
theorem act {store : Store (StateM σ)} (kept : Kept settings s) (action : Action σ) :
    Kept settings (s.act store action) := by
  cases action with
  | page kind route page => exact kept.serve (served_page store s.state s.optimizer kind route page)
  | change f => exact ⟨kept.told, kept.holds, kept.nothing⟩

theorem run {store : Store (StateM σ)} (kept : Kept settings s) (actions : List (Action σ)) :
    Kept settings (s.run store actions) := by
  induction actions generalizing s with
  | nil => exact kept
  | cons action actions ih => exact ih (kept.act action)

/-- As many bodies are kept as there are keys under which pages were optimized. -/
theorem size_eq (kept : Kept settings s) :
    s.optimizer.bodies.size =
      if settings.enabled && settings.cache then s.optimizedKeys.card else 0 := by
  cases enabled : settings.enabled with
  | false => exact kept.nothing (.inl enabled)
  | true =>
    cases cache : settings.cache with
    | false => exact kept.nothing (.inr cache)
    | true => exact (kept.holds cache).size_eq fun _ _ => beq_iff_eq

/-- The body that is stored under a key is what the visits to it that were successful gave. -/
theorem get?_eq_some_iff (kept : Kept settings s) (cache : settings.cache = true) {key : PageKey}
    {body : String} :
    s.optimizer.bodies.bodies.get? key = some body ↔
      ∃ v ∈ s.visits, v.key = key ∧ v.service.success? = some body := by
  rw [(kept.holds cache).get?_eq_some_iff]
  constructor
  · rintro ⟨e, member, same, rfl⟩
    obtain ⟨v, visited, key, success⟩ := mem_successes.1 member
    exact ⟨v, visited, key.trans (beq_iff_eq.1 same).symm, success⟩
  · rintro ⟨v, visited, rfl, success⟩
    exact ⟨(v.key, body), mem_successes.2 ⟨v, visited, rfl, success⟩, BEq.refl _, rfl⟩

end Kept

/-- **Serving fails open, and only optimized pages are kept.** This is what an optimizer does, after
any visits to it and any changes to its store, when it is asked for one more page: switched off, it
serves the page as it is and does nothing; a page that is blank after scrubbing is served scrubbed,
and nothing is done either; a page whose key was optimized before gets the same body again, with
neither the store nor the artifacts touched, if bodies are kept; any other page is served as an
attempt rewrites it, or scrubbed if the attempt fails, which leaves the kept bodies as they are. As
many bodies are kept as there are keys that were optimized. The settings name a charset, and the
tools may do anything. -/
theorem serves_open_keeping_successes (store : Store (StateM σ)) {settings : Settings}
    {tools : Tools} {start : Optimizer} (valid : ofSettings? settings tools = some start) (state : σ)
    (actions : List (Action σ)) :
    let s := run store { optimizer := start, state } actions
    s.optimizer.bodies.size =
      (if settings.enabled && settings.cache then s.optimizedKeys.card else 0) ∧
    ∀ (kind : Kind) (route page : String),
      let served := (s.optimizer.page store kind route page).run s.state
      let body := served.1.1.body
      let after := served.1.2
      (settings.enabled = false → body = page ∧ after = s.optimizer ∧ served.2 = s.state) ∧
      (settings.enabled = true → Text.isBlankText (scrub page) = true →
        body = scrub page ∧ after = s.optimizer ∧ served.2 = s.state) ∧
      (settings.enabled = true → Text.isBlankText (scrub page) = false →
        (settings.cache = true → ∀ v ∈ s.visits, v.key = ⟨kind, route⟩ →
          v.service.success?.isSome →
            body = v.service.body ∧ served.2 = s.state ∧
            after.scripts = s.optimizer.scripts ∧ after.styles = s.optimizer.styles) ∧
        ((settings.cache = true → ∀ v ∈ s.visits, v.key = ⟨kind, route⟩ →
            v.service.success? = none) →
          let attempted := (s.optimizer.attempt store kind (scrub page)).run s.state
          served.2 = attempted.2 ∧
          after.scripts = attempted.1.2.scripts ∧ after.styles = attempted.1.2.styles ∧
          (∀ optimized, attempted.1.1.result = .ok optimized → body = optimized) ∧
          (∀ e, attempted.1.1.result = .error e →
            body = scrub page ∧ after.bodies.Alike s.optimizer.bodies))) := by
  intro s
  have kept : Kept settings s := (Kept.start valid state).run actions
  refine ⟨kept.size_eq, fun kind route page => ?_⟩
  intro report body after
  have served : Served store s.state s.optimizer kind route page report.1.1 after report.2 :=
    served_page store s.state s.optimizer kind route page
  refine ⟨fun off => ?_, fun on blank => ?_, fun on solid => ⟨fun cache v visited key success => ?_,
    fun unknown => ?_⟩⟩
  · exact served.of_disabled (kept.told ▸ off)
  · exact served.of_blank (kept.told ▸ on) blank
  · obtain ⟨earlier, success⟩ := Option.isSome_iff_exists.1 success
    rw [Service.body_of_success success]
    exact served.of_stored (kept.told ▸ on) solid (kept.told ▸ cache)
      ((kept.get?_eq_some_iff cache).2 ⟨v, visited, key, success⟩)
  · -- What is stored under a key comes from a visit, so nothing is stored under this one.
    have missing (cache : s.optimizer.settings.cache = true) :
        s.optimizer.bodies.bodies.get? ⟨kind, route⟩ = none := by
      have cache : settings.cache = true := kept.told ▸ cache
      refine Option.eq_none_iff_forall_ne_some.2 fun body stored => ?_
      obtain ⟨v, visited, key, success⟩ := (kept.get?_eq_some_iff cache).1 stored
      simp [unknown cache v visited key] at success
    intro attempted
    obtain ⟨service, state, scripts, styles, failure⟩ :=
      served.of_missing (kept.told ▸ on) solid missing
    refine ⟨state, scripts, styles, fun optimized success => ?_, fun e failed => ⟨?_, ?_⟩⟩
    · exact (congrArg Service.body service).trans (Service.body_attempted_of_ok success)
    · exact (congrArg Service.body service).trans (Service.body_attempted_of_error failed)
    · exact failure (congrArg Except.toOption failed)

/-- A page fails while the store refuses artifacts, is optimized on the next visit and is then
served from what was kept, whatever the page has become; an unfinished page is served scrubbed. -/
theorem serves_open_around_retry :
    let start := (ofSettings? { minify := false }).get (by decide +kernel)
    let markup := "<script src=\"/a.js\"></script>"
    let s := run Store.Memory.store { optimizer := start, state := { readOnly := true } }
      [.page .script "/" markup, .change (fun memory => { memory with readOnly := false }),
        .page .script "/" markup]
    s.optimizer.bodies.size = 1 ∧
    (∀ v ∈ s.visits, v.key = ⟨.script, "/"⟩ → v.service.success?.isSome →
      ((s.optimizer.page Store.Memory.store .script "/" "changed").run s.state).1.1.body =
        v.service.body) ∧
    ((s.optimizer.page Store.Memory.store .script "/other" "<script>\x00").run s.state).1.1.body =
      "<script> " ∧
    ((s.optimizer.page Store.Memory.store .style "/" "\x00").run s.state).1.1.body = " " := by
  intro start markup s
  have valid : ofSettings? { minify := false } = some start := (Option.some_get (by decide +kernel)).symm
  obtain ⟨size, serves⟩ := serves_open_keeping_successes Store.Memory.store valid
    { readOnly := true } [.page .script "/" markup,
      .change (fun memory => { memory with readOnly := false }), .page .script "/" markup]
  subst s
  obtain ⟨-, -, serveAgain⟩ := serves .script "/" "changed"
  obtain ⟨-, -, serveOther⟩ := serves .script "/other" "<script>\x00"
  obtain ⟨-, serveBlank, -⟩ := serves .style "/" "\x00"
  refine ⟨?_, ?_, ?_, ?_⟩
  · rw [size]
    decide +kernel
  · intro v visited key success
    exact ((serveAgain rfl (by decide +kernel)).1 rfl v visited key success).1
  · obtain ⟨-, -, -, -, failure⟩ := (serveOther rfl (by decide +kernel)).2 (by decide +kernel)
    rw [(failure (.markup (.unterminated 0)) (by decide +kernel)).1]
    decide +kernel
  · rw [(serveBlank rfl (by decide +kernel)).1]
    decide +kernel

end Session

end Optimizer

end PageBundle
