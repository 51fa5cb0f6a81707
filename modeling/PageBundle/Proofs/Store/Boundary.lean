import PageBundle.Proofs.Store.ContextPath

/-!
# Where the context path ends

A deployment takes the context path off every identifier that begins with it as a text, and what is
left resolves as in a deployment without one (`resolve_append_contextPath`). Identifiers that go on
with a slash behind the context path are meant by that. One that goes on with anything else has the
end of the context path inside its first name; it resolves to other names then, unless it is refused
either way (`resolve_eq_bare_iff`).
-/

namespace PageBundle.Store

/-- An error under another identifier. -/
def Error.under (id : String) : Error → Error
  | .invalidPath _ => .invalidPath id
  | e => e

namespace Deployment

open File (IsBack)

/-- The deployment under the same root without a context path. -/
def bare (d : Deployment) : Deployment :=
  of d.root ""

/-- The identifier is the context path, or goes on with a slash behind it. -/
def Carries (d : Deployment) (id : String) : Prop :=
  id = d.contextPath ∨ (d.contextPath ++ "/").toList <+: id.toList

instance (d : Deployment) (id : String) : Decidable (d.Carries id) :=
  inferInstanceAs (Decidable (_ ∨ _))

variable {d : Deployment}

theorem withoutContext_bare (d : Deployment) (id : String) :
    d.bare.withoutContext id = id.toList :=
  withoutContext_of_append rfl

/-- Two deployments agree on what they are left with up to the identifier in an error. -/
theorem resolve_congr {d d' : Deployment} {id id' : String}
    (same : d.withoutContext id = d'.withoutContext id') :
    d.resolve id = (d'.resolve id').mapError (Error.under id) := by
  by_cases refused : Refused (d.withoutContext id)
  · rw [resolve_of_refused refused, resolve_of_refused (same ▸ refused)]
    rfl
  · rw [resolve_of_not_refused refused, resolve_of_not_refused (same ▸ refused), same]
    rfl

/-- What stands behind the context path resolves as it does without one. -/
theorem resolve_append_contextPath (d : Deployment) (rest : String) :
    d.resolve (d.contextPath ++ rest) =
      (d.bare.resolve rest).mapError (Error.under (d.contextPath ++ rest)) := by
  apply resolve_congr
  rw [withoutContext_bare, withoutContext_of_append (String.toList_append ..)]

theorem mapError_under_resolve (d : Deployment) (id : String) :
    (d.resolve id).mapError (Error.under id) = d.resolve id :=
  (resolve_congr rfl).symm

/-- Identifiers that do not begin with the context path resolve as they do without one. -/
theorem resolve_of_not_prefix {id : String} (apart : ¬ d.contextPath.toList <+: id.toList) :
    d.resolve id = d.bare.resolve id := by
  have same : d.withoutContext id = d.bare.withoutContext id := by
    rw [withoutContext_bare, withoutContext_of_not_prefix apart]
  rw [resolve_congr same, mapError_under_resolve]

theorem not_isBack_of_not_carries {rest : String}
    (apart : ¬ d.Carries (d.contextPath ++ rest)) : ¬ IsBack rest.toList := by
  rintro (empty | slash)
  · exact apart (.inl (by rw [String.toList_eq_nil_iff.1 empty, String.append_empty]))
  · obtain ⟨others, split⟩ := List.head?_eq_some_iff.1 slash
    exact apart (.inr ⟨others, by simp [split]⟩)

/-- A context path that ends inside a name is taken off all the same, which shows unless the
identifier is refused with it and without it. -/
theorem resolve_append_eq_bare_iff {rest : String} (filled : d.contextPath ≠ "")
    (unclosed : d.contextPath.toList.getLast? ≠ some '/')
    (apart : ¬ d.Carries (d.contextPath ++ rest)) :
    d.resolve (d.contextPath ++ rest) = d.bare.resolve (d.contextPath ++ rest) ↔
      Refused (d.contextPath ++ rest).toList ∧ Refused rest.toList := by
  have inside := not_isBack_of_not_carries apart
  have left : d.withoutContext (d.contextPath ++ rest) = rest.toList :=
    withoutContext_of_append (String.toList_append ..)
  have whole := withoutContext_bare d (d.contextPath ++ rest)
  constructor
  · intro same
    by_cases refused : Refused rest.toList
    · rw [resolve_of_refused (left ▸ refused)] at same
      have := resolve_eq_error_iff.1 same.symm
      exact ⟨whole ▸ this.1, refused⟩
    · rw [resolve_of_not_refused (left ▸ refused), left] at same
      obtain ⟨-, names⟩ := resolve_eq_ok_iff.1 same.symm
      rw [whole, String.toList_append] at names
      exact absurd names (namesBelow_append_ne_of_not_isBack (by simpa using filled) unclosed inside)
  · rintro ⟨refused, refused'⟩
    rw [resolve_of_refused (left ▸ refused'), resolve_of_refused (whole ▸ refused)]

theorem getLast?_contextPath_of (root contextPath : String) :
    (Deployment.of root contextPath).contextPath.toList.getLast? ≠ some '/' := by
  intro closed
  rw [Deployment.of, String.toList_ofList] at closed
  simpa using Text.getLast?_dropEnd closed

/-- **The context path is taken off as a text, not name by name.** What stands behind it resolves
as it does without a context path. An identifier that does not carry the context path resolves as it
does without one exactly if it does not begin with it either, or is refused with it and without it:
otherwise the end of the context path is inside a name, which is cut. -/
theorem resolve_eq_bare_iff (root contextPath : String)
    (filled : (Deployment.of root contextPath).contextPath ≠ "") :
    let d := Deployment.of root contextPath
    (∀ id, ¬ d.Carries id →
      (d.resolve id = (Deployment.of root "").resolve id ↔
        ∀ rest, id = d.contextPath ++ rest → Refused id.toList ∧ Refused rest.toList)) ∧
    ∀ rest, d.resolve (d.contextPath ++ rest) =
      ((Deployment.of root "").resolve rest).mapError (Error.under (d.contextPath ++ rest)) := by
  intro d
  refine ⟨fun id apart => ?_, resolve_append_contextPath d⟩
  have unclosed := getLast?_contextPath_of root contextPath
  constructor
  · rintro same rest rfl
    exact (resolve_append_eq_bare_iff filled unclosed apart).1 same
  · intro refused
    by_cases start : d.contextPath.toList <+: id.toList
    · obtain ⟨rest, split⟩ := start
      obtain rfl : id = d.contextPath ++ String.ofList rest := by
        rw [← String.toList_inj, ← split, String.toList_append, String.toList_ofList]
      exact (resolve_append_eq_bare_iff filled unclosed apart).2 (refused _ rfl)
    · exact resolve_of_not_prefix start

/-- Under `/app`, a script that does not begin with the context path is found where it is found
without one, `..` is refused either way behind the beginning of a name, and what stands behind the
context path is found from the root. -/
theorem resolve_eq_bare_under_app :
    let d := Deployment.of "/srv/www" "/app/"
    let bare := Deployment.of "/srv/www" ""
    d.contextPath ≠ "" ∧
      ¬ d.Carries "/js/a.js" ∧ d.resolve "/js/a.js" = bare.resolve "/js/a.js" ∧
      ¬ d.Carries "/apps/../a.js" ∧ d.resolve "/apps/../a.js" = bare.resolve "/apps/../a.js" ∧
      d.resolve (d.contextPath ++ "/js/a.js") = .ok ["js", "a.js"] := by
  intro d bare
  have filled : d.contextPath ≠ "" := by decide +kernel
  have apart : ¬ d.Carries "/js/a.js" ∧ ¬ d.Carries "/apps/../a.js" := by decide +kernel
  obtain ⟨off, behind⟩ := resolve_eq_bare_iff "/srv/www" "/app/" filled
  refine ⟨filled, apart.1, (off _ apart.1).2 ?_, apart.2, (off _ apart.2).2 ?_, ?_⟩
  · intro rest split
    have start : d.contextPath.toList <+: "/js/a.js".toList :=
      ⟨rest.toList, by rw [split, String.toList_append]⟩
    exact absurd start (by decide +kernel)
  · intro rest split
    obtain rfl : rest = "s/../a.js" := by
      have whole : d.contextPath ++ "s/../a.js" = "/apps/../a.js" := by decide +kernel
      exact (String.append_right_inj d.contextPath).1 (split.symm.trans whole.symm)
    exact ⟨refused_iff.2 (by decide +kernel), refused_iff.2 (by decide +kernel)⟩
  · rw [behind]
    decide +kernel

/-- Under `/app`, a script in the directory `/apple` is looked for in the directory `/le`. -/
theorem cuts_context_off_directory :
    let d := Deployment.of "/srv/www" "/app"
    let bare := Deployment.of "/srv/www" ""
    d.resolve "/apple/a.js" = .ok ["le", "a.js"] ∧
      bare.resolve "/apple/a.js" = .ok ["apple", "a.js"] ∧
      d.pathTo ["le", "a.js"] = "/srv/www/le/a.js" ∧
      bare.pathTo ["apple", "a.js"] = "/srv/www/apple/a.js" ∧
      ¬ ∀ id, ¬ d.Carries id → d.resolve id = bare.resolve id := by
  intro d bare
  have here : d.resolve "/apple/a.js" = .ok ["le", "a.js"] := by decide +kernel
  have there : bare.resolve "/apple/a.js" = .ok ["apple", "a.js"] := by decide +kernel
  refine ⟨here, there, by decide +kernel, by decide +kernel, fun claimed => ?_⟩
  have same := claimed "/apple/a.js" (by decide +kernel)
  rw [here, there] at same
  simp at same

end Deployment

end PageBundle.Store
