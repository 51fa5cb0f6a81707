import PageBundle.Proofs.Store.Resolution

/-!
# The context path in front of an identifier

A deployment takes the context path off every identifier that begins with it, also off one that does
not carry it and only looks as if it did. Then something is clipped off (`Clips`), which shows in
the names. Otherwise the identifier resolves with the context path in front as it does without
(`resolve_append_contextPath_iff`).
-/

namespace PageBundle.Store.Deployment

open File (StandsIn IsFront IsBack namesIn)

/-- Something is cut off an identifier that does not carry the context path: it begins with the
context path all the same, which ends inside a name or has a name other than `.`. -/
def Clips (contextPath cs : List Char) : Prop :=
  contextPath ≠ [] ∧ ∃ rest, cs = contextPath ++ rest ∧
    (IsBack rest → ∃ name, StandsIn name contextPath ∧ name ≠ ".".toList)

theorem namesBelow_append_slash (xs ys : List Char) :
    namesBelow (xs ++ '/' :: ys) = namesBelow xs ++ namesBelow ys := by
  rw [namesBelow, File.namesIn_append_slash, List.filter_append]
  rfl

/-- A context path of dots does not show in names. -/
theorem namesBelow_append_of_dots {contextPath rest : List Char} (back : IsBack rest)
    (dots : ∀ name, StandsIn name contextPath → name = ".".toList) :
    namesBelow (contextPath ++ rest) = namesBelow rest := by
  have hidden := namesBelow_eq_nil_iff.2 dots
  rcases back with rfl | slash
  · rw [List.append_nil, hidden]
    rfl
  · obtain ⟨rest, rfl⟩ := List.head?_eq_some_iff.1 slash
    have alone : namesBelow ('/' :: rest) = namesBelow rest := namesBelow_append_slash [] rest
    rw [namesBelow_append_slash, hidden, alone, List.nil_append]

/-- A context path of dots has no other characters than dots and slashes. -/
theorem eq_of_mem_of_dots {contextPath : List Char}
    (dots : ∀ name, StandsIn name contextPath → name = ".".toList) {c : Char}
    (member : c ∈ contextPath) : c = '/' ∨ c = '.' := by
  by_cases slash : c = '/'
  · exact .inl slash
  · obtain ⟨name, stands, inName⟩ := File.exists_standsIn_of_mem member slash
    rw [dots name stands] at inName
    exact .inr (List.mem_singleton.1 inName)

section Around

variable {before name after : List Char}

theorem namesBelow_around (front : IsFront before) (nonempty : name ≠ []) (whole : '/' ∉ name)
    (back : IsBack after) :
    namesBelow (before ++ (name ++ after)) =
      namesBelow before ++ (namesBelow name ++ namesBelow after) := by
  have here := File.namesIn_of_whole nonempty whole
  rw [namesBelow, File.namesIn_around front nonempty whole back, List.filter_append,
    ← List.singleton_append, List.filter_append, ← here]
  rfl

theorem namesBelow_of_whole (nonempty : name ≠ []) (whole : '/' ∉ name) :
    namesBelow name = if name = ".".toList then [] else [String.ofList name] := by
  rw [namesBelow, File.namesIn_of_whole nonempty whole]
  by_cases dot : name = ".".toList
  · rw [dot]
    rfl
  · have other : String.ofList name ≠ "." := by
      intro same
      exact dot (by rw [← same, String.toList_ofList])
    rw [if_neg dot, List.filter_cons_of_pos (by simpa using other)]
    rfl

end Around

/-- A context path that ends inside a name changes the names. -/
theorem namesBelow_append_ne_of_not_isBack {contextPath rest : List Char}
    (nonempty : contextPath ≠ []) (unclosed : contextPath.getLast? ≠ some '/')
    (inside : ¬ IsBack rest) : namesBelow (contextPath ++ rest) ≠ namesBelow rest := by
  -- The name begins with `start`, the end of the context path, and goes on with `stop`.
  obtain ⟨before, start, rfl, front, wholeStart⟩ := File.exists_front contextPath
  obtain ⟨stop, after, rfl, wholeStop, back⟩ := File.exists_back rest
  have startFilled : start ≠ [] := by
    rintro rfl
    rw [List.append_nil] at nonempty unclosed
    exact front.elim nonempty unclosed
  have stopFilled : stop ≠ [] := by
    rintro rfl
    exact inside back
  have joined : namesBelow (start ++ stop) = [String.ofList (start ++ stop)] := by
    have long : start ++ stop ≠ ".".toList := by
      intro dot
      have size := congrArg List.length dot
      have startSize := List.length_pos_iff.2 startFilled
      have stopSize := List.length_pos_iff.2 stopFilled
      simp at size
      omega
    rw [namesBelow_of_whole (by simp [startFilled]) (by simp [wholeStart, wholeStop]), if_neg long]
  have whole : namesBelow ((before ++ start) ++ (stop ++ after)) =
      namesBelow before ++ ([String.ofList (start ++ stop)] ++ namesBelow after) := by
    have filled : start ++ stop ≠ [] := by simp [startFilled]
    have around := namesBelow_around front filled (by simp [wholeStart, wholeStop]) back
    rw [joined] at around
    rw [← around]
    simp
  have alone : namesBelow (stop ++ after) = namesBelow stop ++ namesBelow after :=
    namesBelow_around (show IsFront [] from .inl rfl) stopFilled wholeStop back
  intro same
  rw [whole, alone, ← List.append_assoc, List.append_cancel_right_eq,
    namesBelow_of_whole stopFilled wholeStop] at same
  split at same
  · simp at same
  · have last := congrArg List.getLast? same
    rw [List.getLast?_concat] at last
    have chars := String.ofList_injective (Option.some.inj last)
    exact startFilled (List.append_left_eq_self.1 chars)

/-- A context path that is clipped off changes the names. -/
theorem namesBelow_append_ne {contextPath rest : List Char}
    (clipped : Clips contextPath (contextPath ++ rest))
    (unclosed : contextPath.getLast? ≠ some '/') :
    namesBelow (contextPath ++ rest) ≠ namesBelow rest := by
  obtain ⟨nonempty, rest', same, named⟩ := clipped
  obtain rfl := List.append_cancel_left same
  by_cases back : IsBack rest
  · obtain ⟨name, stands, other⟩ := named back
    have shown : namesBelow contextPath ≠ [] := by
      intro hidden
      exact other (namesBelow_eq_nil_iff.1 hidden name stands)
    rcases back with rfl | slash
    · rwa [List.append_nil]
    · obtain ⟨rest, rfl⟩ := List.head?_eq_some_iff.1 slash
      have alone : namesBelow ('/' :: rest) = namesBelow rest := namesBelow_append_slash [] rest
      rw [namesBelow_append_slash, alone]
      simpa using shown
  · exact namesBelow_append_ne_of_not_isBack nonempty unclosed back

/-- A context path of dots does not decide what is refused. -/
theorem not_refused_append_of_dots {contextPath rest : List Char} (back : IsBack rest)
    (dots : ∀ name, StandsIn name contextPath → name = ".".toList)
    (here : ¬ "//".toList <+: contextPath ++ rest) (fit : ¬ Refused rest) :
    ¬ Refused (contextPath ++ rest) := by
  have names := namesBelow_append_of_dots back dots
  intro refused
  apply fit
  cases refused with
  | scheme occurs =>
    obtain ⟨before, after, split⟩ := occurs
    rw [List.append_assoc] at split
    rcases List.append_eq_append_iff.1 split with ⟨part, rfl, scheme⟩ | ⟨part, rfl, scheme⟩
    · cases part with
      | nil => exact .scheme ⟨[], after, by simpa using scheme⟩
      | cons c part =>
        -- The colon of the scheme would be a character of the context path.
        obtain rfl : ':' = c := by simpa using congrArg List.head? scheme
        have := eq_of_mem_of_dots dots (c := ':') (by simp)
        simp at this
    · exact .scheme ⟨part, after, by rw [List.append_assoc]; exact scheme.symm⟩
  | host begins => exact absurd begins here
  | ascent stands =>
    have member : ".." ∈ namesBelow (contextPath ++ rest) :=
      mem_namesBelow_iff.2 ⟨stands, by decide⟩
    rw [names] at member
    exact .ascent (mem_namesBelow_iff.1 member).1
  | nameless dots =>
    apply Refused.nameless
    rw [← namesBelow_eq_nil_iff, ← names]
    exact namesBelow_eq_nil_iff.2 dots

/-- **The context path in front of an identifier changes nothing, unless it is clipped off the
identifier itself.** -/
theorem resolve_append_contextPath_iff {d : Deployment} {id : String} {names : List String}
    (unclosed : d.contextPath.toList.getLast? ≠ some '/') (here : ¬ "//".toList <+: id.toList)
    (resolved : d.resolve id = .ok names) :
    d.resolve (d.contextPath ++ id) = .ok names ↔ ¬ Clips d.contextPath.toList id.toList := by
  have behind : d.withoutContext (d.contextPath ++ id) = id.toList :=
    withoutContext_of_append (by simp)
  obtain ⟨fit, rfl⟩ := resolve_eq_ok_iff.1 resolved
  rw [resolve_eq_ok_iff, behind]
  constructor
  · rintro ⟨-, same⟩ clipped
    obtain ⟨nonempty, rest, split, named⟩ := clipped
    rw [withoutContext_of_append split, split] at same
    exact namesBelow_append_ne ⟨nonempty, rest, rfl, named⟩ unclosed same
  · intro kept
    rcases withoutContext_cases d id with split | ⟨-, same⟩
    · generalize d.withoutContext id = rest at split fit ⊢
      rw [split] at kept here ⊢
      by_cases empty : d.contextPath.toList = []
      · rw [empty, List.nil_append]
        exact ⟨fit, rfl⟩
      · have back : IsBack rest := by
          by_contra inside
          exact kept ⟨empty, rest, rfl, fun back => absurd back inside⟩
        have dots : ∀ name, StandsIn name d.contextPath.toList → name = ".".toList := by
          intro name stands
          by_contra other
          exact kept ⟨empty, rest, rfl, fun _ => ⟨name, stands, other⟩⟩
        exact ⟨not_refused_append_of_dots back dots here fit, namesBelow_append_of_dots back dots⟩
    · rw [same] at fit ⊢
      exact ⟨fit, rfl⟩

end PageBundle.Store.Deployment
