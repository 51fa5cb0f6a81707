import PageBundle.Proofs.Script.Provenance

/-!
# Machines that differ in what they remember of the input

The machine remembers the last byte it read, and whether that was a carriage return. The first
decides only whether a slash may open a regular expression (`read_withMemory`), the second only
whether a line feed completes a line terminator. So machines that are `Alike` do the same with a
byte and with what it means (`Alike.step`): a run may be followed on another text than the one it
reads.
-/

namespace PageBundle.Script

namespace Machine

/-- The machine with another memory of what was read. -/
def withMemory (m : Machine) (last : UInt8) (returned : Bool) : Machine :=
  { m with lastRead := last, afterReturn := returned }

section Memory

variable (m : Machine) (last : UInt8) (returned : Bool)

@[simp] theorem state_withMemory : (m.withMemory last returned).state = m.state := rfl

@[simp] theorem resume_withMemory : (m.withMemory last returned).resume = m.resume := rfl

@[simp] theorem lastRead_withMemory : (m.withMemory last returned).lastRead = last := rfl

@[simp] theorem spaceOwed_withMemory : (m.withMemory last returned).spaceOwed = m.spaceOwed := rfl

@[simp] theorem mayEndStatement_withMemory :
    (m.withMemory last returned).mayEndStatement = m.mayEndStatement := rfl

@[simp] theorem lead_withMemory (c : UInt8) : (m.withMemory last returned).lead c = m.lead c := rfl

@[simp] theorem finish_withMemory : (m.withMemory last returned).finish = m.finish := by
  simp only [finish, state_withMemory, write_eq, lead_withMemory]

@[simp] theorem wrote_withMemory (c : UInt8) :
    (m.withMemory last returned).wrote c = (m.wrote c).withMemory last returned := rfl

@[simp] theorem enter_withMemory (state : State) :
    (m.withMemory last returned).enter state = (m.enter state).withMemory last returned := rfl

variable {m last}

theorem readText_withMemory (c : UInt8)
    (same : c = ascii '/' → precedesRegex last = precedesRegex m.lastRead) :
    (m.withMemory last returned).readText c =
      ((m.readText c).1.withMemory last returned, (m.readText c).2) := by
  by_cases isSpace : c = space
  · subst isSpace
    rfl
  by_cases isSlash : c = ascii '/'
  · subst isSlash
    rw [readText_slash, readText_slash, lastRead_withMemory, same rfl]
    rfl
  · rw [readText_token _ isSpace isSlash, readText_token _ isSpace isSlash]
    cases isQuote c <;> rfl

/-- **What was read decides only whether a slash opens a regular expression.** -/
theorem read_withMemory (c : UInt8)
    (same : c = ascii '/' → precedesRegex last = precedesRegex m.lastRead) :
    (m.withMemory last returned).read c =
      ((m.read c).1.withMemory last returned, (m.read c).2) := by
  have text := readText_withMemory (m := m) returned c same
  have divided := readText_withMemory (m := (m.wrote (ascii '/')).enter (.text .solid)) returned c
    same
  simp only [read, afterSlash, releaseSlash, endLineComment, write_eq, state_withMemory,
    resume_withMemory, spaceOwed_withMemory, mayEndStatement_withMemory, wrote_withMemory,
    enter_withMemory, text, divided]
  repeat' split
  all_goals rfl

end Memory

/-- The second machine has another memory of its input, after which the same may follow, and no
carriage return was read last. -/
def Alike (m n : Machine) : Prop :=
  ∃ last, precedesRegex last = precedesRegex m.lastRead ∧ n = m.withMemory last false

theorem Alike.remember {m n : Machine} (alike : Alike m n) {last : UInt8}
    (same : precedesRegex last = precedesRegex m.lastRead) (returned : Bool) :
    Alike (m.withMemory last returned) n := by
  obtain ⟨other, same', rfl⟩ := alike
  exact ⟨other, same'.trans same.symm, rfl⟩

section AlikeFields

variable {m n : Machine} (alike : Alike m n)
include alike

theorem Alike.state_eq : n.state = m.state := by
  obtain ⟨last, -, rfl⟩ := alike
  rfl

theorem Alike.held_eq : n.held = m.held := by
  obtain ⟨last, -, rfl⟩ := alike
  rfl

theorem Alike.finish_eq : n.finish = m.finish := by
  obtain ⟨last, -, rfl⟩ := alike
  exact finish_withMemory m last false

theorem Alike.unreturned : n.afterReturn = false := by
  obtain ⟨last, -, rfl⟩ := alike
  rfl

end AlikeFields

/-- What a byte means means itself to a machine that no carriage return precedes. -/
theorem meaning_meaning {m : Machine} {b c : UInt8} (means : m.meaning b = some c) (last : UInt8) :
    (m.withMemory last false).meaning c = some c ∧ c ≠ carriageReturn := by
  rcases meaning_eq_some means with ⟨rfl, -⟩ | ⟨rfl, rfl⟩ | ⟨printable, rfl⟩
  · exact ⟨rfl, by decide⟩
  · cases verbatim : m.state.isVerbatim with
    | false => exact ⟨meaning_printable _ (by decide), by decide⟩
    | true => exact ⟨by simp [meaning_tab, verbatim], by decide⟩
  · exact ⟨meaning_printable _ printable, ne_of_printable printable (by decide)⟩

/-- **Alike machines do the same** with a byte and with what it means. -/
theorem Alike.step {m n : Machine} (alike : Alike m n) {b c : UInt8}
    (means : m.meaning b = some c) :
    (n.step c).2 = (m.step b).2 ∧ Alike (m.step b).1 (n.step c).1 := by
  obtain ⟨last, same, rfl⟩ := alike
  obtain ⟨again, noReturn⟩ := meaning_meaning means last
  have first : { m with afterReturn := b == carriageReturn } =
      m.withMemory m.lastRead (b == carriageReturn) := rfl
  have second : { m.withMemory last false with afterReturn := c == carriageReturn } =
      m.withMemory last false := by
    rw [beq_false_of_ne noReturn]
    rfl
  rw [step_of_meaning means, step_of_meaning again, first, second, read_withMemory _ c fun _ => rfl,
    read_withMemory _ c fun _ => same]
  refine ⟨rfl, if c == space then last else c, ?_, rfl⟩
  split
  next => exact same
  next => rfl

end Machine

end PageBundle.Script
