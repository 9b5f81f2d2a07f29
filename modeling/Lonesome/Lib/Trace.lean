import Mathlib.Data.List.Basic

/-!
# Traces

A property of what happened, event by event: each event of a trace stands in a relation to the
events before it (`Justified`). A trace grows at its end, so the property of a run follows from the
property of the event that one step adds (`justified_concat`).
-/

namespace Lonesome.Lib

variable {E : Type} {J J' : List E → E → Prop} {l l' : List E} {e : E}

/-- Each event of the trace is justified by the events before it. -/
def Justified (J : List E → E → Prop) (l : List E) : Prop :=
  ∀ before e after, l = before ++ e :: after → J before e

theorem justified_nil : Justified J [] := by
  intro before e after h
  cases before <;> cases h

theorem justified_concat : Justified J (l ++ [e]) ↔ Justified J l ∧ J l e := by
  constructor
  · intro h
    refine ⟨fun before e' after heq => h before e' (after ++ [e]) ?_, h l e [] rfl⟩
    rw [heq, List.append_assoc, List.cons_append]
  · rintro ⟨hl, he⟩ before e' after heq
    rcases List.eq_nil_or_concat after with rfl | ⟨rest, last, rfl⟩
    · obtain ⟨rfl, hlast⟩ := List.append_inj' heq rfl
      cases hlast
      exact he
    · rw [List.concat_eq_append, ← List.cons_append, ← List.append_assoc] at heq
      obtain ⟨rfl, -⟩ := List.append_inj' heq rfl
      exact hl before e' rest rfl

/-- A justified trace stays justified when a step adds an event that is. -/
theorem Justified.concat (h : Justified J l) (he : J l e) : Justified J (l ++ [e]) :=
  justified_concat.2 ⟨h, he⟩

end Lonesome.Lib
