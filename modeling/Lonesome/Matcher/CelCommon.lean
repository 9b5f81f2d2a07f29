import Lonesome.Text

/-!
# The host pattern of a rule

`host_matches` of `src/matcher/cel_common.rs`, used by the CEL function `Host` and by the route
pre-check.
-/

namespace Lonesome.Cel

/-- Matches a request host against a `Host(...)` pattern: `*.example.com` stands for exactly one
label before `.example.com`, any other pattern for itself. -/
def hostMatches (actual pattern : Str) : Bool :=
  match pattern with
  | '*' :: '.' :: base =>
    match actual.splitOnce '.' with
    | some (label, rest) => !label.isEmpty && rest == base
    | none => false
  | _ => actual == pattern

/-- A wildcard pattern stands for one label, not empty, before its base. -/
theorem hostMatches_wildcard (actual base : Str) :
    hostMatches actual ('*' :: '.' :: base) = true ↔
      ∃ label, label ≠ [] ∧ '.' ∉ label ∧ actual = label ++ '.' :: base := by
  rw [hostMatches]
  cases h : actual.splitOnce '.' with
  | none =>
    simp only [Bool.false_eq_true, false_iff]
    rintro ⟨label, -, hdot, heq⟩
    rw [Str.splitOnce_eq_some_iff.2 ⟨hdot, heq⟩] at h
    cases h
  | some parts =>
    obtain ⟨label, rest⟩ := parts
    obtain ⟨hdot, heq⟩ := Str.splitOnce_eq_some_iff.1 h
    simp only [Bool.and_eq_true, Bool.not_eq_true', List.isEmpty_eq_false_iff, beq_iff_eq]
    constructor
    · rintro ⟨hne, rfl⟩
      exact ⟨label, hne, hdot, heq⟩
    · rintro ⟨label', hne, hdot', heq'⟩
      have hsplit := Str.splitOnce_eq_some_iff.2 ⟨hdot', heq'⟩
      rw [h, Option.some.injEq, Prod.mk.injEq] at hsplit
      exact ⟨hsplit.1 ▸ hne, hsplit.2⟩

example : hostMatches "api.example.com".toList "*.example.com".toList = true := by decide
example : hostMatches "a.b.example.com".toList "*.example.com".toList = false := by decide

end Lonesome.Cel
