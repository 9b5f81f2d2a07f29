import Lonesome.Proxy.Proxy

/-!
# The turns of a callback

A loop over the middlewares of a route that succeeds went through them one by one, each turn from the
state in which the one before it ended. Other requests have their steps before a hook begins (`met`); the
rule of the middleware is evaluated in that state (`applies`) and the hook goes on from there (`ruled`).
-/

namespace Lonesome

open Lonesome.Lib

variable {X : Externals}

namespace RequestState

variable (s : RequestState X)

/-- The state with the scope of the request, which the first callback to need it makes. -/
def withScope : RequestState X := s.setScope s.scope

/-- The state in which a hook begins, after the steps of other requests. -/
def met : RequestState X := ((interleave X).exec s).2

/-- The state after the evaluation of a program. -/
def evaluated : RequestState X :=
  { s.withScope with time := s.time + 1, history := s.history ++ [.eval false s.scope] }

/-- Whether a middleware with the rule applies in the state: it has none, or one that evaluates to
`true`. -/
def applies : Option X.Program → Bool
  | none => true
  | some program =>
    match X.execute s.time s.scope program with
    | .ok (.bool true) => true
    | _ => false

/-- The state after the rule. -/
def ruled : Option X.Program → RequestState X
  | none => s
  | some _ => s.evaluated

theorem session_ruled (program : Option X.Program) : (s.ruled program).session = s.session := by
  cases program <;> rfl

end RequestState

section Exec

variable (s : RequestState X)

theorem exec_execute (program : X.Program) :
    (execute X program).exec s = (.ok (X.execute s.time s.scope program), s.evaluated) :=
  exec_executeIn s false program

theorem exec_shouldApply (program : Option X.Program) :
    (shouldApply X program).exec s = (.ok (s.applies program), s.ruled program) := by
  cases program with
  | none => rfl
  | some program =>
    rw [shouldApply, exec_bind, exec_execute]
    dsimp only [RequestState.applies, RequestState.ruled]
    generalize X.execute s.time s.scope program = result
    cases result with
    | error e => rfl
    | ok v =>
      cases v with
      | bool b => cases b <;> rfl
      | _ => rfl

theorem exec_middlewares :
    (middlewares X).exec s = (.ok ((s.ctx.currentRoute.map (·.content.middlewares)).getD []), s) := rfl

end Exec

/-- A hook with a rule that succeeds: it was skipped, or the rule applied and the rest of it succeeded. -/
theorem exec_whenApplies_eq_ok {α : Type} {program : Option X.Program} {body : ReqM X α} {a a' : α}
    {s s' : RequestState X}
    (h : (do if ← shouldApply X program then body else return a : ReqM X α).exec s = (.ok a', s')) :
    (s.applies program = false ∧ a' = a ∧ s' = s.ruled program) ∨
      (s.applies program = true ∧ body.exec (s.ruled program) = (.ok a', s')) := by
  rw [exec_bind, exec_shouldApply] at h
  dsimp only at h
  cases happlies : s.applies program with
  | false =>
    rw [happlies] at h
    cases h
    exact .inl ⟨rfl, rfl, rfl⟩
  | true =>
    rw [happlies] at h
    exact .inr ⟨rfl, h⟩

theorem exec_orInternalError_eq_ok {α : Type} {context : String} {result : Except String α} {a : α}
    {s s' : RequestState X} (h : (orInternalError X context result).exec s = (.ok a, s')) :
    result = .ok a ∧ s' = s := by
  cases result with
  | error e => cases h
  | ok b =>
    cases h
    exact ⟨rfl, rfl⟩

/-! ## Turns -/

/-- One turn of a loop that passes a value on. -/
def Turn {α : Type} (hook : α → Middleware X → ReqM X α) (m : Middleware X) (p p' : α × RequestState X) :
    Prop :=
  (hook p.1 m).exec p.2.met = (.ok p'.1, p'.2)

/-- One turn of `request_filter`, in which the middleware does not answer. -/
def Passes (m : Middleware X) (s s' : RequestState X) : Prop :=
  m.requestFilter.exec s.met = (.ok false, s')

variable {route : Route X} {s s' : RequestState X}

theorem exec_throughMiddlewares_eq_ok_iff {α : Type} {hook : α → Middleware X → ReqM X α} {a a' : α}
    (hroute : s.ctx.currentRoute = some route) :
    (throughMiddlewares X hook a).exec s = (.ok a', s') ↔
      Through (Turn hook) route.content.middlewares (a, s) (a', s') := by
  rw [throughMiddlewares, exec_bind, exec_middlewares, hroute]
  exact exec_foldlM_eq_ok_iff

/-- A request that `request_filter` lets go on passes all middlewares of its route, from the state with
its scope. -/
theorem passes_of_requestFilter {proxy : LonesomeProxy X} (hroute : s.ctx.currentRoute = some route)
    (h : proxy.requestFilter.exec s = (.ok false, s')) :
    Through Passes route.content.middlewares s.withScope s' := by
  rw [LonesomeProxy.requestFilter, exec_bind, exec_ensureSessionCelContext] at h
  dsimp only at h
  split at h
  · obtain ⟨_, _, _, hreturn⟩ := exec_bind_eq_ok_iff.1 h
    cases hreturn
  · have hscoped : (s.setScope s.scope).ctx.currentRoute = some route := hroute
    rw [exec_bind, exec_middlewares, hscoped] at h
    exact exec_anyM_eq_ok_false_iff.1 h

end Lonesome
