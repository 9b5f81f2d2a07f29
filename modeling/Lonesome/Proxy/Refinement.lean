import Lonesome.Proxy.CelStability

/-!
# The callbacks and the parts that are modelled on their own

`Lonesome.Route.RouteTable` finds a route by the answers of a CEL runtime on the host and the path,
and `Lonesome.Proxy.SniHost` rewrites the upstream request after filters of any kind. Here the
callbacks of a request are shown to compute the same: the route that is selected is the first match
of the table (`findFirstMatch_refines`), and `upstream_request_filter` is the filters of the
middlewares followed by the rewrite (`upstreamRequestFilter_refines`).
-/

namespace Lonesome

open Lonesome.Lib
open Lonesome.Cel (CelRuntime Matcher)
open Lonesome.Routes (RouteTable)

variable {X : Externals}

/-! ## Matching -/

section Matching

variable {ε υ : Type} {R : CelRuntime (Str × Str) X.Ω ε υ} {c : SessionCelContext X.H}
  {s : RequestState X}

/-- The host and the path that the pre-check reads. -/
def sourceOf (X : Externals) (c : SessionCelContext X.H) : Str × Str :=
  (c.celHttpSession.host, c.celHttpSession.path X.D)

/-- The runtime gives the booleans of the executions in the scope, whenever these are made. -/
def RunsAlike (R : CelRuntime (Str × Str) X.Ω ε υ) (c : SessionCelContext X.H) : Prop :=
  ∀ t program b, X.execute t c program = .ok (.bool b) ↔
    R.execute (sourceOf X c) program = .ok (.bool b)

/-- The scope is still the same. -/
def HasScope (c : SessionCelContext X.H) (s : RequestState X) : Prop :=
  s.ctx.sessionCelContext = some c

theorem executeMatcher_refines (hR : RunsAlike R c) (hs : HasScope c s) (program : X.Program) :
    ((executeMatcher X program).exec s).1 =
        .ok ((Matcher.fromCel program).withoutPrecheck.matches R (sourceOf X c)) ∧
      HasScope c ((executeMatcher X program).exec s).2 := by
  unfold executeMatcher
  rw [exec_bind, execute, exec_executeIn_of_scope hs]
  dsimp only
  split
  · next v heq =>
    refine ⟨?_, hs⟩
    have hrun := (hR _ _ v).1 heq
    simp only [exec_pure, Matcher.matches, Matcher.withoutPrecheck, Matcher.fromCel, hrun]
  · next hne =>
    refine ⟨?_, hs⟩
    have hno (v : Bool) : R.execute (sourceOf X c) program ≠ .ok (.bool v) :=
      fun hrun => hne v ((hR _ _ v).2 hrun)
    simp only [exec_pure, Matcher.matches, Matcher.withoutPrecheck, Matcher.fromCel]
    split
    · next v heq => exact absurd heq (hno v)
    · rfl
    · rfl

theorem routeMatches_refines (hR : RunsAlike R c) (hs : HasScope c s) (route : Route X) :
    ((routeMatches route).exec s).1 = .ok (route.matches R (sourceOf X c)) ∧
      HasScope c ((routeMatches route).exec s).2 := by
  unfold routeMatches
  rw [exec_bind, exec_ensureSessionCelContext, RequestState.scope_eq hs, RequestState.setScope_eq hs]
  have hfull := executeMatcher_refines hR hs route.matcher.program
  simp only [Matcher.matches, Matcher.withoutPrecheck, Matcher.fromCel] at hfull
  simp only [Routes.Route.matches, Matcher.matches]
  cases hprecheck : route.matcher.precheck with
  | none => exact hfull
  | some expr =>
    have heval : expr.eval (c.celHttpSession.host, c.celHttpSession.path X.D) =
      expr.eval (sourceOf X c) := rfl
    dsimp only
    rw [heval]
    cases expr.eval (sourceOf X c) with
    | false => exact ⟨rfl, hs⟩
    | true => exact ⟨rfl, hs⟩
    | unknown => exact hfull

/-- The loop over the routes finds the first match of the table. -/
theorem findFirstMatch_refines (hR : RunsAlike R c) (hs : HasScope c s) (routes : List (Route X)) :
    ((findFirstMatch X routes).exec s).1 =
      .ok (RouteTable.findFirstMatch R ⟨routes⟩ (sourceOf X c)) := by
  induction routes generalizing s with
  | nil => rfl
  | cons route rest ih =>
    obtain ⟨hmatch, hscope⟩ := routeMatches_refines hR hs route
    unfold findFirstMatch
    rw [exec_bind]
    rcases hexec : (routeMatches route).exec s with ⟨result, s'⟩
    rw [hexec] at hmatch hscope
    obtain rfl : result = .ok (route.matches R (sourceOf X c)) := hmatch
    cases hroute : route.matches R (sourceOf X c) with
    | true => simp [RouteTable.findFirstMatch, hroute]
    | false =>
      have hrest := ih hscope
      simp only [RouteTable.findFirstMatch, List.find?_cons, hroute] at hrest ⊢
      exact hrest

end Matching

/-! ## Forwarding -/

/-- The filter of a middleware, with the state of the request as its view of the context. -/
def Middleware.asFilter (m : Middleware X) : UpstreamRequestFilter X.H (RequestState X) ProxyError :=
  fun s req =>
    match Eff.exec (do interleave X; m.upstreamRequestFilter req) s with
    | (.ok req', s') => .ok (s', req')
    | (.error e, _) => .error e

/-- The loop of the callback. -/
def filterLoop (ms : List (Middleware X)) (req : RequestHeader X.H) : ReqM X (RequestHeader X.H) :=
  ms.foldlM (fun req m => do interleave X; m.upstreamRequestFilter req) req

section Forwarding

variable {s : RequestState X}

/-- The loop runs the filters one after the other. -/
theorem exec_filterLoop (ms : List (Middleware X)) (req : RequestHeader X.H) (s : RequestState X) :
    (match (filterLoop ms req).exec s with
      | (.ok req', s') => .ok (s', req')
      | (.error e, _) => .error e) =
      runUpstreamRequestFilters (ms.map (·.asFilter)) s req := by
  induction ms generalizing req s with
  | nil => rfl
  | cons m ms ih =>
    rw [filterLoop, List.foldlM_cons, exec_bind, List.map_cons, runUpstreamRequestFilters,
      Middleware.asFilter]
    rcases Eff.exec (do interleave X; m.upstreamRequestFilter req) s with ⟨_ | req', s'⟩
    · rfl
    · exact ih req' s'

/-- The middlewares leave the session of the scope as it was received. -/
theorem received_after_filters {c : SessionCelContext X.H} (hs : HasScope c s)
    (req : RequestHeader X.H) :
    (Eff.exec (throughMiddlewares X (fun req m => m.upstreamRequestFilter req) req) s).2.scope.Received
      c.celHttpSession.toReceivedRequest := by
  have hinvariant : ScopeInvariant X (fun _ => True) fun c' _ =>
      c'.Received c.celHttpSession.toReceivedRequest :=
    ⟨fun _ _ _ h => h, fun _ _ _ _ _ h => h, fun _ _ _ h => h, fun _ _ _ h => h, fun _ _ _ _ h => h⟩
  have hsteady := hinvariant.steady fun _ => True
  have hwrites : WritesOnly (X := X) (fun _ => True) (ScopeInvariant.At (fun c' _ =>
      c'.Received c.celHttpSession.toReceivedRequest) fun _ => True) :=
    ⟨trivial, ofRoute_writesOnly _⟩
  have hscope : s.scope = c := RequestState.scope_eq hs
  have hkeeps := hsteady.routine.responds.throughMiddlewares hwrites.middlewares
    (fun req m _ => hsteady.routine.responds.upstreamRequestFilter req m) req s
  exact (hkeeps ⟨by rw [hscope]; exact hs, by rw [hscope]; rfl, trivial⟩).2.1

theorem exec_forceSni (proxy : LonesomeProxy X) (req : RequestHeader X.H) (s : RequestState X) :
    ((proxy.forceSni req).exec s).1 =
      if proxy.sniHostPolicy = .strictRewriteHeader then
        match s.scope.celHttpSession.sni with
        | some sni => .ok (forceAuthority req sni)
        | none => .ok req
      else .ok req := by
  unfold LonesomeProxy.forceSni
  split
  · rw [exec_bind, exec_ensureSessionCelContext]
    dsimp only
    cases s.scope.celHttpSession.sni <;> rfl
  · rfl

/-- `upstream_request_filter` is the filters of the middlewares and the rewrite to the SNI of the
session. -/
theorem upstreamRequestFilter_refines {c : SessionCelContext X.H} (proxy : LonesomeProxy X)
    (hs : HasScope c s) (req : RequestHeader X.H) :
    ((proxy.upstreamRequestFilter req).exec s).1 =
      upstreamRequestFilter proxy.sniHostPolicy c.celHttpSession.toCelHttpSession
        (s.ctx.currentRoute.map fun route => route.content.middlewares.map (·.asFilter)) s req := by
  unfold LonesomeProxy.upstreamRequestFilter
  rw [exec_bind, exec_get]
  cases hroute : s.ctx.currentRoute with
  | none => simp only [hroute]; rfl
  | some route =>
    have hreceived := received_after_filters hs req
    have hfilters := exec_filterLoop route.content.middlewares req s
    have hloop : Eff.exec (throughMiddlewares X (fun req m => m.upstreamRequestFilter req) req) s =
        (filterLoop route.content.middlewares req).exec s := by
      show Eff.exec (List.foldlM _ _ ((s.ctx.currentRoute.map _).getD [])) s = _
      rw [hroute]
      rfl
    simp only [hroute]
    rw [exec_bind]
    rw [hloop] at hreceived ⊢
    simp only [Option.map_some, upstreamRequestFilter, ← hfilters]
    rcases hexec : (filterLoop route.content.middlewares req).exec s with ⟨_ | req', s'⟩
    · rfl
    · rw [hexec] at hreceived
      dsimp only at hreceived ⊢
      rewrite [exec_forceSni, ← hreceived]
      split
      · cases s'.scope.celHttpSession.sni <;> rfl
      · rfl

end Forwarding

end Lonesome
