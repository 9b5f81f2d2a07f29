import Lonesome.Lib.Effects
import Lonesome.Middlewares.Config
import Lonesome.Route.RouteTable

/-!
# The context of a request

`src/proxy/ctx.rs`, and the access to the scope of expressions in `cel_session_context.rs`. A
callback of the proxy is a computation on the state of its request (`ReqM`): the context, the
downstream session and what requests share. An error of a callback leaves what it wrote.

The history records the evaluations of expressions, each with the scope it was made in, and the
calls of `resolve_error_page`. Only a few steps write the scope or the history; an invariant that
these keep is kept by every computation that is put together from them (`Routine`, and `Steady` for
one that does not depend on the session and the clock).
-/

namespace Lonesome

open Lonesome.Lib

/-- How an override of the upstream response body is applied. -/
inductive ResponseBodyOverride where
  | replace (body : Str)
  | dropRemaining
  deriving DecidableEq, Repr

/-- What a route carries beside its matcher. -/
structure RouteContent (X : Externals) where
  middlewares : List (Middleware X)
  upstreamPool : Upstream.UpstreamPool X.Endpoint
  hashKeyProgram : Option X.Program

/-- The pre-check of a matcher reads the host and the path of the session. -/
abbrev Route (X : Externals) := Routes.Route (Str × Str) X.Ω (RouteContent X)

structure ProxyCtx (X : Externals) where
  routeId : String
  currentRoute : Option (Route X)
  sessionCelContext : Option (SessionCelContext X.H)
  cacheHandler : Option CacheHandler
  upstreamState : Option Upstream.UpstreamState
  /-- The only extension in use: the start of the request for the access log. -/
  accessLogStart : Option Int
  sniHostPolicy : SniHostPolicy
  responseBodyOverride : Option ResponseBodyOverride

namespace ProxyCtx

variable {X : Externals}

def new (policy : SniHostPolicy) : ProxyCtx X where
  routeId := ""
  currentRoute := none
  sessionCelContext := none
  cacheHandler := none
  upstreamState := none
  accessLogStart := none
  sniHostPolicy := policy
  responseBodyOverride := none

def resetForRequest (ctx : ProxyCtx X) : ProxyCtx X :=
  new ctx.sniHostPolicy

def setRoute (ctx : ProxyCtx X) (route : Route X) : ProxyCtx X :=
  { ctx with routeId := route.id, currentRoute := some route }

end ProxyCtx

/-- An evaluation, inside `resolve_error_page` or not, in a scope; a call of `resolve_error_page`. -/
inductive CelEvent (X : Externals) where
  | eval (inside : Bool) (scope : SessionCelContext X.H)
  | resolve (status : Nat)

structure RequestState (X : Externals) where
  ctx : ProxyCtx X
  session : Session X.H
  shared : Shared X.Ω
  time : Nat
  history : List (CelEvent X)

/-- A computation of the proxy on a request. -/
abbrev ReqM (X : Externals) (α : Type) := Eff (RequestState X) ProxyError α

section Actions

variable (X : Externals)

def tick : ReqM X Nat :=
  modifyGet fun s => (s.time, { s with time := s.time + 1 })

theorem exec_tick (s : RequestState X) :
    (tick X).exec s = (.ok s.time, { s with time := s.time + 1 }) := rfl

def modifyCtx (f : ProxyCtx X → ProxyCtx X) : ReqM X Unit :=
  modify fun s => { s with ctx := f s.ctx }

def modifySession (f : Session X.H → Session X.H) : ReqM X Unit :=
  modify fun s => { s with session := f s.session }

def modifyShared (f : Shared X.Ω → Shared X.Ω) : ReqM X Unit :=
  modify fun s => { s with shared := f s.shared }

def record (e : CelEvent X) : ReqM X Unit :=
  modify fun s => { s with history := s.history ++ [e] }

/-- Other requests get their turn. -/
def interleave : ReqM X Unit := do
  let t ← tick X
  modifyShared X (X.others t)

/-- `result.map_err(|e| middleware_internal_error(context, e))` -/
def orInternalError {α : Type} (context : String) : Except String α → ReqM X α
  | .ok a => pure a
  | .error e => throw (middlewareInternalError context e)

/-- The same for the error of a computation of the proxy. -/
def mapInternalError {α : Type} (context : String) (m : ReqM X α) : ReqM X α :=
  tryCatch m fun e => throw (middlewareInternalError context (X.errorText e))

/-! ## The scope -/

def setCelContext (c : SessionCelContext X.H) : ReqM X Unit :=
  modifyCtx X fun ctx => { ctx with sessionCelContext := some c }

def ensureSessionCelContext : ReqM X (SessionCelContext X.H) := do
  let s ← get
  match s.ctx.sessionCelContext with
  | some c => return c
  | none =>
    let c := SessionCelContext.ofReceived (s.session.received s.ctx.sniHostPolicy)
    setCelContext X c
    return c

/-- `program.execute(ensure_context(session, proxy_ctx))` -/
def executeIn (inside : Bool) (program : X.Program) : ReqM X (Except String CelValue) := do
  let c ← ensureSessionCelContext X
  let t ← tick X
  record X (.eval inside c)
  return X.execute t c program

def execute (program : X.Program) : ReqM X (Except String CelValue) :=
  executeIn X false program

/-- `ensure_context_mut(session, proxy_ctx).add_variable_from_value(name, value)` -/
def addVariable (name : Str) (v : CelValue) : ReqM X Unit := do
  let c ← ensureSessionCelContext X
  setCelContext X (c.addVariable name v)

/-- `should_apply` of the middlewares: there is no rule, or it evaluates to `true`. -/
def shouldApply : Option X.Program → ReqM X Bool
  | none => pure true
  | some program => do
    match ← execute X program with
    | .ok (.bool true) => return true
    | _ => return false

/-! ## Writing to the downstream -/

/-- One write, or its error. -/
def write (f : Session X.H → Session X.H) : ReqM X Unit := do
  let t ← tick X
  match X.writeError t with
  | some e => throw e
  | none => modifySession X f

def writeResponseHeader (resp : ResponseHeader) : ReqM X Unit :=
  write X fun s => { s with written := s.written ++ [.head resp] }

def writeResponseBody (body : Str) : ReqM X Unit :=
  write X fun s => { s with written := s.written ++ [.body body] }

/-- `session.as_downstream_mut().set_keepalive(None)` -/
def disableKeepalive : ReqM X Unit :=
  modifySession X fun s => { s with keepalive := none }

end Actions

/-! ## In a request that has a scope -/

section Exec

variable {X : Externals} {s : RequestState X} {c : SessionCelContext X.H}

/-- The scope of the request, which is made when it is first asked for. -/
def RequestState.scope (s : RequestState X) : SessionCelContext X.H :=
  s.ctx.sessionCelContext.getD (.ofReceived (s.session.received s.ctx.sniHostPolicy))

def RequestState.setScope (s : RequestState X) (c : SessionCelContext X.H) : RequestState X :=
  { s with ctx := { s.ctx with sessionCelContext := some c } }

theorem exec_ensureSessionCelContext (s : RequestState X) :
    (ensureSessionCelContext X).exec s =
      (.ok s.scope, s.setScope s.scope) := by
  unfold ensureSessionCelContext RequestState.scope
  rw [exec_bind, exec_get]
  rcases s with ⟨⟨_, _, _ | c, _, _, _, _, _⟩, _, _, _, _⟩ <;> rfl

theorem RequestState.scope_eq (h : s.ctx.sessionCelContext = some c) : s.scope = c := by
  rw [scope, h, Option.getD_some]

theorem RequestState.setScope_eq (h : s.ctx.sessionCelContext = some c) : s.setScope c = s := by
  rw [setScope, ← h]

theorem exec_executeIn (s : RequestState X) (inside : Bool) (program : X.Program) :
    (executeIn X inside program).exec s = (.ok (X.execute s.time s.scope program),
      { s.setScope s.scope with time := s.time + 1, history := s.history ++ [.eval inside s.scope] }) := by
  rw [executeIn, exec_bind, exec_ensureSessionCelContext]
  rfl

theorem exec_executeIn_of_scope (h : s.ctx.sessionCelContext = some c) (inside : Bool)
    (program : X.Program) :
    (executeIn X inside program).exec s = (.ok (X.execute s.time c program),
      { s with time := s.time + 1, history := s.history ++ [.eval inside c] }) := by
  rw [exec_executeIn, RequestState.scope_eq h, RequestState.setScope_eq h]

end Exec

/-- The plain request before its first callback. -/
def RequestState.plain (errorPages : ErrorPages.ErrorPageStore (Cel.Expr Empty)) :
    RequestState Externals.plain where
  ctx := ProxyCtx.new .looseByHeader
  session := .plain
  shared := .plain errorPages
  time := 0
  history := []

end Lonesome
