import Lonesome.Middlewares.Auth
import Lonesome.Middlewares.Observe
import Lonesome.Middlewares.RateLimit
import Lonesome.Middlewares.Respond
import Lonesome.Middlewares.Rewrite

/-!
# The callbacks of the proxy

`src/proxy/proxy.rs`: `LonesomeProxy` runs the hooks of the middlewares of the matched route, one
callback after the other. `pingora` decides which callbacks come after `early_request_filter`, how
often and with which headers and errors, and changes the session in between (`Phase`).

What a hook may write is said once: most only evaluate expressions (`Evaluates`), some answer the
request (`Responds`). The callbacks keep what is `Routine`, given the names that the `set_variable`s of
the route write and what its `jwt`s do (`Routine.phase`). An invariant that is `Steady` holds after any
run (`Steady.run`); `ScopeInvariant.run` is the form for a property of the scope and the history.
-/

namespace Lonesome

open Lonesome.Lib
open Lonesome.Cel (Tri)

variable {X : Externals}

/-! ## The hooks of a middleware -/

namespace Middleware

def earlyRequestFilter : Middleware X → ReqM X Unit
  | .accessLog _ => AccessLogMiddleware.earlyRequestFilter X
  | .cache m => m.earlyRequestFilter
  | .compression m => m.earlyRequestFilter
  | .healthCheck _ => HealthCheck.earlyRequestFilter X
  | _ => pure ()

def requestFilter : Middleware X → ReqM X Bool
  | .basicAuth m => m.requestFilter
  | .cors m => m.requestFilter
  | .interceptor m => m.requestFilter X
  | .jwt m => m.requestFilter
  | .rateLimit m => m.requestFilter
  | .redirect m => m.requestFilter
  | .redirectHttps m => m.requestFilter
  | .respond m => m.requestFilter
  | .rewrite m => m.requestFilter
  | .rewriteMethod m => m.requestFilter
  | .setVariable m => m.requestFilter
  | _ => pure false

def connectedToUpstream : Middleware X → ReqM X Unit
  | .healthCheck m => HealthCheck.connectedToUpstream X m
  | _ => pure ()

def failToConnect (error : ProxyError) : Middleware X → ReqM X ProxyError
  | .healthCheck m => HealthCheck.failToConnect X m error
  | _ => pure error

def upstreamRequestFilter (upstreamRequest : RequestHeader X.H) :
    Middleware X → ReqM X (RequestHeader X.H)
  | .requestHeaders m => m.upstreamRequestFilter upstreamRequest
  | _ => pure upstreamRequest

def upstreamResponseFilter (upstreamResponse : ResponseHeader) :
    Middleware X → ReqM X ResponseHeader
  | .healthCheck m => HealthCheck.upstreamResponseFilter X m upstreamResponse
  | .rewriteErrorPage m => m.upstreamResponseFilter upstreamResponse
  | .setVariable m => m.upstreamResponseFilter upstreamResponse
  | _ => pure upstreamResponse

def responseFilter (upstreamResponse : ResponseHeader) : Middleware X → ReqM X ResponseHeader
  | .cors m => m.responseFilter upstreamResponse
  | .responseHeaders m => m.responseFilter upstreamResponse
  | .setVariable m => m.responseFilter upstreamResponse
  | _ => pure upstreamResponse

def logging (error : Option ProxyError) : Middleware X → ReqM X Unit
  | .accessLog m => m.logging error
  | _ => pure ()

end Middleware

/-! ## Callbacks -/

/-- The routes are the snapshot that the request reads. -/
structure LonesomeProxy (X : Externals) where
  routes : Routes.RouteTable (Str × Str) X.Ω (RouteContent X)
  sniHostPolicy : SniHostPolicy

section Loops

variable (X)

/-- The middlewares of the matched route. -/
def middlewares : ReqM X (List (Middleware X)) := do
  let s ← get
  return (s.ctx.currentRoute.map (·.content.middlewares)).getD []

/-- The loop of a callback, with the value that the hooks pass on. -/
def throughMiddlewares {α : Type} (hook : α → Middleware X → ReqM X α) (a : α) : ReqM X α := do
  let ms ← middlewares X
  ms.foldlM (fun a m => do interleave X; hook a m) a

end Loops

/-! ### Matching a route -/

variable (X) in
/-- The program of a matcher; a result of another kind is reported and does not match. -/
def executeMatcher (program : X.Program) : ReqM X Bool := do
  match ← execute X program with
  | .ok (.bool v) => return v
  | _ => return false

/-- `Matcher::matches`: the pre-check on the session, then the program. -/
def routeMatches (route : Route X) : ReqM X Bool := do
  let c ← ensureSessionCelContext X
  match route.matcher.precheck with
  | none => executeMatcher X route.matcher.program
  | some expr =>
    match expr.eval (c.celHttpSession.host, c.celHttpSession.path X.D) with
    | .false => return false
    | .true => return true
    | .unknown => executeMatcher X route.matcher.program

variable (X) in
def findFirstMatch : List (Route X) → ReqM X (Option (Route X))
  | [] => pure none
  | route :: rest => do
    if ← routeMatches route then return some route else findFirstMatch rest

variable (X) in
def setRoute : Option (Route X) → ReqM X Unit
  | some route => modifyCtx X (·.setRoute route)
  | none => pure ()

/-! ### Selecting an upstream -/

open Upstream (selectionFailed)

variable (X) in
/-- The bytes of a value, if it is a scalar; a float is none here. -/
def keyBytes : CelValue → ReqM X (List UInt8)
  | .string v => pure (HeaderValue.utf8Bytes v)
  | .int v => pure (HeaderValue.utf8Bytes (toString v).toList)
  | .uint v => pure (HeaderValue.utf8Bytes (toString v).toList)
  | .bool v => pure (HeaderValue.utf8Bytes (toString v).toList)
  | other => throw (selectionFailed .internalError
      s!"lb.hash_key_rule must resolve to scalar, got {X.debug other}")

variable (X) in
def selectionKey (hashKeyProgram : Option X.Program) : ReqM X (List UInt8) := do
  match hashKeyProgram with
  | none => return []
  | some program =>
    let s ← get
    if s.ctx.sessionCelContext.isNone then
      throw (selectionFailed .internalError "proxy cel context is not initialized")
    else
      match ← execute X program with
      | .ok v => keyBytes X v
      | .error e => throw (selectionFailed .internalError s!"failed to evaluate lb.hash_key_rule: {e}")

def selectUpstreamPeer (route : Route X) : ReqM X X.Peer := do
  let key ← selectionKey X route.content.hashKeyProgram
  let s ← get
  let t ← tick X
  let (endpoint, state) := route.content.upstreamPool.selectPeer key route.id s.shared.health (X.now t)
    s.ctx.upstreamState
  HealthCheck.setUpstreamState X state
  match endpoint.bind (X.peerFromEndpoint t) with
  | .ok peer => return peer
  | .error e => throw e

namespace LonesomeProxy

variable (proxy : LonesomeProxy X)

/-- The part of `early_request_filter` before the loop. -/
def select : ReqM X Unit := do
  modifyCtx X (·.resetForRequest)
  discard <| ensureSessionCelContext X
  let route ← findFirstMatch X proxy.routes.routes
  setRoute X route

def earlyRequestFilter : ReqM X Unit := do
  proxy.select
  throughMiddlewares X (fun _ m => m.earlyRequestFilter) ()

def requestFilter : ReqM X Bool := do
  let c ← ensureSessionCelContext X
  match sniHostReject proxy.sniHostPolicy c.celHttpSession.toCelHttpSession with
  | some status =>
    writeResponse X status [] none none
    return true
  | none =>
    let ms ← middlewares X
    ms.anyM fun m => do interleave X; m.requestFilter

variable (X) in
def upstreamPeer : ReqM X X.Peer := do
  let s ← get
  match s.ctx.currentRoute with
  | none => throw (.explain (.httpStatus 404) "no route matched")
  | some route => selectUpstreamPeer route

variable (X) in
def connectedToUpstream : ReqM X Unit :=
  throughMiddlewares X (fun _ m => m.connectedToUpstream) ()

variable (X) in
/-- An error of a hook takes the place of the error. -/
def failToConnect (e : ProxyError) : ReqM X ProxyError :=
  throughMiddlewares X (fun e m => tryCatch (m.failToConnect e) fun mwErr =>
    pure (middlewareInternalError "middleware fail_to_connect hook error" (X.errorText mwErr))) e

/-- The end of `upstream_request_filter`, in the mode that forwards the SNI. -/
def forceSni (upstreamRequest : RequestHeader X.H) : ReqM X (RequestHeader X.H) :=
  if proxy.sniHostPolicy = .strictRewriteHeader then do
    let c ← ensureSessionCelContext X
    match c.celHttpSession.sni with
    | some sni => return forceAuthority upstreamRequest sni
    | none => return upstreamRequest
  else pure upstreamRequest

def upstreamRequestFilter (upstreamRequest : RequestHeader X.H) : ReqM X (RequestHeader X.H) := do
  let s ← get
  match s.ctx.currentRoute with
  | none => return upstreamRequest
  | some _ =>
    let upstreamRequest ← throughMiddlewares X (fun req m => m.upstreamRequestFilter req) upstreamRequest
    proxy.forceSni upstreamRequest

variable (X) in
/-- The header as the upstream sent it, for the functions about the response. -/
def setUpstreamResHeader (upstreamResponse : ResponseHeader) : ReqM X Unit :=
  modifyCtx X fun ctx => { ctx with
    sessionCelContext := ctx.sessionCelContext.map (·.setUpstreamResHeader (some upstreamResponse)) }

variable (X) in
def upstreamResponseFilter (upstreamResponse : ResponseHeader) : ReqM X ResponseHeader := do
  let s ← get
  match s.ctx.currentRoute with
  | none => return upstreamResponse
  | some _ =>
    setUpstreamResHeader X upstreamResponse
    throughMiddlewares X (fun resp m => m.upstreamResponseFilter resp) upstreamResponse

variable (X) in
def upstreamResponseBodyFilter (body : Option Str) : ReqM X (Option Str) := do
  let s ← get
  match s.ctx.responseBodyOverride with
  | none => return body
  | some (.replace replacement) =>
    modifyCtx X fun ctx => { ctx with responseBodyOverride := some .dropRemaining }
    return some replacement
  | some .dropRemaining => return none

variable (X) in
/-- `cache.response_filter(..)`, with a cache handler. -/
def cacheResponseFilter (upstreamResponse : ResponseHeader) : ReqM X ResponseHeader := do
  let s ← get
  match s.ctx.cacheHandler with
  | some cache => cache.responseFilter X upstreamResponse
  | none => return upstreamResponse

variable (X) in
def responseFilter (upstreamResponse : ResponseHeader) : ReqM X ResponseHeader := do
  let upstreamResponse ← cacheResponseFilter X upstreamResponse
  throughMiddlewares X (fun resp m => m.responseFilter resp) upstreamResponse

variable (X) in
/-- No middleware has the hook; an error of the write is dropped. -/
def failToProxy (e : ProxyError) : ReqM X Nat := do
  let code := match e.etype with
    | .httpStatus code => code
    | _ => 502
  if code > 0 then
    tryCatch (writeResponse X code [] none none) fun _ => pure ()
    return code
  else return code

variable (X) in
def logging (e : Option ProxyError) : ReqM X Unit :=
  throughMiddlewares X (fun _ m => tryCatch (m.logging e) fun _ => pure ()) ()

end LonesomeProxy

/-! ## Runs -/

/-- A callback, with what it is given, or a change of the session by `pingora`. The callbacks that
are left out (`proxy_upstream_filter`, `error_while_proxy` and those of the cache) run no hook that a
middleware has, and leave the context as it is. -/
inductive Phase (X : Externals) where
  | requestFilter
  | upstreamPeer
  | connectedToUpstream
  | failToConnect (e : ProxyError)
  | upstreamRequestFilter (upstreamRequest : RequestHeader X.H)
  | upstreamResponseFilter (upstreamResponse : ResponseHeader)
  | upstreamResponseBodyFilter (body : Option Str)
  | responseFilter (upstreamResponse : ResponseHeader)
  | failToProxy (e : ProxyError)
  | logging (e : Option ProxyError)
  | session (f : Session X.H → Session X.H)

open LonesomeProxy in
def Phase.run (proxy : LonesomeProxy X) : Phase X → ReqM X Unit
  | requestFilter => discard proxy.requestFilter
  | upstreamPeer => discard (LonesomeProxy.upstreamPeer X)
  | connectedToUpstream => LonesomeProxy.connectedToUpstream X
  | failToConnect e => discard (LonesomeProxy.failToConnect X e)
  | upstreamRequestFilter req => discard (proxy.upstreamRequestFilter req)
  | upstreamResponseFilter resp => discard (LonesomeProxy.upstreamResponseFilter X resp)
  | upstreamResponseBodyFilter body => discard (LonesomeProxy.upstreamResponseBodyFilter X body)
  | responseFilter resp => discard (LonesomeProxy.responseFilter X resp)
  | failToProxy e => discard (LonesomeProxy.failToProxy X e)
  | logging e => LonesomeProxy.logging X e
  | session f => modifySession X f

namespace LonesomeProxy

variable (proxy : LonesomeProxy X)

/-- The route that `early_request_filter` selects. -/
def matchedRoute (s : RequestState X) : Option (Route X) :=
  (proxy.select.exec s).2.ctx.currentRoute

/-- A request as it comes in, with `new_ctx`. -/
def incoming (session : Session X.H) (shared : Shared X.Ω) (time : Nat) : RequestState X where
  ctx := .new proxy.sniHostPolicy
  session := session
  shared := shared
  time := time
  history := []

/-- A request after `early_request_filter` and further phases. -/
def run (s : RequestState X) (phases : List (Phase X)) : RequestState X :=
  phases.foldl (fun s p => ((p.run proxy).exec s).2) (proxy.earlyRequestFilter.exec s).2

end LonesomeProxy

/-! ## Invariants of runs -/

/-- The names under which a middleware writes variables, `jwt_payload` apart. -/
def Middleware.WritesOnly (Writable : Str → Prop) : Middleware X → Prop
  | .setVariable m => Writable m.name
  | _ => True

/-- The names that the middlewares of a request write are `Writable`. -/
structure WritesOnly (Writable : Str → Prop) (I : RequestState X → Prop) : Prop where
  jwtPayload : Writable "jwt_payload".toList
  middlewares : ∀ s, I s → ∀ route, s.ctx.currentRoute = some route →
    ∀ m ∈ route.content.middlewares, m.WritesOnly Writable

/-- The middlewares of a request are all such that `Q`. -/
def OfRoute (Q : Middleware X → Prop) (I : RequestState X → Prop) : Prop :=
  ∀ s, I s → ∀ route, s.ctx.currentRoute = some route → ∀ m ∈ route.content.middlewares, Q m

/-- Every name may be written. -/
theorem Middleware.writesOnly_any (m : Middleware X) : m.WritesOnly fun _ => True := by
  cases m <;> trivial

theorem ofRoute_writesOnly (I : RequestState X → Prop) : OfRoute (·.WritesOnly fun _ => True) I :=
  fun _ _ _ _ m _ => m.writesOnly_any

/-- The payload that a `jwt` middleware writes keeps the invariant. -/
def Middleware.Authorizes (I : RequestState X → Prop) : Middleware X → Prop
  | .jwt m => Keeps I m.authorize
  | _ => True

/-- The callbacks that look at the exchange, and write no more to the request than the override of the
body. -/
def Phase.Observes : Phase X → Prop
  | .connectedToUpstream => True
  | .upstreamRequestFilter _ => True
  | .upstreamResponseFilter _ => True
  | .upstreamResponseBodyFilter _ => True
  | .responseFilter _ => True
  | .logging _ => True
  | _ => False

theorem keeps_bind_middlewares {I : RequestState X → Prop} {Q : Middleware X → Prop} (hQ : OfRoute Q I)
    {α : Type} {f : List (Middleware X) → ReqM X α} (hf : ∀ ms, (∀ m ∈ ms, Q m) → Keeps I (f ms)) :
    Keeps I (middlewares X >>= f) := by
  intro s h
  refine hf _ (fun m hm => ?_) s h
  cases hroute : s.ctx.currentRoute with
  | none =>
    rw [hroute] at hm
    cases hm
  | some route =>
    rw [hroute] at hm
    exact hQ s h route hroute m hm

theorem keeps_upstreamResponseBodyFilter {I : RequestState X → Prop}
    (hbody : ∀ o, Keeps I (modifyCtx X fun ctx => { ctx with responseBodyOverride := o }))
    (body : Option Str) : Keeps I (LonesomeProxy.upstreamResponseBodyFilter X body) := by
  refine .bind keeps_get fun s => ?_
  split
  · exact keeps_pure body
  · exact .bind (hbody _) fun _ => keeps_pure _
  · exact keeps_pure none

/-! ### Hooks that only evaluate -/

namespace Evaluates

variable {Writable : Str → Prop} {I : RequestState X → Prop} (hI : Evaluates X Writable I)
include hI

theorem connectedToUpstream (m : Middleware X) : Keeps I m.connectedToUpstream := by
  cases m with
  | healthCheck m => exact hI.healthCheck_observe _
  | _ => exact keeps_pure ()

theorem upstreamRequestFilter (req : RequestHeader X.H) (m : Middleware X) :
    Keeps I (m.upstreamRequestFilter req) := by
  cases m with
  | requestHeaders m => exact hI.requestHeaders_upstreamRequestFilter m req
  | _ => exact keeps_pure req

theorem upstreamResponseFilter
    (hbody : ∀ o, Keeps I (modifyCtx X fun ctx => { ctx with responseBodyOverride := o }))
    (resp : ResponseHeader) (m : Middleware X) (hm : m.WritesOnly Writable) :
    Keeps I (m.upstreamResponseFilter resp) := by
  cases m with
  | healthCheck m => exact hI.healthCheck_upstreamResponseFilter m resp
  | rewriteErrorPage m => exact hI.rewriteErrorPage_upstreamResponseFilter hbody m resp
  | setVariable m => exact .bind (hI.setVariable_applyIn m hm _) fun _ => keeps_pure resp
  | _ => exact keeps_pure resp

theorem responseFilter (resp : ResponseHeader) (m : Middleware X) (hm : m.WritesOnly Writable) :
    Keeps I (m.responseFilter resp) := by
  cases m with
  | cors m => exact hI.cors_responseFilter m resp
  | responseHeaders m => exact hI.responseHeaders_responseFilter m resp
  | setVariable m => exact .bind (hI.setVariable_applyIn m hm _) fun _ => keeps_pure resp
  | _ => exact keeps_pure resp

theorem logging (e : Option ProxyError) (m : Middleware X) : Keeps I (m.logging e) := by
  cases m with
  | accessLog m => exact hI.accessLog_logging m e
  | _ => exact keeps_pure ()

theorem selectionKey (program : Option X.Program) : Keeps I (selectionKey X program) := by
  cases program with
  | none => exact keeps_pure []
  | some program =>
    refine .bind keeps_get fun s => .ite (fun _ => keeps_throw _) fun _ => ?_
    refine .bind (hI.execute program) fun result => ?_
    cases result with
    | error e => exact keeps_throw _
    | ok v => cases v <;> first | exact keeps_pure _ | exact keeps_throw _

theorem proxy_forceSni (proxy : LonesomeProxy X) (req : RequestHeader X.H) :
    Keeps I (proxy.forceSni req) := by
  refine .ite (fun _ => .bind hI.ensureSessionCelContext fun c => ?_) fun _ => keeps_pure req
  split <;> exact keeps_pure _

theorem routeMatches (route : Route X) : Keeps I (routeMatches route) := by
  have hfull (program : X.Program) : Keeps I (executeMatcher X program) := by
    refine .bind (hI.execute program) fun result => ?_
    split <;> exact keeps_pure _
  refine .bind hI.ensureSessionCelContext fun c => ?_
  split
  · exact hfull _
  · split
    · exact keeps_pure false
    · exact keeps_pure true
    · exact hfull _

theorem findFirstMatch (routes : List (Route X)) : Keeps I (findFirstMatch X routes) := by
  induction routes with
  | nil => exact keeps_pure none
  | cons route rest ih =>
    exact .bind (hI.routeMatches route) fun found => .ite (fun _ => keeps_pure _) fun _ => ih

variable (hnames : OfRoute (·.WritesOnly Writable) I)
include hnames

theorem throughMiddlewares {α : Type} {hook : α → Middleware X → ReqM X α}
    (hhook : ∀ a m, m.WritesOnly Writable → Keeps I (hook a m)) (a : α) :
    Keeps I (throughMiddlewares X hook a) := by
  refine keeps_bind_middlewares hnames fun ms hms => .foldlM ms (fun a m hm => ?_) a
  exact .bind hI.interleave fun _ => hhook a m (hms m hm)

theorem proxy_upstreamRequestFilter (proxy : LonesomeProxy X) (req : RequestHeader X.H) :
    Keeps I (proxy.upstreamRequestFilter req) := by
  refine .bind keeps_get fun s => ?_
  split
  · exact keeps_pure req
  · refine .bind (hI.throughMiddlewares hnames (fun req m _ => hI.upstreamRequestFilter req m) req) fun req => ?_
    exact hI.proxy_forceSni proxy req

theorem proxy_upstreamResponseFilter
    (hbody : ∀ o, Keeps I (modifyCtx X fun ctx => { ctx with responseBodyOverride := o }))
    (resp : ResponseHeader) : Keeps I (LonesomeProxy.upstreamResponseFilter X resp) := by
  refine .bind keeps_get fun s => ?_
  split
  · exact keeps_pure resp
  · refine .bind (hI.setsHeader (some resp)) fun _ => ?_
    exact hI.throughMiddlewares hnames (fun resp m hm => hI.upstreamResponseFilter hbody resp m hm) resp

theorem proxy_responseFilter (resp : ResponseHeader) :
    Keeps I (LonesomeProxy.responseFilter X resp) := by
  refine .bind (.bind keeps_get fun s => ?_) fun resp => ?_
  · split
    · exact hI.cacheHandler_responseFilter _ _
    · exact keeps_pure resp
  · exact hI.throughMiddlewares hnames (fun resp m hm => hI.responseFilter resp m hm) resp

theorem phase (hbody : ∀ o, Keeps I (modifyCtx X fun ctx => { ctx with responseBodyOverride := o }))
    (proxy : LonesomeProxy X) {p : Phase X} (hp : p.Observes) : Keeps I (p.run proxy) := by
  cases p with
  | connectedToUpstream => exact hI.throughMiddlewares hnames (fun _ m _ => hI.connectedToUpstream m) ()
  | upstreamRequestFilter req =>
    exact .bind (hI.proxy_upstreamRequestFilter hnames proxy req) fun _ => keeps_pure ()
  | upstreamResponseFilter resp =>
    exact .bind (hI.proxy_upstreamResponseFilter hnames hbody resp) fun _ => keeps_pure ()
  | upstreamResponseBodyFilter body =>
    exact .bind (keeps_upstreamResponseBodyFilter hbody body) fun _ => keeps_pure ()
  | responseFilter resp => exact .bind (hI.proxy_responseFilter hnames resp) fun _ => keeps_pure ()
  | logging e =>
    refine hI.throughMiddlewares hnames (fun _ m _ => ?_) ()
    exact .tryCatch (hI.logging e m) fun _ => keeps_pure ()
  | _ => exact hp.elim

end Evaluates

/-! ### Hooks that answer -/

/-- The two middlewares that change the request. -/
def Middleware.RewritesRequest : Middleware X → Prop
  | .rewrite _ => True
  | .rewriteMethod _ => True
  | _ => False

namespace Responds

variable {Writable : Str → Prop} {I : RequestState X → Prop} (hI : Responds X Writable I)
include hI

theorem filter {m : Middleware X} (hm : m.WritesOnly Writable) (hauthorizes : m.Authorizes I)
    (hkeeps : ¬ m.RewritesRequest) : Keeps I m.requestFilter := by
  cases m with
  | basicAuth m => exact hI.basicAuth_requestFilter m
  | cors m => exact hI.cors_requestFilter m
  | interceptor m => exact hI.interceptor_requestFilter m
  | jwt m => exact hI.jwt_requestFilter m hauthorizes
  | rateLimit m => exact hI.rateLimit_requestFilter m
  | redirect m => exact hI.redirect_requestFilter m
  | redirectHttps m => exact hI.redirectHttps_requestFilter m
  | respond m => exact hI.respond_requestFilter m
  | rewrite m => exact (hkeeps trivial).elim
  | rewriteMethod m => exact (hkeeps trivial).elim
  | setVariable m => exact .bind (hI.setVariable_applyIn m hm _) fun _ => keeps_pure false
  | _ => exact keeps_pure false

theorem proxy_failToProxy (e : ProxyError) : Keeps I (LonesomeProxy.failToProxy X e) := by
  refine .ite (fun _ => ?_) fun _ => keeps_pure _
  exact .bind (.tryCatch (hI.answers.writeResponse _ _ _ _) fun _ => keeps_pure ()) fun _ => keeps_pure _

variable (hfields : ∀ f, KeepsFields f → Keeps I (Lonesome.modifySession X f))
include hfields

theorem requestFilter (m : Middleware X) (hm : m.WritesOnly Writable) (hauthorizes : m.Authorizes I) :
    Keeps I m.requestFilter := by
  by_cases hrewrites : m.RewritesRequest
  · cases m with
    | rewrite m => exact hI.rewrite_requestFilter hfields m
    | rewriteMethod m => exact hI.rewriteMethod_requestFilter hfields m
    | _ => exact hrewrites.elim
  · exact hI.filter hm hauthorizes hrewrites

theorem proxy_requestFilter (hnames : OfRoute (·.WritesOnly Writable) I)
    (hauthorizes : OfRoute (·.Authorizes I) I) (proxy : LonesomeProxy X) :
    Keeps I proxy.requestFilter := by
  refine .bind hI.ensureSessionCelContext fun c => ?_
  split
  · exact .bind (hI.answers.writeResponse _ _ _ _) fun _ => keeps_pure true
  · have hboth : OfRoute (fun m => m.WritesOnly Writable ∧ m.Authorizes I) I :=
      fun s h route hroute m hm => ⟨hnames s h route hroute m hm, hauthorizes s h route hroute m hm⟩
    refine keeps_bind_middlewares hboth fun ms hms => .anyM ms fun m hm => ?_
    exact .bind hI.interleave fun _ => hI.requestFilter hfields m (hms m hm).1 (hms m hm).2

end Responds

/-! ### All callbacks -/

namespace Routine

variable {Writable : Str → Prop} {I : RequestState X → Prop} (hI : Routine X Writable I)
include hI

theorem earlyRequestFilter (m : Middleware X) : Keeps I m.earlyRequestFilter := by
  cases m with
  | accessLog m => exact hI.accessLog_earlyRequestFilter
  | cache m => exact hI.cache_earlyRequestFilter m
  | compression m => exact hI.compression_earlyRequestFilter m
  | healthCheck m => exact hI.healthCheck_earlyRequestFilter
  | _ => exact keeps_pure ()

theorem requestFilter (m : Middleware X) (hm : m.WritesOnly Writable) (hauthorizes : m.Authorizes I) :
    Keeps I m.requestFilter :=
  hI.responds.requestFilter (fun _ => hI.modifySession) m hm hauthorizes

theorem failToConnect (e : ProxyError) (m : Middleware X) : Keeps I (m.failToConnect e) := by
  cases m with
  | healthCheck m => exact hI.healthCheck_failToConnect m e
  | _ => exact keeps_pure e

theorem proxy_upstreamPeer : Keeps I (LonesomeProxy.upstreamPeer X) := by
  refine .bind keeps_get fun s => ?_
  split
  · exact keeps_throw _
  · refine .bind (hI.responds.selectionKey _) fun key => .bind keeps_get fun s => ?_
    refine .bind hI.responds.tick fun t => .bind (hI.healthCheck_setUpstreamState _) fun _ => ?_
    split
    · exact keeps_pure _
    · exact keeps_throw _

variable (hnames : OfRoute (·.WritesOnly Writable) I)
include hnames

theorem proxy_requestFilter (hauthorizes : OfRoute (·.Authorizes I) I) (proxy : LonesomeProxy X) :
    Keeps I proxy.requestFilter :=
  hI.responds.proxy_requestFilter (fun _ => hI.modifySession) hnames hauthorizes proxy

/-- Every phase keeps an invariant that is indifferent to the override of the body and to the session,
if `request_filter` does. -/
theorem phase (hbody : ∀ o, Keeps I (Lonesome.modifyCtx X fun ctx => { ctx with responseBodyOverride := o }))
    (hsession : ∀ f, Keeps I (Lonesome.modifySession X f)) (proxy : LonesomeProxy X) (p : Phase X)
    (hrequest : p = .requestFilter → Keeps I proxy.requestFilter) : Keeps I (p.run proxy) := by
  cases p with
  | requestFilter => exact .bind (hrequest rfl) fun _ => keeps_pure ()
  | upstreamPeer => exact .bind hI.proxy_upstreamPeer fun _ => keeps_pure ()
  | failToConnect e =>
    refine .bind (hI.responds.throughMiddlewares hnames (fun e m _ => ?_) e) fun _ => keeps_pure ()
    exact .tryCatch (hI.failToConnect e m) fun _ => keeps_pure _
  | failToProxy e => exact .bind (hI.responds.proxy_failToProxy e) fun _ => keeps_pure ()
  | session f => exact hsession f
  | _ => exact hI.responds.phase hnames hbody proxy trivial

/-- What holds when the route is selected holds after `early_request_filter`. -/
theorem proxy_earlyRequestFilter (proxy : LonesomeProxy X) {s : RequestState X}
    (h : I (proxy.select.exec s).2) : I (proxy.earlyRequestFilter.exec s).2 := by
  unfold LonesomeProxy.earlyRequestFilter
  rw [exec_bind]
  rcases hselect : proxy.select.exec s with ⟨_ | _, s'⟩ <;> rw [hselect] at h
  · exact h
  · exact hI.responds.throughMiddlewares hnames (fun _ m _ => hI.earlyRequestFilter m) () s' h

omit hnames in
/-- An invariant that does not depend on the route holds when the route is selected. -/
theorem select (hset : ∀ s route, I s → I { s with ctx := s.ctx.setRoute route })
    (proxy : LonesomeProxy X) (session : Session X.H) (shared : Shared X.Ω) (time : Nat)
    (hstart : I ((proxy.incoming session shared time).setScope
      (.ofReceived (session.received proxy.sniHostPolicy)))) :
    I (proxy.select.exec (proxy.incoming session shared time)).2 := by
  have hrest : Keeps I (findFirstMatch X proxy.routes.routes >>= setRoute X) := by
    refine .bind (hI.responds.findFirstMatch proxy.routes.routes) fun route => ?_
    cases route with
    | none => exact keeps_pure ()
    | some route => exact keeps_modify fun s h => hset s route h
  exact hrest _ hstart

end Routine

namespace Steady

variable {Writable : Str → Prop} {I : RequestState X → Prop} (hI : Steady X Writable I)
  (hnames : WritesOnly Writable I)
include hI hnames

/-- Every phase keeps the invariant. -/
theorem phase (proxy : LonesomeProxy X) (p : Phase X) : Keeps I (p.run proxy) := by
  have hbody (o : Option ResponseBodyOverride) :
      Keeps I (modifyCtx X fun ctx => { ctx with responseBodyOverride := o }) :=
    keeps_modify fun s => hI.frame s _ rfl rfl rfl
  have hauthorizes : OfRoute (·.Authorizes I) I := by
    intro s _ route _ m _
    cases m with
    | jwt m => exact hI.jwt_authorize hnames.jwtPayload m
    | _ => trivial
  refine hI.routine.phase hnames.middlewares hbody hI.modifySession proxy p fun _ => ?_
  exact hI.routine.proxy_requestFilter hnames.middlewares hauthorizes proxy

/-- An invariant that holds when the route is selected holds after every run. -/
theorem run (proxy : LonesomeProxy X) (phases : List (Phase X)) {s : RequestState X}
    (h : I (proxy.select.exec s).2) : I (proxy.run s phases) := by
  have hearly := hI.routine.proxy_earlyRequestFilter hnames.middlewares proxy h
  unfold LonesomeProxy.run
  generalize (proxy.earlyRequestFilter.exec s).2 = s₀ at hearly
  induction phases generalizing s₀ with
  | nil => exact hearly
  | cons p phases ih => exact ih _ (hI.phase hnames proxy p s₀ hearly)

end Steady

/-! ## Properties of the scope and the history -/

/-- A property that the steps on the scope keep, each with its part of the history. -/
structure ScopeInvariant (X : Externals) (Writable : Str → Prop)
    (P : SessionCelContext X.H → List (CelEvent X) → Prop) : Prop where
  evaluates : ∀ c h inside, P c h → P c (h ++ [.eval inside c])
  addsVariable : ∀ c h name v, Writable name → P c h → P (c.addVariable name v) h
  setsPayload : ∀ c h p, P c h → P (c.setJwtPayload p) h
  setsHeader : ∀ c h resp, P c h → P (c.setUpstreamResHeader resp) h
  begins : ∀ c h status, 400 ≤ status → P c h → P (c.setErrorStatus (some status)) (h ++ [.resolve status])

namespace ScopeInvariant

variable {Writable : Str → Prop} {P : SessionCelContext X.H → List (CelEvent X) → Prop}

/-- The property of a request with a scope, whose route satisfies `R`. -/
def At (P : SessionCelContext X.H → List (CelEvent X) → Prop) (R : Option (Route X) → Prop)
    (s : RequestState X) : Prop :=
  s.ctx.sessionCelContext = some s.scope ∧ P s.scope s.history ∧ R s.ctx.currentRoute

theorem steady (hP : ScopeInvariant X Writable P) (R : Option (Route X) → Prop) :
    Steady X Writable (At P R) where
  hasScope := fun _ h => h.1
  frame := by
    rintro s s' hscope hroute hhistory ⟨hs, hp, hr⟩
    have heq : s'.scope = s.scope := RequestState.scope_eq (hscope.trans hs)
    exact ⟨by rw [hscope, heq, hs], by rwa [heq, hhistory], by rwa [hroute]⟩
  evaluates := fun s inside ⟨hs, hp, hr⟩ => ⟨hs, hP.evaluates _ _ inside hp, hr⟩
  addsVariable := fun s name v hname ⟨_, hp, hr⟩ => ⟨rfl, hP.addsVariable _ _ name v hname hp, hr⟩
  setsPayload := fun s p ⟨_, hp, hr⟩ => ⟨rfl, hP.setsPayload _ _ p hp, hr⟩
  setsHeader := fun s resp ⟨_, hp, hr⟩ => ⟨rfl, hP.setsHeader _ _ resp hp, hr⟩
  begins := fun s status hstatus ⟨_, hp, hr⟩ => ⟨rfl, hP.begins _ _ status hstatus hp, hr⟩

/-- A property that the original request has without a history holds after every run, if the
matched route writes no variables under other names. -/
theorem run (hP : ScopeInvariant X Writable P) (hjwt : Writable "jwt_payload".toList)
    (proxy : LonesomeProxy X) (session : Session X.H) (shared : Shared X.Ω) (time : Nat)
    (hstart : P (.ofReceived (session.received proxy.sniHostPolicy)) [])
    (hnames : ∀ route, proxy.matchedRoute (proxy.incoming session shared time) = some route →
      ∀ m ∈ route.content.middlewares, m.WritesOnly Writable)
    (phases : List (Phase X)) :
    P (proxy.run (proxy.incoming session shared time) phases).scope
      (proxy.run (proxy.incoming session shared time) phases).history := by
  have hselect : At P (fun _ => True) (proxy.select.exec (proxy.incoming session shared time)).2 := by
    refine (hP.steady fun _ => True).routine.select ?_ proxy session shared time ⟨rfl, hstart, trivial⟩
    exact fun s route ⟨hs, hp, _⟩ => ⟨hs, hp, trivial⟩
  -- from here on the route stays what it is
  have hsteady := hP.steady (· = proxy.matchedRoute (proxy.incoming session shared time))
  have hwrites : WritesOnly Writable
      (At P (· = proxy.matchedRoute (proxy.incoming session shared time))) :=
    ⟨hjwt, fun s h route hroute => hnames route (h.2.2.symm.trans hroute)⟩
  exact (hsteady.run hwrites proxy phases ⟨hselect.1, hselect.2.1, rfl⟩).2.1

end ScopeInvariant

end Lonesome
