import Lonesome.Proxy.Response

/-!
# Middlewares around the exchange

The middlewares `access_log`, `cache`, `compression` and `health_check` under `src/middlewares/`: they
set up the request and look at what comes of it. What `health_check` does to the health of a backend
is in `Lonesome.Upstream.Health`.
-/

namespace Lonesome

open Lonesome.Lib
open Lonesome.Upstream (HealthCheckMiddleware HealthTable UpstreamState)

variable {X : Externals}

/-! ## access_log -/

/-- What a line of the log is made of. -/
structure AccessLogEntry where
  ts : Str
  method : Str
  path : Str
  status : Nat
  latencyMs : Int
  upstream : Str
  ext : Str
  error : Option String

namespace AccessLogEntry

/-- The line of the format `text`. -/
def text (e : AccessLogEntry) : Str :=
  let extSuffix := if e.ext.isEmpty then [] else " ext=".toList ++ e.ext
  let errorSuffix := (e.error.map fun error => " error=".toList ++ error.toList).getD []
  e.ts ++ " ".toList ++ e.method ++ " ".toList ++ e.path ++ " status=".toList ++
    (toString e.status).toList ++ " latency=".toList ++ (toString e.latencyMs).toList ++
    "ms upstream=".toList ++ e.upstream ++ extSuffix ++ errorSuffix ++ "\n".toList

def json (e : AccessLogEntry) : Json :=
  .object [
    ("ts".toList, .string e.ts),
    ("method".toList, .string e.method),
    ("path".toList, .string e.path),
    ("status".toList, .nat e.status),
    ("latency_ms".toList, .number (toString e.latencyMs).toList),
    ("upstream".toList, .string e.upstream),
    ("ext".toList, .string e.ext),
    ("error".toList, (e.error.map fun error => Json.string error.toList).getD .null)]

end AccessLogEntry

namespace AccessLogMiddleware

variable (m : AccessLogMiddleware X)

def evalExt : ReqM X Str :=
  match m.extProgram with
  | none => pure []
  | some program => do
    match ← execute X program with
    | .ok v => return v.scalarText.getD []
    | .error _ => return []

variable (X) in
def earlyRequestFilter : ReqM X Unit := do
  let t ← tick X
  modifyCtx X fun ctx => { ctx with accessLogStart := some (X.now t) }

/-- `format!(..)` in the format of the middleware. -/
def line (e : AccessLogEntry) : Str :=
  if m.json then X.jsonText e.json ++ "\n".toList else e.text

/-- `send_line`: the line is handed to the sink of the file. -/
def sendLine (line : Str) : ReqM X Unit :=
  modifyShared X fun shared => { shared with accessLog := shared.accessLog ++ [(m.file, line)] }

def logging (error : Option ProxyError) : ReqM X Unit := do
  let s ← get
  let t ← tick X
  let ext ← m.evalExt
  m.sendLine (m.line {
    ts := X.timestamp t
    method := s.session.reqHeader.method.toList
    path := X.uriText s.session.reqHeader.uri
    status := (s.session.responseWritten.map (·.status)).getD 0
    latencyMs := X.now t - s.ctx.accessLogStart.getD (X.now t)
    upstream := ((s.ctx.upstreamState.bind (·.lastBackend)).map (·.addr)).getD []
    ext
    error := error.map X.errorText })

end AccessLogMiddleware

/-! ## cache -/

namespace CacheMiddleware

variable (m : CacheMiddleware X)

def shouldApply : ReqM X Bool := Lonesome.shouldApply X m.celProgram

def earlyRequestFilter : ReqM X Unit := do
  if ← m.shouldApply then
    let s ← get
    if s.ctx.cacheHandler.isSome then
      throw (.explain .internalError "multiple cache middlewares are not allowed")
    else modifyCtx X fun ctx => { ctx with cacheHandler := some m.handler }
  else return ()

end CacheMiddleware

/-- What a phase is reported as. -/
def CachePhase.status : CachePhase → Str
  | .hit => "hit".toList
  | .miss => "miss".toList
  | .stale => "stale".toList
  | .staleUpdating => "updating".toList
  | .expired => "expired".toList
  | .revalidated | .revalidatedNoCache => "revalidated".toList
  | .bypass | .disabled | .uninit | .cacheKey => "bypass".toList

variable (X) in
/-- `CacheHandler::response_filter` -/
def CacheHandler.responseFilter (cache : CacheHandler) (resp : ResponseHeader) :
    ReqM X ResponseHeader := do
  if cache.injectCacheHeaders then
    let t ← tick X
    orInternalError X "insert Cdn-Cache-Status failed"
      (resp.insertHeader "cdn-cache-status" (HeaderValue.fromStr (X.cachePhase t).status))
  else return resp

/-! ## compression -/

namespace CompressionMiddleware

variable (m : CompressionMiddleware X)

def shouldApply : ReqM X Bool := Lonesome.shouldApply X m.celProgram

/-- The adjustments of `apply_downstream`. -/
def adjustDownstream (c : CompressionSettings) : CompressionSettings :=
  { c with
    gzip := m.cfg.gzip.getD c.gzip
    br := m.cfg.br.getD c.br
    zstd := m.cfg.zstd.getD c.zstd
    preserveEtag := m.cfg.preserveEtag.getD c.preserveEtag }

/-- The adjustments of `apply_upstream`. -/
def adjustUpstream (c : CompressionSettings) : CompressionSettings :=
  { c with
    decompress := m.cfg.decompressUpstream.getD c.decompress
    preserveEtag := m.cfg.preserveEtag.getD c.preserveEtag }

def applyDownstream : ReqM X Unit := do
  let s ← get
  match s.session.downstreamCompression with
  | none => throw (middlewareInternalError "compression downstream module missing"
      "downstream compression module is not initialized")
  | some c => modifySession X fun s => { s with downstreamCompression := some (m.adjustDownstream c) }

def applyUpstream : ReqM X Unit :=
  modifySession X fun s => { s with upstreamCompression := m.adjustUpstream s.upstreamCompression }

def earlyRequestFilter : ReqM X Unit := do
  if ← m.shouldApply then
    m.applyDownstream
    m.applyUpstream
  else return ()

end CompressionMiddleware

/-! ## health_check -/

namespace HealthCheck

variable (X) (m : HealthCheckMiddleware)

/-- A write to the health of the backend that was selected last. -/
def observe (f : Option UpstreamState → Int → HealthTable → HealthTable) : ReqM X Unit := do
  let s ← get
  let t ← tick X
  modifyShared X fun shared => { shared with health := f s.ctx.upstreamState (X.now t) shared.health }

def setUpstreamState (state : Option UpstreamState) : ReqM X Unit :=
  modifyCtx X fun ctx => { ctx with upstreamState := state }

def earlyRequestFilter : ReqM X Unit := do
  let s ← get
  if s.ctx.upstreamState.isSome then
    throw (.explain .internalError "multiple health checks are not allowed")
  else setUpstreamState X (some { retries := 0, lastEndpointIndex := none, lastBackend := none })

def connectedToUpstream : ReqM X Unit :=
  observe X m.connectedToUpstream

def failToConnect (error : ProxyError) : ReqM X ProxyError := do
  let s ← get
  let t ← tick X
  let (health, state, retry) := m.failToConnect s.ctx.upstreamState (X.now t) s.shared.health
  modifyShared X fun shared => { shared with health }
  setUpstreamState X state
  return if retry then { error with retry := true } else error

def upstreamResponseFilter (upstreamResponse : ResponseHeader) : ReqM X ResponseHeader := do
  observe X fun state now => m.upstreamResponseFilter state upstreamResponse.status now
  return upstreamResponse

end HealthCheck

/-! ## Invariants -/

namespace Evaluates

variable {Writable : Str → Prop} {I : RequestState X → Prop} (hI : Evaluates X Writable I)
include hI

theorem accessLog_logging (m : AccessLogMiddleware X) (error : Option ProxyError) :
    Keeps I (m.logging error) := by
  refine .bind keeps_get fun s => .bind hI.tick fun t => .bind ?_ fun ext => hI.modifyShared _
  unfold AccessLogMiddleware.evalExt
  split
  · exact keeps_pure []
  · next program _ =>
    refine .bind (hI.execute program) fun result => ?_
    split <;> exact keeps_pure _

theorem cacheHandler_responseFilter (cache : CacheHandler) (resp : ResponseHeader) :
    Keeps I (cache.responseFilter X resp) := by
  refine .ite (fun _ => ?_) fun _ => keeps_pure resp
  exact .bind hI.tick fun _ => keeps_orInternalError _ _

theorem healthCheck_observe (f : Option UpstreamState → Int → HealthTable → HealthTable) :
    Keeps I (HealthCheck.observe X f) :=
  .bind keeps_get fun _ => .bind hI.tick fun _ => hI.modifyShared _

theorem healthCheck_upstreamResponseFilter (m : HealthCheckMiddleware) (resp : ResponseHeader) :
    Keeps I (HealthCheck.upstreamResponseFilter X m resp) :=
  .bind (hI.healthCheck_observe _) fun _ => keeps_pure resp

end Evaluates

/-! Hooks that write the context beside the scope. -/

namespace Routine

variable {Writable : Str → Prop} {I : RequestState X → Prop} (hI : Routine X Writable I)
include hI

theorem accessLog_earlyRequestFilter : Keeps I (AccessLogMiddleware.earlyRequestFilter X) :=
  .bind hI.responds.tick fun _ => hI.modifyCtx (fun _ => rfl) (fun _ => rfl) fun _ => rfl

theorem cache_earlyRequestFilter (m : CacheMiddleware X) : Keeps I m.earlyRequestFilter := by
  refine hI.responds.whenApplies m.celProgram ?_ ()
  refine .bind keeps_get fun s => .ite (fun _ => keeps_throw _) fun _ => ?_
  exact hI.modifyCtx (fun _ => rfl) (fun _ => rfl) fun _ => rfl

theorem compression_earlyRequestFilter (m : CompressionMiddleware X) :
    Keeps I m.earlyRequestFilter := by
  refine hI.responds.whenApplies m.celProgram ?_ ()
  refine .bind (.bind keeps_get fun s => ?_) fun _ => hI.modifySession fun _ => rfl
  split
  · exact keeps_throw _
  · exact hI.modifySession fun _ => rfl

theorem healthCheck_setUpstreamState (state : Option UpstreamState) :
    Keeps I (HealthCheck.setUpstreamState X state) :=
  hI.modifyCtx (fun _ => rfl) (fun _ => rfl) fun _ => rfl

theorem healthCheck_earlyRequestFilter : Keeps I (HealthCheck.earlyRequestFilter X) :=
  .bind keeps_get fun _ => .ite (fun _ => keeps_throw _) fun _ => hI.healthCheck_setUpstreamState _

theorem healthCheck_failToConnect (m : HealthCheckMiddleware) (error : ProxyError) :
    Keeps I (HealthCheck.failToConnect X m error) := by
  refine .bind keeps_get fun s => .bind hI.responds.tick fun t => ?_
  refine .bind (hI.responds.modifyShared _) fun _ => ?_
  exact .bind (hI.healthCheck_setUpstreamState _) fun _ => keeps_pure _

end Routine

end Lonesome
