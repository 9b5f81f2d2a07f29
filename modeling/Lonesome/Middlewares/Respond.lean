import Lonesome.Proxy.Response

/-!
# Answering in place of the upstream

The middlewares `cors`, `interceptor`, `redirect`, `redirect_https` and `respond` under
`src/middlewares/`. Their request filters return `true` when they have answered the request. Only
`respond` goes through the error pages, for an error status without a body.
-/

namespace Lonesome

open Lonesome.Lib

variable {X : Externals}

section Fields

variable (X)

/-- `resp.insert_header(name, value).map_err(..)` -/
def insertField (context name : String) (v : Option HeaderValue) (resp : ResponseHeader) :
    ReqM X ResponseHeader :=
  orInternalError X context (resp.insertHeader name v)

/-- The same for a field that is not always there. -/
def insertFieldIf (context name : String) (v : Option (Option HeaderValue)) (resp : ResponseHeader) :
    ReqM X ResponseHeader :=
  match v with
  | none => pure resp
  | some v => insertField X context name v resp

def buildResponse (context : String) (status : Nat) : ReqM X ResponseHeader :=
  orInternalError X context (ResponseHeader.build status)

end Fields

/-! ## cors -/

namespace CorsMiddleware

variable (m : CorsMiddleware X)

def shouldApply : ReqM X Bool := Lonesome.shouldApply X m.celProgram

def resolveAllowOrigin (session : Session X.H) : Option Str :=
  if m.allowOrigin = "*".toList then
    if m.reflectHost then
      let host := ((session.reqHeader.headers.get "host").bind (·.toStr)).or
        (session.reqHeader.uri.authority.map (·.text))
      host.map ("https://".toList ++ ·)
    else none
  else some m.allowOrigin

def appendVary (resp : ResponseHeader) : ReqM X ResponseHeader :=
  if m.reflectHost then
    orInternalError X "cors append vary host failed"
      (resp.appendHeader "vary" (HeaderValue.fromStr "host".toList))
  else pure resp

def applyHeaders (session : Session X.H) (resp : ResponseHeader) : ReqM X ResponseHeader := do
  let allowOrigin := (m.resolveAllowOrigin session).getD "*".toList
  let resp ← insertField X "cors insert allow-origin failed" "access-control-allow-origin"
    (HeaderValue.fromStr allowOrigin) resp
  let resp ← m.appendVary resp
  let resp ← insertField X "cors insert allow-methods failed" "access-control-allow-methods"
    (HeaderValue.fromStr m.allowMethods) resp
  let resp ← insertField X "cors insert allow-headers failed" "access-control-allow-headers"
    (HeaderValue.fromStr m.allowHeaders) resp
  let resp ← insertFieldIf X "cors insert expose-headers failed" "access-control-expose-headers"
    (m.exposeHeaders.map HeaderValue.fromStr) resp
  let resp ← insertFieldIf X "cors insert allow-credentials failed" "access-control-allow-credentials"
    (if m.allowCredentials then some (HeaderValue.fromStr "true".toList) else none) resp
  insertFieldIf X "cors insert max-age failed" "access-control-max-age"
    (m.maxAgeSecs.map fun secs => HeaderValue.fromStr (toString secs).toList) resp

/-- The answer to a preflight request. -/
def preflight (session : Session X.H) : ReqM X Bool := do
  let resp ← buildResponse X "cors create preflight response failed" 204
  let resp ← m.applyHeaders session resp
  let resp ← insertField X "cors insert content-length failed" "content-length"
    (HeaderValue.fromStr "0".toList) resp
  mapInternalError X "cors write preflight response failed" (writeResponseHeader X resp)
  return true

def requestFilter : ReqM X Bool := do
  if ← m.shouldApply then
    let s ← get
    if s.session.reqHeader.method ≠ "OPTIONS" then return false else m.preflight s.session
  else return false

def responseFilter (upstreamResponse : ResponseHeader) : ReqM X ResponseHeader := do
  if ← m.shouldApply then
    let s ← get
    m.applyHeaders s.session upstreamResponse
  else return upstreamResponse

end CorsMiddleware

/-! ## interceptor -/

inductive InterceptorAction where
  | «continue»
  | respond
  deriving DecidableEq, Repr

structure InterceptorResult where
  action : InterceptorAction
  status : Option Nat
  body : Option Str
  contentType : Option Str
  deriving DecidableEq

namespace InterceptorMiddleware

def continues : InterceptorResult where
  action := .continue
  status := none
  body := none
  contentType := none

/-- The status of a result of the action `respond`. -/
def parseStatus (obj : List (Str × Json)) : Except ProxyError Nat :=
  match (Json.lookup obj "status".toList).bind Json.asU64 with
  | some v =>
    if 100 ≤ v ∧ v ≤ 999 then .ok v
    else .error (middlewareInternalError "interceptor invalid status" "status must be within [100, 999]")
  | none => .ok 200

def parseObject (obj : List (Str × Json)) : Except ProxyError InterceptorResult :=
  let action := ((Json.lookup obj "action".toList).bind Json.asStr).getD "continue".toList
  if action = "continue".toList then .ok continues
  else if action = "respond".toList then
    (parseStatus obj).map fun status => {
      action := .respond
      status := some status
      body := (Json.lookup obj "body".toList).bind Json.asStr
      contentType :=
        ((Json.lookup obj "contentType".toList).or (Json.lookup obj "content_type".toList)).bind
          Json.asStr }
  else .error (middlewareInternalError "interceptor invalid action"
    s!"unsupported action '{String.ofList action}'")

def parseResult : Json → Except ProxyError InterceptorResult
  | .null => .ok continues
  | .object obj => parseObject obj
  | _ => .error (middlewareInternalError "interceptor invalid result"
      "expected null/undefined or object result")

variable (X) in
def writeShortResponse (result : InterceptorResult) : ReqM X Bool := do
  let body := result.body.getD []
  let contentType := result.contentType.getD "text/plain; charset=utf-8".toList
  let resp ← buildResponse X "interceptor create response header failed" (result.status.getD 200)
  let resp ← insertFieldIf X "interceptor insert content-type failed" "content-type"
    (if body.isEmpty then none else some (HeaderValue.fromStr contentType)) resp
  let resp ← insertField X "interceptor insert content-length failed" "content-length"
    (HeaderValue.fromStr (contentLength body)) resp
  mapInternalError X "interceptor write response header failed" (writeResponseHeader X resp)
  if body.isEmpty then return true
  else
    mapInternalError X "interceptor write response body failed" (writeResponseBody X body)
    return true

variable (X) in
def requestFilter (m : InterceptorMiddleware) : ReqM X Bool := do
  let s ← get
  let req := s.session.reqHeader
  let path := (req.uri.pathAndQuery.map (·.text)).getD req.uri.path
  let t ← tick X
  match X.runInterceptor t m.key req.method.toList path with
  | .error e => throw e
  | .ok none => return false
  | .ok (some rawResult) =>
    match parseResult rawResult with
    | .error e => throw e
    | .ok result =>
      match result.action with
      | .continue => return false
      | .respond => writeShortResponse X result

end InterceptorMiddleware

/-! ## redirect and redirect_https -/

variable (X) in
/-- The end of both request filters; the messages start with the name of the middleware. -/
def writeRedirect (middleware : String) (code : Nat) (location : Str) : ReqM X Bool := do
  let resp ← buildResponse X s!"{middleware} create response header failed" code
  let resp ← insertField X s!"{middleware} insert location failed" "location"
    (HeaderValue.fromStr location) resp
  let resp ← insertField X s!"{middleware} insert content-length failed" "content-length"
    (HeaderValue.fromStr "0".toList) resp
  mapInternalError X s!"{middleware} write response failed" (writeResponseHeader X resp)
  return true

namespace RedirectMiddleware

variable (m : RedirectMiddleware X)

def shouldApply : ReqM X Bool := Lonesome.shouldApply X m.celProgram

def targetLocation : ReqM X (Option Str) :=
  match m.target with
  | .static v => pure (some v)
  | .cel program => do
    match ← execute X program with
    | .ok (.string v) => return some v
    | _ => return none
  | .regexReplace regex replace => do
    let s ← get
    if X.isMatch regex s.session.reqHeader.uri.pathText then
      return some (X.replace regex s.session.reqHeader.uri.pathText replace)
    else return none

def requestFilter : ReqM X Bool := do
  if ← m.shouldApply then
    match ← m.targetLocation with
    | none => return false
    | some location => writeRedirect X "redirect" m.code location
  else return false

end RedirectMiddleware

namespace RedirectHttpsMiddleware

variable (m : RedirectHttpsMiddleware X)

def shouldApply : ReqM X Bool := Lonesome.shouldApply X m.celProgram

/-- The part of the location after the host. -/
def portText : Str :=
  match m.port with
  | none => []
  | some port =>
    if port ≠ (if m.toHttp then 80 else 443) then ':' :: (toString port).toList else []

def redirectLocation (session : Session X.H) : Option Str :=
  let req := session.reqHeader
  let host := (((req.headers.get "host").bind (·.toStr)).map (·.beforeFirst ':')).or
    (req.uri.authority.map (·.host))
  host.map fun host => (if m.toHttp then "http://" else "https://").toList ++ host ++ m.portText ++
    req.uri.pathText

/-- `request_scheme(session) == "https"`; the only other scheme is `http`. -/
def isHttps (session : Session X.H) : Bool :=
  match session.reqHeader.uri.scheme with
  | some scheme =>
    if scheme.text.eqIgnoreAsciiCase "https".toList then true
    else if scheme.text.eqIgnoreAsciiCase "http".toList then false
    else session.sslDigest.isSome
  | none => session.sslDigest.isSome

def requestFilter : ReqM X Bool := do
  if ← m.shouldApply then
    let s ← get
    if m.toHttp = !isHttps s.session then return false
    else
      match m.redirectLocation s.session with
      | none => return false
      | some location => writeRedirect X "redirect_https" m.code location
  else return false

end RedirectHttpsMiddleware

/-! ## respond -/

namespace RespondMiddleware

variable (m : RespondMiddleware X)

def shouldApply : ReqM X Bool := Lonesome.shouldApply X m.celProgram

def evalBodyExpression : ReqM X Str :=
  match m.bodyProgram with
  | none => pure []
  | some program => do
    match ← execute X program with
    | .error e => throw (middlewareInternalError "respond evaluate body_expression failed" e)
    | .ok v =>
      match v.scalarText with
      | some text => return text
      | none => throw (middlewareInternalError "respond body_expression returned unsupported value"
          s!"expected scalar value, got {X.debug v}")

/-- `body_bytes` -/
def bodyText : ReqM X Str :=
  if m.bodyProgram.isSome then m.evalBodyExpression else pure (m.body.getD [])

def requestFilter : ReqM X Bool := do
  if ← m.shouldApply then
    let body ← m.bodyText
    mapInternalError X "respond write response failed"
      (writeResponse X m.status [] (if body.isEmpty then none else some body) m.contentType)
    return true
  else return false

end RespondMiddleware

/-! ## Invariants -/

section

variable {I : RequestState X → Prop}

theorem keeps_insertFieldIf (context name : String) (v : Option (Option HeaderValue))
    (resp : ResponseHeader) : Keeps I (insertFieldIf X context name v resp) := by
  cases v with
  | none => exact keeps_pure resp
  | some v => exact keeps_orInternalError _ _

theorem keeps_cors_applyHeaders (m : CorsMiddleware X) (session : Session X.H) (resp : ResponseHeader) :
    Keeps I (m.applyHeaders session resp) := by
  refine .bind (keeps_orInternalError _ _) fun resp => .bind ?_ fun resp => ?_
  · exact .ite (fun _ => keeps_orInternalError _ _) fun _ => keeps_pure resp
  · refine .bind (keeps_orInternalError _ _) fun resp => .bind (keeps_orInternalError _ _) fun resp => ?_
    refine .bind (keeps_insertFieldIf _ _ _ _) fun resp => .bind (keeps_insertFieldIf _ _ _ _) fun resp => ?_
    exact keeps_insertFieldIf _ _ _ _

end

namespace Evaluates

variable {Writable : Str → Prop} {I : RequestState X → Prop} (hI : Evaluates X Writable I)
include hI

theorem cors_responseFilter (m : CorsMiddleware X) (resp : ResponseHeader) :
    Keeps I (m.responseFilter resp) := by
  refine hI.whenApplies m.celProgram ?_ resp
  exact .bind keeps_get fun s => keeps_cors_applyHeaders m _ resp

theorem redirect_targetLocation (m : RedirectMiddleware X) : Keeps I m.targetLocation := by
  unfold RedirectMiddleware.targetLocation
  split
  · exact keeps_pure _
  · next program _ =>
    refine .bind (hI.execute program) fun result => ?_
    split <;> exact keeps_pure _
  · exact .bind keeps_get fun s => .ite (fun _ => keeps_pure _) fun _ => keeps_pure _

theorem respond_bodyText (m : RespondMiddleware X) : Keeps I m.bodyText := by
  refine .ite (fun _ => ?_) fun _ => keeps_pure _
  unfold RespondMiddleware.evalBodyExpression
  split
  · exact keeps_pure []
  · next program _ =>
    refine .bind (hI.execute program) fun result => ?_
    split
    · exact keeps_throw _
    · split
      · exact keeps_pure _
      · exact keeps_throw _

end Evaluates

namespace Responds

variable {Writable : Str → Prop} {I : RequestState X → Prop} (hI : Responds X Writable I)
include hI

theorem cors_requestFilter (m : CorsMiddleware X) : Keeps I m.requestFilter := by
  refine hI.whenApplies m.celProgram ?_ false
  refine .bind keeps_get fun s => .ite (fun _ => keeps_pure false) fun _ => ?_
  refine .bind (keeps_orInternalError _ _) fun resp => .bind (keeps_cors_applyHeaders m _ resp) fun resp => ?_
  refine .bind (keeps_orInternalError _ _) fun resp => ?_
  exact .bind (hI.writeHead _ resp) fun _ => keeps_pure true

theorem interceptor_writeShortResponse (result : InterceptorResult) :
    Keeps I (InterceptorMiddleware.writeShortResponse X result) := by
  refine .bind (keeps_orInternalError _ _) fun resp => .bind (keeps_insertFieldIf _ _ _ _) fun resp => ?_
  refine .bind (keeps_orInternalError _ _) fun resp => .bind (hI.writeHead _ resp) fun _ => ?_
  exact .ite (fun _ => keeps_pure true) fun _ => .bind (hI.writeBody _ _) fun _ => keeps_pure true

theorem interceptor_requestFilter (m : InterceptorMiddleware) :
    Keeps I (InterceptorMiddleware.requestFilter X m) := by
  refine .bind keeps_get fun s => .bind hI.tick fun t => ?_
  split
  · exact keeps_throw _
  · exact keeps_pure false
  · split
    · exact keeps_throw _
    · split
      · exact keeps_pure false
      · exact hI.interceptor_writeShortResponse _

theorem writeRedirect (middleware : String) (code : Nat) (location : Str) :
    Keeps I (writeRedirect X middleware code location) := by
  refine .bind (keeps_orInternalError _ _) fun resp => .bind (keeps_orInternalError _ _) fun resp => ?_
  refine .bind (keeps_orInternalError _ _) fun resp => ?_
  exact .bind (hI.writeHead _ resp) fun _ => keeps_pure true

theorem redirect_requestFilter (m : RedirectMiddleware X) : Keeps I m.requestFilter := by
  refine hI.whenApplies m.celProgram ?_ false
  refine .bind (hI.redirect_targetLocation m) fun location => ?_
  cases location with
  | none => exact keeps_pure false
  | some location => exact hI.writeRedirect _ _ location

theorem redirectHttps_requestFilter (m : RedirectHttpsMiddleware X) : Keeps I m.requestFilter := by
  refine hI.whenApplies m.celProgram ?_ false
  refine .bind keeps_get fun s => .ite (fun _ => keeps_pure false) fun _ => ?_
  split
  · exact keeps_pure false
  · exact hI.writeRedirect _ _ _

theorem respond_requestFilter (m : RespondMiddleware X) : Keeps I m.requestFilter := by
  refine hI.whenApplies m.celProgram ?_ false
  exact .bind (hI.respond_bodyText m) fun body => hI.answer _ _ _ _ _

end Responds

end Lonesome
