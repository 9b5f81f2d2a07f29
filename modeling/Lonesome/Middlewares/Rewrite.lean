import Lonesome.Proxy.Response

/-!
# Changing requests and responses

The middlewares `request_headers`, `response_headers`, `rewrite`, `rewrite_method`,
`rewrite_error_page` and `set_variable` under `src/middlewares/`. A filter that changes a header it is
given returns the new header. The first two do the same to the fields of two kinds of header.
-/

namespace Lonesome

open Lonesome.Lib

variable {X : Externals}

/-! ## request_headers and response_headers -/

namespace HeadersMiddleware

variable (m : HeadersMiddleware X)

def shouldApply : ReqM X Bool := Lonesome.shouldApply X m.celProgram

/-- The messages start with the name of the middleware. -/
def valueString (middleware : String) : HeadersValue X → ReqM X Str
  | .value v => pure v
  | .expression program => do
    match ← execute X program with
    | .error e => throw (middlewareInternalError s!"{middleware} expression execution failed" e)
    | .ok (.string v) => return v
    | .ok other =>
      throw (middlewareInternalError s!"{middleware} expression must return string"
        s!"got {X.debug other}")

/-- The name and the value that `append_header` and `insert_header` make of their arguments. -/
def field (name v : Str) : Except String (String × HeaderValue) :=
  match X.crates.headerName name with
  | none => .error "invalid header name"
  | some name => (ResponseHeader.value (HeaderValue.fromStr v)).map (name, ·)

def apply (middleware : String) (headers : HeaderMap) : ReqM X HeaderMap :=
  match m.action with
  | .append value => do
    let v ← valueString middleware value
    let (name, v) ← orInternalError X s!"{middleware} append failed" (field (X := X) m.name v)
    return headers.append name v
  | .set value => do
    let v ← valueString middleware value
    let (name, v) ← orInternalError X s!"{middleware} set failed" (field (X := X) m.name v)
    return headers.insert name v
  | .setDefault value =>
    if (headers.getStr m.name).isNone then do
      let v ← valueString middleware value
      let (name, v) ← orInternalError X s!"{middleware} set_default failed" (field (X := X) m.name v)
      return headers.insert name v
    else pure headers
  | .remove => pure (headers.remove (String.ofList m.name.toAsciiLowercase))

/-- The filter of both middlewares. -/
def filter (middleware : String) (headers : HeaderMap) : ReqM X HeaderMap := do
  if ← m.shouldApply then m.apply middleware headers else return headers

/-- `RequestHeadersMiddleware::upstream_request_filter` -/
def upstreamRequestFilter (upstreamRequest : RequestHeader X.H) : ReqM X (RequestHeader X.H) := do
  let headers ← m.filter "request_headers" upstreamRequest.headers
  return { upstreamRequest with headers }

/-- `ResponseHeadersMiddleware::response_filter` -/
def responseFilter (upstreamResponse : ResponseHeader) : ReqM X ResponseHeader := do
  let headers ← m.filter "response_headers" upstreamResponse.headers
  return { upstreamResponse with headers }

end HeadersMiddleware

/-! ## rewrite and rewrite_method -/

namespace RewriteMiddleware

variable (m : RewriteMiddleware X)

def shouldApply : ReqM X Bool := Lonesome.shouldApply X m.celProgram

def rewritePath (pathAndQuery : Str) : ReqM X (Option Str) :=
  match m.mode with
  | .regexRewrite regex replace =>
    if X.isMatch regex pathAndQuery then pure (some (X.replace regex pathAndQuery replace))
    else pure none
  | .celRewrite program => do
    match ← execute X program with
    | .ok (.string v) => return some v
    | _ => return none

/-- The new path starts with a slash. -/
def withSlash (path : Str) : Str :=
  if path.head? = some '/' then path else '/' :: path

variable (X) in
def setUri (uri : Uri X.H) : ReqM X Unit :=
  modifySession X fun s => { s with reqHeader := { s.reqHeader with uri } }

def requestFilter : ReqM X Bool := do
  if ← m.shouldApply then
    let s ← get
    match ← m.rewritePath s.session.reqHeader.uri.pathText with
    | none => return false
    | some newPath =>
      let uri ← orInternalError X "rewrite builds invalid uri"
        (s.session.reqHeader.uri.withPath (withSlash newPath))
      setUri X uri
      return false
  else return false

end RewriteMiddleware

namespace RewriteMethodMiddleware

variable (m : RewriteMethodMiddleware X)

def shouldApply : ReqM X Bool := Lonesome.shouldApply X m.celProgram

def requestFilter : ReqM X Bool := do
  if ← m.shouldApply then
    modifySession X fun s =>
      { s with reqHeader := { s.reqHeader with method := String.ofList m.method } }
    return false
  else return false

end RewriteMethodMiddleware

/-! ## rewrite_error_page -/

/-- The header of a response that is the rendered page. -/
def buildErrorPageHeader (page : RenderedErrorPage) (bodyLen : Str) :
    Except String ResponseHeader := do
  let resp ← (ResponseHeader.build page.status).mapError fun e => s!"build error page header: {e}"
  let resp ← page.headers.foldlM (fun resp h =>
    (resp.insertHeader h.1 (some h.2)).mapError fun e => s!"invalid error page header: {e}") resp
  let resp ← match page.contentType with
    | some contentType =>
      (resp.insertHeader "content-type" (HeaderValue.fromStr contentType)).mapError
        fun e => s!"invalid error page content-type: {e}"
    | none => pure resp
  (resp.insertHeader "content-length" (HeaderValue.fromStr bodyLen)).mapError
    fun e => s!"invalid content-length: {e}"

namespace RewriteErrorPageMiddleware

variable (m : RewriteErrorPageMiddleware X)

def shouldApply : ReqM X Bool := Lonesome.shouldApply X m.celProgram

/-- The upstream response is an error that the middleware is to replace, and it has a body: the body
filter, which writes the page, is not called without one. -/
def intercepts (upstreamResponse : ResponseHeader) : Bool :=
  400 ≤ upstreamResponse.status &&
    (m.statuses.isEmpty || m.statuses.contains upstreamResponse.status) &&
    (upstreamResponse.headers.get "content-length").bind (·.toStr) != some "0".toList

/-- Replaces the response by the page, if there is one. -/
def replaceWith (upstreamResponse : ResponseHeader) :
    Option RenderedErrorPage → ReqM X ResponseHeader
  | none => pure upstreamResponse
  | some page => do
    let resp ← orInternalError X "rewrite_error_page build response failed"
      (buildErrorPageHeader page (contentLength page.body))
    modifyCtx X fun ctx => { ctx with responseBodyOverride := some (.replace page.body) }
    return resp

def upstreamResponseFilter (upstreamResponse : ResponseHeader) : ReqM X ResponseHeader := do
  if ← m.shouldApply then
    if m.intercepts upstreamResponse then
      let page ← resolveErrorPage X upstreamResponse.status
      replaceWith upstreamResponse page
    else return upstreamResponse
  else return upstreamResponse

end RewriteErrorPageMiddleware

/-! ## set_variable -/

namespace SetVariableMiddleware

variable (m : SetVariableMiddleware X)

def shouldApply : ReqM X Bool := Lonesome.shouldApply X m.ruleProgram

def apply : ReqM X Unit := do
  if ← m.shouldApply then
    match ← execute X m.valueProgram with
    | .error e => throw (middlewareInternalError "set_variable expression execution failed" e)
    | .ok value => addVariable X m.name value
  else return ()

/-- The body of the three filters: the variable is set in the stage it is configured for. -/
def applyIn (stage : SetVariableStage) : ReqM X Unit :=
  if m.stage = stage then m.apply else pure ()

def requestFilter : ReqM X Bool := do
  m.applyIn .request
  return false

def upstreamResponseFilter (upstreamResponse : ResponseHeader) : ReqM X ResponseHeader := do
  m.applyIn .upstreamResponse
  return upstreamResponse

def responseFilter (upstreamResponse : ResponseHeader) : ReqM X ResponseHeader := do
  m.applyIn .response
  return upstreamResponse

end SetVariableMiddleware

/-! ## Invariants -/

namespace Evaluates

variable {Writable : Str → Prop} {I : RequestState X → Prop} (hI : Evaluates X Writable I)
include hI

theorem headers_valueString (middleware : String) (value : HeadersValue X) :
    Keeps I (HeadersMiddleware.valueString middleware value) := by
  cases value with
  | value v => exact keeps_pure v
  | expression program =>
    refine .bind (hI.execute program) fun result => ?_
    split
    · exact keeps_throw _
    · exact keeps_pure _
    · exact keeps_throw _

theorem headers_filter (m : HeadersMiddleware X) (middleware : String) (headers : HeaderMap) :
    Keeps I (m.filter middleware headers) := by
  refine hI.whenApplies m.celProgram ?_ headers
  have hwrite (value : HeadersValue X) (context : String) (f : String × HeaderValue → HeaderMap) :
      Keeps I (do
        let v ← HeadersMiddleware.valueString middleware value
        let p ← Lonesome.orInternalError X context (HeadersMiddleware.field (X := X) m.name v)
        return f p) :=
    .bind (hI.headers_valueString middleware value) fun v => .bind (keeps_orInternalError _ _) fun p => keeps_pure _
  unfold HeadersMiddleware.apply
  split
  · exact hwrite _ _ fun p => headers.append p.1 p.2
  · exact hwrite _ _ fun p => headers.insert p.1 p.2
  · exact .ite (fun _ => hwrite _ _ fun p => headers.insert p.1 p.2) fun _ => keeps_pure headers
  · exact keeps_pure _

theorem requestHeaders_upstreamRequestFilter (m : HeadersMiddleware X) (req : RequestHeader X.H) :
    Keeps I (m.upstreamRequestFilter req) :=
  .bind (hI.headers_filter m _ _) fun _ => keeps_pure _

theorem responseHeaders_responseFilter (m : HeadersMiddleware X) (resp : ResponseHeader) :
    Keeps I (m.responseFilter resp) :=
  .bind (hI.headers_filter m _ _) fun _ => keeps_pure _

theorem rewrite_rewritePath (m : RewriteMiddleware X) (path : Str) : Keeps I (m.rewritePath path) := by
  unfold RewriteMiddleware.rewritePath
  split
  · exact .ite (fun _ => keeps_pure _) fun _ => keeps_pure _
  · next program _ =>
    refine .bind (hI.execute program) fun result => ?_
    split <;> exact keeps_pure _

omit hI in
/-- The override of the response body is written by `rewrite_error_page` only. -/
theorem rewriteErrorPage_replaceWith
    (hbody : ∀ o, Keeps I (Lonesome.modifyCtx X fun ctx => { ctx with responseBodyOverride := o }))
    (resp : ResponseHeader) (page : Option RenderedErrorPage) :
    Keeps I (RewriteErrorPageMiddleware.replaceWith (X := X) resp page) := by
  cases page with
  | none => exact keeps_pure resp
  | some page =>
    refine .bind (keeps_orInternalError _ _) fun resp => ?_
    exact .bind (hbody _) fun _ => keeps_pure resp

theorem rewriteErrorPage_upstreamResponseFilter
    (hbody : ∀ o, Keeps I (Lonesome.modifyCtx X fun ctx => { ctx with responseBodyOverride := o }))
    (m : RewriteErrorPageMiddleware X) (resp : ResponseHeader) :
    Keeps I (m.upstreamResponseFilter resp) := by
  refine hI.whenApplies m.celProgram ?_ resp
  refine .ite (fun hintercepts => ?_) fun _ => keeps_pure resp
  have hstatus : 400 ≤ resp.status := by
    simp only [RewriteErrorPageMiddleware.intercepts, Bool.and_eq_true, decide_eq_true_eq] at hintercepts
    exact hintercepts.1.1
  refine .bind (hI.resolves resp.status hstatus) fun page => ?_
  exact rewriteErrorPage_replaceWith hbody resp page

theorem setVariable_applyIn (m : SetVariableMiddleware X) (hname : Writable m.name)
    (stage : SetVariableStage) : Keeps I (m.applyIn stage) := by
  refine .ite (fun _ => ?_) fun _ => keeps_pure ()
  refine hI.whenApplies m.ruleProgram ?_ ()
  refine .bind (hI.execute m.valueProgram) fun result => ?_
  cases result with
  | error e => exact keeps_throw _
  | ok value => exact hI.addVariable _ hname value

/-! The two middlewares that write the method and the path, and no fields. -/

variable (hfields : ∀ f, KeepsFields f → Keeps I (Lonesome.modifySession X f))
include hfields

theorem rewrite_requestFilter (m : RewriteMiddleware X) : Keeps I m.requestFilter := by
  refine hI.whenApplies m.celProgram ?_ false
  refine .bind keeps_get fun s => .bind (hI.rewrite_rewritePath m _) fun newPath => ?_
  cases newPath with
  | none => exact keeps_pure false
  | some newPath =>
    refine .bind (keeps_orInternalError _ _) fun uri => ?_
    exact .bind (hfields _ fun _ => rfl) fun _ => keeps_pure false

theorem rewriteMethod_requestFilter (m : RewriteMethodMiddleware X) : Keeps I m.requestFilter := by
  refine hI.whenApplies m.celProgram ?_ false
  exact .bind (hfields _ fun _ => rfl) fun _ => keeps_pure false

end Evaluates

end Lonesome
