import Lonesome.Proxy.Session

/-!
# Middlewares and their configurations

What `from_config` of each middleware under `src/middlewares/` accepts and builds, and
`build_middleware` of `registry.rs`. The built values hold compiled programs and regular expressions;
what they do to a request is in the modules after this one.

`request_headers` and `response_headers` check and build the same settings under two names
(`HeadersConfig`). The settings of `health_check` are in `Lonesome.Upstream.Health`.
-/

namespace Lonesome

open Lonesome.Upstream (HealthCheckConfig HealthCheckMiddleware)

variable (X : Externals)

/-! ## Compiling -/

/-- `Program::compile(..).map_err(..)` -/
def compileAs (what : String) (source : Str) : Except String X.Program :=
  match X.crates.compile source with
  | .ok program => .ok program
  | .error e => .error s!"failed to compile {what} '{String.ofList source}': {e}"

def compileOptional (what : String) : Option Str → Except String (Option X.Program)
  | none => .ok none
  | some source => return some (← compileAs X what source)

/-- `Regex::new(&find)` under the name of a middleware. -/
def findRegex (middleware : String) (find : Str) : Except String X.Regex :=
  match X.newRegex find with
  | .ok regex => .ok regex
  | .error e => .error s!"middleware {middleware}.find is invalid regex: {e}"

/-- `text.trim().is_empty()` -/
def isBlank (text : Str) : Bool :=
  (Str.trim text).isEmpty

/-! ## access_log -/

structure AccessLogConfig where
  format : Option Str
  file : Option Str
  ext : Option Str

structure AccessLogMiddleware where
  json : Bool
  file : Str
  extProgram : Option X.Program

def AccessLogConfig.validate (cfg : AccessLogConfig) : Except String Unit := do
  if let some format := cfg.format then
    if format != "text".toList && format != "json".toList then
      throw "middleware access_log.format must be 'text' or 'json'"
  if isBlank (cfg.file.getD []) then
    throw "middleware access_log.file is required"
  discard <| compileOptional X "access_log.ext expression" cfg.ext

def AccessLogMiddleware.fromConfig (cfg : AccessLogConfig) :
    Except String (AccessLogMiddleware X) := do
  cfg.validate X
  let file := cfg.file.getD []
  let extProgram ← compileOptional X "access_log.ext expression" cfg.ext
  match X.openError file with
  | some e => throw s!"failed to open access log file '{String.ofList file}': {e}"
  | none => return { json := cfg.format = some "json".toList, file, extProgram }

/-! ## basic_auth -/

structure BasicUser where
  name : Str
  passwordHash : Str

structure BasicAuthConfig where
  realm : Option Str
  users : List BasicUser
  rule : Option Str

structure BasicAuthMiddleware where
  realm : Str
  /-- Of users with the same name the last one counts. -/
  users : List BasicUser
  celProgram : Option X.Program

def BasicAuthConfig.validate (cfg : BasicAuthConfig) : Except String Unit := do
  if cfg.users.isEmpty then
    throw "middleware basic_auth.users cannot be empty"
  cfg.users.forM fun user => do
    if isBlank user.name then
      throw "middleware basic_auth.users[].name cannot be empty"
    if isBlank user.passwordHash then
      throw "middleware basic_auth.users[].password_hash cannot be empty"

def BasicAuthMiddleware.fromConfig (cfg : BasicAuthConfig) :
    Except String (BasicAuthMiddleware X) := do
  cfg.validate
  let celProgram ← compileOptional X "basic_auth rule" cfg.rule
  return { realm := cfg.realm.getD "restricted".toList, users := cfg.users, celProgram }

/-! ## cache -/

structure CacheConfig where
  maxTtlSecs : Option Nat
  maxFileSizeBytes : Option Nat
  injectCacheHeaders : Option Bool
  rule : Option Str

structure CacheHandler where
  maxTtlSecs : Nat
  maxFileSizeBytes : Option Nat
  injectCacheHeaders : Bool
  deriving DecidableEq

structure CacheMiddleware where
  handler : CacheHandler
  celProgram : Option X.Program

def CacheConfig.validate (cfg : CacheConfig) : Except String Unit :=
  if cfg.maxTtlSecs = some 0 then .error "middleware cache.max_ttl_secs must be > 0" else .ok ()

def CacheMiddleware.fromConfig (cfg : CacheConfig) : Except String (CacheMiddleware X) := do
  cfg.validate
  let celProgram ← compileOptional X "cache rule" cfg.rule
  return {
    handler := {
      maxTtlSecs := cfg.maxTtlSecs.getD 3600
      maxFileSizeBytes := cfg.maxFileSizeBytes
      injectCacheHeaders := cfg.injectCacheHeaders.getD true }
    celProgram }

/-! ## compression -/

structure CompressionConfig where
  gzip : Option Nat
  br : Option Nat
  zstd : Option Nat
  decompressUpstream : Option Bool
  preserveEtag : Option Bool
  rule : Option Str

structure CompressionMiddleware where
  cfg : CompressionConfig
  celProgram : Option X.Program

def validateLevel (name : String) : Option Nat → Except String Unit
  | none => .ok ()
  | some level =>
    if level > 11 then .error s!"middleware compression.{name} must be within [0, 11]" else .ok ()

def CompressionConfig.validate (cfg : CompressionConfig) : Except String Unit := do
  validateLevel "gzip" cfg.gzip
  validateLevel "br" cfg.br
  validateLevel "zstd" cfg.zstd

def CompressionMiddleware.fromConfig (cfg : CompressionConfig) :
    Except String (CompressionMiddleware X) := do
  cfg.validate
  let celProgram ← compileOptional X "compression rule" cfg.rule
  return { cfg, celProgram }

/-! ## cors -/

structure CorsConfig where
  allowOrigin : Option Str
  allowMethods : Option Str
  allowHeaders : Option Str
  exposeHeaders : Option Str
  allowCredentials : Option Bool
  maxAgeSecs : Option Nat
  reflectHost : Option Bool
  rule : Option Str

structure CorsMiddleware where
  allowOrigin : Str
  allowMethods : Str
  allowHeaders : Str
  exposeHeaders : Option Str
  allowCredentials : Bool
  maxAgeSecs : Option Nat
  reflectHost : Bool
  celProgram : Option X.Program

def CorsConfig.validate (cfg : CorsConfig) : Except String Unit :=
  if cfg.allowOrigin.any isBlank then .error "middleware cors.allow_origin cannot be empty"
  else .ok ()

def CorsMiddleware.fromConfig (cfg : CorsConfig) : Except String (CorsMiddleware X) := do
  cfg.validate
  let celProgram ← compileOptional X "cors rule" cfg.rule
  return {
    allowOrigin := cfg.allowOrigin.getD "*".toList
    allowMethods := cfg.allowMethods.getD "GET,POST,PUT,PATCH,DELETE,OPTIONS".toList
    allowHeaders := cfg.allowHeaders.getD "*".toList
    exposeHeaders := cfg.exposeHeaders
    allowCredentials := cfg.allowCredentials.getD false
    maxAgeSecs := cfg.maxAgeSecs
    reflectHost := cfg.reflectHost.getD false
    celProgram }

/-! ## interceptor -/

structure InterceptorConfig where
  key : Str

structure InterceptorMiddleware where
  key : Str

def InterceptorConfig.validate (cfg : InterceptorConfig) : Except String Unit :=
  if isBlank cfg.key then .error "middleware interceptor.key cannot be empty" else .ok ()

def InterceptorMiddleware.fromConfig (cfg : InterceptorConfig) :
    Except String InterceptorMiddleware := do
  cfg.validate
  return { key := cfg.key }

/-! ## jwt -/

inductive JwtErrorMode where
  | deny
  | passthrough
  deriving DecidableEq, Repr

structure JwtConfig where
  headerName : Str
  bearerPrefix : Str
  jwks : Str
  validateTime : Bool
  onError : JwtErrorMode
  rule : Option Str

structure JwtMiddleware where
  headerName : Str
  bearerPrefix : Str
  onError : JwtErrorMode
  validateTime : Bool
  jwksPool : List X.jose.Jwk
  ruleProgram : Option X.Program

def JwtConfig.validate (cfg : JwtConfig) : Except String Unit := do
  if isBlank cfg.headerName then
    throw "middleware jwt.header_name cannot be empty"
  if isBlank cfg.jwks then
    throw "middleware jwt.jwks cannot be empty"

/-- `JwksVerifierPool::from_jwks` -/
def jwksPoolFromJwks (jwks : Str) : Except String (List X.jose.Jwk) :=
  match X.jose.fromJwks jwks with
  | .error e => .error s!"invalid jwt.jwks: {e}"
  | .ok [] => .error "middleware jwt.jwks cannot be empty"
  | .ok keys => .ok keys

def JwtMiddleware.fromConfig (cfg : JwtConfig) : Except String (JwtMiddleware X) := do
  cfg.validate
  let ruleProgram ← compileOptional X "jwt rule" cfg.rule
  return {
    headerName := cfg.headerName
    bearerPrefix := cfg.bearerPrefix
    onError := cfg.onError
    validateTime := cfg.validateTime
    jwksPool := ← jwksPoolFromJwks X cfg.jwks
    ruleProgram }

/-! ## rate_limit -/

inductive LimitModeConfig where
  | remoteIp
  | header (headerName : Str)
  | expression (key : Str)

/-- `max_rps`, by what is computed from it: whether it is `<= 0.0`, and `(max_rps * 10).round()`. -/
structure MaxRps where
  nonpositive : Bool
  perObserve : Int

structure RateLimitConfig where
  mode : LimitModeConfig
  maxRps : MaxRps
  status : Option Nat
  includeHeaders : Option Bool
  rule : Option Str

inductive LimitMode where
  | remoteIp
  | header (headerName : Str)
  | expression (keyProgram : X.Program)

structure RateLimitMiddleware where
  mode : LimitMode X
  maxRequestsPerObserve : Int
  status : Nat
  includeHeaders : Bool
  celProgram : Option X.Program

def RateLimitConfig.validate (cfg : RateLimitConfig) : Except String Unit := do
  match cfg.mode with
  | .remoteIp => pure ()
  | .header headerName =>
    if isBlank headerName then throw "middleware rate_limit.header_name cannot be empty"
  | .expression key =>
    if isBlank key then throw "middleware rate_limit.key cannot be empty"
  if cfg.maxRps.nonpositive then
    throw "middleware rate_limit.max_rps must be > 0"
  if let some status := cfg.status then
    if ¬ (100 ≤ status ∧ status ≤ 999) then
      throw "middleware rate_limit.status must be within [100, 999]"

def RateLimitMiddleware.fromConfig (cfg : RateLimitConfig) :
    Except String (RateLimitMiddleware X) := do
  cfg.validate
  let mode ← match cfg.mode with
    | .remoteIp => pure LimitMode.remoteIp
    | .header headerName => pure (LimitMode.header headerName)
    | .expression key => LimitMode.expression <$> compileAs X "rate_limit.key" key
  let celProgram ← compileOptional X "rate_limit rule" cfg.rule
  return {
    mode
    maxRequestsPerObserve := cfg.maxRps.perObserve
    status := cfg.status.getD 429
    includeHeaders := cfg.includeHeaders.getD true
    celProgram }

/-! ## redirect and redirect_https -/

def redirectCodes : List Nat := [301, 302, 303, 307, 308]

inductive RedirectTargetConfig where
  | static (target : Str)
  | cel (expression : Str)
  | regexReplace (find replace : Str)

structure RedirectConfig where
  code : Nat
  target : RedirectTargetConfig
  rule : Option Str

inductive RedirectTarget where
  | static (target : Str)
  | cel (program : X.Program)
  | regexReplace (regex : X.Regex) (replace : Str)

structure RedirectMiddleware where
  code : Nat
  target : RedirectTarget X
  celProgram : Option X.Program

def RedirectConfig.validate (cfg : RedirectConfig) : Except String Unit := do
  if cfg.code ∉ redirectCodes then
    throw "middleware redirect.code must be one of 301,302,303,307,308"
  match cfg.target with
  | .static target =>
    if isBlank target then throw "middleware redirect.target cannot be empty"
  | .cel expression =>
    if isBlank expression then throw "middleware redirect.expression cannot be empty"
  | .regexReplace find _ =>
    if find.isEmpty then throw "middleware redirect.find cannot be empty"

def RedirectMiddleware.fromConfig (cfg : RedirectConfig) :
    Except String (RedirectMiddleware X) := do
  cfg.validate
  let target ← match cfg.target with
    | .static target => pure (RedirectTarget.static target)
    | .cel expression => RedirectTarget.cel <$> compileAs X "redirect expression" expression
    | .regexReplace find replace => (RedirectTarget.regexReplace · replace) <$> findRegex X "redirect" find
  let celProgram ← compileOptional X "redirect rule" cfg.rule
  return { code := cfg.code, target, celProgram }

structure RedirectHttpsConfig where
  code : Option Nat
  port : Option Nat
  toHttp : Option Bool
  rule : Option Str

structure RedirectHttpsMiddleware where
  code : Nat
  port : Option Nat
  toHttp : Bool
  celProgram : Option X.Program

def RedirectHttpsConfig.validate (cfg : RedirectHttpsConfig) : Except String Unit :=
  if cfg.code.any (· ∉ redirectCodes) then
    .error "middleware redirect_https.code must be one of 301,302,303,307,308"
  else .ok ()

def RedirectHttpsMiddleware.fromConfig (cfg : RedirectHttpsConfig) :
    Except String (RedirectHttpsMiddleware X) := do
  cfg.validate
  let celProgram ← compileOptional X "redirect_https rule" cfg.rule
  return { code := cfg.code.getD 301, port := cfg.port, toHttp := cfg.toHttp.getD false, celProgram }

/-! ## request_headers and response_headers -/

inductive HeadersActionConfig where
  | append
  | set
  | setDefault
  | remove
  deriving DecidableEq, Repr

structure HeadersConfig where
  name : Str
  action : HeadersActionConfig
  value : Option Str
  expression : Option Str
  rule : Option Str

inductive HeadersValue where
  | value (text : Str)
  | expression (program : X.Program)

inductive HeadersAction where
  | append (value : HeadersValue X)
  | set (value : HeadersValue X)
  | setDefault (value : HeadersValue X)
  | remove

structure HeadersMiddleware where
  name : Str
  action : HeadersAction X
  celProgram : Option X.Program

def HeadersConfig.validate (middleware : String) (cfg : HeadersConfig) : Except String Unit := do
  if isBlank cfg.name then
    throw s!"middleware {middleware}.name cannot be empty"
  match cfg.action with
  | .append | .set | .setDefault =>
    match cfg.value, cfg.expression with
    | some _, some _ =>
      throw s!"middleware {middleware}.value and {middleware}.expression cannot both be set"
    | none, none => throw s!"middleware {middleware}.value or {middleware}.expression is required"
    | some value, none =>
      if value.isEmpty then throw s!"middleware {middleware}.value cannot be empty"
    | none, some expression =>
      if isBlank expression then throw s!"middleware {middleware}.expression cannot be empty"
  | .remove =>
    if cfg.value.isSome || cfg.expression.isSome then
      throw s!"middleware {middleware}.value/expression is not allowed for remove action"

/-- `from_value_fields` -/
def headersFromValueFields (middleware : String) :
    Option Str → Option Str → Except String (HeadersValue X)
  | some value, none => .ok (.value value)
  | none, some expression =>
    HeadersValue.expression <$> compileAs X s!"{middleware} expression" expression
  | _, _ => .error s!"middleware {middleware}.value or {middleware}.expression is required"

def HeadersMiddleware.fromConfig (middleware : String) (cfg : HeadersConfig) :
    Except String (HeadersMiddleware X) := do
  cfg.validate middleware
  let value := headersFromValueFields X middleware cfg.value cfg.expression
  let action ← match cfg.action with
    | .append => HeadersAction.append <$> value
    | .set => HeadersAction.set <$> value
    | .setDefault => HeadersAction.setDefault <$> value
    | .remove => pure .remove
  let celProgram ← compileOptional X s!"{middleware} rule" cfg.rule
  return { name := cfg.name, action, celProgram }

def RequestHeadersMiddleware.fromConfig : HeadersConfig → Except String (HeadersMiddleware X) :=
  HeadersMiddleware.fromConfig X "request_headers"

def ResponseHeadersMiddleware.fromConfig : HeadersConfig → Except String (HeadersMiddleware X) :=
  HeadersMiddleware.fromConfig X "response_headers"

/-! ## respond -/

structure RespondConfig where
  status : Nat
  contentType : Option Str
  body : Option Str
  bodyExpression : Option Str
  rule : Option Str

structure RespondMiddleware where
  status : Nat
  contentType : Option Str
  body : Option Str
  bodyProgram : Option X.Program
  celProgram : Option X.Program

def RespondConfig.validate (cfg : RespondConfig) : Except String Unit := do
  if cfg.status < 100 || cfg.status > 999 then
    throw "middleware respond.status must be within [100, 999]"
  if cfg.body.isSome && cfg.bodyExpression.isSome then
    throw "middleware respond.body and respond.body_expression cannot both be set"

def RespondMiddleware.fromConfig (cfg : RespondConfig) : Except String (RespondMiddleware X) := do
  cfg.validate
  let celProgram ← compileOptional X "respond rule" cfg.rule
  let bodyProgram ← compileOptional X "respond body_expression" cfg.bodyExpression
  return {
    status := cfg.status
    contentType := cfg.contentType
    body := cfg.body
    bodyProgram
    celProgram }

/-! ## rewrite, rewrite_method and rewrite_error_page -/

inductive RewriteModeConfig where
  | regexRewrite (find replace : Str)
  | celRewrite (expression : Str)

structure RewriteConfig where
  mode : RewriteModeConfig
  rule : Option Str

inductive RewriteMode where
  | regexRewrite (regex : X.Regex) (replace : Str)
  | celRewrite (program : X.Program)

structure RewriteMiddleware where
  mode : RewriteMode X
  celProgram : Option X.Program

def RewriteConfig.validate (cfg : RewriteConfig) : Except String Unit :=
  match cfg.mode with
  | .regexRewrite find _ =>
    if find.isEmpty then .error "middleware rewrite.find cannot be empty" else .ok ()
  | .celRewrite expression =>
    if isBlank expression then .error "middleware rewrite.expression cannot be empty" else .ok ()

def RewriteMiddleware.fromConfig (cfg : RewriteConfig) : Except String (RewriteMiddleware X) := do
  cfg.validate
  let mode ← match cfg.mode with
    | .regexRewrite find replace => (RewriteMode.regexRewrite · replace) <$> findRegex X "rewrite" find
    | .celRewrite expression => RewriteMode.celRewrite <$> compileAs X "rewrite expression" expression
  let celProgram ← compileOptional X "rewrite rule" cfg.rule
  return { mode, celProgram }

structure RewriteMethodConfig where
  method : Str
  rule : Option Str

structure RewriteMethodMiddleware where
  method : Str
  celProgram : Option X.Program

def RewriteMethodConfig.validate (cfg : RewriteMethodConfig) : Except String Unit := do
  if isBlank cfg.method then
    throw "middleware rewrite_method.method cannot be empty"
  if let some e := X.methodError cfg.method then
    throw s!"middleware rewrite_method.method is invalid: {e}"

def RewriteMethodMiddleware.fromConfig (cfg : RewriteMethodConfig) :
    Except String (RewriteMethodMiddleware X) := do
  cfg.validate X
  let celProgram ← compileOptional X "rewrite_method rule" cfg.rule
  return { method := cfg.method, celProgram }

/-- `status` is the text that `to_spec` gives, for a code as for a spec. -/
structure RewriteErrorPageConfig where
  status : Option Str
  rule : Option Str

structure RewriteErrorPageMiddleware where
  statuses : List Nat
  celProgram : Option X.Program

def RewriteErrorPageConfig.validate (cfg : RewriteErrorPageConfig) : Except String Unit := do
  if let some status := cfg.status then
    discard <| ErrorPages.parseStatusSpec status

def RewriteErrorPageMiddleware.fromConfig (cfg : RewriteErrorPageConfig) :
    Except String (RewriteErrorPageMiddleware X) := do
  cfg.validate
  let statuses ← match cfg.status with
    | some status => ErrorPages.parseStatusSpec status
    | none => pure []
  let celProgram ← compileOptional X "rewrite_error_page rule" cfg.rule
  return { statuses, celProgram }

/-! ## set_variable -/

inductive SetVariableStage where
  | request
  | upstreamResponse
  | response
  deriving DecidableEq, Repr

structure SetVariableConfig where
  name : Str
  expression : Str
  stage : SetVariableStage
  rule : Option Str

structure SetVariableMiddleware where
  name : Str
  stage : SetVariableStage
  valueProgram : X.Program
  ruleProgram : Option X.Program

def SetVariableConfig.validate (cfg : SetVariableConfig) : Except String Unit := do
  if isBlank cfg.name then
    throw "middleware set_variable.name cannot be empty"
  if isBlank cfg.expression then
    throw "middleware set_variable.expression cannot be empty"

def SetVariableMiddleware.fromConfig (cfg : SetVariableConfig) :
    Except String (SetVariableMiddleware X) := do
  cfg.validate
  let valueProgram ← compileAs X "set_variable expression" cfg.expression
  let ruleProgram ← compileOptional X "set_variable rule" cfg.rule
  return { name := cfg.name, stage := cfg.stage, valueProgram, ruleProgram }

/-! ## The registry -/

/-- `MiddlewareType` of a configuration. -/
inductive MiddlewareConfig where
  | accessLog (cfg : AccessLogConfig)
  | basicAuth (cfg : BasicAuthConfig)
  | cache (cfg : CacheConfig)
  | compression (cfg : CompressionConfig)
  | cors (cfg : CorsConfig)
  | healthCheck (cfg : HealthCheckConfig)
  | interceptor (cfg : InterceptorConfig)
  | jwt (cfg : JwtConfig)
  | rateLimit (cfg : RateLimitConfig)
  | redirect (cfg : RedirectConfig)
  | redirectHttps (cfg : RedirectHttpsConfig)
  | requestHeaders (cfg : HeadersConfig)
  | respond (cfg : RespondConfig)
  | responseHeaders (cfg : HeadersConfig)
  | rewrite (cfg : RewriteConfig)
  | rewriteErrorPage (cfg : RewriteErrorPageConfig)
  | rewriteMethod (cfg : RewriteMethodConfig)
  | setVariable (cfg : SetVariableConfig)

/-- A built middleware. -/
inductive Middleware where
  | accessLog (m : AccessLogMiddleware X)
  | basicAuth (m : BasicAuthMiddleware X)
  | cache (m : CacheMiddleware X)
  | compression (m : CompressionMiddleware X)
  | cors (m : CorsMiddleware X)
  | healthCheck (m : HealthCheckMiddleware)
  | interceptor (m : InterceptorMiddleware)
  | jwt (m : JwtMiddleware X)
  | rateLimit (m : RateLimitMiddleware X)
  | redirect (m : RedirectMiddleware X)
  | redirectHttps (m : RedirectHttpsMiddleware X)
  | requestHeaders (m : HeadersMiddleware X)
  | respond (m : RespondMiddleware X)
  | responseHeaders (m : HeadersMiddleware X)
  | rewrite (m : RewriteMiddleware X)
  | rewriteErrorPage (m : RewriteErrorPageMiddleware X)
  | rewriteMethod (m : RewriteMethodMiddleware X)
  | setVariable (m : SetVariableMiddleware X)

def buildMiddleware : MiddlewareConfig → Except String (Middleware X)
  | .accessLog cfg => Middleware.accessLog <$> AccessLogMiddleware.fromConfig X cfg
  | .basicAuth cfg => Middleware.basicAuth <$> BasicAuthMiddleware.fromConfig X cfg
  | .cache cfg => Middleware.cache <$> CacheMiddleware.fromConfig X cfg
  | .compression cfg => Middleware.compression <$> CompressionMiddleware.fromConfig X cfg
  | .cors cfg => Middleware.cors <$> CorsMiddleware.fromConfig X cfg
  | .healthCheck cfg => Middleware.healthCheck <$> HealthCheckMiddleware.fromConfig cfg
  | .interceptor cfg => Middleware.interceptor <$> InterceptorMiddleware.fromConfig cfg
  | .jwt cfg => Middleware.jwt <$> JwtMiddleware.fromConfig X cfg
  | .rateLimit cfg => Middleware.rateLimit <$> RateLimitMiddleware.fromConfig X cfg
  | .redirect cfg => Middleware.redirect <$> RedirectMiddleware.fromConfig X cfg
  | .redirectHttps cfg => Middleware.redirectHttps <$> RedirectHttpsMiddleware.fromConfig X cfg
  | .requestHeaders cfg => Middleware.requestHeaders <$> RequestHeadersMiddleware.fromConfig X cfg
  | .respond cfg => Middleware.respond <$> RespondMiddleware.fromConfig X cfg
  | .responseHeaders cfg => Middleware.responseHeaders <$> ResponseHeadersMiddleware.fromConfig X cfg
  | .rewrite cfg => Middleware.rewrite <$> RewriteMiddleware.fromConfig X cfg
  | .rewriteErrorPage cfg =>
    Middleware.rewriteErrorPage <$> RewriteErrorPageMiddleware.fromConfig X cfg
  | .rewriteMethod cfg => Middleware.rewriteMethod <$> RewriteMethodMiddleware.fromConfig X cfg
  | .setVariable cfg => Middleware.setVariable <$> SetVariableMiddleware.fromConfig X cfg

end Lonesome
