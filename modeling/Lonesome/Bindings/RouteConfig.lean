import Lonesome.Bindings.UpstreamConfig
import Lonesome.Lib.SortedMap
import Lonesome.Proxy.Ctx

/-!
# Routes as they are configured

`src/bindings/route_config.rs`, `src/config/route_config.rs`, `src/config/middleware_config.rs` and
`Route::from_config`: a route as it comes from JavaScript, the checks on it and what is built of it.
`add_or_update` and `validate` of the server share all of that (`buildRoute`).

Every middleware checks its settings again when it is built, so the checks that come first reject nothing
more (`validate_of_build`): a route is built exactly when its parts are (`buildRoute_eq_ok_iff`).
-/

namespace Lonesome

open Lonesome.Lib
open Lonesome.Upstream (BuiltPool LoadBalancerConfig LoadBalancerOptions UpstreamConfig
  UpstreamOptions UpstreamPool loadBalancerFrom)

/-! ## Configurations -/

structure RouteMatcherConfig where
  rule : Str
  priority : Option Int

/-- `MiddlewareConfig` of the bindings: the type, and the settings as JSON. -/
structure MiddlewareOptions where
  type : Str
  config : Json

/-- `RouteConfig` of the bindings. -/
structure RouteOptions where
  id : String
  matcher : RouteMatcherConfig
  middlewares : List MiddlewareOptions
  upstreams : List UpstreamOptions
  loadBalancer : Option LoadBalancerOptions

structure RouteConfig where
  id : String
  matcher : RouteMatcherConfig
  middlewares : List MiddlewareConfig
  upstreams : List UpstreamConfig
  loadBalancer : Option LoadBalancerConfig

/-- The crates that routes are built with: `serde_json::from_value`, those of the upstreams, and a built
pool as requests use it. -/
structure RouteCrates (X : Externals) where
  fromValue : Json → Except String MiddlewareConfig
  upstream : Upstream.Crates
  pool : BuiltPool upstream → UpstreamPool X.Endpoint
  program : upstream.Program → X.Program

variable {X : Externals} (K : RouteCrates X)

/-! ## Conversions -/

/-- The settings with the type among them. -/
def middlewareTypeFromJson (kind : Str) : Json → Except String MiddlewareConfig
  | .object obj =>
    match K.fromValue (.object (insertKey "type".toList (.string kind) obj)) with
    | .ok cfg => .ok cfg
    | .error e => .error s!"invalid middleware config payload for '{String.ofList kind}': {e}"
  | _ => .error s!"invalid middleware config json for '{String.ofList kind}': expected JSON object"

def MiddlewareConfig.tryFrom (value : MiddlewareOptions) : Except String MiddlewareConfig :=
  middlewareTypeFromJson K value.type value.config

def RouteConfig.tryFrom (value : RouteOptions) : Except String RouteConfig := do
  let middlewares ← value.middlewares.mapM (MiddlewareConfig.tryFrom K)
  let upstreams ← value.upstreams.mapM UpstreamConfig.tryFrom
  let loadBalancer ← loadBalancerFrom value.loadBalancer
  return { id := value.id, matcher := value.matcher, middlewares, upstreams, loadBalancer }

/-! ## Checks -/

variable (X) in
def MiddlewareConfig.validate : MiddlewareConfig → Except String Unit
  | .accessLog cfg => cfg.validate X
  | .basicAuth cfg => cfg.validate
  | .cache cfg => cfg.validate
  | .compression cfg => cfg.validate
  | .cors cfg => cfg.validate
  | .healthCheck cfg => cfg.validate
  | .interceptor cfg => cfg.validate
  | .jwt cfg => cfg.validate
  | .rateLimit cfg => cfg.validate
  | .redirect cfg => cfg.validate
  | .redirectHttps cfg => cfg.validate
  | .requestHeaders cfg => cfg.validate "request_headers"
  | .respond cfg => cfg.validate
  | .responseHeaders cfg => cfg.validate "response_headers"
  | .rewrite cfg => cfg.validate
  | .rewriteErrorPage cfg => cfg.validate
  | .rewriteMethod cfg => cfg.validate X
  | .setVariable cfg => cfg.validate

/-- `rule.len() as i32`, in bytes. -/
def ruleLength (rule : Str) : Int :=
  (BitVec.ofNat 32 (HeaderValue.utf8Bytes rule).length).toInt

namespace RouteConfig

variable (cfg : RouteConfig)

variable (X) in
def validate : Except String Unit := do
  if isBlank cfg.id.toList then throw "route.id cannot be empty"
  else if isBlank cfg.matcher.rule then throw "route.matcher.rule cannot be empty"
  else if cfg.upstreams.isEmpty then throw "route.upstreams cannot be empty"
  else
    cfg.middlewares.forM fun middleware => middleware.validate X
    cfg.upstreams.forM fun upstream => upstream.validate

def effectivePriority : Int := cfg.matcher.priority.getD (ruleLength cfg.matcher.rule)

end RouteConfig

/-! ## Building -/

/-- `Route::from_config` -/
def Route.fromConfig (cfg : RouteConfig) : Except String (Route X) := do
  cfg.validate X
  let program ← compileAs X "matcher CEL" cfg.matcher.rule
  let middlewares ← cfg.middlewares.mapM (buildMiddleware X)
  let pool ← BuiltPool.fromConfig K.upstream cfg.upstreams cfg.loadBalancer
  return {
    id := cfg.id
    priority := cfg.effectivePriority
    matcher := .fromCel program
    content := {
      middlewares
      upstreamPool := K.pool pool
      hashKeyProgram := pool.hashKeyProgram.map K.program } }

/-- `build_route` of the server. -/
def buildRoute (route : RouteOptions) : Except String (Route X) := do
  let cfg ← RouteConfig.tryFrom K route
  Route.fromConfig K cfg

/-! ## What is accepted -/

theorem validate_of_build {cfg : MiddlewareConfig} {m : Middleware X}
    (h : buildMiddleware X cfg = .ok m) : cfg.validate X = .ok () := by
  cases cfg with
  | healthCheck cfg =>
    simp only [buildMiddleware, map_eq_pure_bind] at h
    obtain ⟨_, hbuilt, -⟩ := bind_eq_ok_iff.1 h
    unfold Upstream.HealthCheckMiddleware.fromConfig at hbuilt
    split at hbuilt
    · cases hbuilt
    · next hvalid => exact hvalid
  | _ =>
    -- the others start with the check
    simp only [buildMiddleware, map_eq_pure_bind] at h
    obtain ⟨_, hbuilt, -⟩ := bind_eq_ok_iff.1 h
    obtain ⟨_, hvalid, -⟩ := bind_eq_ok_iff.1 hbuilt
    exact hvalid

/-- The route is the one that the configuration describes: part by part, each of which is accepted on its
own. -/
structure Describes (route : RouteOptions) (r : Route X) : Prop where
  named : isBlank route.id.toList = false
  ruled : isBlank route.matcher.rule = false
  id : r.id = route.id
  priority : r.priority = route.matcher.priority.getD (ruleLength route.matcher.rule)
  matcher : ∃ program, compileAs X "matcher CEL" route.matcher.rule = .ok program ∧
    r.matcher = .fromCel program
  middlewares : route.middlewares.mapM (fun value => MiddlewareConfig.tryFrom K value >>= buildMiddleware X) =
    .ok r.content.middlewares
  upstreams : ∃ pool, Upstream.acceptUpstreams K.upstream route.upstreams route.loadBalancer = .ok pool ∧
    r.content.upstreamPool = K.pool pool ∧
    r.content.hashKeyProgram = pool.hashKeyProgram.map K.program

variable {K} {route : RouteOptions} {r : Route X}

theorem RouteConfig.validate_eq_ok_iff {cfg : RouteConfig} :
    cfg.validate X = .ok () ↔ isBlank cfg.id.toList = false ∧ isBlank cfg.matcher.rule = false ∧
      cfg.upstreams.isEmpty = false ∧ (∀ m ∈ cfg.middlewares, m.validate X = .ok ()) ∧
      cfg.upstreams.forM (fun upstream => upstream.validate) = .ok () := by
  unfold RouteConfig.validate
  cases isBlank cfg.id.toList with
  | true => exact ⟨fun h => (nomatch h), fun h => (nomatch h.1)⟩
  | false =>
    cases isBlank cfg.matcher.rule with
    | true => exact ⟨fun h => (nomatch h), fun h => (nomatch h.2.1)⟩
    | false =>
      cases cfg.upstreams.isEmpty with
      | true => exact ⟨fun h => (nomatch h), fun h => (nomatch h.2.2.1)⟩
      | false =>
        simp only [Bool.false_eq_true, if_false, true_and]
        rw [bind_eq_ok_iff, ← forM_eq_ok_iff]
        exact ⟨fun ⟨_, h, h'⟩ => ⟨h, h'⟩, fun ⟨h, h'⟩ => ⟨(), h, h'⟩⟩

theorem describes_of_build (h : buildRoute K route = .ok r) : Describes K route r := by
  unfold buildRoute RouteConfig.tryFrom Route.fromConfig at h
  obtain ⟨cfg, hcfg, h⟩ := bind_eq_ok_iff.1 h
  obtain ⟨middlewares, hmiddlewares, hcfg⟩ := bind_eq_ok_iff.1 hcfg
  obtain ⟨upstreams, hupstreams, hcfg⟩ := bind_eq_ok_iff.1 hcfg
  obtain ⟨loadBalancer, hlb, hcfg⟩ := bind_eq_ok_iff.1 hcfg
  cases hcfg
  obtain ⟨_, hvalid, h⟩ := bind_eq_ok_iff.1 h
  obtain ⟨program, hprogram, h⟩ := bind_eq_ok_iff.1 h
  obtain ⟨ms, hms, h⟩ := bind_eq_ok_iff.1 h
  obtain ⟨pool, hpool, h⟩ := bind_eq_ok_iff.1 h
  cases h
  obtain ⟨hnamed, hruled, hsome, -, hups⟩ := RouteConfig.validate_eq_ok_iff.1 hvalid
  refine ⟨hnamed, hruled, rfl, rfl, ⟨program, hprogram, rfl⟩, ?_, pool, ?_, rfl, rfl⟩
  · exact mapM_bind_eq_ok_iff.2 ⟨middlewares, hmiddlewares, hms⟩
  · unfold Upstream.acceptUpstreams
    have hne : ¬ upstreams.isEmpty = true := Bool.eq_false_iff.1 hsome
    rw [hupstreams, hlb]
    show (if upstreams.isEmpty then _ else _) = _
    rw [if_neg hne]
    exact bind_eq_ok_iff.2 ⟨(), hups, hpool⟩

/-- A route is built exactly when its parts are. -/
theorem buildRoute_eq_ok_iff : buildRoute K route = .ok r ↔ Describes K route r := by
  refine ⟨describes_of_build, fun h => ?_⟩
  obtain ⟨program, hprogram, hmatcher⟩ := h.matcher
  obtain ⟨middlewares, hmiddlewares, hms⟩ := mapM_bind_eq_ok_iff.1 h.middlewares
  obtain ⟨pool, haccept, hpool, hkey⟩ := h.upstreams
  unfold Upstream.acceptUpstreams at haccept
  obtain ⟨upstreams, hupstreams, haccept⟩ := bind_eq_ok_iff.1 haccept
  obtain ⟨loadBalancer, hlb, haccept⟩ := bind_eq_ok_iff.1 haccept
  split at haccept
  · cases haccept
  next hsome =>
  obtain ⟨_, hups, hbuilt⟩ := bind_eq_ok_iff.1 haccept
  let cfg : RouteConfig :=
    { id := route.id, matcher := route.matcher, middlewares, upstreams, loadBalancer }
  have hcfg : RouteConfig.tryFrom K route = .ok cfg := by
    refine bind_eq_ok_iff.2 ⟨middlewares, hmiddlewares, ?_⟩
    refine bind_eq_ok_iff.2 ⟨upstreams, hupstreams, bind_eq_ok_iff.2 ⟨loadBalancer, hlb, rfl⟩⟩
  have hvalid : cfg.validate X = .ok () := by
    refine RouteConfig.validate_eq_ok_iff.2 ⟨h.named, h.ruled, Bool.eq_false_iff.2 hsome, ?_, hups⟩
    intro m hm
    obtain ⟨_, -, hbuilds⟩ := forall₂_mem_left (mapM_eq_ok_iff.1 hms) hm
    exact validate_of_build hbuilds
  refine bind_eq_ok_iff.2 ⟨cfg, hcfg, bind_eq_ok_iff.2 ⟨(), hvalid, ?_⟩⟩
  refine bind_eq_ok_iff.2 ⟨program, hprogram, bind_eq_ok_iff.2 ⟨r.content.middlewares, hms, ?_⟩⟩
  refine bind_eq_ok_iff.2 ⟨pool, hbuilt, ?_⟩
  obtain ⟨id, priority, matcher, ⟨ms, upstreamPool, hashKeyProgram⟩⟩ := r
  obtain ⟨rfl, rfl, rfl⟩ := (⟨hmatcher, hpool, hkey⟩ : _ ∧ _ ∧ _)
  obtain ⟨rfl, rfl⟩ := (⟨h.id, h.priority⟩ : _ ∧ _)
  rfl

end Lonesome
