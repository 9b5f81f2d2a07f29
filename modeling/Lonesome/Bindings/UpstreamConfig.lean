import Lonesome.Upstream.Coverage
import Lonesome.Upstream.Peer

/-!
# Upstreams and load balancers as they are configured

`src/bindings/upstream_config.rs`: the upstreams and the load balancer of a route as they come from
JavaScript, and what they are turned into. A route is accepted when the conversions succeed, every
upstream passes `validate`, and the pool can be built (`acceptUpstreams`). None of the three looks at
the number of iterations: an accepted pool has the configured number, and `32` without one
(`maxIterations_eq_zero_iff`).
-/

namespace Lonesome.Upstream

open Lonesome.Lib

/-- `LoadBalancerConfig` of the bindings. -/
structure LoadBalancerOptions where
  algorithm : Option String
  maxIterations : Option UInt32
  hashKeyRule : Option Str

/-- `UpstreamConfig` of the bindings. -/
structure UpstreamOptions where
  kind : Option String
  address : Str
  tls : Option Bool
  h2c : Option Bool
  sni : Option Str
  weight : Option UInt32
  connectTimeoutMs : Option UInt32
  readTimeoutMs : Option UInt32
  writeTimeoutMs : Option UInt32
  idleTimeoutMs : Option UInt32
  verifyCert : Option Bool
  clientCertPem : Option Str
  clientKeyPem : Option Str
  caCertPem : Option Str

def LoadBalancerAlgorithm.ofName (name : String) : Except String LoadBalancerAlgorithm :=
  if name = "round_robin" ∨ name = "rr" then .ok .roundRobin
  else if name = "consistent_hash" ∨ name = "consistent" ∨ name = "ch" then .ok .consistentHash
  else .error s!"unsupported lb.algorithm '{name}'"

def LoadBalancerConfig.tryFrom (value : LoadBalancerOptions) : Except String LoadBalancerConfig := do
  let algorithm ← LoadBalancerAlgorithm.ofName (value.algorithm.getD "round_robin")
  return {
    algorithm
    maxIterations := (value.maxIterations.getD 32).toNat
    hashKeyRule := value.hashKeyRule.filter fun s => !(Str.trim s).isEmpty }

def UpstreamAddressConfig.ofKind (kind : String) (address : Str) : Except String UpstreamAddressConfig :=
  if kind = "tcp" then .ok (.tcp address)
  else if kind = "unix" then .ok (.unix address)
  else if kind = "virtual_js" then .ok (.virtualJs address)
  else .error s!"unsupported upstream kind '{kind}'"

def UpstreamConfig.tryFrom (value : UpstreamOptions) : Except String UpstreamConfig := do
  let address ← UpstreamAddressConfig.ofKind (value.kind.getD "tcp") value.address
  return {
    address
    tls := value.tls.getD false
    h2c := value.h2c
    sni := value.sni
    weight := (value.weight.getD 1).toNat
    connectTimeoutMs := value.connectTimeoutMs.map (·.toNat)
    readTimeoutMs := value.readTimeoutMs.map (·.toNat)
    writeTimeoutMs := value.writeTimeoutMs.map (·.toNat)
    idleTimeoutMs := value.idleTimeoutMs.map (·.toNat)
    verifyCert := value.verifyCert
    clientCertPem := value.clientCertPem
    clientKeyPem := value.clientKeyPem
    caCertPem := value.caCertPem }

/-- `map(TryInto::try_into).transpose()` -/
def loadBalancerFrom : Option LoadBalancerOptions → Except String (Option LoadBalancerConfig)
  | none => .ok none
  | some value => some <$> LoadBalancerConfig.tryFrom value

variable (C : Crates)

/-- What becomes of the upstreams of a route: the conversions, `RouteConfig::validate` and
`UpstreamPool::from_config`. -/
def acceptUpstreams (upstreams : List UpstreamOptions) (lb : Option LoadBalancerOptions) :
    Except String (BuiltPool C) := do
  let cfgs ← upstreams.mapM UpstreamConfig.tryFrom
  let lbCfg ← loadBalancerFrom lb
  if cfgs.isEmpty then throw "route.upstreams cannot be empty"
  else
    cfgs.forM fun cfg => cfg.validate
    BuiltPool.fromConfig C cfgs lbCfg

section Accepted

variable {C} {upstreams : List UpstreamOptions} {lb : Option LoadBalancerOptions} {pool : BuiltPool C}

theorem exists_accepted (h : acceptUpstreams C upstreams lb = .ok pool) :
    ∃ cfgs lbCfg set, List.Forall₂ (fun value cfg => UpstreamConfig.tryFrom value = .ok cfg) upstreams cfgs ∧
      loadBalancerFrom lb = .ok lbCfg ∧ BuiltFrom cfgs lbCfg pool set := by
  unfold acceptUpstreams at h
  obtain ⟨cfgs, hcfgs, h⟩ := bind_eq_ok_iff.1 h
  obtain ⟨lbCfg, hlb, h⟩ := bind_eq_ok_iff.1 h
  split at h
  · cases h
  · obtain ⟨-, -, h⟩ := bind_eq_ok_iff.1 h
    obtain ⟨set, hbuilt⟩ := exists_builtFrom h
    exact ⟨cfgs, lbCfg, set, mapM_eq_ok_iff.1 hcfgs, hlb, hbuilt⟩

theorem toNat_eq_zero_iff {n : UInt32} : n.toNat = 0 ↔ n = 0 := by
  constructor
  · intro h
    exact UInt32.toNat_inj.1 h
  · rintro rfl
    rfl

/-- The iterations of an accepted pool. -/
theorem maxIterations_eq_zero_iff (h : acceptUpstreams C upstreams lb = .ok pool) :
    pool.lbCfg.maxIterations = 0 ↔ lb.bind (·.maxIterations) = some 0 := by
  obtain ⟨cfgs, lbCfg, set, -, hlb, hbuilt⟩ := exists_accepted h
  rw [hbuilt.lbCfg]
  cases lb with
  | none =>
    cases hlb
    have hdefault : (defaultLbCfg pool.endpoints).maxIterations = 32 := by
      unfold defaultLbCfg
      split <;> rfl
    simp [hdefault]
  | some value =>
    cases hvalue : LoadBalancerConfig.tryFrom value with
    | error e =>
      rw [loadBalancerFrom, hvalue] at hlb
      cases hlb
    | ok cfg =>
      rw [loadBalancerFrom, hvalue] at hlb
      cases hlb
      obtain ⟨algorithm, -, hcfg⟩ := bind_eq_ok_iff.1 hvalue
      cases hcfg
      show (value.maxIterations.getD 32).toNat = 0 ↔ value.maxIterations = some 0
      rw [toNat_eq_zero_iff]
      cases value.maxIterations <;> simp

/-- The endpoints of upstreams that are no virtual listeners are none. -/
theorem address_of_accepted (h : acceptUpstreams C upstreams lb = .ok pool)
    (hkinds : ∀ value ∈ upstreams, value.kind ≠ some "virtual_js") {u : UpstreamEndpoint C}
    (hu : u ∈ pool.endpoints) (key : Str) : u.address ≠ .virtualJs key := by
  obtain ⟨cfgs, lbCfg, set, hcfgs, -, hbuilt⟩ := exists_accepted h
  obtain ⟨cfg, hcfg, hendpoint⟩ := forall₂_mem_right hbuilt.endpoints hu
  obtain ⟨value, hvalue, hfrom⟩ := forall₂_mem_right hcfgs hcfg
  obtain ⟨address, haddress, hfrom⟩ := bind_eq_ok_iff.1 hfrom
  cases hfrom
  rw [(tunablesOf_endpoint hendpoint).2.1]
  rintro rfl
  have hkind := hkinds value hvalue
  unfold UpstreamAddressConfig.ofKind at haddress
  split at haddress
  · cases haddress
  split at haddress
  · cases haddress
  split at haddress
  · next hname =>
    cases hk : value.kind with
    | none =>
      rw [hk] at hname
      exact absurd hname (by decide)
    | some kind =>
      rw [hk] at hname hkind
      exact hkind (congrArg some hname)
  · cases haddress

end Accepted

end Lonesome.Upstream
