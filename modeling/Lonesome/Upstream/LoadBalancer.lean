import Lonesome.Lib.Effects
import Lonesome.Lib.KeyedSet
import Lonesome.Upstream.Health
import Mathlib.Data.List.Permutation
import Mathlib.Data.Prod.Lex
import Mathlib.Order.Nat

/-!
# Building a pool of upstreams

`build_load_balancer` and `synthetic_backend_addr` of `src/upstream/lb.rs`, and `UpstreamPool::from_config`
of `src/upstream/upstream.rs`. The backends of a pool form a set ordered by address and weight; each
carries the index of its endpoint in an extension that the order and the selection of `pingora` do not
look at. A Unix socket or a virtual listener has an address made from a digest of its configuration.

So the same endpoints in another order make a set with the same addresses and weights, in which each
index points to the same endpoint as before: `reordered_pool_selects_same`.
-/

namespace Lonesome.Upstream

open Lonesome.Lib

/-! ## Configuration -/

inductive LoadBalancerAlgorithm where
  | roundRobin
  | consistentHash
  deriving DecidableEq, Repr

structure LoadBalancerConfig where
  algorithm : LoadBalancerAlgorithm
  maxIterations : Nat
  hashKeyRule : Option Str

def LoadBalancerConfig.default : LoadBalancerConfig := ⟨.roundRobin, 32, none⟩

inductive UpstreamAddressConfig where
  | tcp (address : Str)
  | unix (path : Str)
  | virtualJs (key : Str)
  deriving DecidableEq

structure UpstreamConfig where
  address : UpstreamAddressConfig
  tls : Bool
  h2c : Option Bool
  sni : Option Str
  weight : Nat
  connectTimeoutMs : Option Nat
  readTimeoutMs : Option Nat
  writeTimeoutMs : Option Nat
  idleTimeoutMs : Option Nat
  verifyCert : Option Bool
  clientCertPem : Option Str
  clientKeyPem : Option Str
  caCertPem : Option Str

/-- What is not part of the program: the addresses of `pingora` with their order, the hasher of the
process, the selection of `pingora`, and the parsers of certificates and expressions. The selection is
a function of the addresses and weights of the set, of the selector's own state and of the key; it
gives the backends in the order in which they are examined, with the balancer's view of their
health. -/
structure Crates where
  Addr : Type
  [order : LinearOrder Addr]
  /-- `SocketAddr::from_str` -/
  fromStr : Str → Except String Addr
  /-- `SocketAddrV6::new(Ipv6Addr::from(octets), port, 0, 0)` -/
  inetV6 : List UInt8 → Nat → Addr
  addrText : Addr → Str
  /-- `finish` of the hasher after the given writes. -/
  digest : List (List UInt8) → UInt64
  Selector : Type
  candidates : LoadBalancerAlgorithm → List (Addr × Nat) → Selector → List UInt8 →
    List ((Addr × Nat) × Bool)
  /-- The error of `LoadBalancer::update`. -/
  updateError : LoadBalancerAlgorithm → Option String
  Cert : Type
  PrivateKey : Type
  stackFromPem : Str → Except String (List Cert)
  privateKeyFromPem : Str → Except String PrivateKey
  Program : Type
  compile : Str → Except String Program

attribute [instance] Crates.order

variable (C : Crates)

/-! ## Endpoints -/

structure PeerTunables where
  connectTimeoutMs : Option Nat
  readTimeoutMs : Option Nat
  writeTimeoutMs : Option Nat
  idleTimeoutMs : Option Nat
  verifyCert : Bool
  clientCertKey : Option (List C.Cert × C.PrivateKey)
  ca : Option (List C.Cert)

variable {C} in
/-- `result.map_err(|e| format!("{message}: {e}"))` -/
def orMessage {α : Type} (message : String) (result : Except String α) : Except String α :=
  result.mapError fun e => s!"{message}: {e}"

def PeerTunables.fromConfig (cfg : UpstreamConfig) : Except String (PeerTunables C) := do
  let clientCertKey ← match cfg.clientCertPem, cfg.clientKeyPem with
    | some cert, some key => do
      let certs ← orMessage "invalid upstream client_cert_pem" (C.stackFromPem cert)
      let key ← orMessage "invalid upstream client_key_pem" (C.privateKeyFromPem key)
      pure (some (certs, key))
    | none, none => pure none
    | _, _ => throw "upstream client_cert_pem and client_key_pem must be provided together"
  let ca ← match cfg.caCertPem with
    | some pem => some <$> orMessage "invalid upstream ca_cert_pem" (C.stackFromPem pem)
    | none => pure none
  return {
    connectTimeoutMs := cfg.connectTimeoutMs
    readTimeoutMs := cfg.readTimeoutMs
    writeTimeoutMs := cfg.writeTimeoutMs
    idleTimeoutMs := cfg.idleTimeoutMs
    verifyCert := cfg.verifyCert.getD true
    clientCertKey, ca }

/-- The three kinds of endpoint have the same fields beside the address. -/
structure UpstreamEndpoint where
  address : UpstreamAddressConfig
  tls : Bool
  h2c : Bool
  sni : Str
  weight : Nat
  tunables : PeerTunables C

def UpstreamEndpoint.fromConfig (cfg : UpstreamConfig) : Except String (UpstreamEndpoint C) := do
  let tunables ← PeerTunables.fromConfig C cfg
  return {
    address := cfg.address
    tls := cfg.tls
    h2c := cfg.h2c.getD false
    sni := cfg.sni.getD []
    weight := cfg.weight
    tunables }

/-! ## Backends -/

/-- `u64::to_be_bytes` -/
def toBeBytes (n : UInt64) : List UInt8 :=
  (List.range 8).map fun i => UInt8.ofNat (n.toNat / 256 ^ (7 - i))

/-- The octets of an address under `2001:db8::/32`. -/
def syntheticOctets (digest : UInt64) : List UInt8 :=
  [0x20, 0x01, 0x0d, 0xb8, 0, 0, 0, 0] ++ toBeBytes digest

variable {C} in
def syntheticBackendAddr (endpoint : UpstreamEndpoint C) : Except String C.Addr :=
  let addr (kind : String) (name : Str) : C.Addr :=
    C.inetV6 (syntheticOctets (C.digest
      [HeaderValue.utf8Bytes kind.toList, HeaderValue.utf8Bytes name])) 1
  match endpoint.address with
  | .unix path => .ok (addr "unix\x00" path)
  | .virtualJs key => .ok (addr "virtual_js\x00" key)
  | .tcp address => .error
    s!"cannot generate a synthetic backend address for tcp upstream '{String.ofList address}'"

/-- A backend of `pingora` with the extension `EndpointIndex`. -/
structure IndexedBackend where
  addr : C.Addr
  weight : Nat
  endpointIndex : Nat

variable {C}

/-- What backends are compared by. -/
def IndexedBackend.identity (b : IndexedBackend C) : C.Addr ×ₗ Nat := toLex (b.addr, b.weight)

/-- The backend as the proxy sees it; its passive health state is its own. -/
def IndexedBackend.toBackend (b : IndexedBackend C) : Backend :=
  .ofEndpoint (C.addrText b.addr) b.endpointIndex

def backendAddr (upstream : UpstreamEndpoint C) : Except String C.Addr :=
  match upstream.address with
  | .tcp address =>
    orMessage s!"invalid tcp upstream address '{String.ofList address}'" (C.fromStr address)
  | .unix _ | .virtualJs _ => syntheticBackendAddr upstream

/-- The backend of the endpoint at an index. -/
def backendFor (upstream : UpstreamEndpoint C) (idx : Nat) : Except String (IndexedBackend C) := do
  let addr ← backendAddr upstream
  return ⟨addr, upstream.weight, idx⟩

/-- The loop of `build_load_balancer`. -/
def backendsSet (upstreams : List (UpstreamEndpoint C)) : Except String (List (IndexedBackend C)) :=
  upstreams.zipIdx.foldlM (fun set u => do
    let backend ← backendFor u.1 u.2
    return insertBy IndexedBackend.identity backend set) []

/-- The load balancer of a set, for each state of its selector. -/
def loadBalancerOf (algorithm : LoadBalancerAlgorithm) (set : List (IndexedBackend C))
    (selector : C.Selector) : LoadBalancer where
  candidates key :=
    (C.candidates algorithm (set.map fun b => (b.addr, b.weight)) selector key).filterMap fun c =>
      (set.find? (·.identity = toLex c.1)).map fun b => (b.toBackend, c.2)

def LoadBalancerAlgorithm.name : LoadBalancerAlgorithm → String
  | .roundRobin => "round_robin"
  | .consistentHash => "consistent_hash"

def buildLoadBalancer (upstreams : List (UpstreamEndpoint C)) (cfg : LoadBalancerConfig) :
    Except String (Option (C.Selector → LoadBalancer)) := do
  let set ← backendsSet upstreams
  if set.isEmpty then return none
  else
    match C.updateError cfg.algorithm with
    | some e => throw s!"failed to update {cfg.algorithm.name} lb: {e}"
    | none => return some (loadBalancerOf cfg.algorithm set)

/-! ## Pools -/

variable (C) in
/-- `UpstreamPool`, before the state of the selector is known. -/
structure BuiltPool where
  endpoints : List (UpstreamEndpoint C)
  lb : Option (C.Selector → LoadBalancer)
  lbCfg : LoadBalancerConfig
  hashKeyProgram : Option C.Program

/-- The pool at the time of a selection. -/
def BuiltPool.at (pool : BuiltPool C) (selector : C.Selector) : UpstreamPool (UpstreamEndpoint C) where
  endpoints := pool.endpoints
  lb := pool.lb.map (· selector)
  maxIterations := pool.lbCfg.maxIterations

/-- The load balancer that is used when none is configured. -/
def defaultLbCfg (endpoints : List (UpstreamEndpoint C)) : LoadBalancerConfig :=
  if endpoints.length > 1 then ⟨.consistentHash, 32, none⟩ else .default

def compileHashKey (rule : Option Str) : Except String (Option C.Program) :=
  match rule with
  | some expr =>
    some <$> orMessage s!"invalid lb.hash_key_rule '{String.ofList expr}'" (C.compile expr)
  | none => pure none

/-- `UpstreamPool::from_config` with the endpoints and the settings of the load balancer. -/
def BuiltPool.fromEndpoints (endpoints : List (UpstreamEndpoint C)) (lbCfg : LoadBalancerConfig) :
    Except String (BuiltPool C) := do
  let lb ← buildLoadBalancer endpoints lbCfg
  let hashKeyProgram ← compileHashKey lbCfg.hashKeyRule
  return { endpoints, lb, lbCfg, hashKeyProgram }

variable (C) in
def BuiltPool.fromConfig (upstreams : List UpstreamConfig) (lbCfg : Option LoadBalancerConfig) :
    Except String (BuiltPool C) := do
  if upstreams.isEmpty then throw "route.upstreams cannot be empty"
  else
    let endpoints ← upstreams.mapM (UpstreamEndpoint.fromConfig C)
    fromEndpoints endpoints (lbCfg.getD (defaultLbCfg endpoints))

/-! ## What a set holds -/

/-- The address and weight of the backend of an endpoint. -/
def identityOf (upstream : UpstreamEndpoint C) : Except String (C.Addr ×ₗ Nat) := do
  let addr ← backendAddr upstream
  return toLex (addr, upstream.weight)

/-- The backends of endpoints with their indices, in the order of the endpoints. -/
abbrev BackendsOf (us : List (UpstreamEndpoint C × Nat)) (bs : List (IndexedBackend C)) : Prop :=
  List.Forall₂ (fun u b => backendFor u.1 u.2 = .ok b) us bs

variable {us us' : List (UpstreamEndpoint C)} {set set' : List (IndexedBackend C)}

theorem backendFor_eq_ok_iff {u : UpstreamEndpoint C} {idx : Nat} {b : IndexedBackend C} :
    backendFor u idx = .ok b ↔ identityOf u = .ok b.identity ∧ b.endpointIndex = idx := by
  obtain ⟨addr, weight, i⟩ := b
  unfold backendFor identityOf
  cases backendAddr u with
  | error e =>
    constructor
    · intro h
      cases h
    · rintro ⟨h, -⟩
      cases h
  | ok a =>
    constructor
    · intro h
      cases h
      exact ⟨rfl, rfl⟩
    · rintro ⟨h, rfl⟩
      cases h
      rfl

theorem foldlM_eq_ok_iff (us : List (UpstreamEndpoint C × Nat)) (start : List (IndexedBackend C)) :
    us.foldlM (fun set u => do
        let backend ← backendFor u.1 u.2
        return insertBy IndexedBackend.identity backend set) start = .ok set ↔
      ∃ bs, BackendsOf us bs ∧
        set = bs.foldl (fun set b => insertBy IndexedBackend.identity b set) start := by
  induction us generalizing start with
  | nil =>
    constructor
    · intro h
      cases h
      exact ⟨[], .nil, rfl⟩
    · rintro ⟨bs, hbs, rfl⟩
      cases hbs
      rfl
  | cons u us ih =>
    rw [List.foldlM_cons]
    cases hu : backendFor u.1 u.2 with
    | error e =>
      constructor
      · intro h
        cases h
      · rintro ⟨bs, hbs, -⟩
        cases hbs with
        | cons hb _ =>
          rw [hu] at hb
          cases hb
    | ok b =>
      refine (ih (insertBy IndexedBackend.identity b start)).trans ?_
      constructor
      · rintro ⟨bs, hbs, rfl⟩
        exact ⟨b :: bs, .cons hu hbs, rfl⟩
      · rintro ⟨bs, hbs, rfl⟩
        cases hbs with
        | cons hb hrest =>
          rw [hu] at hb
          cases hb
          exact ⟨_, hrest, rfl⟩

/-- The set collects the backends of the endpoints. -/
theorem backendsSet_eq_ok_iff :
    backendsSet us = .ok set ↔
      ∃ bs, BackendsOf us.zipIdx bs ∧ set = collectBy IndexedBackend.identity bs :=
  foldlM_eq_ok_iff us.zipIdx []

/-- The index of a backend of the set is that of an endpoint with its address and weight. -/
theorem endpoint_of_mem (h : backendsSet us = .ok set) {b : IndexedBackend C} (hb : b ∈ set) :
    ∃ u, us[b.endpointIndex]? = some u ∧ identityOf u = .ok b.identity := by
  obtain ⟨bs, hbs, rfl⟩ := backendsSet_eq_ok_iff.1 h
  obtain ⟨⟨u, idx⟩, hu, hub⟩ := forall₂_mem_right hbs (mem_of_mem_collectBy hb)
  obtain ⟨hid, hidx⟩ := backendFor_eq_ok_iff.1 hub
  refine ⟨u, ?_, hid⟩
  rw [hidx]
  exact List.mem_zipIdx_iff_getElem?.1 hu

theorem mem_identities_iff (h : backendsSet us = .ok set) (k : C.Addr ×ₗ Nat) :
    k ∈ set.map IndexedBackend.identity ↔ ∃ u ∈ us, identityOf u = .ok k := by
  obtain ⟨bs, hbs, rfl⟩ := backendsSet_eq_ok_iff.1 h
  rw [mem_keys_collectBy]
  have hgen : ∀ (us : List (UpstreamEndpoint C × Nat)) (bs : List (IndexedBackend C)),
      BackendsOf us bs →
        (k ∈ bs.map IndexedBackend.identity ↔ ∃ u ∈ us.map (·.1), identityOf u = .ok k) := by
    intro us bs h
    induction h with
    | nil => simp
    | @cons u b us bs hu _ ih =>
      have hid := (backendFor_eq_ok_iff.1 hu).1
      rw [List.map_cons, List.mem_cons, ih, List.map_cons]
      simp only [List.mem_cons, exists_eq_or_imp, hid, Except.ok.injEq, eq_comm]
  rw [hgen us.zipIdx bs hbs, List.zipIdx_map_fst]

/-- A set can be built when every endpoint has an address. -/
theorem exists_backendsSet (h : ∀ u ∈ us, ∃ k, identityOf u = .ok k) :
    ∃ set, backendsSet us = .ok set := by
  have hgen : ∀ us : List (UpstreamEndpoint C × Nat),
      (∀ u ∈ us, ∃ k, identityOf u.1 = .ok k) → ∃ bs, BackendsOf us bs := by
    intro us h
    induction us with
    | nil => exact ⟨[], .nil⟩
    | cons u us ih =>
      obtain ⟨bs, hbs⟩ := ih fun v hv => h v (List.mem_cons_of_mem u hv)
      obtain ⟨k, hk⟩ := h u List.mem_cons_self
      refine ⟨⟨(ofLex k).1, (ofLex k).2, u.2⟩ :: bs, .cons ?_ hbs⟩
      exact backendFor_eq_ok_iff.2 ⟨hk, rfl⟩
  obtain ⟨bs, hbs⟩ := hgen us.zipIdx fun u hu => h u.1 (List.fst_mem_of_mem_zipIdx hu)
  exact ⟨_, backendsSet_eq_ok_iff.2 ⟨bs, hbs, rfl⟩⟩

/-! ## Two pools -/

/-- The backends point to the same endpoint, each in its own pool. -/
def Corresponds (us us' : List (UpstreamEndpoint C)) (b b' : Backend) : Prop :=
  ∃ addr addr' i j u, b = .ofEndpoint addr i ∧ b' = .ofEndpoint addr' j ∧
    us[i]? = some u ∧ us'[j]? = some u

/-- The passive health states of an endpoint are the same in both pools. -/
def SameHealth (us us' : List (UpstreamEndpoint C)) (health health' : HealthTable) : Prop :=
  ∀ i j u, us[i]? = some u → us'[j]? = some u → health i = health' j

theorem Corresponds.isBackendHealthy_eq {b b' : Backend} (h : Corresponds us us' b b')
    {health health' : HealthTable} (hsame : SameHealth us us' health health') (now : Int) :
    isBackendHealthy health b now = isBackendHealthy health' b' now := by
  obtain ⟨_, _, i, j, u, rfl, rfl, hi, hj⟩ := h
  show (health i).isHealthy now = (health' j).isHealthy now
  rw [hsame i j u hi hj]

theorem Corresponds.peerFromBackend_eq {pool pool' : UpstreamPool (UpstreamEndpoint C)}
    {b b' : Backend} (h : Corresponds pool.endpoints pool'.endpoints b b') :
    pool.peerFromBackend b = pool'.peerFromBackend b' := by
  obtain ⟨_, _, i, j, u, rfl, rfl, hi, hj⟩ := h
  simp only [UpstreamPool.peerFromBackend, Backend.ofEndpoint, hi, hj]

/-- Endpoints that are told apart by address and weight are found again by them. -/
theorem corresponds_of_identity (hperm : us.Perm us') (hdistinct : (us.map identityOf).Nodup)
    (hset : backendsSet us = .ok set) (hset' : backendsSet us' = .ok set')
    {b b' : IndexedBackend C} (hb : b ∈ set) (hb' : b' ∈ set') (hid : b.identity = b'.identity) :
    Corresponds us us' b.toBackend b'.toBackend := by
  obtain ⟨u, hu, huid⟩ := endpoint_of_mem hset hb
  obtain ⟨u', hu', huid'⟩ := endpoint_of_mem hset' hb'
  have hmem : u ∈ us := List.mem_of_getElem? hu
  have hmem' : u' ∈ us := hperm.mem_iff.2 (List.mem_of_getElem? hu')
  have heq : u = u' := by
    refine List.inj_on_of_nodup_map hdistinct hmem hmem' ?_
    rw [huid, huid', hid]
  exact ⟨_, _, _, _, u, rfl, rfl, hu, heq ▸ hu'⟩

theorem identities_eq (hperm : us.Perm us') (hset : backendsSet us = .ok set)
    (hset' : backendsSet us' = .ok set') :
    set.map IndexedBackend.identity = set'.map IndexedBackend.identity := by
  have hmem (k : C.Addr ×ₗ Nat) :
      k ∈ set.map IndexedBackend.identity ↔ k ∈ set'.map IndexedBackend.identity := by
    rw [mem_identities_iff hset, mem_identities_iff hset']
    simp only [hperm.mem_iff]
  obtain ⟨bs, -, rfl⟩ := backendsSet_eq_ok_iff.1 hset
  obtain ⟨bs', -, rfl⟩ := backendsSet_eq_ok_iff.1 hset'
  exact keys_collect_eq_of_mem_iff fun k => by
    rw [← mem_keys_collectBy, hmem, mem_keys_collectBy]

/-- The candidates for a key point to the same endpoints, one after the other. -/
theorem candidates_correspond (hperm : us.Perm us') (hdistinct : (us.map identityOf).Nodup)
    (hset : backendsSet us = .ok set) (hset' : backendsSet us' = .ok set')
    (algorithm : LoadBalancerAlgorithm) (selector : C.Selector) (key : List UInt8) :
    List.Forall₂ (fun c c' => Corresponds us us' c.1 c'.1 ∧ c.2 = c'.2)
      ((loadBalancerOf algorithm set selector).candidates key)
      ((loadBalancerOf algorithm set' selector).candidates key) := by
  have hids := identities_eq hperm hset hset'
  have hpairs : set.map (fun b => (b.addr, b.weight)) = set'.map fun b => (b.addr, b.weight) := by
    have h := congrArg (List.map ofLex) hids
    rw [List.map_map, List.map_map] at h
    exact h
  show List.Forall₂ _ (List.filterMap _ (C.candidates algorithm _ selector key))
    (List.filterMap _ (C.candidates algorithm _ selector key))
  rw [hpairs]
  refine List.rel_filterMap ?_ (List.forall₂_eq_eq_eq ▸ rfl)
  rintro c _ rfl
  refine rel_map (find_key_rel hids (toLex c.1)) ?_
  rintro b b' ⟨hb, hb', hid, hid'⟩
  exact ⟨corresponds_of_identity hperm hdistinct hset hset' hb hb' (hid.trans hid'.symm), rfl⟩

/-- Selections that accept corresponding backends alike end with corresponding backends. -/
theorem selectBackendWith_rel {lb lb' : LoadBalancer} {key : List UInt8}
    (h : List.Forall₂ (fun c c' => Corresponds us us' c.1 c'.1 ∧ c.2 = c'.2)
      (lb.candidates key) (lb'.candidates key))
    {accept accept' : Backend → Bool → Bool}
    (haccept : ∀ b b' healthy, Corresponds us us' b b' → accept b healthy = accept' b' healthy)
    (n : Nat) :
    Option.Rel (Corresponds us us') (lb.selectBackendWith key n accept)
      (lb'.selectBackendWith key n accept') := by
  unfold LoadBalancer.selectBackendWith
  refine rel_map (find_rel (List.forall₂_take n h) fun c c' hc => ?_) fun c c' hc => hc.1
  rw [hc.2]
  exact haccept c.1 c'.1 c'.2 hc.1

/-- Two pools with the same settings and corresponding candidates give the same endpoint, or the same
error. A request with a `health_check` looks at the passive health of its candidates. -/
theorem selectPeer_eq {pool pool' : UpstreamPool (UpstreamEndpoint C)}
    (hlength : pool.endpoints.length = pool'.endpoints.length)
    (hmax : pool.maxIterations = pool'.maxIterations) {key : List UInt8}
    (hlb : Option.Rel (fun lb lb' : LoadBalancer =>
      List.Forall₂ (fun c c' => Corresponds pool.endpoints pool'.endpoints c.1 c'.1 ∧ c.2 = c'.2)
        (lb.candidates key) (lb'.candidates key)) pool.lb pool'.lb)
    {health health' : HealthTable} (now : Int) {state state' : Option UpstreamState}
    (hstate : state.isSome = state'.isSome)
    (hhealth : state.isSome = true → SameHealth pool.endpoints pool'.endpoints health health')
    (routeId : String) :
    (pool.selectPeer key routeId health now state).1 =
      (pool'.selectPeer key routeId health' now state').1 := by
  have hpeer {b b' : Backend} (h : Corresponds pool.endpoints pool'.endpoints b b') :=
    h.peerFromBackend_eq
  unfold UpstreamPool.selectPeer
  rw [hlength, hmax]
  generalize hl : pool.lb = lb at hlb
  generalize hl' : pool'.lb = lb' at hlb
  cases hlb with
  | none => cases state <;> cases state' <;> split <;> rfl
  | @some lb lb' hcand =>
    have hplain : Option.Rel (Corresponds pool.endpoints pool'.endpoints)
        (lb.selectBackend key pool'.maxIterations) (lb'.selectBackend key pool'.maxIterations) := by
      refine selectBackendWith_rel hcand ?_ _
      exact fun _ _ _ _ => rfl
    split
    · dsimp only
      generalize lb.selectBackend key pool'.maxIterations = sel at hplain ⊢
      generalize lb'.selectBackend key pool'.maxIterations = sel' at hplain ⊢
      cases hplain with
      | none => rfl
      | some h => exact hpeer h
    · cases state with
      | none =>
        cases state' with
        | some _ => cases hstate
        | none =>
          dsimp only [Option.bind_some]
          generalize lb.selectBackend key pool'.maxIterations = sel at hplain ⊢
          generalize lb'.selectBackend key pool'.maxIterations = sel' at hplain ⊢
          cases hplain with
          | none => rfl
          | some h => exact hpeer h
      | some st =>
        cases state' with
        | none => cases hstate
        | some st' =>
          have hgated : Option.Rel (Corresponds pool.endpoints pool'.endpoints)
              (lb.selectBackendWith key pool'.maxIterations fun backend healthy =>
                healthy && isBackendHealthy health backend now)
              (lb'.selectBackendWith key pool'.maxIterations fun backend healthy =>
                healthy && isBackendHealthy health' backend now) :=
            selectBackendWith_rel hcand
              (fun b b' healthy h => by rw [h.isBackendHealthy_eq (hhealth rfl) now]) _
          dsimp only [Option.bind_some]
          generalize lb.selectBackendWith key pool'.maxIterations _ = sel at hgated ⊢
          generalize lb'.selectBackendWith key pool'.maxIterations _ = sel' at hgated ⊢
          cases hgated with
          | none => rfl
          | some h => exact hpeer h

/-! ## Reordered configurations -/

theorem buildLoadBalancer_eq {cfg : LoadBalancerConfig} (hset : backendsSet us = .ok set) :
    buildLoadBalancer us cfg =
      if set.isEmpty then .ok none
      else match C.updateError cfg.algorithm with
        | some e => .error s!"failed to update {cfg.algorithm.name} lb: {e}"
        | none => .ok (some (loadBalancerOf cfg.algorithm set)) := by
  unfold buildLoadBalancer
  rw [hset]
  rfl

/-- The candidates of two load balancers for a key point to the same endpoints. -/
def SameCandidates (us us' : List (UpstreamEndpoint C)) (lb lb' : Option (C.Selector → LoadBalancer)) :
    Prop :=
  ∀ selector key, Option.Rel (fun lb lb' : LoadBalancer =>
    List.Forall₂ (fun c c' => Corresponds us us' c.1 c'.1 ∧ c.2 = c'.2)
      (lb.candidates key) (lb'.candidates key)) (lb.map (· selector)) (lb'.map (· selector))

theorem buildLoadBalancer_perm (hperm : us.Perm us') (hdistinct : (us.map identityOf).Nodup)
    {cfg : LoadBalancerConfig} {lb : Option (C.Selector → LoadBalancer)}
    (h : buildLoadBalancer us cfg = .ok lb) :
    ∃ lb', buildLoadBalancer us' cfg = .ok lb' ∧ SameCandidates us us' lb lb' := by
  cases hset : backendsSet us with
  | error e =>
    unfold buildLoadBalancer at h
    rw [hset] at h
    cases h
  | ok set =>
    have hids : ∀ u ∈ us', ∃ k, identityOf u = .ok k := by
      intro u hu
      obtain ⟨bs, hbs, -⟩ := backendsSet_eq_ok_iff.1 hset
      obtain ⟨i, hi⟩ := List.mem_iff_getElem?.1 (hperm.mem_iff.2 hu)
      obtain ⟨b, -, hb⟩ := forall₂_mem_left hbs (a := (u, i)) (List.mem_zipIdx_iff_getElem?.2 hi)
      exact ⟨_, (backendFor_eq_ok_iff.1 hb).1⟩
    obtain ⟨set', hset'⟩ := exists_backendsSet hids
    have hempty : set'.isEmpty = set.isEmpty := by
      have hlen := congrArg List.length (identities_eq hperm hset hset')
      rw [List.length_map, List.length_map] at hlen
      cases set <;> cases set' <;> simp_all
    rw [buildLoadBalancer_eq hset] at h
    rw [buildLoadBalancer_eq hset', hempty]
    split at h
    · next he =>
      cases h
      exact ⟨none, by rw [if_pos he], fun _ _ => .none⟩
    · next he =>
      rw [if_neg he]
      cases hu : C.updateError cfg.algorithm with
      | some e =>
        rw [hu] at h
        cases h
      | none =>
        rw [hu] at h
        cases h
        refine ⟨_, rfl, fun selector key => .some ?_⟩
        exact candidates_correspond hperm hdistinct hset hset' cfg.algorithm selector key

theorem endpoints_of_fromEndpoints {lbCfg : LoadBalancerConfig} {pool : BuiltPool C}
    (h : BuiltPool.fromEndpoints us lbCfg = .ok pool) : pool.endpoints = us := by
  obtain ⟨lb, -, h⟩ := bind_eq_ok_iff.1 h
  obtain ⟨program, -, h⟩ := bind_eq_ok_iff.1 h
  cases h
  rfl

theorem fromEndpoints_perm (hperm : us.Perm us') (hdistinct : (us.map identityOf).Nodup)
    {lbCfg : LoadBalancerConfig} {pool : BuiltPool C}
    (h : BuiltPool.fromEndpoints us lbCfg = .ok pool) :
    ∃ pool' : BuiltPool C, BuiltPool.fromEndpoints us' lbCfg = .ok pool' ∧
      pool'.endpoints = us' ∧ pool'.lbCfg = pool.lbCfg ∧
      pool'.hashKeyProgram = pool.hashKeyProgram ∧ SameCandidates us us' pool.lb pool'.lb := by
  obtain ⟨lb, hlb, h⟩ := bind_eq_ok_iff.1 h
  obtain ⟨program, hprogram, h⟩ := bind_eq_ok_iff.1 h
  cases h
  obtain ⟨lb', hlb', hsame⟩ := buildLoadBalancer_perm hperm hdistinct hlb
  refine ⟨⟨us', lb', lbCfg, program⟩, ?_, rfl, rfl, rfl, hsame⟩
  exact bind_eq_ok_iff.2 ⟨lb', hlb', bind_eq_ok_iff.2 ⟨program, hprogram, rfl⟩⟩

/-- **Reordering upstreams changes nothing**: when the backends of a pool are told apart by address
and weight, the same upstreams in another order make a pool that gives the same endpoint for every
key and every state of the selector. A request with a `health_check` needs the passive health of each
endpoint to be the same in both pools, as it is when they have just been built. -/
theorem reordered_pool_selects_same {upstreams upstreams' : List UpstreamConfig}
    (hperm : upstreams.Perm upstreams') {lbCfg : Option LoadBalancerConfig} {pool : BuiltPool C}
    (h : BuiltPool.fromConfig C upstreams lbCfg = .ok pool)
    (hdistinct : (pool.endpoints.map identityOf).Nodup) :
    ∃ pool', BuiltPool.fromConfig C upstreams' lbCfg = .ok pool' ∧
      pool.endpoints.Perm pool'.endpoints ∧ pool'.hashKeyProgram = pool.hashKeyProgram ∧
      ∀ (selector : C.Selector) (key : List UInt8) (routeId : String) (now : Int)
        (health health' : HealthTable) (state state' : Option UpstreamState),
        state.isSome = state'.isSome →
        (state.isSome = true → SameHealth pool.endpoints pool'.endpoints health health') →
        ((pool.at selector).selectPeer key routeId health now state).1 =
          ((pool'.at selector).selectPeer key routeId health' now state').1 := by
  have hne : upstreams'.isEmpty = upstreams.isEmpty := by
    have hlen := hperm.length_eq
    cases upstreams <;> cases upstreams' <;> first | rfl | cases hlen
  unfold BuiltPool.fromConfig at h ⊢
  rw [hne]
  split at h
  · cases h
  · next hempty =>
    rw [if_neg hempty]
    cases hmap : upstreams.mapM (UpstreamEndpoint.fromConfig C) with
    | error e =>
      rw [hmap] at h
      cases h
    | ok us =>
      obtain ⟨us', hmap', hp⟩ := mapM_perm hperm hmap
      rw [hmap] at h
      rw [hmap']
      have hcfg : defaultLbCfg us' = defaultLbCfg us := by
        unfold defaultLbCfg
        rw [hp.length_eq]
      dsimp only [bind, Except.bind] at h ⊢
      rw [hcfg]
      have hends := endpoints_of_fromEndpoints h
      rw [hends] at hdistinct
      obtain ⟨pool', hpool', hends', hlbCfg, hprogram, hsame⟩ := fromEndpoints_perm hp hdistinct h
      refine ⟨pool', hpool', by rw [hends, hends']; exact hp, hprogram, ?_⟩
      intro selector key routeId now health health' state state' hstate hhealth
      refine selectPeer_eq ?_ ?_ ?_ now hstate hhealth routeId
      · show pool.endpoints.length = pool'.endpoints.length
        rw [hends, hends', hp.length_eq]
      · show pool.lbCfg.maxIterations = pool'.lbCfg.maxIterations
        rw [hlbCfg]
      · show Option.Rel (fun lb lb' : LoadBalancer => List.Forall₂ (fun c c' =>
          Corresponds pool.endpoints pool'.endpoints c.1 c'.1 ∧ c.2 = c'.2)
            (lb.candidates key) (lb'.candidates key)) (pool.lb.map (· selector)) (pool'.lb.map (· selector))
        rw [hends, hends']
        exact hsame selector key

/-! Two TCP upstreams, in turn. -/

/-- Addresses by IP and port, and a selection that starts at the next backend each time. -/
def Crates.roundRobin : Crates where
  Addr := Nat ×ₗ Nat
  fromStr s :=
    if s = "127.0.0.1:9000".toList then .ok (toLex (0x7f000001, 9000))
    else if s = "127.0.0.1:9001".toList then .ok (toLex (0x7f000001, 9001))
    else .error "invalid socket address syntax"
  inetV6 octets port := toLex (octets.foldl (fun n b => 256 * n + b.toNat) 0, port)
  addrText addr := (toString (ofLex addr).2).toList
  digest writes := UInt64.ofNat (writes.flatten.foldl (fun n b => 31 * n + b.toNat) 7)
  Selector := Nat
  candidates _ ids n _ := (ids.rotate n).map fun id => (id, true)
  updateError _ := none
  Cert := Empty
  PrivateKey := Empty
  stackFromPem _ := .error "no start line"
  privateKeyFromPem _ := .error "no start line"
  Program := Empty
  compile _ := .error "unsupported"

def tcpUpstream (address : String) : UpstreamConfig where
  address := .tcp address.toList
  tls := false
  h2c := none
  sni := none
  weight := 1
  connectTimeoutMs := none
  readTimeoutMs := none
  writeTimeoutMs := none
  idleTimeoutMs := none
  verifyCert := none
  clientCertPem := none
  clientKeyPem := none
  caCertPem := none

theorem reordered_pool_two_tcp :
    ∃ pool pool' : BuiltPool Crates.roundRobin,
      BuiltPool.fromConfig .roundRobin
        [tcpUpstream "127.0.0.1:9000", tcpUpstream "127.0.0.1:9001"] (some .default) = .ok pool ∧
      BuiltPool.fromConfig .roundRobin
        [tcpUpstream "127.0.0.1:9001", tcpUpstream "127.0.0.1:9000"] (some .default) = .ok pool' ∧
      ∀ selector key, ((pool.at selector).selectPeer key "route" .fresh 0 none).1 =
        ((pool'.at selector).selectPeer key "route" .fresh 0 none).1 := by
  have hbuild : ∃ pool : BuiltPool Crates.roundRobin, BuiltPool.fromConfig .roundRobin
      [tcpUpstream "127.0.0.1:9000", tcpUpstream "127.0.0.1:9001"] (some .default) = .ok pool ∧
      pool.endpoints.map identityOf =
        [.ok (toLex (toLex (0x7f000001, 9000), 1)), .ok (toLex (toLex (0x7f000001, 9001), 1))] :=
    ⟨_, rfl, rfl⟩
  obtain ⟨pool, hpool, hids⟩ := hbuild
  have hdistinct : (pool.endpoints.map identityOf).Nodup := by
    rw [hids]
    refine List.nodup_cons.2 ⟨fun hmem => ?_, List.nodup_singleton _⟩
    cases List.mem_singleton.1 hmem
  obtain ⟨pool', hpool', -, -, hselect⟩ :=
    reordered_pool_selects_same (.swap _ _ []) hpool hdistinct
  exact ⟨pool, pool', hpool, hpool', fun selector key =>
    hselect selector key "route" 0 .fresh .fresh none none rfl fun h => nomatch h⟩

end Lonesome.Upstream
