import Lonesome.Upstream.LoadBalancer

/-!
# Which endpoints a pool can reach

The backends of a pool against its endpoints, and `UpstreamPool::status` of `src/upstream/upstream.rs`
with `collect_upstream_health` of `src/upstream/lb.rs`. Each backend points to an endpoint of the pool,
so a selected backend always has a peer. The other way round a backend can be missing: the set keeps
one backend of an address and weight, and an upstream that shares these with an earlier one, whatever
else it is configured with, gets no requests and no health in the status of its route.
`pool_complete_iff` says that this is the only case.
-/

namespace Lonesome.Upstream

open Lonesome.Lib

variable {C : Crates}

/-! ## Status -/

structure UpstreamHealthStatus where
  healthy : Bool
  tolerance : Int
  deriving DecidableEq, Repr

structure UpstreamStatus where
  kind : String
  address : Str
  weight : Nat
  health : Option UpstreamHealthStatus
  deriving DecidableEq

namespace UpstreamEndpoint

def kind (endpoint : UpstreamEndpoint C) : String :=
  match endpoint.address with
  | .tcp _ => "tcp"
  | .unix _ => "unix"
  | .virtualJs _ => "virtual_js"

/-- `UpstreamEndpoint::address` -/
def addressText (endpoint : UpstreamEndpoint C) : Str :=
  match endpoint.address with
  | .tcp address => address
  | .unix path => path
  | .virtualJs key => key

end UpstreamEndpoint

/-- The health of each backend whose passive health state was written to, by endpoint. -/
def collectUpstreamHealth (backends : List Backend) (health : HealthTable) (now : Int) :
    List (Nat × Option (Bool × Int)) :=
  backends.filterMap fun backend =>
    backend.endpointIndex.map fun idx =>
      (idx, backend.passive.bind fun i =>
        if (health i).tracked then some (isBackendHealthy health backend now, (health i).tolerance)
        else none)

/-- The map that `status` collects. -/
def healthMap (entries : List (Nat × Option (Bool × Int))) : Nat → Option (Bool × Int) :=
  (entries.filterMap fun e => e.2.map fun h => (e.1, h)).foldl
    (fun (map : Nat → Option (Bool × Int)) e => Function.update map e.1 (some e.2)) fun _ => none

/-- `UpstreamPool::status` with the backends of the load balancer. -/
def status (endpoints : List (UpstreamEndpoint C)) (backends : List Backend) (health : HealthTable)
    (now : Int) : List UpstreamStatus :=
  endpoints.zipIdx.map fun e =>
    { kind := e.1.kind
      address := e.1.addressText
      weight := e.1.weight
      health := (healthMap (collectUpstreamHealth backends health now) e.2).map fun h => ⟨h.1, h.2⟩ }

theorem healthMap_isSome {entries : List (Nat × Option (Bool × Int))} {i : Nat} {h : Bool × Int}
    (hmem : (i, some h) ∈ entries) : (healthMap entries i).isSome = true := by
  have hfold : ∀ (l : List (Nat × (Bool × Int))) (map : Nat → Option (Bool × Int)),
      (map i).isSome = true ∨ i ∈ l.map (·.1) →
        (l.foldl (fun (map : Nat → Option (Bool × Int)) e =>
          Function.update map e.1 (some e.2)) map i).isSome = true := by
    intro l
    induction l with
    | nil =>
      rintro map (h | h)
      · exact h
      · cases h
    | cons e l ih =>
      intro map h
      refine ih _ ?_
      dsimp only
      by_cases he : i = e.1
      · left
        rw [he, Function.update_self]
        rfl
      · rw [Function.update_of_ne he]
        rcases h with h | h
        · exact .inl h
        · rcases List.mem_cons.1 h with h | h
          · exact (he h).elim
          · exact .inr h
  refine hfold _ _ (.inr ?_)
  exact List.mem_map.2 ⟨(i, h), List.mem_filterMap.2 ⟨_, hmem, rfl⟩, rfl⟩

/-! ## What is built of a configuration -/

/-- What is known of a pool that was built. -/
structure BuiltFrom (upstreams : List UpstreamConfig) (lbCfg : Option LoadBalancerConfig)
    (pool : BuiltPool C) (set : List (IndexedBackend C)) : Prop where
  nonempty : upstreams ≠ []
  endpoints : List.Forall₂ (fun cfg u => UpstreamEndpoint.fromConfig C cfg = .ok u) upstreams
    pool.endpoints
  backends : backendsSet pool.endpoints = .ok set
  lb : pool.lb = some (loadBalancerOf pool.lbCfg.algorithm set)
  lbCfg : pool.lbCfg = lbCfg.getD (defaultLbCfg pool.endpoints)
  hashKey : compileHashKey pool.lbCfg.hashKeyRule = .ok pool.hashKeyProgram

theorem set_ne_nil {us : List (UpstreamEndpoint C)} {set : List (IndexedBackend C)} (hne : us ≠ [])
    (hset : backendsSet us = .ok set) : set ≠ [] := by
  obtain ⟨u, us', rfl⟩ := List.exists_cons_of_ne_nil hne
  obtain ⟨bs, hbs, -⟩ := backendsSet_eq_ok_iff.1 hset
  obtain ⟨b, -, hb⟩ := forall₂_mem_left hbs (a := (u, 0)) List.mem_cons_self
  have hid := (mem_identities_iff hset b.identity).2
    ⟨u, List.mem_cons_self, (backendFor_eq_ok_iff.1 hb).1⟩
  rintro rfl
  cases hid

theorem exists_builtFrom {upstreams : List UpstreamConfig} {lbCfg : Option LoadBalancerConfig}
    {pool : BuiltPool C} (h : BuiltPool.fromConfig C upstreams lbCfg = .ok pool) :
    ∃ set, BuiltFrom upstreams lbCfg pool set := by
  unfold BuiltPool.fromConfig at h
  split at h
  · cases h
  · next hempty =>
    have hne : upstreams ≠ [] := fun he => hempty (by rw [he]; rfl)
    obtain ⟨us, hus, h⟩ := bind_eq_ok_iff.1 h
    have hforall := mapM_eq_ok_iff.1 hus
    have husne : us ≠ [] := by
      rintro rfl
      cases hforall
      exact hne rfl
    unfold BuiltPool.fromEndpoints at h
    obtain ⟨lb, hlb, h⟩ := bind_eq_ok_iff.1 h
    obtain ⟨program, hprogram, h⟩ := bind_eq_ok_iff.1 h
    cases h
    unfold buildLoadBalancer at hlb
    obtain ⟨set, hset, hlb⟩ := bind_eq_ok_iff.1 hlb
    rw [if_neg (by simpa using set_ne_nil husne hset)] at hlb
    refine ⟨set, hne, hforall, hset, ?_, rfl, hprogram⟩
    split at hlb
    · cases hlb
    · cases hlb
      rfl

variable (C) in
/-- What the backend of an upstream is told apart by. -/
def identityOfConfig (cfg : UpstreamConfig) : Except String (C.Addr ×ₗ Nat) :=
  UpstreamEndpoint.fromConfig C cfg >>= identityOf

section Built

variable {upstreams : List UpstreamConfig} {lbCfg : Option LoadBalancerConfig} {pool : BuiltPool C}
  {set : List (IndexedBackend C)}

theorem BuiltFrom.identities (h : BuiltFrom upstreams lbCfg pool set) :
    upstreams.map (identityOfConfig C) = pool.endpoints.map identityOf := by
  have hendpoints := h.endpoints
  clear h
  generalize pool.endpoints = us at hendpoints
  induction hendpoints with
  | nil => rfl
  | @cons cfg u _ _ hu _ ih =>
    rw [List.map_cons, List.map_cons, ih, identityOfConfig, hu]
    rfl

/-- Backends of the set with one identity are the same. -/
theorem eq_of_identity (hset : backendsSet pool.endpoints = .ok set) {b b' : IndexedBackend C}
    (hb : b ∈ set) (hb' : b' ∈ set) (hid : b.identity = b'.identity) : b = b' := by
  obtain ⟨bs, -, rfl⟩ := backendsSet_eq_ok_iff.1 hset
  have hnodup : ((collectBy IndexedBackend.identity bs).map IndexedBackend.identity).Nodup :=
    (sorted_collectBy bs).imp fun hlt => ne_of_lt hlt
  exact List.inj_on_of_nodup_map hnodup hb hb' hid

/-- A selected backend has an endpoint. -/
theorem exists_peer (hset : backendsSet pool.endpoints = .ok set) {b : IndexedBackend C} (hb : b ∈ set)
    (selector : C.Selector) :
    ∃ u, pool.endpoints[b.endpointIndex]? = some u ∧
      (pool.at selector).peerFromBackend b.toBackend = .ok u := by
  obtain ⟨u, hu, -⟩ := endpoint_of_mem hset hb
  refine ⟨u, hu, ?_⟩
  unfold UpstreamPool.peerFromBackend IndexedBackend.toBackend Backend.ofEndpoint BuiltPool.at
  dsimp only
  rw [hu]

/-- Every endpoint has a backend if and only if no two share an identity. -/
theorem covered_iff (hset : backendsSet pool.endpoints = .ok set) :
    (∀ i < pool.endpoints.length, ∃ b ∈ set, b.endpointIndex = i) ↔
      (pool.endpoints.map identityOf).Nodup := by
  constructor
  · intro hcovered
    refine List.nodup_iff_getElem?_ne_getElem?.2 fun i j hij hj heq => ?_
    rw [List.length_map] at hj
    obtain ⟨b, hb, rfl⟩ := hcovered i (hij.trans hj)
    obtain ⟨b', hb', rfl⟩ := hcovered j hj
    obtain ⟨u, hu, hid⟩ := endpoint_of_mem hset hb
    obtain ⟨u', hu', hid'⟩ := endpoint_of_mem hset hb'
    rw [List.getElem?_map, List.getElem?_map, hu, hu', Option.map_some, Option.map_some,
      Option.some.injEq, hid, hid', Except.ok.injEq] at heq
    rw [eq_of_identity hset hb hb' heq] at hij
    exact lt_irrefl _ hij
  · intro hnodup i hi
    have hu : pool.endpoints[i]? = some pool.endpoints[i] := List.getElem?_eq_getElem hi
    obtain ⟨bs, hbs, -⟩ := backendsSet_eq_ok_iff.1 hset
    obtain ⟨b, -, hb⟩ := forall₂_mem_left hbs (a := (pool.endpoints[i], i))
      (List.mem_zipIdx_iff_getElem?.2 hu)
    have hid := (backendFor_eq_ok_iff.1 hb).1
    obtain ⟨b', hb', heq⟩ := List.mem_map.1
      ((mem_identities_iff hset b.identity).2 ⟨_, List.getElem_mem hi, hid⟩)
    obtain ⟨u', hu', hid'⟩ := endpoint_of_mem hset hb'
    refine ⟨b', hb', ?_⟩
    obtain ⟨hlt, -⟩ := List.getElem?_eq_some_iff.1 hu'
    by_contra hne
    have hsame : (pool.endpoints.map identityOf)[b'.endpointIndex]? =
        (pool.endpoints.map identityOf)[i]? := by
      rw [List.getElem?_map, List.getElem?_map, hu, hu', Option.map_some, Option.map_some, hid',
        hid, heq]
    exact hne ((List.getElem?_inj (by rwa [List.length_map]) hnodup).1 hsame)

/-! ## Selection and status -/

/-- A request without a `health_check` gets the endpoint of the backend that is selected. -/
theorem selectPeer_of_selected {η : Type} {pool : UpstreamPool η} {lb : LoadBalancer}
    (hlb : pool.lb = some lb) {key : List UInt8} {b : Backend}
    (hselect : lb.selectBackend key pool.maxIterations = some b) (routeId : String)
    (health : HealthTable) (now : Int) :
    pool.selectPeer key routeId health now none = (pool.peerFromBackend b, none) := by
  unfold UpstreamPool.selectPeer
  dsimp only
  rw [hlb]
  split
  · dsimp only
    rw [hselect]
    rfl
  · rw [Option.bind_some, hselect]

/-- The backend that `pingora` comes to first is selected when it is healthy. -/
theorem selectBackend_of_first (hset : backendsSet pool.endpoints = .ok set) {b : IndexedBackend C}
    (hb : b ∈ set) {algorithm : LoadBalancerAlgorithm} {selector : C.Selector} {key : List UInt8}
    (hfirst : (C.candidates algorithm (set.map fun b => (b.addr, b.weight)) selector key).head? =
      some ((b.addr, b.weight), true)) {n : Nat} (hn : 0 < n) :
    (loadBalancerOf algorithm set selector).selectBackend key n = some b.toBackend := by
  have hfind : set.find? (·.identity = toLex (b.addr, b.weight)) = some b := by
    cases hf : set.find? (·.identity = toLex (b.addr, b.weight)) with
    | none =>
      have hno := List.find?_eq_none.1 hf b hb
      exact (hno (decide_eq_true rfl)).elim
    | some b' =>
      have hid : b'.identity = toLex (b.addr, b.weight) := by simpa using List.find?_some hf
      rw [eq_of_identity hset (List.mem_of_find?_eq_some hf) hb hid]
  obtain ⟨n, rfl⟩ := Nat.exists_eq_succ_of_ne_zero hn.ne'
  obtain ⟨rest, hcandidates⟩ := List.head?_eq_some_iff.1 hfirst
  unfold LoadBalancer.selectBackend LoadBalancer.selectBackendWith loadBalancerOf
  dsimp only
  rw [hcandidates, List.filterMap_cons, hfind]
  rfl

/-- An endpoint with a backend is reported with its health. -/
theorem reported_of_covered {i : Nat} (hi : i < pool.endpoints.length) {b : IndexedBackend C}
    (hb : b ∈ set) (hindex : b.endpointIndex = i) {health : HealthTable}
    (htracked : (health i).tracked = true) (now : Int) :
    ∃ s, (status pool.endpoints (set.map (·.toBackend)) health now)[i]? = some s ∧
      s.health.isSome = true := by
  subst hindex
  have hentry : (b.endpointIndex, some (isBackendHealthy health b.toBackend now,
      (health b.endpointIndex).tolerance)) ∈
        collectUpstreamHealth (set.map (·.toBackend)) health now := by
    refine List.mem_filterMap.2 ⟨b.toBackend, List.mem_map_of_mem hb, ?_⟩
    show some (b.endpointIndex, if (health b.endpointIndex).tracked then _ else none) = _
    rw [if_pos htracked]
  refine ⟨_, by rw [status, List.getElem?_map, List.getElem?_zipIdx,
    List.getElem?_eq_getElem hi]; rfl, ?_⟩
  rw [Option.isSome_map, Nat.zero_add]
  exact healthMap_isSome hentry

variable (pool set) in
/-- Every backend has an endpoint, and every endpoint a backend, so that it can be selected and its
health is reported. -/
structure PoolComplete : Prop where
  valid : ∀ b ∈ set, ∀ selector, ∃ u, (pool.at selector).peerFromBackend b.toBackend = .ok u
  covered : ∀ i < pool.endpoints.length, ∃ b ∈ set, b.endpointIndex = i
  selected : ∀ (i : Nat) u, pool.endpoints[i]? = some u → ∃ b ∈ set, ∀ selector key routeId health now,
    (C.candidates pool.lbCfg.algorithm (set.map fun b => (b.addr, b.weight)) selector key).head? =
      some ((b.addr, b.weight), true) → 0 < pool.lbCfg.maxIterations →
    (pool.at selector).selectPeer key routeId health now none = (.ok u, none)
  reported : ∀ i < pool.endpoints.length, ∀ health now, (health i).tracked = true →
    ∃ s, (status pool.endpoints (set.map (·.toBackend)) health now)[i]? = some s ∧
      s.health.isSome = true

theorem BuiltFrom.complete (h : BuiltFrom upstreams lbCfg pool set)
    (hcovered : ∀ i < pool.endpoints.length, ∃ b ∈ set, b.endpointIndex = i) :
    PoolComplete pool set where
  valid b hb selector := by
    obtain ⟨u, -, hpeer⟩ := exists_peer h.backends hb selector
    exact ⟨u, hpeer⟩
  covered := hcovered
  selected i u hu := by
    obtain ⟨hi, -⟩ := List.getElem?_eq_some_iff.1 hu
    obtain ⟨b, hb, rfl⟩ := hcovered i hi
    refine ⟨b, hb, fun selector key routeId health now hfirst hn => ?_⟩
    obtain ⟨u', hu', hpeer⟩ := exists_peer h.backends hb selector
    have hlb : (pool.at selector).lb = some (loadBalancerOf pool.lbCfg.algorithm set selector) := by
      unfold BuiltPool.at
      rw [h.lb]
      rfl
    rw [selectPeer_of_selected hlb (selectBackend_of_first h.backends hb hfirst hn), hpeer,
      Option.some.inj (hu'.symm.trans hu)]
  reported i hi health now htracked := by
    obtain ⟨b, hb, hindex⟩ := hcovered i hi
    exact reported_of_covered hi hb hindex htracked now

/-- **Coverage**: the backends of a pool that was built all have an endpoint, and all its endpoints
have a backend if and only if no two upstreams have the same address and weight. -/
theorem pool_complete_iff (h : BuiltPool.fromConfig C upstreams lbCfg = .ok pool) :
    ∃ set, backendsSet pool.endpoints = .ok set ∧
      pool.lb = some (loadBalancerOf pool.lbCfg.algorithm set) ∧
      (∀ b ∈ set, ∀ selector, ∃ u, (pool.at selector).peerFromBackend b.toBackend = .ok u) ∧
      (PoolComplete pool set ↔ (upstreams.map (identityOfConfig C)).Nodup) := by
  obtain ⟨set, hbuilt⟩ := exists_builtFrom h
  refine ⟨set, hbuilt.backends, hbuilt.lb, fun b hb selector => ?_, ?_⟩
  · obtain ⟨u, -, hpeer⟩ := exists_peer hbuilt.backends hb selector
    exact ⟨u, hpeer⟩
  · rw [hbuilt.identities, ← covered_iff hbuilt.backends]
    exact ⟨fun hcomplete => hcomplete.covered, hbuilt.complete⟩

end Built

/-! Two upstreams at one address, the second with TLS. -/

def tlsUpstream (address : String) : UpstreamConfig :=
  { tcpUpstream address with tls := true, sni := some "example.com".toList }

theorem pool_complete_two_tcp :
    ∃ (pool : BuiltPool Crates.roundRobin) (set : List (IndexedBackend Crates.roundRobin)),
      BuiltPool.fromConfig .roundRobin
        [tcpUpstream "127.0.0.1:9000", tlsUpstream "127.0.0.1:9001"] none = .ok pool ∧
      backendsSet pool.endpoints = .ok set ∧ PoolComplete pool set := by
  have hbuild : ∃ pool : BuiltPool Crates.roundRobin, BuiltPool.fromConfig .roundRobin
      [tcpUpstream "127.0.0.1:9000", tlsUpstream "127.0.0.1:9001"] none = .ok pool := ⟨_, rfl⟩
  obtain ⟨pool, hpool⟩ := hbuild
  obtain ⟨set, hset, -, -, hiff⟩ := pool_complete_iff hpool
  have hids : [tcpUpstream "127.0.0.1:9000", tlsUpstream "127.0.0.1:9001"].map
      (identityOfConfig Crates.roundRobin) =
        [.ok (toLex (toLex (0x7f000001, 9000), 1)), .ok (toLex (toLex (0x7f000001, 9001), 1))] := rfl
  refine ⟨pool, set, hpool, hset, hiff.2 ?_⟩
  rw [hids]
  refine List.nodup_cons.2 ⟨fun hmem => ?_, List.nodup_singleton _⟩
  cases List.mem_singleton.1 hmem

/-- No backend has the index of the second upstream. -/
theorem tls_upstream_not_covered :
    ∃ (pool : BuiltPool Crates.roundRobin) (set : List (IndexedBackend Crates.roundRobin)),
      BuiltPool.fromConfig .roundRobin
        [tcpUpstream "127.0.0.1:9000", tlsUpstream "127.0.0.1:9000"] none = .ok pool ∧
      backendsSet pool.endpoints = .ok set ∧ pool.endpoints.length = 2 ∧
      set.map (·.endpointIndex) = [0] ∧ ¬ PoolComplete pool set := by
  have hbuild : ∃ (pool : BuiltPool Crates.roundRobin) (set : List (IndexedBackend Crates.roundRobin)),
      BuiltPool.fromConfig .roundRobin
        [tcpUpstream "127.0.0.1:9000", tlsUpstream "127.0.0.1:9000"] none = .ok pool ∧
      backendsSet pool.endpoints = .ok set ∧ pool.endpoints.length = 2 ∧
      set.map (·.endpointIndex) = [0] := by
    let first : IndexedBackend .roundRobin := ⟨toLex (0x7f000001, 9000), 1, 0⟩
    let second : IndexedBackend .roundRobin := ⟨toLex (0x7f000001, 9000), 1, 1⟩
    refine ⟨_, [first], rfl, backendsSet_eq_ok_iff.2 ⟨[first, second], ?_, ?_⟩, rfl, rfl⟩
    · exact .cons rfl (.cons rfl .nil)
    · simp [collectBy, insertBy, IndexedBackend.identity, first, second]
  obtain ⟨pool, set, hpool, hset, hlength, hindices⟩ := hbuild
  refine ⟨pool, set, hpool, hset, hlength, hindices, fun hcomplete => ?_⟩
  obtain ⟨b, hb, hindex⟩ := hcomplete.covered 1 (by rw [hlength]; decide)
  have hmem : b.endpointIndex ∈ set.map (·.endpointIndex) := List.mem_map_of_mem hb
  rw [hindices, hindex] at hmem
  cases List.mem_singleton.1 hmem

end Lonesome.Upstream
