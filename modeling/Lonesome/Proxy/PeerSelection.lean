import Lonesome.Bindings.UpstreamConfig
import Lonesome.Proxy.Proxy
import Mathlib.Data.List.Rotate

/-!
# Selecting a peer on an accepted route

`UpstreamPool::select_peer` and `selection_key` of `src/upstream/upstream.rs`, for routes whose pool
was built of an accepted configuration and requests without a `health_check`. The selection key is the
value of the `hash_key_rule` in the scope of the request, which exists from `early_request_filter` on;
the rest is up to the balancer, which is given the number of iterations of the configuration.

Validation lets three things through that a request cannot be served with: a number of iterations of `0`,
a rule whose value is a float, a scalar elsewhere (`CelValue.scalarText`), and a TCP address that
`HttpPeer::new` panics on, once it is picked. `accepted_route_selects_iff` says that these are the only
ones.
-/

namespace Lonesome

open Lonesome.Lib

/-! ## Pools -/

namespace Upstream

/-- What `select` of `pingora` is relied on for: it examines members of the set, and finds a healthy
one among the first `n` if there is a first one and the set is not empty. -/
structure Crates.Selects (C : Crates) : Prop where
  member : ∀ algorithm ids selector key, ∀ c ∈ C.candidates algorithm ids selector key, c.1 ∈ ids
  selects : ∀ algorithm ids selector key n,
    ((C.candidates algorithm ids selector key).take n).any (·.2) = true ↔ 0 < n ∧ ids ≠ []

variable {C : Crates} {set : List (IndexedBackend C)} {algorithm : LoadBalancerAlgorithm}

variable (set algorithm) in
/-- The candidates of the balancer are the backends of those of `pingora`. -/
theorem candidates_of_selects (hC : C.Selects) (selector : C.Selector) (key : List UInt8) :
    List.Forall₂ (fun c d => d.2 = c.2 ∧ ∃ b ∈ set, d.1 = b.toBackend)
      (C.candidates algorithm (set.map fun b => (b.addr, b.weight)) selector key)
      ((loadBalancerOf algorithm set selector).candidates key) := by
  refine forall₂_filterMap fun c hc => ?_
  obtain ⟨b, hb, hid⟩ := List.mem_map.1 (hC.member _ _ _ _ c hc)
  cases hfind : set.find? (·.identity = toLex c.1) with
  | none =>
    have hno := List.find?_eq_none.1 hfind b hb
    rw [← hid] at hno
    exact (hno (decide_eq_true rfl)).elim
  | some b' => exact ⟨_, rfl, rfl, b', List.mem_of_find?_eq_some hfind, rfl⟩

/-- A backend is selected if there is an iteration. -/
theorem selectBackend_of_selects (hC : C.Selects) (hne : set ≠ []) (selector : C.Selector)
    (key : List UInt8) (n : Nat) :
    n ≠ 0 ∧ (∃ b ∈ set, (loadBalancerOf algorithm set selector).selectBackend key n = some b.toBackend) ∨
      n = 0 ∧ (loadBalancerOf algorithm set selector).selectBackend key n = none := by
  by_cases hn : n = 0
  · subst hn
    exact .inr ⟨rfl, rfl⟩
  · left
    refine ⟨hn, ?_⟩
    have hany := (hC.selects algorithm (set.map fun b => (b.addr, b.weight)) selector key n).2
      ⟨Nat.pos_of_ne_zero hn, by simpa using hne⟩
    obtain ⟨c, hc, hhealthy⟩ := List.any_eq_true.1 hany
    -- the examined candidates and their backends, searched side by side
    have hrel : Option.Rel (fun c d => d.2 = c.2 ∧ ∃ b ∈ set, d.1 = b.toBackend)
        (((C.candidates algorithm (set.map fun b => (b.addr, b.weight)) selector key).take n).find? (·.2))
        ((((loadBalancerOf algorithm set selector).candidates key).take n).find? (·.2)) :=
      find_rel (List.forall₂_take n (candidates_of_selects set algorithm hC selector key))
        fun _ _ h => h.1.symm
    unfold LoadBalancer.selectBackend LoadBalancer.selectBackendWith
    generalize hfind : List.find? _ _ = found at hrel
    generalize List.find? _ _ = found' at hrel ⊢
    cases hrel with
    | none => exact (List.find?_eq_none.1 hfind c hc hhealthy).elim
    | some h =>
      obtain ⟨-, b, hb, heq⟩ := h
      exact ⟨b, hb, by rw [Option.map_some, heq]⟩

/-- Without a `health_check` there is no endpoint without a backend. -/
theorem selectPeer_of_not_selected {η : Type} {pool : UpstreamPool η} {lb : LoadBalancer}
    (hlb : pool.lb = some lb) {key : List UInt8}
    (hselect : lb.selectBackend key pool.maxIterations = none) (routeId : String)
    (health : HealthTable) (now : Int) :
    ∃ e, pool.selectPeer key routeId health now none = (.error e, none) := by
  unfold UpstreamPool.selectPeer
  dsimp only
  rw [hlb]
  split
  · dsimp only
    rw [hselect]
    exact ⟨_, rfl⟩
  · rw [Option.bind_some, hselect]
    exact ⟨_, rfl⟩

/-- The endpoint of the backend that `select` of `pingora` picks for a key. -/
def BuiltPool.Picks (pool : BuiltPool C) (selector : C.Selector) (key : List UInt8)
    (u : UpstreamEndpoint C) : Prop :=
  ∃ lb b i, pool.lb = some lb ∧ (lb selector).selectBackend key pool.lbCfg.maxIterations = some b ∧
    b.endpointIndex = some i ∧ pool.endpoints[i]? = some u

theorem BuiltPool.Picks.unique {pool : BuiltPool C} {selector : C.Selector} {key : List UInt8}
    {u u' : UpstreamEndpoint C} (h : pool.Picks selector key u) (h' : pool.Picks selector key u') :
    u = u' := by
  obtain ⟨lb, b, i, hlb, hb, hi, hu⟩ := h
  obtain ⟨lb', b', i', hlb', hb', hi', hu'⟩ := h'
  obtain rfl : lb = lb' := Option.some.inj (hlb.symm.trans hlb')
  obtain rfl : b = b' := Option.some.inj (hb.symm.trans hb')
  obtain rfl : i = i' := Option.some.inj (hi.symm.trans hi')
  exact Option.some.inj (hu.symm.trans hu')

theorem BuiltPool.Picks.mem {pool : BuiltPool C} {selector : C.Selector} {key : List UInt8}
    {u : UpstreamEndpoint C} (h : pool.Picks selector key u) : u ∈ pool.endpoints := by
  obtain ⟨_, _, _, -, -, -, hu⟩ := h
  exact List.mem_of_getElem? hu

/-- `HttpPeer::new` resolves the address of the endpoint, if it is a TCP address. -/
def Resolves (L : PeerCrate C) (u : UpstreamEndpoint C) : Prop :=
  ∀ address, u.address = .tcp address → L.inetPanic address = none

/-- An endpoint of a built pool is selected if there is an iteration. -/
theorem selectPeer_of_built (hC : C.Selects) {upstreams : List UpstreamConfig}
    {lbCfg : Option LoadBalancerConfig} {pool : BuiltPool C} (h : BuiltFrom upstreams lbCfg pool set)
    (selector : C.Selector) (key : List UInt8) (routeId : String) (health : HealthTable) (now : Int) :
    pool.lbCfg.maxIterations ≠ 0 ∧ (∃ u ∈ pool.endpoints, pool.Picks selector key u ∧
      (pool.at selector).selectPeer key routeId health now none = (.ok u, none)) ∨
    pool.lbCfg.maxIterations = 0 ∧ ∃ e,
      (pool.at selector).selectPeer key routeId health now none = (.error e, none) := by
  have hlb : (pool.at selector).lb = some (loadBalancerOf pool.lbCfg.algorithm set selector) := by
    unfold BuiltPool.at
    rw [h.lb]
    rfl
  have hendpoints : pool.endpoints ≠ [] := by
    intro hnil
    have hall := h.endpoints
    rw [hnil] at hall
    cases hall
    exact h.nonempty rfl
  rcases selectBackend_of_selects hC (set_ne_nil hendpoints h.backends) selector key
    pool.lbCfg.maxIterations with ⟨hn, b, hb, hselect⟩ | ⟨hn, hselect⟩
  · left
    obtain ⟨u, hu, hpeer⟩ := exists_peer h.backends hb selector
    refine ⟨hn, u, List.mem_of_getElem? hu, ⟨_, _, _, h.lb, hselect, rfl, hu⟩, ?_⟩
    rw [selectPeer_of_selected hlb hselect, hpeer]
  · exact .inr ⟨hn, selectPeer_of_not_selected hlb hselect routeId health now⟩

/-- The peer of an endpoint that is connected to by its own address. -/
theorem peerFromEndpoint_of_address {L : PeerCrate C} (hL : ∀ path, L.udsError path = none)
    (w : VirtualJs.Registry.State) {u : UpstreamEndpoint C} (hu : ∀ key, u.address ≠ .virtualJs key) :
    (∃ peer, peerFromEndpoint L w u = .ok peer) ↔ Resolves L u := by
  unfold peerFromEndpoint Resolves
  cases hkind : u.address with
  | tcp address =>
    dsimp only
    unfold HttpPeer.new
    cases hpanic : L.inetPanic address with
    | none =>
      refine iff_of_true ⟨_, rfl⟩ fun address' haddress => ?_
      cases haddress
      exact hpanic
    | some e =>
      refine iff_of_false (fun ⟨peer, hpeer⟩ => (nomatch hpeer)) fun hresolves => ?_
      rw [hresolves address rfl] at hpanic
      cases hpanic
  | unix path =>
    dsimp only
    unfold HttpPeer.newUds
    rw [hL path]
    exact iff_of_true ⟨_, rfl⟩ fun address haddress => (nomatch haddress)
  | virtualJs key => exact (hu key hkind).elim

end Upstream

/-! ## The selection key -/

section Key

variable {X : Externals} {s : RequestState X}

/-- What the rule of the key evaluates to in the scope of the request; nothing without a rule. -/
inductive KeyEvaluates (s : RequestState X) : Option X.Program → Option CelValue → Prop
  | absent : KeyEvaluates s none none
  | value {program : X.Program} {v : CelValue} (h : X.execute s.time s.scope program = .ok v) :
    KeyEvaluates s (some program) (some v)

/-- The value is a float. -/
def IsFloat (v : CelValue) : Prop := ∃ text, v = .float text

/-- The key that the value of the rule stands for: the bytes of its text, and none without a rule. -/
def keyOf (key : Option CelValue) : List UInt8 :=
  HeaderValue.utf8Bytes ((key.bind (·.scalarText)).getD [])

theorem exec_keyBytes {v : CelValue} (hscalar : v.scalarText.isSome = true) (s : RequestState X) :
    (IsFloat v ∧ ∃ e, (keyBytes X v).exec s = (.error e, s)) ∨
      (¬ IsFloat v ∧ (keyBytes X v).exec s = (.ok (keyOf (some v)), s)) := by
  cases v with
  | float text => exact .inl ⟨⟨text, rfl⟩, _, rfl⟩
  | session => cases hscalar
  | other text => cases hscalar
  | string v => exact .inr ⟨fun ⟨_, h⟩ => (nomatch h), rfl⟩
  | int v => exact .inr ⟨fun ⟨_, h⟩ => (nomatch h), rfl⟩
  | uint v => exact .inr ⟨fun ⟨_, h⟩ => (nomatch h), rfl⟩
  | bool v => exact .inr ⟨fun ⟨_, h⟩ => (nomatch h), rfl⟩

/-- The selection key of a request with a scope. -/
theorem exec_selectionKey (hscope : s.ctx.sessionCelContext = some s.scope)
    {program : Option X.Program} {key : Option CelValue} (hkey : KeyEvaluates s program key)
    (hscalar : ∀ v ∈ key, v.scalarText.isSome = true) :
    ((∃ v ∈ key, IsFloat v) ∧ ∃ e s', (selectionKey X program).exec s = (.error e, s')) ∨
      ((¬ ∃ v ∈ key, IsFloat v) ∧ ∃ s', (selectionKey X program).exec s = (.ok (keyOf key), s') ∧
        s'.ctx.upstreamState = s.ctx.upstreamState) := by
  cases hkey with
  | absent => exact .inr ⟨fun ⟨_, h, _⟩ => (nomatch h), s, rfl, rfl⟩
  | @value program v hv =>
    have hexec : ∃ s', (selectionKey X (some program)).exec s = (keyBytes X v).exec s' ∧
        s'.ctx.upstreamState = s.ctx.upstreamState := by
      unfold selectionKey
      dsimp only
      rw [exec_bind, exec_get]
      dsimp only
      rw [hscope, Option.isNone_some, if_neg Bool.false_ne_true, exec_bind, execute,
        exec_executeIn_of_scope hscope, hv]
      exact ⟨_, rfl, rfl⟩
    obtain ⟨s', hexec, hstate⟩ := hexec
    rw [hexec]
    rcases exec_keyBytes (hscalar v rfl) s' with ⟨hfloat, e, he⟩ | ⟨hfloat, hbytes⟩
    · exact .inl ⟨⟨v, rfl, hfloat⟩, e, s', he⟩
    · refine .inr ⟨?_, s', hbytes, hstate⟩
      rintro ⟨_, ⟨⟩, h⟩
      exact hfloat h

end Key

/-! ## Requests -/

/-- A request has a scope from `early_request_filter` on. -/
theorem hasScope_run {X : Externals} (proxy : LonesomeProxy X) (session : Session X.H)
    (shared : Shared X.Ω) (time : Nat) (phases : List (Phase X)) :
    (proxy.run (proxy.incoming session shared time) phases).ctx.sessionCelContext =
      some (proxy.run (proxy.incoming session shared time) phases).scope := by
  have hP : ScopeInvariant X (fun _ => True) (fun _ _ => True) :=
    ⟨fun _ _ _ _ => trivial, fun _ _ _ _ _ _ => trivial, fun _ _ _ _ => trivial,
      fun _ _ _ _ => trivial, fun _ _ _ _ _ => trivial⟩
  have hselect : ScopeInvariant.At (fun _ _ => True) (fun _ => True)
      (proxy.select.exec (proxy.incoming session shared time)).2 := by
    refine (hP.steady fun _ => True).routine.select ?_ proxy session shared time ⟨rfl, trivial, trivial⟩
    exact fun s route h => ⟨h.1, trivial, trivial⟩
  have hwrites : WritesOnly (X := X) (fun _ => True) (ScopeInvariant.At (fun _ _ => True) fun _ => True) :=
    ⟨trivial, ofRoute_writesOnly _⟩
  exact ((hP.steady fun _ => True).run hwrites proxy phases hselect).1

/-- The peer of the endpoint that is selected, or the error. -/
theorem exec_selectUpstreamPeer {X : Externals} {route : Route X} {s s' : RequestState X}
    {bytes : List UInt8}
    (hkey : (selectionKey X route.content.hashKeyProgram).exec s = (.ok bytes, s'))
    (hstate : s'.ctx.upstreamState = none) {r : Except ProxyError X.Endpoint}
    (hselect : route.content.upstreamPool.selectPeer bytes route.id s'.shared.health
      (X.now s'.time) none = (r, none)) :
    ((selectUpstreamPeer route).exec s).1 = r.bind (X.peerFromEndpoint s'.time) := by
  unfold selectUpstreamPeer
  rw [exec_bind, hkey]
  dsimp only
  rw [exec_bind, exec_get]
  dsimp only
  rw [exec_bind, exec_tick]
  dsimp only
  rw [hstate, hselect]
  dsimp only
  rw [exec_bind]
  cases r.bind (X.peerFromEndpoint s'.time) <;> rfl

section Routes

variable {X : Externals} {C : Upstream.Crates}

/-- The crates of the upstreams, with the expressions of the proxy. -/
def Upstream.Crates.withPrograms (C : Upstream.Crates) (X : Externals) : Upstream.Crates :=
  { C with Program := X.Program, compile := X.crates.compile }

/-- A proxy whose endpoints and peers are those of the pools. -/
def Externals.withPeers (X : Externals) (L : Upstream.PeerCrate (C.withPrograms X))
    (w : Nat → VirtualJs.Registry.State) : Externals :=
  { X with
    Endpoint := Upstream.UpstreamEndpoint (C.withPrograms X)
    Peer := Upstream.HttpPeer (C.withPrograms X)
    peerFromEndpoint := fun t endpoint => Upstream.peerFromEndpoint L (w t) endpoint }

variable {L : Upstream.PeerCrate (C.withPrograms X)} {w : Nat → VirtualJs.Registry.State}

/-- The content of the route of a pool. -/
def poolContent (pool : Upstream.BuiltPool (C.withPrograms X)) (selector : C.Selector)
    (middlewares : List (Middleware (X.withPeers L w))) : RouteContent (X.withPeers L w) where
  middlewares := middlewares
  upstreamPool := pool.at selector
  hashKeyProgram := pool.hashKeyProgram

/-- **Peers for accepted routes**: on a route whose upstreams were accepted, none of them a virtual
listener, a request without a `health_check` whose hash key rule, if there is one, has a scalar value
gets a peer if and only if the number of iterations is not configured as `0`, the value is not a float,
and the upstream that is picked for it has no TCP address that does not resolve. -/
theorem accepted_route_selects_iff (hC : (C.withPrograms X).Selects)
    (hL : ∀ path, L.udsError path = none) {upstreams : List Upstream.UpstreamOptions}
    {lb : Option Upstream.LoadBalancerOptions} {pool : Upstream.BuiltPool (C.withPrograms X)}
    (haccepted : Upstream.acceptUpstreams (C.withPrograms X) upstreams lb = .ok pool)
    (hkinds : ∀ value ∈ upstreams, value.kind ≠ some "virtual_js")
    (proxy : LonesomeProxy (X.withPeers L w)) (session : Session X.H) (shared : Shared X.Ω)
    (time : Nat) (phases : List (Phase (X.withPeers L w))) {route : Route (X.withPeers L w)}
    (hroute : (proxy.run (proxy.incoming session shared time) phases).ctx.currentRoute = some route)
    {selector : C.Selector} {middlewares : List (Middleware (X.withPeers L w))}
    (hcontent : route.content = poolContent pool selector middlewares)
    (hstate : (proxy.run (proxy.incoming session shared time) phases).ctx.upstreamState = none)
    {key : Option CelValue}
    (hkey : KeyEvaluates (proxy.run (proxy.incoming session shared time) phases) pool.hashKeyProgram key)
    (hscalar : ∀ v ∈ key, v.scalarText.isSome = true) :
    (∃ peer, ((LonesomeProxy.upstreamPeer (X.withPeers L w)).exec
        (proxy.run (proxy.incoming session shared time) phases)).1 = .ok peer) ↔
      lb.bind (·.maxIterations) ≠ some 0 ∧ (¬ ∃ v ∈ key, IsFloat v) ∧
        ∀ u, pool.Picks selector (keyOf key) u → Upstream.Resolves L u := by
  have hscope := hasScope_run proxy session shared time phases
  generalize proxy.run (proxy.incoming session shared time) phases = s at *
  have hpeer : (LonesomeProxy.upstreamPeer (X.withPeers L w)).exec s =
      (selectUpstreamPeer route).exec s := by
    unfold LonesomeProxy.upstreamPeer
    rw [exec_bind, exec_get]
    dsimp only
    rw [hroute]
  have hprogram : route.content.hashKeyProgram = pool.hashKeyProgram := by
    rw [hcontent]
    rfl
  obtain ⟨cfgs, lbCfg, set, -, -, hbuilt⟩ := Upstream.exists_accepted haccepted
  rw [hpeer, ne_eq, ← Upstream.maxIterations_eq_zero_iff haccepted]
  rcases exec_selectionKey hscope hkey hscalar with ⟨hfloat, e, s', herror⟩ | ⟨hfloat, s', hok, hkeeps⟩
  · refine iff_of_false ?_ fun h => h.2.1 hfloat
    rintro ⟨peer, h⟩
    unfold selectUpstreamPeer at h
    rw [exec_bind, hprogram, herror] at h
    cases h
  · rw [← hprogram] at hok
    have hpool (r : Except ProxyError (Upstream.UpstreamEndpoint (C.withPrograms X)))
        (h : (pool.at selector).selectPeer (keyOf key) route.id s'.shared.health (X.now s'.time) none =
          (r, none)) :
        ((selectUpstreamPeer route).exec s).1 =
          r.bind fun endpoint => Upstream.peerFromEndpoint L (w s'.time) endpoint := by
      refine exec_selectUpstreamPeer hok (hkeeps.trans hstate) ?_
      rw [hcontent]
      exact h
    rcases Upstream.selectPeer_of_built hC hbuilt selector (keyOf key) route.id s'.shared.health
      (X.now s'.time) with ⟨hn, u, hu, hpicks, hselect⟩ | ⟨hn, e, hselect⟩
    · rw [hpool _ hselect]
      refine (Upstream.peerFromEndpoint_of_address hL (w s'.time)
        (Upstream.address_of_accepted haccepted hkinds hu)).trans ?_
      constructor
      · intro hresolves
        refine ⟨hn, hfloat, fun u' hpicks' => ?_⟩
        rw [hpicks'.unique hpicks]
        exact hresolves
      · intro h
        exact h.2.2 u hpicks
    · refine iff_of_false ?_ fun h => h.1 hn
      rintro ⟨peer, h⟩
      rw [hpool _ hselect] at h
      cases h

end Routes

/-! Two TCP upstreams, in turn, for every request. -/

theorem any_take_rotate {α : Type} (ids : List α) (k n : Nat) :
    (((ids.rotate k).map fun id => (id, true)).take n).any (·.2) = true ↔ 0 < n ∧ ids ≠ [] := by
  rw [List.any_eq_true]
  constructor
  · rintro ⟨c, hc, -⟩
    refine ⟨?_, ?_⟩
    · by_contra hn
      obtain rfl : n = 0 := by omega
      cases hc
    · rintro rfl
      rw [List.rotate_nil, List.map_nil, List.take_nil] at hc
      cases hc
  · rintro ⟨hn, hne⟩
    obtain ⟨id, rest, hids⟩ := List.exists_cons_of_ne_nil (mt List.rotate_eq_nil_iff.1 hne)
    obtain ⟨m, rfl⟩ := Nat.exists_eq_succ_of_ne_zero hn.ne'
    rw [hids]
    exact ⟨(id, true), List.mem_cons_self, rfl⟩

theorem selects_roundRobin : (Upstream.Crates.roundRobin.withPrograms .plain).Selects where
  member algorithm ids selector key c hc := by
    obtain ⟨id, hid, rfl⟩ := List.mem_map.1 hc
    exact List.mem_rotate.1 hid
  selects algorithm ids selector key n := any_take_rotate ids selector n

def plainPeers : Upstream.PeerCrate (Upstream.Crates.roundRobin.withPrograms .plain) where
  newOptions := ⟨none, none, none, none, true, none, (1, 1), none⟩
  inetPanic address := if address.contains ':' then none else some "invalid socket address"
  udsError _ := none

/-- The proxy without virtual listeners. -/
def pooled : Externals := Externals.plain.withPeers plainPeers fun _ => VirtualJs.Registry.State.init

def tcpOptions (address : String) : Upstream.UpstreamOptions where
  kind := none
  address := address.toList
  tls := none
  h2c := none
  sni := none
  weight := none
  connectTimeoutMs := none
  readTimeoutMs := none
  writeTimeoutMs := none
  idleTimeoutMs := none
  verifyCert := none
  clientCertPem := none
  clientKeyPem := none
  caCertPem := none

def twoTcp : List Upstream.UpstreamOptions := [tcpOptions "127.0.0.1:9000", tcpOptions "127.0.0.1:9001"]

theorem twoTcp_kinds : ∀ value ∈ twoTcp, value.kind ≠ some "virtual_js" := by
  intro value hvalue
  rcases List.mem_pair.1 hvalue with rfl | rfl <;> exact fun h => nomatch h

def pooledRoute (pool : Upstream.BuiltPool (Upstream.Crates.roundRobin.withPrograms .plain)) :
    Route pooled where
  id := "route"
  priority := 0
  matcher := .fromCel (.boolean true)
  content := poolContent pool (0 : Nat) []

def pooledProxy (pool : Upstream.BuiltPool (Upstream.Crates.roundRobin.withPrograms .plain)) :
    LonesomeProxy pooled where
  routes := ⟨[pooledRoute pool]⟩
  sniHostPolicy := .looseByHeader

/-- The request before its peer is selected. -/
def pooledRun (pool : Upstream.BuiltPool (Upstream.Crates.roundRobin.withPrograms .plain)) :
    RequestState pooled :=
  (pooledProxy pool).run ((pooledProxy pool).incoming .plain (.plain .new) 0) [.requestFilter]

/-- The key is the host. -/
theorem pooled_route_selects :
    ∃ pool, Upstream.acceptUpstreams (Upstream.Crates.roundRobin.withPrograms .plain) twoTcp
        (some ⟨some "ch", some 16, some "HostValue()".toList⟩) = .ok pool ∧
      ∃ peer, ((LonesomeProxy.upstreamPeer pooled).exec (pooledRun pool)).1 = .ok peer := by
  have hbuild : ∃ pool, Upstream.acceptUpstreams (Upstream.Crates.roundRobin.withPrograms .plain) twoTcp
        (some ⟨some "ch", some 16, some "HostValue()".toList⟩) = .ok pool ∧
      pool.hashKeyProgram = some (Cel.Expr.call none "HostValue" []) ∧
      pool.endpoints.map (·.address) = [.tcp "127.0.0.1:9000".toList, .tcp "127.0.0.1:9001".toList] :=
    ⟨_, rfl, rfl, rfl⟩
  obtain ⟨pool, hpool, hprogram, haddresses⟩ := hbuild
  have hvalue : ∃ host, pooled.execute (pooledRun pool).time (pooledRun pool).scope
      (.call none "HostValue" []) = .ok (.string host) := ⟨_, rfl⟩
  obtain ⟨host, hvalue⟩ := hvalue
  have hkey : KeyEvaluates (pooledRun pool) pool.hashKeyProgram (some (.string host)) := by
    rw [hprogram]
    exact .value hvalue
  have hroute : (pooledRun pool).ctx.currentRoute = some (pooledRoute pool) := rfl
  refine ⟨pool, hpool, (accepted_route_selects_iff selects_roundRobin (fun _ => rfl) hpool twoTcp_kinds
    (pooledProxy pool) .plain (.plain .new) 0 [.requestFilter] hroute rfl rfl hkey ?_).2
      ⟨by decide, ?_, fun u hpicks address haddress => ?_⟩⟩
  · rintro _ ⟨⟩
    rfl
  · rintro ⟨_, ⟨⟩, _, ⟨⟩⟩
  · have hmem : u.address ∈ pool.endpoints.map (·.address) := List.mem_map_of_mem hpicks.mem
    rw [haddresses, haddress, List.mem_pair] at hmem
    rcases hmem with h | h <;> cases h <;> rfl

/-- No iteration, no peer: the route is accepted and answers every request with `502`. -/
theorem zero_iterations_accepted :
    ∃ pool, Upstream.acceptUpstreams (Upstream.Crates.roundRobin.withPrograms .plain) twoTcp
        (some ⟨none, some 0, none⟩) = .ok pool ∧
      pool.hashKeyProgram = none ∧ (pooledRun pool).ctx.upstreamState = none ∧
      (pooledRun pool).ctx.currentRoute = some (pooledRoute pool) ∧
      ¬ ∃ peer, ((LonesomeProxy.upstreamPeer pooled).exec (pooledRun pool)).1 = .ok peer := by
  have hfails : ∃ pool e, Upstream.acceptUpstreams (Upstream.Crates.roundRobin.withPrograms .plain) twoTcp
        (some ⟨none, some 0, none⟩) = .ok pool ∧ pool.hashKeyProgram = none ∧
      ((LonesomeProxy.upstreamPeer pooled).exec (pooledRun pool)).1 = .error e :=
    ⟨_, _, rfl, rfl, rfl⟩
  obtain ⟨pool, e, hpool, hprogram, herror⟩ := hfails
  refine ⟨pool, hpool, hprogram, rfl, rfl, ?_⟩
  rintro ⟨peer, hpeer⟩
  rw [herror] at hpeer
  cases hpeer

end Lonesome
