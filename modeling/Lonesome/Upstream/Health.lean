import Lonesome.Http
import Mathlib.Algebra.Group.Nat.Defs

/-!
# Passive health of upstreams

The passive health state of `src/upstream/lb.rs`, the `health_check` middleware that writes it and
the health gate of `select_peer` (`src/upstream/upstream.rs`).

A state counts down from the number of failures it tolerates. The count starts at `0` when the load
balancer is built and at `max_attempts` at each success, so a state follows the history of its
backend as `Tracks` says: `unhealthy_iff_exceeded` gives the exact condition under which that is the
documented threshold. Every connect is a success, so `5xx` responses never add up
(`exchanges_serverError`).
-/

namespace Lonesome.Upstream

/-- A sum of two `i64`, wrapped. -/
def i64 (x : Int) : Int :=
  Int.bmod x (2 ^ 64)

/-! ## The state of a backend -/

/-- `tolerance` is an `i64` as well; it would have to fall by `2^63` to wrap. -/
structure PassiveHealthState where
  tolerance : Int
  nextWindow : Int
  tracked : Bool
  deriving DecidableEq, Repr

namespace PassiveHealthState

def default : PassiveHealthState := ⟨0, 0, false⟩

def observeFailure (s : PassiveHealthState) (nextWindow : Int) : PassiveHealthState :=
  { s with tolerance := s.tolerance - 1, nextWindow }

def observeSuccess (s : PassiveHealthState) (allowedFailures : Int) : PassiveHealthState :=
  { s with tolerance := allowedFailures }

def markTracked (s : PassiveHealthState) : PassiveHealthState :=
  { s with tracked := true }

def isHealthy (s : PassiveHealthState) (now : Int) : Bool :=
  if s.tolerance ≥ 0 then true
  else if s.nextWindow ≤ now then true
  else false

theorem isHealthy_eq_false {s : PassiveHealthState} {now : Int} :
    s.isHealthy now = false ↔ s.tolerance < 0 ∧ now < s.nextWindow := by
  unfold isHealthy
  split
  · next h => simp only [Bool.true_eq_false, false_iff]; omega
  · next h =>
    split
    · next hw => simp only [Bool.true_eq_false, false_iff]; omega
    · next hw => simp only [true_iff]; omega

end PassiveHealthState

/-- A backend of a load balancer; its extensions are the index of its endpoint and the passive
health state, which clones of the backend share. -/
structure Backend where
  addr : Str
  endpointIndex : Option Nat
  passive : Option Nat
  deriving DecidableEq, Repr

/-- The backend that `build_load_balancer` makes for the endpoint at an index. -/
def Backend.ofEndpoint (addr : Str) (idx : Nat) : Backend :=
  ⟨addr, some idx, some idx⟩

/-- The passive health states of the backends of a load balancer. -/
abbrev HealthTable := Nat → PassiveHealthState

/-- The states of a load balancer that was just built. -/
def HealthTable.fresh : HealthTable := fun _ => .default

def isBackendHealthy (health : HealthTable) (backend : Backend) (now : Int) : Bool :=
  match backend.passive with
  | none => true
  | some i => (health i).isHealthy now

def observeBackendHealth (health : HealthTable) (backend : Backend) (success : Bool)
    (now failureWindowMs maxAttempts : Int) : HealthTable :=
  match backend.passive with
  | none => health
  | some i =>
    let state := (health i).markTracked
    Function.update health i
      (if success then state.observeSuccess maxAttempts
       else state.observeFailure (i64 (now + failureWindowMs)))

/-! ## The middleware -/

structure HealthCheckConfig where
  retries : Option Int
  failureWindowMs : Option Int
  maxAttempts : Option Int
  includeHttpErrors : Option Bool

def HealthCheckConfig.validate (cfg : HealthCheckConfig) : Except String Unit := do
  if cfg.retries.getD 0 < 0 then
    throw "middleware health_check.retries must be >= 0"
  if cfg.failureWindowMs.getD 10000 ≤ 0 then
    throw "middleware health_check.failure_window_ms must be > 0"
  if cfg.maxAttempts.getD 1 < 0 then
    throw "middleware health_check.max_attempts must be >= 0"

/-- The settings that `validate` lets through. -/
structure HealthCheckMiddleware where
  retries : Int
  failureWindowMs : Int
  maxAttempts : Int
  includeHttpErrors : Bool
  retries_nonneg : 0 ≤ retries
  failureWindowMs_pos : 0 < failureWindowMs
  maxAttempts_nonneg : 0 ≤ maxAttempts
  deriving DecidableEq

theorem HealthCheckConfig.of_validate {cfg : HealthCheckConfig} (h : cfg.validate = .ok ()) :
    0 ≤ cfg.retries.getD 0 ∧ 0 < cfg.failureWindowMs.getD 10000 ∧ 0 ≤ cfg.maxAttempts.getD 1 := by
  unfold validate at h
  by_cases hr : cfg.retries.getD 0 < 0
  · rw [if_pos hr] at h; cases h
  by_cases hw : cfg.failureWindowMs.getD 10000 ≤ 0
  · rw [if_neg hr, if_pos hw] at h; cases h
  by_cases hm : cfg.maxAttempts.getD 1 < 0
  · rw [if_neg hr, if_neg hw, if_pos hm] at h; cases h
  omega

/-- `HealthCheckMiddleware::from_config` -/
def HealthCheckMiddleware.fromConfig (cfg : HealthCheckConfig) :
    Except String HealthCheckMiddleware :=
  match h : cfg.validate with
  | .error e => .error e
  | .ok () =>
    .ok {
      retries := cfg.retries.getD 0
      failureWindowMs := cfg.failureWindowMs.getD 10000
      maxAttempts := cfg.maxAttempts.getD 1
      includeHttpErrors := cfg.includeHttpErrors.getD false
      retries_nonneg := (HealthCheckConfig.of_validate h).1
      failureWindowMs_pos := (HealthCheckConfig.of_validate h).2.1
      maxAttempts_nonneg := (HealthCheckConfig.of_validate h).2.2 }

/-- What the middleware keeps of the selection for the rest of the request. -/
structure UpstreamState where
  retries : Int
  lastEndpointIndex : Option Nat
  lastBackend : Option Backend
  deriving DecidableEq

namespace HealthCheckMiddleware

variable (m : HealthCheckMiddleware)

/-- `mark_success` and `mark_failure` -/
def mark (state : Option UpstreamState) (success : Bool) (now : Int) (health : HealthTable) :
    HealthTable :=
  match state.bind (·.lastBackend) with
  | none => health
  | some backend => observeBackendHealth health backend success now m.failureWindowMs m.maxAttempts

def markSuccess (state : Option UpstreamState) : Int → HealthTable → HealthTable :=
  m.mark state true

def markFailure (state : Option UpstreamState) : Int → HealthTable → HealthTable :=
  m.mark state false

def connectedToUpstream (state : Option UpstreamState) (now : Int) (health : HealthTable) :
    HealthTable :=
  m.markSuccess state now health

/-- The state with one more retry counted, and whether the error is to be retried. -/
def failToConnect (state : Option UpstreamState) (now : Int) (health : HealthTable) :
    HealthTable × Option UpstreamState × Bool :=
  let health := m.markFailure state now health
  match state with
  | some st =>
    if st.retries < m.retries then (health, some { st with retries := st.retries + 1 }, true)
    else (health, state, false)
  | none => (health, state, false)

def upstreamResponseFilter (state : Option UpstreamState) (status : Nat) (now : Int)
    (health : HealthTable) : HealthTable :=
  if m.includeHttpErrors then
    if 500 ≤ status ∧ status < 600 then m.markFailure state now health else health
  else health

end HealthCheckMiddleware

/-! ## Selection -/

/-- A load balancer of pingora at the time of a call: the backends in the order in which they are
examined for a key, each with the balancer's own view of its health. -/
structure LoadBalancer where
  candidates : List UInt8 → List (Backend × Bool)

def LoadBalancer.selectBackendWith (lb : LoadBalancer) (key : List UInt8) (maxIterations : Nat)
    (accept : Backend → Bool → Bool) : Option Backend :=
  (((lb.candidates key).take maxIterations).find? fun c => accept c.1 c.2).map (·.1)

def LoadBalancer.selectBackend (lb : LoadBalancer) (key : List UInt8) (maxIterations : Nat) :
    Option Backend :=
  lb.selectBackendWith key maxIterations fun _ healthy => healthy

structure UpstreamPool (η : Type) where
  endpoints : List η
  lb : Option LoadBalancer
  maxIterations : Nat

variable {η : Type}

def selectionFailed (etype : ErrorType) (cause : String) : ProxyError :=
  .because etype "upstream selection failed" cause

/-- The endpoint that a backend points to. -/
def UpstreamPool.peerFromBackend (pool : UpstreamPool η) (backend : Backend) :
    Except ProxyError η :=
  match backend.endpointIndex with
  | none => .error (selectionFailed .internalError
    s!"selected backend '{String.ofList backend.addr}' missing endpoint index extension")
  | some idx =>
    match pool.endpoints[idx]? with
    | none => .error (selectionFailed .internalError
      s!"selected backend '{String.ofList backend.addr}' points to invalid endpoint index {idx}")
    | some endpoint => .ok endpoint

/-- `select_peer` after the selection key: a single endpoint is selected without regard to its
health, one of several only when it is healthy. -/
def UpstreamPool.selectPeer (pool : UpstreamPool η) (key : List UInt8) (routeId : String)
    (health : HealthTable) (now : Int) (state : Option UpstreamState) :
    Except ProxyError η × Option UpstreamState :=
  let recordBackend (backend : Backend) (st : UpstreamState) : UpstreamState :=
    { st with lastEndpointIndex := backend.endpointIndex, lastBackend := some backend }
  let unhealthy := selectionFailed (.httpStatus 502)
    s!"route '{routeId}' failed to select healthy upstream backend"
  if pool.endpoints.length = 1 then
    match pool.lb with
    | none => (.error (selectionFailed .internalError
        s!"route '{routeId}' has no load balancer"), state)
    | some lb =>
      match lb.selectBackend key pool.maxIterations with
      | none => (.error (selectionFailed (.httpStatus 502)
          s!"route '{routeId}' failed to select an upstream backend"), state)
      | some backend => (pool.peerFromBackend backend, state.map (recordBackend backend))
  else
    match state with
    | some st =>
      match pool.lb.bind fun lb => lb.selectBackendWith key pool.maxIterations
        fun backend healthy => healthy && isBackendHealthy health backend now with
      | some backend => (pool.peerFromBackend backend, some (recordBackend backend st))
      | none => (.error unhealthy, state)
    | none =>
      match pool.lb.bind fun lb => lb.selectBackend key pool.maxIterations with
      | some backend => (pool.peerFromBackend backend, state)
      | none => (.error unhealthy, state)

/-! ## Outcomes -/

/-- The outcome of a connect to the backend of an endpoint. -/
structure Outcome where
  index : Nat
  success : Bool
  time : Int

/-- The states of a load balancer after the outcomes of a run, recorded with the settings of the
middleware. -/
def observe (m : HealthCheckMiddleware) (addr : Nat → Str) (outcomes : List Outcome) : HealthTable :=
  outcomes.foldl (fun health o =>
    observeBackendHealth health (.ofEndpoint (addr o.index) o.index) o.success o.time
      m.failureWindowMs m.maxAttempts) .fresh

/-- What has happened to a backend: whether there was a success, and the times of the failures
since the last success, the latest first. -/
structure History where
  seenSuccess : Bool
  failures : List Int

def History.empty : History := ⟨false, []⟩

def History.record (h : History) (success : Bool) (time : Int) : History :=
  if success then ⟨true, []⟩ else { h with failures := time :: h.failures }

/-- The history of the backend of an endpoint. -/
def historyOf (outcomes : List Outcome) (idx : Nat) : History :=
  (outcomes.filter (·.index == idx)).foldl (fun h o => h.record o.success o.time) .empty

/-- One more outcome is one more entry in the history of its own backend. -/
theorem historyOf_append (outcomes : List Outcome) (o : Outcome) (idx : Nat) :
    historyOf (outcomes ++ [o]) idx =
      if idx = o.index then (historyOf outcomes idx).record o.success o.time
      else historyOf outcomes idx := by
  unfold historyOf
  rw [List.filter_append, List.foldl_append]
  by_cases hi : idx = o.index
  · have hkeep : [o].filter (·.index == idx) = [o] := by simp [hi]
    rw [if_pos hi, hkeep, List.foldl_cons, List.foldl_nil]
  · have hdrop : [o].filter (·.index == idx) = [] := by simp [Ne.symm hi]
    rw [if_neg hi, hdrop, List.foldl_nil]

/-- A state after a history: the count starts at `0`, and at `max_attempts` after a success. -/
structure Tracks (m : HealthCheckMiddleware) (h : History) (s : PassiveHealthState) : Prop where
  tolerance : s.tolerance = (if h.seenSuccess then m.maxAttempts else 0) - h.failures.length
  nextWindow : ∀ last ∈ h.failures.head?, s.nextWindow = i64 (last + m.failureWindowMs)

variable {m : HealthCheckMiddleware} {h : History} {s : PassiveHealthState}

theorem Tracks.fresh : Tracks m .empty .default :=
  ⟨rfl, fun _ hlast => nomatch hlast⟩

/-- One outcome. -/
theorem Tracks.record (ht : Tracks m h s) (success : Bool) (time : Int) :
    Tracks m (h.record success time)
      (if success then s.markTracked.observeSuccess m.maxAttempts
       else s.markTracked.observeFailure (i64 (time + m.failureWindowMs))) := by
  cases success with
  | true => exact ⟨by simp [History.record, PassiveHealthState.observeSuccess], by simp [History.record]⟩
  | false =>
    refine ⟨?_, ?_⟩
    · have htol := ht.tolerance
      simp only [History.record, PassiveHealthState.observeFailure, PassiveHealthState.markTracked,
        Bool.false_eq_true, ↓reduceIte, List.length_cons, Int.natCast_add, Int.natCast_one]
      omega
    · intro last hlast
      obtain rfl : time = last := by simpa [History.record] using hlast
      rfl

theorem observeBackendHealth_ofEndpoint (health : HealthTable) (addr : Str) (idx i : Nat)
    (success : Bool) (now w n : Int) :
    observeBackendHealth health (.ofEndpoint addr idx) success now w n i =
      if i = idx then
        if success then (health i).markTracked.observeSuccess n
        else (health i).markTracked.observeFailure (i64 (now + w))
      else health i := by
  by_cases hi : i = idx
  · subst hi
    simp [observeBackendHealth, Backend.ofEndpoint]
  · simp [observeBackendHealth, Backend.ofEndpoint, hi]

/-- The state of each backend follows its own history. -/
theorem tracks_observe (m : HealthCheckMiddleware) (addr : Nat → Str) (outcomes : List Outcome)
    (idx : Nat) : Tracks m (historyOf outcomes idx) (observe m addr outcomes idx) := by
  induction outcomes using List.reverseRecOn with
  | nil => exact .fresh
  | append_singleton outcomes o ih =>
    rw [historyOf_append]
    unfold observe at ih ⊢
    rw [List.foldl_append, List.foldl_cons, List.foldl_nil, observeBackendHealth_ofEndpoint]
    by_cases hi : idx = o.index
    · rw [if_pos hi, if_pos hi]
      exact ih.record o.success o.time
    · rw [if_neg hi, if_neg hi]
      exact ih

/-- More than `max_attempts` failures since the last success, the last of them less than the window
ago. -/
def Exceeded (m : HealthCheckMiddleware) (h : History) (now : Int) : Prop :=
  m.maxAttempts < h.failures.length ∧ ∃ last ∈ h.failures.head?, now < last + m.failureWindowMs

/-- Where the countdown means the threshold. Before the first success it means it only when nothing
has failed, when more than `max_attempts` failures have been counted or when the window of the
last failure is over; and beyond the threshold only when the end of the window, wrapped to `i64`,
lies on the right side of `now`. -/
def CountsRight (m : HealthCheckMiddleware) (h : History) (now : Int) : Prop :=
  (h.seenSuccess = true ∨ h.failures = [] ∨ m.maxAttempts < h.failures.length ∨
    ∀ last ∈ h.failures.head?, i64 (last + m.failureWindowMs) ≤ now) ∧
  (m.maxAttempts < h.failures.length → ∀ last ∈ h.failures.head?,
    (now < i64 (last + m.failureWindowMs) ↔ now < last + m.failureWindowMs))

theorem Tracks.unhealthy_iff (ht : Tracks m h s) (now : Int) :
    (s.isHealthy now = false ↔ Exceeded m h now) ↔ CountsRight m h now := by
  have hn := m.maxAttempts_nonneg
  have htol := ht.tolerance
  rw [PassiveHealthState.isHealthy_eq_false]
  unfold Exceeded CountsRight
  cases hf : h.failures with
  | nil =>
    rw [hf] at htol
    have hpos : ¬ s.tolerance < 0 := by
      rw [htol]
      split
      · simpa using hn
      · simp
    simp [hpos]
  | cons last rest =>
    have hw := ht.nextWindow last (by rw [hf]; rfl)
    rw [hf] at htol
    have hlen : 0 < ((last :: rest).length : Int) := by simp only [List.length_cons]; omega
    simp only [List.head?_cons, Option.mem_def, Option.some.injEq, exists_eq_left', forall_eq',
      reduceCtorEq, false_or, hw]
    generalize ((last :: rest).length : Int) = k at *
    by_cases hk : m.maxAttempts < k
    · -- beyond the threshold: the count is negative whatever it started from
      have hneg : s.tolerance < 0 := by
        rw [htol]
        split <;> omega
      simp [hk, hneg]
    · cases hseen : h.seenSuccess with
      | true =>
        rw [hseen] at htol
        have hpos : ¬ s.tolerance < 0 := by
          simp only [↓reduceIte] at htol
          omega
        simp [hk, hpos]
      | false =>
        rw [hseen] at htol
        have hneg : s.tolerance < 0 := by
          simp only [Bool.false_eq_true, ↓reduceIte] at htol
          omega
        simp [hk, hneg]

/-- **The threshold**: after any outcomes from a load balancer that was just built, a backend is
unhealthy exactly when more than `max_attempts` failures followed its last success and the window
of the last one is open, if and only if the history is one that the countdown counts right. -/
theorem unhealthy_iff_exceeded (m : HealthCheckMiddleware) (addr : Nat → Str)
    (outcomes : List Outcome) (idx : Nat) (now : Int) :
    (isBackendHealthy (observe m addr outcomes) (.ofEndpoint (addr idx) idx) now = false ↔
      Exceeded m (historyOf outcomes idx) now) ↔
    CountsRight m (historyOf outcomes idx) now :=
  (tracks_observe m addr outcomes idx).unhealthy_iff now

/-- The default settings, with `5xx` responses counted. -/
def defaultHealthCheck : HealthCheckMiddleware where
  retries := 0
  failureWindowMs := 10000
  maxAttempts := 1
  includeHttpErrors := true
  retries_nonneg := by decide
  failureWindowMs_pos := by decide
  maxAttempts_nonneg := by decide

/-- One failure before any success, with one attempt allowed. -/
theorem unhealthy_after_one_failure :
    isBackendHealthy (observe defaultHealthCheck (fun _ => "10.0.0.1:80".toList) [⟨0, false, 0⟩])
      (.ofEndpoint "10.0.0.1:80".toList 0) 1 = false ∧
    ¬ Exceeded defaultHealthCheck (historyOf [⟨0, false, 0⟩] 0) 1 := by
  refine ⟨by decide, fun h => ?_⟩
  have hlt : (1 : Int) < 1 := h.1
  omega

/-! ## Responses -/

/-- A request that was answered: the connect, and the response header. -/
structure Exchange where
  connectedAt : Int
  status : Nat
  respondedAt : Int

def Exchange.isServerError (x : Exchange) : Prop :=
  500 ≤ x.status ∧ x.status < 600

/-- The two hooks of the middleware on a request that was sent to a backend. -/
def exchange (m : HealthCheckMiddleware) (backend : Backend) (health : HealthTable) (x : Exchange) :
    HealthTable :=
  let state : Option UpstreamState := some ⟨0, backend.endpointIndex, some backend⟩
  m.upstreamResponseFilter state x.status x.respondedAt
    (m.connectedToUpstream state x.connectedAt health)

/-- A `5xx` leaves one failure since the connect, whatever came before. -/
theorem exchange_serverError (hinc : m.includeHttpErrors = true) (addr : Str) (idx : Nat)
    (health : HealthTable) {x : Exchange} (hx : x.isServerError) :
    exchange m (.ofEndpoint addr idx) health x idx =
      ⟨m.maxAttempts - 1, i64 (x.respondedAt + m.failureWindowMs), true⟩ := by
  have hx' : 500 ≤ x.status ∧ x.status < 600 := hx
  simp only [exchange, HealthCheckMiddleware.upstreamResponseFilter, hinc, ↓reduceIte, hx',
    and_self, HealthCheckMiddleware.markFailure, HealthCheckMiddleware.mark,
    HealthCheckMiddleware.connectedToUpstream, HealthCheckMiddleware.markSuccess, Option.bind_some,
    observeBackendHealth_ofEndpoint]
  simp [PassiveHealthState.markTracked, PassiveHealthState.observeSuccess,
    PassiveHealthState.observeFailure]

/-- The hooks of a request leave the states of other backends alone. -/
theorem exchange_of_ne (addr : Str) {idx i : Nat} (hi : i ≠ idx) (health : HealthTable)
    (x : Exchange) : exchange m (.ofEndpoint addr idx) health x i = health i := by
  have hconnect : m.connectedToUpstream
      (some ⟨0, (Backend.ofEndpoint addr idx).endpointIndex, some (.ofEndpoint addr idx)⟩)
      x.connectedAt health i = health i := by
    simp [HealthCheckMiddleware.connectedToUpstream, HealthCheckMiddleware.markSuccess,
      HealthCheckMiddleware.mark, observeBackendHealth_ofEndpoint, hi]
  unfold exchange HealthCheckMiddleware.upstreamResponseFilter
  split
  · split
    · simpa [HealthCheckMiddleware.markFailure, HealthCheckMiddleware.mark,
        observeBackendHealth_ofEndpoint, hi] using hconnect
    · exact hconnect
  · exact hconnect

/-- Requests one after another, each with the index of the endpoint it was sent to. -/
def exchanges (m : HealthCheckMiddleware) (addr : Nat → Str) (run : List (Nat × Exchange))
    (health : HealthTable) : HealthTable :=
  run.foldl (fun health r => exchange m (.ofEndpoint (addr r.1) r.1) health r.2) health

/-- The requests that were sent to an endpoint. -/
def requestsTo (run : List (Nat × Exchange)) (idx : Nat) : List Exchange :=
  (run.filter (·.1 == idx)).map (·.2)

/-- A run whose last request to a backend was a `5xx` leaves that one failure. -/
theorem exchanges_serverError (hinc : m.includeHttpErrors = true) (addr : Nat → Str)
    (health : HealthTable) {run : List (Nat × Exchange)} {idx : Nat} {earlier : List Exchange}
    {last : Exchange} (hrun : requestsTo run idx = earlier ++ [last]) (hlast : last.isServerError) :
    exchanges m addr run health idx =
      ⟨m.maxAttempts - 1, i64 (last.respondedAt + m.failureWindowMs), true⟩ := by
  induction run using List.reverseRecOn with
  | nil => exact absurd hrun (by simp [requestsTo])
  | append_singleton run r ih =>
    have hsplit : requestsTo (run ++ [r]) idx =
        requestsTo run idx ++ (if r.1 = idx then [r.2] else []) := by
      by_cases hr : r.1 = idx <;> simp [requestsTo, hr]
    rw [hsplit] at hrun
    unfold exchanges at ih ⊢
    rw [List.foldl_append, List.foldl_cons, List.foldl_nil]
    by_cases hr : r.1 = idx
    · rw [if_pos hr] at hrun
      obtain rfl : r.2 = last := (List.append_inj' hrun rfl).2 |> List.singleton_inj.1
      rw [hr]
      exact exchange_serverError hinc (addr idx) idx _ hlast
    · rw [if_neg hr, List.append_nil] at hrun
      rw [exchange_of_ne (addr r.1) (Ne.symm hr)]
      exact ih hrun

/-- On a route with several endpoints the selected backend is a healthy one. -/
theorem selectPeer_healthy {pool : UpstreamPool η} (hmulti : pool.endpoints.length ≠ 1)
    {key : List UInt8} {routeId : String} {health : HealthTable} {now : Int} {st st' : UpstreamState}
    {endpoint : η} {backend : Backend}
    (hsel : pool.selectPeer key routeId health now (some st) = (.ok endpoint, some st'))
    (hlast : st'.lastBackend = some backend) : isBackendHealthy health backend now = true := by
  unfold UpstreamPool.selectPeer at hsel
  rw [if_neg hmulti] at hsel
  simp only at hsel
  split at hsel
  · next selected hfound =>
    obtain ⟨-, hst⟩ := Prod.mk.inj hsel
    obtain ⟨lb, -, hlb⟩ := Option.bind_eq_some_iff.1 hfound
    obtain ⟨c, hc, rfl⟩ := Option.map_eq_some_iff.1 hlb
    rw [← Option.some.inj hst] at hlast
    cases hlast
    have haccept := List.find?_some hc
    exact (Bool.and_eq_true_iff.1 haccept).2
  · cases hsel

/-- The last requests to the backend, more than `max_attempts` of them, were all answered with
`5xx`, and the last one is less than the window ago. -/
def OnlyServerErrors (m : HealthCheckMiddleware) (run : List (Nat × Exchange)) (idx : Nat)
    (last : Exchange) (now : Int) : Prop :=
  (∃ before recent, requestsTo run idx = before ++ (recent ++ [last]) ∧
    m.maxAttempts < (recent ++ [last]).length ∧ ∀ x ∈ recent ++ [last], x.isServerError) ∧
  now < last.respondedAt + m.failureWindowMs

/-- **Server errors**: after a run of requests that ends in enough `5xx` for a backend, the backend
is unhealthy exactly when no failure is tolerated at all and the end of the window, wrapped to
`i64`, is still ahead; and only an unhealthy backend is skipped by the selection. -/
theorem unhealthy_after_serverErrors_iff (m : HealthCheckMiddleware)
    (hinc : m.includeHttpErrors = true) (addr : Nat → Str) (run : List (Nat × Exchange))
    (health : HealthTable) (idx : Nat) (last : Exchange) (now : Int) :
    let after := exchanges m addr run health
    let backend := Backend.ofEndpoint (addr idx) idx
    ((OnlyServerErrors m run idx last now → isBackendHealthy after backend now = false) ↔
      (OnlyServerErrors m run idx last now →
        m.maxAttempts = 0 ∧ now < i64 (last.respondedAt + m.failureWindowMs))) ∧
    (isBackendHealthy after backend now = false →
      ∀ (pool : UpstreamPool η) key routeId st endpoint st', pool.endpoints.length ≠ 1 →
        pool.selectPeer key routeId after now (some st) = (.ok endpoint, some st') →
        st'.lastBackend ≠ some backend) := by
  intro after backend
  constructor
  · refine imp_congr_right fun hpremise => ?_
    obtain ⟨⟨before, recent, hrun, -, herrors⟩, -⟩ := hpremise
    have hlast : last.isServerError := herrors last (by simp)
    have hstate := exchanges_serverError hinc addr health
      (hrun.trans (List.append_assoc before recent [last]).symm) hlast
    have hn := m.maxAttempts_nonneg
    show PassiveHealthState.isHealthy (exchanges m addr run health idx) now = false ↔ _
    rw [hstate, PassiveHealthState.isHealthy_eq_false]
    simp only
    omega
  · intro hunhealthy pool key routeId st endpoint st' hmulti hsel hlast
    rw [selectPeer_healthy hmulti hsel hlast] at hunhealthy
    cases hunhealthy

/-- Two `5xx` in a row with one attempt allowed. -/
def twoServerErrors : List (Nat × Exchange) :=
  [(0, ⟨0, 500, 1⟩), (0, ⟨2, 503, 3⟩)]

theorem twoServerErrors_onlyServerErrors :
    OnlyServerErrors defaultHealthCheck twoServerErrors 0 ⟨2, 503, 3⟩ 4 := by
  refine ⟨⟨[], [⟨0, 500, 1⟩], rfl, by decide, fun x hx => ?_⟩, by decide⟩
  rcases List.mem_cons.1 hx with rfl | hx
  · exact ⟨by decide, by decide⟩
  · rw [List.mem_singleton.1 hx]
    exact ⟨by decide, by decide⟩

theorem healthy_after_twoServerErrors :
    OnlyServerErrors defaultHealthCheck twoServerErrors 0 ⟨2, 503, 3⟩ 4 ∧
    isBackendHealthy (exchanges defaultHealthCheck (fun _ => "10.0.0.1:80".toList) twoServerErrors
      .fresh) (.ofEndpoint "10.0.0.1:80".toList 0) 4 = true :=
  ⟨twoServerErrors_onlyServerErrors, by decide⟩

theorem twoServerErrors_not_skipped :
    ¬ (OnlyServerErrors defaultHealthCheck twoServerErrors 0 ⟨2, 503, 3⟩ 4 →
      isBackendHealthy (exchanges defaultHealthCheck (fun _ => "10.0.0.1:80".toList) twoServerErrors
        .fresh) (.ofEndpoint "10.0.0.1:80".toList 0) 4 = false) := by
  have h := (unhealthy_after_serverErrors_iff (η := Unit) defaultHealthCheck rfl
    (fun _ => "10.0.0.1:80".toList) twoServerErrors .fresh 0 ⟨2, 503, 3⟩ 4).1
  rw [h]
  intro hcond
  have hzero : (1 : Int) = 0 := (hcond twoServerErrors_onlyServerErrors).1
  omega

end Lonesome.Upstream
