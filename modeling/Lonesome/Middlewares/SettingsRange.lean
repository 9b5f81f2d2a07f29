import Lonesome.Lib.Effects
import Lonesome.Middlewares.CacheFilters
import Mathlib.Algebra.Ring.Int.Defs

/-!
# Arithmetic with accepted settings

Two settings are added to a time on each request: `max_ttl_secs` to the creation time of a stored
response (`src/middlewares/cache/handler.rs`) and `failure_window_ms` to the clock when a failure is
recorded (`src/upstream/lb.rs`). The first sum panics when it is no `SystemTime`; the second one
panics in a build with overflow checks and wraps in one without, so both are modelled:
`observeChecked` is the run with the checks, `observe` the run that wraps.

`validate` bounds both settings from below only. `staysInRange_iff` says from which values on the
sums leave their range.
-/

namespace Lonesome

open Upstream

variable {H : HttpCrate}

/-! ## Times -/

/-- A clock reading or a creation time as there are today. -/
def OfToday (t : Int) : Prop :=
  0 ≤ t ∧ t < 2 ^ 62

instance (t : Int) : Decidable (OfToday t) :=
  inferInstanceAs (Decidable (_ ∧ _))

/-- The numbers that an `i64` holds. -/
def IsI64 (x : Int) : Prop :=
  -2 ^ 63 ≤ x ∧ x < 2 ^ 63

instance (x : Int) : Decidable (IsI64 x) :=
  inferInstanceAs (Decidable (_ ∧ _))

/-- A sum in a build with overflow checks; `none` is the panic. -/
def i64Add (a b : Int) : Option Int :=
  if IsI64 (a + b) then some (a + b) else none

/-- `SystemTime + Duration` for a whole number of seconds, which leaves the nanoseconds as they are;
the seconds of a `SystemTime` are an `i64`, and `none` is the panic. -/
def systemTimeAdd (t secs : Nat) : Option Nat :=
  if t + secs < 2 ^ 63 then some (t + secs) else none

theorem i64_eq_iff {x : Int} : i64 x = x ↔ IsI64 x := by
  unfold i64 IsI64
  constructor
  · intro h
    have hlow := Int.le_bmod (x := x) (m := 2 ^ 64) (by decide)
    have hhigh := Int.bmod_lt (x := x) (m := 2 ^ 64) (by decide)
    rw [h] at hlow hhigh
    omega
  · intro h
    apply Int.bmod_eq_of_le
    · omega
    · omega

/-- Beyond the range, but not by more than two settings can get, the sum wraps below zero. -/
theorem i64_neg {x : Int} (hlow : 2 ^ 63 ≤ x) (hhigh : x < 2 ^ 64) : i64 x < 0 := by
  have hwrap : i64 x = x - 2 ^ 64 := by
    unfold i64
    rw [Int.bmod_eq_iff (by decide)]
    omega
  omega

/-! ## The cap on the time to live -/

namespace CacheHandler

variable (P : CacheCrate) (c : CacheHandler)

/-- `response_cache_filter` with the panic of the sum. -/
def responseCacheFilterChecked (req : RequestHeader H) (resp : ResponseHeader) : Option RespCacheable :=
  if hasVaryStar resp then some (.uncacheable .originNotCache)
  else
    let cc := (P.fromRespHeadersNamed "cdn-cache-control" resp).or
      (P.fromRespHeadersNamed "cache-control" resp)
    let hasAuthorization := (req.headers.get "authorization").isSome
    match P.respCacheable cc resp hasAuthorization with
    | .cacheable entry =>
      (systemTimeAdd entry.created c.maxTtlSecs).map fun cappedUntil =>
        .cacheable { entry with freshUntil := min entry.freshUntil cappedUntil }
    | .uncacheable reason => some (.uncacheable reason)

variable {P c}

theorem responseCacheFilterChecked_eq {req : RequestHeader H} {resp : ResponseHeader}
    (hsum : ∀ cc auth entry, P.respCacheable cc resp auth = .cacheable entry →
      systemTimeAdd entry.created c.maxTtlSecs = some (entry.created + c.maxTtlSecs)) :
    c.responseCacheFilterChecked P req resp = some (c.responseCacheFilter P req resp) := by
  unfold responseCacheFilterChecked responseCacheFilter
  by_cases hstar : hasVaryStar resp
  · rw [if_pos hstar, if_pos hstar]
  · rw [if_neg hstar, if_neg hstar]
    cases hdecision : P.respCacheable ((P.fromRespHeadersNamed "cdn-cache-control" resp).or
      (P.fromRespHeadersNamed "cache-control" resp)) resp (req.headers.get "authorization").isSome with
    | cacheable entry =>
      simp only [hdecision]
      rw [hsum _ _ _ hdecision, Option.map_some]
    | uncacheable reason => simp only [hdecision]

end CacheHandler

/-! ## The window of a failure -/

namespace Upstream

/-- `observe_backend_health` in a build with overflow checks. -/
def observeBackendHealthChecked (health : HealthTable) (backend : Backend) (success : Bool)
    (now failureWindowMs maxAttempts : Int) : Option HealthTable :=
  match backend.passive with
  | none => some health
  | some i =>
    let state := (health i).markTracked
    if success then some (Function.update health i (state.observeSuccess maxAttempts))
    else (i64Add now failureWindowMs).map fun nextWindow =>
      Function.update health i (state.observeFailure nextWindow)

/-- The run of `observe` in a build with overflow checks. -/
def observeChecked (m : HealthCheckMiddleware) (addr : Nat → Str) (outcomes : List Outcome) :
    Option HealthTable :=
  outcomes.foldlM (fun health o =>
    observeBackendHealthChecked health (.ofEndpoint (addr o.index) o.index) o.success o.time
      m.failureWindowMs m.maxAttempts) .fresh

theorem observeBackendHealthChecked_eq {now w : Int} (hsum : IsI64 (now + w)) (health : HealthTable)
    (backend : Backend) (success : Bool) (n : Int) :
    observeBackendHealthChecked health backend success now w n =
      some (observeBackendHealth health backend success now w n) := by
  unfold observeBackendHealthChecked observeBackendHealth
  cases backend.passive with
  | none => rfl
  | some i =>
    cases success with
    | true => rfl
    | false => simp [i64Add, hsum, i64_eq_iff.2 hsum]

/-- While every sum is in range, the builds do the same. -/
theorem observeChecked_eq {m : HealthCheckMiddleware} {outcomes : List Outcome}
    (hsum : ∀ o ∈ outcomes, IsI64 (o.time + m.failureWindowMs)) (addr : Nat → Str) :
    observeChecked m addr outcomes = some (observe m addr outcomes) := by
  induction outcomes using List.reverseRecOn with
  | nil => rfl
  | append_singleton outcomes o ih =>
    have hbefore := ih fun o' ho' => hsum o' (List.mem_append_left _ ho')
    have hlast := hsum o (List.mem_append_right _ List.mem_cons_self)
    unfold observeChecked observe at hbefore ⊢
    rw [List.foldlM_append, hbefore, List.foldl_append, Option.bind_eq_bind, Option.bind_some,
      List.foldlM_cons, observeBackendHealthChecked_eq hlast]
    rfl

theorem exists_outcome_of_failure {outcomes : List Outcome} {idx : Nat} {t : Int}
    (ht : t ∈ (historyOf outcomes idx).failures) : ∃ o ∈ outcomes, o.time = t := by
  induction outcomes using List.reverseRecOn with
  | nil => cases ht
  | append_singleton outcomes o ih =>
    have hbefore (h : t ∈ (historyOf outcomes idx).failures) :
        ∃ o' ∈ outcomes ++ [o], o'.time = t := by
      obtain ⟨o', ho', htime⟩ := ih h
      exact ⟨o', List.mem_append_left _ ho', htime⟩
    rw [historyOf_append] at ht
    split at ht
    · unfold History.record at ht
      split at ht
      · cases ht
      · rcases List.mem_cons.1 ht with rfl | ht
        · exact ⟨o, List.mem_append_right _ List.mem_cons_self, rfl⟩
        · exact hbefore ht
    · exact hbefore ht

/-- The window that a backend is given for its last failure: its exact end while the sums are in
range. -/
theorem nextWindow_of_inRange {m : HealthCheckMiddleware} {outcomes : List Outcome}
    (hsum : ∀ o ∈ outcomes, IsI64 (o.time + m.failureWindowMs)) (addr : Nat → Str) {idx : Nat}
    {last : Int} (hlast : last ∈ (historyOf outcomes idx).failures.head?) :
    (observe m addr outcomes idx).nextWindow = last + m.failureWindowMs := by
  obtain ⟨o, ho, rfl⟩ := exists_outcome_of_failure (List.mem_of_mem_head? hlast)
  rw [(tracks_observe m addr outcomes idx).nextWindow _ hlast]
  exact i64_eq_iff.2 (hsum o ho)

/-- A window that leaves the range is over before it begins: the backend of the failure is never
skipped. -/
theorem isHealthy_of_outOfRange {m : HealthCheckMiddleware} (hm : IsI64 m.failureWindowMs)
    {outcomes : List Outcome} (addr : Nat → Str) {idx : Nat} {last : Int} (htoday : OfToday last)
    (hlast : last ∈ (historyOf outcomes idx).failures.head?)
    (hout : ¬ IsI64 (last + m.failureWindowMs)) {now : Int} (hnow : OfToday now) :
    (observe m addr outcomes idx).isHealthy now = true := by
  have hpos := m.failureWindowMs_pos
  unfold OfToday at htoday hnow
  unfold IsI64 at hm hout
  have hpast : i64 (last + m.failureWindowMs) < 0 := i64_neg (by omega) (by omega)
  rw [← Bool.not_eq_false, PassiveHealthState.isHealthy_eq_false,
    (tracks_observe m addr outcomes idx).nextWindow _ hlast]
  omega

/-- The middleware that `HealthCheckMiddleware::from_config` makes. -/
def HealthCheckConfig.middleware (cfg : HealthCheckConfig) (h : cfg.validate = .ok ()) :
    HealthCheckMiddleware where
  retries := cfg.retries.getD 0
  failureWindowMs := cfg.failureWindowMs.getD 10000
  maxAttempts := cfg.maxAttempts.getD 1
  includeHttpErrors := cfg.includeHttpErrors.getD false
  retries_nonneg := (HealthCheckConfig.of_validate h).1
  failureWindowMs_pos := (HealthCheckConfig.of_validate h).2.1
  maxAttempts_nonneg := (HealthCheckConfig.of_validate h).2.2

theorem HealthCheckMiddleware.fromConfig_of_validate {cfg : HealthCheckConfig}
    (h : cfg.validate = .ok ()) :
    HealthCheckMiddleware.fromConfig cfg = .ok (cfg.middleware h) := by
  unfold HealthCheckMiddleware.fromConfig
  split
  · next e he => rw [h] at he; cases he
  · rfl

end Upstream

/-! ## Accepted settings -/

/-- The handler that `CacheMiddleware::from_config` makes. -/
def CacheConfig.handler (cfg : CacheConfig) : CacheHandler where
  maxTtlSecs := cfg.maxTtlSecs.getD 3600
  maxFileSizeBytes := cfg.maxFileSizeBytes
  injectCacheHeaders := cfg.injectCacheHeaders.getD true

theorem CacheMiddleware.handler_of_fromConfig {X : Externals} {cfg : CacheConfig}
    {m : CacheMiddleware X} (h : CacheMiddleware.fromConfig X cfg = .ok m) :
    m.handler = cfg.handler := by
  unfold CacheMiddleware.fromConfig at h
  obtain ⟨_, -, h⟩ := Lib.bind_eq_ok_iff.1 h
  obtain ⟨celProgram, -, h⟩ := Lib.bind_eq_ok_iff.1 h
  cases h
  rfl

/-- The arithmetic with the settings stays in range, and what is computed on a request is what the
settings mean. -/
structure StaysInRange (c : CacheHandler) (m : HealthCheckMiddleware) : Prop where
  /-- `meta.created() + Duration::from_secs(max_ttl_secs)` is a `SystemTime`. -/
  cap : ∀ created : Nat, OfToday created →
    systemTimeAdd created c.maxTtlSecs = some (created + c.maxTtlSecs)
  /-- `response_cache_filter` does not panic. -/
  filter : ∀ (H : HttpCrate) (P : CacheCrate) (req : RequestHeader H) (resp : ResponseHeader),
    (∀ cc auth entry, P.respCacheable cc resp auth = .cacheable entry → OfToday entry.created) →
    c.responseCacheFilterChecked P req resp = some (c.responseCacheFilter P req resp)
  /-- `now + failure_window_ms` is an `i64`. -/
  window : ∀ now, OfToday now → IsI64 (now + m.failureWindowMs)
  /-- No run panics in a build with overflow checks. -/
  run : ∀ addr outcomes, (∀ o ∈ outcomes, OfToday o.time) →
    observeChecked m addr outcomes = some (observe m addr outcomes)
  /-- In no run is the window of a failure in the past. -/
  ahead : ∀ addr outcomes idx, (∀ o ∈ outcomes, OfToday o.time) →
    ∀ last ∈ (historyOf outcomes idx).failures.head?,
      (observe m addr outcomes idx).nextWindow = last + m.failureWindowMs

theorem systemTimeAdd_today_iff (secs : Nat) :
    (∀ created : Nat, OfToday created → systemTimeAdd created secs = some (created + secs)) ↔
      secs ≤ 2 ^ 62 := by
  unfold OfToday systemTimeAdd
  constructor
  · intro h
    have hlatest := h (2 ^ 62 - 1) (by omega)
    rw [Option.ite_none_right_eq_some] at hlatest
    omega
  · intro h created htoday
    apply if_pos
    omega

theorem isI64_today_iff {w : Int} (hpos : 0 < w) :
    (∀ now, OfToday now → IsI64 (now + w)) ↔ w ≤ 2 ^ 62 := by
  unfold OfToday IsI64
  constructor
  · intro h
    have hlatest := h (2 ^ 62 - 1) (by omega)
    omega
  · intro h now htoday
    omega

/-- **No overflow**: for accepted settings, the arithmetic stays in range if and only if neither of
the two settings is above `2^62`. -/
theorem staysInRange_iff (cfg : CacheConfig) (hcfg : HealthCheckConfig)
    (_hcache : cfg.validate = .ok ()) (hhealth : hcfg.validate = .ok ()) :
    StaysInRange cfg.handler (hcfg.middleware hhealth) ↔
      cfg.maxTtlSecs.getD 3600 ≤ 2 ^ 62 ∧ hcfg.failureWindowMs.getD 10000 ≤ 2 ^ 62 := by
  have hpos := (hcfg.middleware hhealth).failureWindowMs_pos
  constructor
  · intro h
    exact ⟨(systemTimeAdd_today_iff _).1 h.cap, (isI64_today_iff hpos).1 h.window⟩
  · intro h
    obtain ⟨httl, hwindow⟩ := h
    have hcap := (systemTimeAdd_today_iff cfg.handler.maxTtlSecs).2 httl
    have hsum := (isI64_today_iff hpos).2 hwindow
    refine ⟨hcap, ?_, hsum, ?_, ?_⟩
    · intro H P req resp htoday
      apply CacheHandler.responseCacheFilterChecked_eq
      intro cc auth entry hentry
      exact hcap _ (htoday cc auth entry hentry)
    · intro addr outcomes htoday
      apply observeChecked_eq
      intro o ho
      exact hsum _ (htoday o ho)
    · intro addr outcomes idx htoday last hlast
      exact nextWindow_of_inRange (fun o ho => hsum _ (htoday o ho)) addr hlast

theorem staysInRange_year :
    (CacheConfig.mk (some 31536000) none none none).validate = .ok () ∧
    (HealthCheckConfig.mk none (some 86400000) none none).validate = .ok () ∧
    StaysInRange (CacheConfig.mk (some 31536000) none none none).handler
      (HealthCheckConfig.middleware ⟨none, some 86400000, none, none⟩ rfl) :=
  ⟨rfl, rfl, (staysInRange_iff ⟨some 31536000, none, none, none⟩ ⟨none, some 86400000, none, none⟩
    rfl rfl).2 ⟨by decide, by decide⟩⟩

/-- Every response was created in 2026 and is cacheable for a minute. -/
def CacheCrate.in2026 : CacheCrate where
  CacheControl := Empty
  fromRespHeadersNamed _ _ := none
  respCacheable _ resp _ := .cacheable ⟨1780000060, 1780000000, 1, 1, resp⟩
  HashBinary := Unit
  varianceHash _ := ()

/-- Both settings are accepted. With the one a cacheable response panics; with the other a failure
panics under overflow checks, and without them its window ends below zero. -/
theorem extreme_settings_accepted :
    (CacheConfig.mk (some (2 ^ 63)) none none none).validate = .ok () ∧
    (CacheConfig.mk (some (2 ^ 63)) none none none).handler.responseCacheFilterChecked .in2026
      (languageRequest []) ⟨200, []⟩ = none ∧
    (HealthCheckConfig.mk none (some (2 ^ 63 - 1)) none none).validate = .ok () ∧
    observeChecked (HealthCheckConfig.middleware ⟨none, some (2 ^ 63 - 1), none, none⟩ rfl)
      (fun _ => []) [⟨0, false, 1780000000000⟩] = none ∧
    (observe (HealthCheckConfig.middleware ⟨none, some (2 ^ 63 - 1), none, none⟩ rfl)
      (fun _ => []) [⟨0, false, 1780000000000⟩] 0).nextWindow < 0 ∧
    ¬ StaysInRange (CacheConfig.mk (some (2 ^ 63)) none none none).handler
      (HealthCheckConfig.middleware ⟨none, some (2 ^ 63 - 1), none, none⟩ rfl) := by
  refine ⟨rfl, by decide, rfl, by decide, by decide, fun h => ?_⟩
  have hsum := (h.window 1780000000000 (by decide)).2
  revert hsum
  decide

end Lonesome
