import Lonesome.Proxy.CelStability
import Lonesome.Proxy.Frames

/-!
# The budget of retries

`pingora` connects again when `fail_to_connect` has set `retry` on the error. `health_check` sets it, and
counts in the context how often it did. A successful `early_request_filter` has seen one `health_check` at
the most; from there on the other callbacks leave the count alone, the selection of a peer included, so
that the answer to a failed connect depends on how many there were before: `failed_connects_retried`.
-/

namespace Lonesome

open Lonesome.Lib
open Lonesome.Upstream (HealthCheckMiddleware UpstreamPool)

variable {X : Externals}

/-! ## The count of a request -/

def Middleware.asHealthCheck : Middleware X → Option HealthCheckMiddleware
  | .healthCheck m => some m
  | _ => none

/-- The middlewares that the loops go through, when a route has been matched or not. -/
def middlewaresOf (route : Option (Route X)) : List (Middleware X) :=
  (route.map (·.content.middlewares)).getD []

def healthChecks (route : Option (Route X)) : List HealthCheckMiddleware :=
  (middlewaresOf route).filterMap (·.asHealthCheck)

/-- The request is on the route and has been retried so often; `none` stands for a request that no
health check has set up. -/
structure Retried (route : Option (Route X)) (count : Option Int) (s : RequestState X) : Prop where
  currentRoute : s.ctx.currentRoute = route
  retries : s.ctx.upstreamState.map (·.retries) = count

variable {route : Option (Route X)}

namespace Retried

variable (count : Option Int)

/-- A write to the rest of the context. -/
theorem modifyCtx {f : ProxyCtx X → ProxyCtx X} (hroute : ∀ ctx, (f ctx).currentRoute = ctx.currentRoute)
    (hstate : ∀ ctx, (f ctx).upstreamState = ctx.upstreamState) :
    Keeps (Retried route count) (modifyCtx X f) := by
  refine keeps_modify fun s hs => ⟨?_, ?_⟩
  · rw [← hs.currentRoute]
    exact hroute s.ctx
  · rw [← hs.retries, hstate s.ctx]

theorem indifferent : Indifferent (Retried route count) := by
  refine ⟨fun s s' hunheard hs => ⟨?_, ?_⟩⟩
  · rw [hunheard.ctx]
    exact hs.currentRoute
  · rw [hunheard.ctx]
    exact hs.retries

theorem modifySession (f : Session X.H → Session X.H) :
    Keeps (Retried route count) (modifySession X f) :=
  keeps_modify fun _ hs => ⟨hs.currentRoute, hs.retries⟩

end Retried

/-! ## Selecting a peer -/

theorem selectPeer_retries {η : Type} (pool : UpstreamPool η) (key : List UInt8) (routeId : String)
    (health : Upstream.HealthTable) (now : Int) (state : Option Upstream.UpstreamState) :
    (pool.selectPeer key routeId health now state).2.map (·.retries) = state.map (·.retries) := by
  unfold UpstreamPool.selectPeer
  split
  · split
    · rfl
    · split
      · rfl
      · rw [Option.map_map]
        rfl
  · cases state with
    | some st => dsimp only; split <;> rfl
    | none => dsimp only; split <;> rfl

namespace Retried

/-- A selection, whether it fails or not. -/
theorem upstreamPeer (count : Option Int) :
    Keeps (Retried route count) (LonesomeProxy.upstreamPeer X) := by
  refine .bind keeps_get fun s => ?_
  split
  · exact keeps_throw _
  · refine .bind ((indifferent count).evaluates.selectionKey _) fun key => .get_bind fun s hs => ?_
    refine .bind (indifferent count).evaluates.tick fun t => .bind ?_ fun _ => ?_
    · refine keeps_modify fun s' hs' => ⟨hs'.currentRoute, ?_⟩
      exact (selectPeer_retries _ _ _ _ _ _).trans hs.retries
    · split
      · exact keeps_pure _
      · exact keeps_throw _

end Retried

/-! ## Failed connects -/

/-- What a health check makes of an error and the count. -/
def HealthCheck.grant (p : ProxyError × Option Int) (m : HealthCheckMiddleware) :
    ProxyError × Option Int :=
  match p with
  | (e, some n) => if n < m.retries then ({ e with retry := true }, some (n + 1)) else p
  | (_, none) => p

theorem failToConnect_grants (m : HealthCheckMiddleware) (state : Option Upstream.UpstreamState) (now : Int)
    (health : Upstream.HealthTable) (e : ProxyError) :
    ((if (m.failToConnect state now health).2.2 then { e with retry := true } else e),
        (m.failToConnect state now health).2.1.map (·.retries)) =
      HealthCheck.grant (e, state.map (·.retries)) m := by
  unfold HealthCheckMiddleware.failToConnect HealthCheck.grant
  cases state with
  | none => rfl
  | some st =>
    by_cases hleft : st.retries < m.retries
    · simp [hleft]
    · simp [hleft]

/-- The same for any middleware. -/
def Middleware.grant (m : Middleware X) (p : ProxyError × Option Int) : ProxyError × Option Int :=
  match m.asHealthCheck with
  | some m => HealthCheck.grant p m
  | none => p

namespace Retried

variable {count : Option Int} {E : RequestState X → Prop}

theorem triple_tick : Triple (Retried route count) (tick X) (fun _ => Retried route count) E :=
  ⟨(indifferent count).evaluates.tick.ensures, fun _ _ _ _ hexec => (nomatch hexec)⟩

theorem triple_interleave :
    Triple (Retried route count) (interleave X) (fun _ => Retried route count) E :=
  triple_tick.bind fun _ => triple_modify fun _ hs => ⟨hs.currentRoute, hs.retries⟩

theorem triple_failToConnect (e : ProxyError) (m : Middleware X) :
    Triple (Retried route count) (m.failToConnect e)
      (fun e' s => e' = (m.grant (e, count)).1 ∧ Retried route (m.grant (e, count)).2 s) E := by
  cases m with
  | healthCheck m =>
    refine .get_bind fun s hs => triple_tick.bind fun t => ?_
    have hgrant := failToConnect_grants m s.ctx.upstreamState (X.now t) s.shared.health e
    rw [hs.retries] at hgrant
    change _ = (Middleware.healthCheck (X := X) m).grant (e, count) at hgrant
    rw [← hgrant]
    refine .bind (Q := fun _ => Retried route count) ?_ fun _ => ?_
    · exact triple_modify fun s' hs' => ⟨hs'.currentRoute, hs'.retries⟩
    · refine .bind (triple_modify fun s' hs' => ?_) fun _ => triple_pure fun s' hs' => ⟨rfl, hs'⟩
      exact ⟨hs'.currentRoute, rfl⟩
  | _ => exact triple_pure fun s hs => ⟨rfl, hs⟩

/-- `fail_to_connect` never fails; what it returns is made by the health checks of the route. -/
theorem proxy_failToConnect (e : ProxyError) :
    Triple (Retried route count) (LonesomeProxy.failToConnect X e)
      (fun e' s => e' = ((healthChecks route).foldl HealthCheck.grant (e, count)).1 ∧
        Retried route ((healthChecks route).foldl HealthCheck.grant (e, count)).2 s)
      fun _ => False := by
  have hfold : (healthChecks route).foldl HealthCheck.grant (e, count) =
      (middlewaresOf route).foldl (fun p m => m.grant p) (e, count) := by
    rw [healthChecks, List.foldl_filterMap]
    refine List.foldl_ext _ _ _ fun p m _ => ?_
    unfold Middleware.grant
    cases m.asHealthCheck <;> rfl
  rw [hfold]
  refine .get_bind fun s hs => ?_
  rw [hs.currentRoute]
  refine .foldlM _ (fun p m _ => triple_interleave.bind fun _ => ?_) (e, count)
  have hhook : Triple (Retried route p.2) (m.failToConnect p.1)
      (fun e' s => e' = (m.grant p).1 ∧ Retried route (m.grant p).2 s) fun _ => False :=
    triple_failToConnect p.1 m
  exact .tryCatch hhook fun _ => triple_pure fun _ hfalse => hfalse.elim

end Retried

/-! ## Setting up the count -/

/-- What `early_request_filter` of a middleware does to the count. -/
def Middleware.SetsUp (m : Middleware X) (count count' : Option Int) : Prop :=
  match m.asHealthCheck with
  | some _ => count = none ∧ count' = some 0
  | none => count' = count

theorem through_setsUp_some {ms : List (Middleware X)} {n : Int} {count : Option Int}
    (h : Through Middleware.SetsUp ms (some n) count) :
    ms.filterMap (·.asHealthCheck) = [] ∧ count = some n := by
  induction ms with
  | nil =>
    cases h
    exact ⟨rfl, rfl⟩
  | cons m ms ih =>
    cases h with
    | cons hm hrest =>
      unfold Middleware.SetsUp at hm
      cases hcheck : m.asHealthCheck with
      | some check =>
        rw [hcheck] at hm
        exact (nomatch hm.1)
      | none =>
        rw [hcheck] at hm
        rw [List.filterMap_cons_none hcheck]
        exact ih (hm ▸ hrest)

/-- A request that went through has met one health check at the most, and the count starts there. -/
theorem through_setsUp_none {ms : List (Middleware X)} {count : Option Int}
    (h : Through Middleware.SetsUp ms none count) :
    ∃ check : Option HealthCheckMiddleware, ms.filterMap (·.asHealthCheck) = check.toList ∧
      count = check.map fun _ => 0 := by
  induction ms with
  | nil =>
    cases h
    exact ⟨none, rfl, rfl⟩
  | cons m ms ih =>
    cases h with
    | cons hm hrest =>
      unfold Middleware.SetsUp at hm
      cases hcheck : m.asHealthCheck with
      | some check =>
        rw [hcheck] at hm
        obtain ⟨hnone, hcount⟩ := through_setsUp_some (hm.2 ▸ hrest)
        refine ⟨some check, ?_, hcount⟩
        rw [List.filterMap_cons_some hcheck, hnone]
        rfl
      | none =>
        rw [hcheck] at hm
        rw [List.filterMap_cons_none hcheck]
        exact ih (hm ▸ hrest)

namespace Retried

theorem earlyRequestFilter (m : Middleware X) (count : Option Int) :
    Ensures (Retried route count) m.earlyRequestFilter
      fun _ s => ∃ count', m.SetsUp count count' ∧ Retried route count' s := by
  have hsame (body : ReqM X Unit) (hcheck : m.asHealthCheck = none)
      (hbody : Keeps (Retried route count) body) :
      Ensures (Retried route count) body
        fun _ s => ∃ count', m.SetsUp count count' ∧ Retried route count' s := by
    refine hbody.ensures.mono fun _ s hs => ⟨count, ?_, hs⟩
    rw [Middleware.SetsUp, hcheck]
  cases m with
  | healthCheck m =>
    refine .bind ensures_get fun s => .ite (fun _ _ _ _ _ hexec => (nomatch hexec)) fun hnone => ?_
    intro s' hs' u s'' hexec
    cases hexec
    obtain ⟨rfl, hs⟩ := hs'
    refine ⟨some 0, ⟨?_, rfl⟩, hs.currentRoute, rfl⟩
    rw [← hs.retries, Option.not_isSome_iff_eq_none.1 hnone]
    rfl
  | accessLog m =>
    refine hsame _ rfl (.bind (indifferent count).evaluates.tick fun t => ?_)
    exact modifyCtx count (fun _ => rfl) fun _ => rfl
  | cache m =>
    refine hsame _ rfl ((indifferent count).evaluates.whenApplies m.celProgram (.bind keeps_get fun s => ?_) ())
    exact .ite (fun _ => keeps_throw _) fun _ => modifyCtx count (fun _ => rfl) fun _ => rfl
  | compression m =>
    refine hsame _ rfl ((indifferent count).evaluates.whenApplies m.celProgram (.bind ?_ fun _ => ?_) ())
    · refine .bind keeps_get fun s => ?_
      split
      · exact keeps_throw _
      · exact modifySession count _
    · exact modifySession count _
  | _ => exact hsame _ rfl (keeps_pure ())

end Retried

/-- No health check has set up the request when the route is selected. -/
theorem retried_select (proxy : LonesomeProxy X) (s : RequestState X) :
    Retried (proxy.matchedRoute s) none (proxy.select.exec s).2 := by
  have hI : Indifferent fun s : RequestState X => s.ctx.upstreamState = none := by
    refine ⟨fun s s' hunheard hs => ?_⟩
    rw [hunheard.ctx]
    exact hs
  have hselect : Keeps (fun s : RequestState X => s.ctx.upstreamState = none)
      (do
        discard (ensureSessionCelContext X)
        let route ← findFirstMatch X proxy.routes.routes
        setRoute X route) := by
    refine .bind (.bind hI.evaluates.ensureSessionCelContext fun _ => keeps_pure _) fun _ => ?_
    refine .bind (hI.evaluates.findFirstMatch _) fun route => ?_
    cases route with
    | none => exact keeps_pure ()
    | some route => exact keeps_modify fun s hs => hs
  refine ⟨rfl, ?_⟩
  have hnone : (proxy.select.exec s).2.ctx.upstreamState = none :=
    hselect { s with ctx := s.ctx.resetForRequest } rfl
  rw [hnone]
  rfl

/-- After a successful `early_request_filter` the route has one health check at the most, which has set
up the request. -/
theorem retried_earlyRequestFilter (proxy : LonesomeProxy X) (s : RequestState X) :
    Ensures (· = s) proxy.earlyRequestFilter fun _ s' =>
      ∃ check : Option HealthCheckMiddleware, healthChecks (proxy.matchedRoute s) = check.toList ∧
        Retried (proxy.matchedRoute s) (check.map fun _ => 0) s' := by
  refine .bind (Q := fun _ => Retried (proxy.matchedRoute s) none) ?_ fun _ => ?_
  · intro s₀ hs₀ _ s' hexec
    rw [hs₀] at hexec
    have hselect := retried_select proxy s
    rwa [hexec] at hselect
  · intro s₁ hs₁ u s₂ hexec
    have hloop : ((middlewaresOf (proxy.matchedRoute s)).foldlM
        (fun _ (m : Middleware X) => do interleave X; m.earlyRequestFilter) ()).exec s₁ = (.ok u, s₂) := by
      rw [← hs₁.currentRoute]
      exact hexec
    obtain ⟨count, hthrough, hs₂⟩ := Ensures.through_state (S := Middleware.SetsUp) _
      (fun count m _ => (Retried.indifferent count).evaluates.interleave.ensures.bind fun _ =>
        Retried.earlyRequestFilter m count) none () s₁ hs₁ u s₂ hloop
    obtain ⟨check, hchecks, rfl⟩ := through_setsUp_none hthrough
    exact ⟨check, hchecks, hs₂⟩

/-! ## Runs -/

def Phase.isFailToConnect : Phase X → Bool
  | .failToConnect _ => true
  | _ => false

/-- The count after so many failed connects. -/
def countAfter (check : Option HealthCheckMiddleware) (n : Nat) : Option Int :=
  check.map fun m => min n m.retries

theorem countAfter_zero (check : Option HealthCheckMiddleware) :
    countAfter check 0 = check.map fun _ => 0 := by
  cases check with
  | none => rfl
  | some m => exact congrArg some (min_eq_left m.retries_nonneg)

/-- The next failed connect is tried again while the count is below `retries`. -/
theorem grant_countAfter (check : Option HealthCheckMiddleware) (n : Nat) (e : ProxyError) :
    check.toList.foldl HealthCheck.grant (e, countAfter check n) =
      ((if n < (check.map (·.retries)).getD 0 then { e with retry := true } else e),
        countAfter check (n + 1)) := by
  cases check with
  | none =>
    have hnone : ¬ (n : Int) < 0 := by omega
    rw [Option.map_none, Option.getD_none, if_neg hnone]
    rfl
  | some m =>
    have hgrant : HealthCheck.grant (e, some (min (n : Int) m.retries)) m =
        ((if (n : Int) < m.retries then { e with retry := true } else e),
          some (min ((n + 1 : Nat) : Int) m.retries)) := by
      unfold HealthCheck.grant
      by_cases hleft : (n : Int) < m.retries
      · have hmin : min (n : Int) m.retries = n := by omega
        have hnext : min ((n + 1 : Nat) : Int) m.retries = n + 1 := by omega
        simp only [hmin, hnext, if_pos hleft]
      · have hmin : min (n : Int) m.retries = m.retries := by omega
        have hnext : min ((n + 1 : Nat) : Int) m.retries = m.retries := by omega
        simp only [hmin, hnext, if_neg hleft, lt_irrefl, ↓reduceIte]
    exact hgrant

namespace Retried

/-- The other callbacks leave the count alone. -/
theorem phase (count : Option Int) (proxy : LonesomeProxy X) {p : Phase X}
    (hp : p.isFailToConnect = false) : Keeps (Retried route count) (p.run proxy) := by
  have hI : Indifferent (Retried route count) := indifferent count
  have hsession : ∀ f, Keeps (Retried route count) (Lonesome.modifySession X f) := modifySession count
  cases p with
  | requestFilter => exact .bind (hI.proxy_requestFilter hsession proxy) fun _ => keeps_pure ()
  | upstreamPeer => exact .bind (upstreamPeer count) fun _ => keeps_pure ()
  | failToConnect e => exact (nomatch hp)
  | failToProxy e => exact .bind ((hI.responds hsession).proxy_failToProxy e) fun _ => keeps_pure ()
  | session f => exact hsession f
  | _ =>
    refine hI.phase (fun o => modifyCtx count (fun _ => rfl) fun _ => rfl) proxy ?_
    trivial

variable {check : Option HealthCheckMiddleware} (hchecks : healthChecks route = check.toList)
include hchecks

/-- What `fail_to_connect` answers, and the count after it. -/
theorem exec_failToConnect {n : Nat} {s : RequestState X} (hs : Retried route (countAfter check n) s)
    (e : ProxyError) :
    ∃ s', (LonesomeProxy.failToConnect X e).exec s =
        (.ok (if n < (check.map (·.retries)).getD 0 then { e with retry := true } else e), s') ∧
      Retried route (countAfter check (n + 1)) s' := by
  have htriple : Triple (Retried route (countAfter check n)) _ _ _ := proxy_failToConnect e
  rw [hchecks, grant_countAfter] at htriple
  rcases hexec : (LonesomeProxy.failToConnect X e).exec s with ⟨e' | e', s'⟩
  · exact (htriple.fails s hs e' s' hexec).elim
  · obtain ⟨rfl, hs'⟩ := htriple.returns s hs e' s' hexec
    exact ⟨s', rfl, hs'⟩

/-- The count follows the failed connects of a run. -/
theorem phases (proxy : LonesomeProxy X) (phases : List (Phase X)) {n : Nat} {s : RequestState X}
    (hs : Retried route (countAfter check n) s) :
    Retried route (countAfter check (n + phases.countP (·.isFailToConnect)))
      (phases.foldl (fun s p => ((p.run proxy).exec s).2) s) := by
  induction phases generalizing n s with
  | nil => exact hs
  | cons p rest ih =>
    rw [List.foldl_cons, List.countP_cons]
    cases hp : p.isFailToConnect with
    | false => exact ih (phase _ proxy hp s hs)
    | true =>
      cases p with
      | failToConnect e =>
        obtain ⟨s', hexec, hs'⟩ := exec_failToConnect hchecks hs e
        rw [Phase.run, exec_discard, hexec]
        have hrest := ih hs'
        rwa [Nat.add_right_comm] at hrest
      | _ => exact (nomatch hp)

end Retried

/-- How often a failed connect is tried again: `retries` of the health check, and never without one. -/
def LonesomeProxy.retryBudget (proxy : LonesomeProxy X) (s : RequestState X) : Int :=
  ((healthChecks (proxy.matchedRoute s)).head?.map (·.retries)).getD 0

/-- **Retries.** A request whose `early_request_filter` succeeded is on a route with one `health_check` at
the most. Whatever callbacks follow, in any order and for any middlewares, `fail_to_connect` does not fail;
it asks for a retry as long as there have been fewer failed connects than the `retries` of the health
check, and from then on it hands back the error it was given. -/
theorem failed_connects_retried (proxy : LonesomeProxy X) (s : RequestState X)
    (hearly : (proxy.earlyRequestFilter.exec s).1 = .ok ()) (phases : List (Phase X)) (e : ProxyError) :
    (healthChecks (proxy.matchedRoute s)).length ≤ 1 ∧
      ((LonesomeProxy.failToConnect X e).exec (proxy.run s phases)).1 =
        .ok (if phases.countP (·.isFailToConnect) < proxy.retryBudget s then { e with retry := true }
          else e) := by
  rcases hexec : proxy.earlyRequestFilter.exec s with ⟨r, s₁⟩
  obtain rfl : r = .ok () := by rw [← hearly, hexec]
  obtain ⟨check, hchecks, hs₁⟩ := retried_earlyRequestFilter proxy s s rfl () s₁ hexec
  rw [← countAfter_zero] at hs₁
  have hrun := Retried.phases hchecks proxy phases hs₁
  obtain ⟨s', hfail, -⟩ := Retried.exec_failToConnect hchecks hrun e
  have hbudget : proxy.retryBudget s = (check.map (·.retries)).getD 0 := by
    rw [LonesomeProxy.retryBudget, hchecks, Option.head?_toList]
  refine ⟨by rw [hchecks]; exact Option.length_toList_le, ?_⟩
  rw [LonesomeProxy.run, hexec, hfail, hbudget, Nat.zero_add]

/-! One retry: a first connect that fails is tried again, and a second one is not, with a selection in
between. -/

def retryOnce : HealthCheckMiddleware :=
  { Upstream.defaultHealthCheck with
    retries := 1
    retries_nonneg := Int.one_nonneg }

def connectFailed : ProxyError :=
  .because (.other "ConnectTimedout") "connect" "timeout"

theorem failed_connects_retried_once :
    ((LonesomeProxy.failToConnect Externals.plain connectFailed).exec
        (plainRun [.healthCheck retryOnce] [.requestFilter, .upstreamPeer])).1 =
      .ok { connectFailed with retry := true } ∧
    ((LonesomeProxy.failToConnect Externals.plain connectFailed).exec
        (plainRun [.healthCheck retryOnce]
          [.requestFilter, .upstreamPeer, .failToConnect connectFailed, .upstreamPeer])).1 =
      .ok connectFailed := by
  have hrun := failed_connects_retried (plainProxy [.healthCheck retryOnce])
    ((plainProxy [.healthCheck retryOnce]).incoming .plain (.plain ⟨[]⟩) 0) rfl
  exact ⟨(hrun [.requestFilter, .upstreamPeer] connectFailed).2,
    (hrun [.requestFilter, .upstreamPeer, .failToConnect connectFailed, .upstreamPeer] connectFailed).2⟩

end Lonesome
