import Lonesome.Proxy.Response

/-!
# Limiting the rate of requests

`src/middlewares/rate_limit`. All instances count in one table, `RATE_LIMITER`, under the key alone.

A window is a sequence of calls of request filters, each of some instance in the state of its own
request. `ratesAfter_eq` reads the table off the sequence: a key is counted by every instance that
observes it. So an instance rejects a request by the count of all instances, and
`rejects_by_own_count_iff` gives the exact condition under which that is its own count.
-/

namespace Lonesome

open Lonesome.Lib

variable {X : Externals}

/-- `OBSERVE_SECONDS` -/
def observeSeconds : Nat := 10

variable (X) in
/-- `RATE_LIMITER.observe(&key, 1)`: one more of the key, and how many there are now. -/
def observeRate (key : Str) : ReqM X Nat := do
  let s ← get
  modifyShared X fun shared =>
    { shared with rates := Function.update shared.rates key (shared.rates key + 1) }
  return s.shared.rates key + 1

namespace RateLimitMiddleware

variable (m : RateLimitMiddleware X)

def shouldApply : ReqM X Bool := Lonesome.shouldApply X m.celProgram

def keyValue : ReqM X (Option Str) :=
  match m.mode with
  | .remoteIp => do
    let s ← get
    match s.session.clientAddr with
    | some (.inet ip _) => return if ip.isEmpty then none else some ip
    | _ => return none
  | .header headerName => do
    let s ← get
    return (((s.session.reqHeader.headers.getStr headerName).bind (·.toStr)).map Str.trim).filter
      fun v => !v.isEmpty
  | .expression keyProgram => do
    match ← execute X keyProgram with
    | .ok (.string v) => return if v.isEmpty then none else some v
    | .ok v => return v.scalarText
    | .error _ => return none

/-- The key under which the middleware counts the request, if it applies and there is a key. -/
def observedKey : ReqM X (Option Str) := do
  if ← m.shouldApply then m.keyValue else return none

def limitHeaders : List (String × Str) :=
  if m.includeHeaders then [
    ("x-ratelimit-limit", (toString m.maxRequestsPerObserve).toList),
    ("x-ratelimit-remaining", "0".toList),
    ("x-ratelimit-reset", (toString observeSeconds).toList)]
  else []

def reject : ReqM X Bool := do
  disableKeepalive X
  mapInternalError X "rate_limit write response failed"
    (writeResponse X m.status m.limitHeaders none none)
  return true

/-- Counts a request, and rejects it when there are too many. -/
def limit (key : Str) : ReqM X Bool := do
  let currWindowRequests ← observeRate X key
  if currWindowRequests ≤ m.maxRequestsPerObserve then return false else m.reject

def requestFilter : ReqM X Bool := do
  match ← m.observedKey with
  | none => return false
  | some key => m.limit key

end RateLimitMiddleware

/-! ## Invariants -/

namespace Evaluates

variable {Writable : Str → Prop} {I : RequestState X → Prop} (hI : Evaluates X Writable I)
include hI

theorem rateLimit_observedKey (m : RateLimitMiddleware X) : Keeps I m.observedKey := by
  refine hI.whenApplies m.celProgram ?_ none
  unfold RateLimitMiddleware.keyValue
  split
  · refine .bind keeps_get fun s => ?_
    split <;> exact keeps_pure _
  · exact .bind keeps_get fun s => keeps_pure _
  · next keyProgram _ =>
    refine .bind (hI.execute keyProgram) fun result => ?_
    split <;> exact keeps_pure _

theorem observeRate (key : Str) : Keeps I (observeRate X key) :=
  .bind keeps_get fun _ => .bind (hI.modifyShared _) fun _ => keeps_pure _

end Evaluates

theorem Responds.rateLimit_requestFilter {Writable : Str → Prop} {I : RequestState X → Prop}
    (hI : Responds X Writable I) (m : RateLimitMiddleware X) : Keeps I m.requestFilter := by
  refine .bind (hI.rateLimit_observedKey m) fun key => ?_
  cases key with
  | none => exact keeps_pure false
  | some key =>
    refine .bind (hI.observeRate key) fun n => .ite (fun _ => keeps_pure false) fun _ => ?_
    exact .bind (hI.modifySession _ fun _ => rfl) fun _ => hI.answer _ _ _ _ _

/-! ## What a call does to the counters -/

/-- The same request, in a process with other counters. -/
def RequestState.setRates (s : RequestState X) (rates : Str → Nat) : RequestState X :=
  { s with shared := { s.shared with rates } }

section Counters

variable {rates : Str → Nat}

theorem blind_execute (program : X.Program) : Blind (·.setRates rates) (execute X program) := by
  intro s
  rw [execute, exec_executeIn, exec_executeIn]
  rfl

theorem blind_shouldApply (program : Option X.Program) :
    Blind (·.setRates rates) (shouldApply X program) := by
  cases program with
  | none => exact blind_pure true
  | some program =>
    refine .bind (blind_execute program) fun result => ?_
    split <;> exact blind_pure _

theorem blind_keyValue (m : RateLimitMiddleware X) : Blind (·.setRates rates) m.keyValue := by
  unfold RateLimitMiddleware.keyValue
  split
  · refine .get_bind (fun _ => rfl) fun s => ?_
    split <;> exact blind_pure _
  · exact .get_bind (fun _ => rfl) fun s => blind_pure _
  · next keyProgram _ =>
    refine .bind (blind_execute keyProgram) fun result => ?_
    split <;> exact blind_pure _

/-- The key of a request does not depend on the counters. -/
theorem blind_observedKey (m : RateLimitMiddleware X) : Blind (·.setRates rates) m.observedKey :=
  .bind (blind_shouldApply m.celProgram) fun _ => .ite (blind_keyValue m) (blind_pure none)

/-- Every step but `observe` leaves the shared state as it is. -/
theorem answers_shared (shared : Shared X.Ω) : Answers X fun s => s.shared = shared where
  tick := fun _ h => h
  modifySession := fun _ _ => keeps_modify fun _ h => h
  resolves := fun status _ s h => by
    refine resolveErrorPage_induct (I := fun s => s.shared = shared) (fun program s h => ?_) status h
    rw [exec_executeIn]
    exact h

theorem exec_observeRate (s : RequestState X) (key : Str) :
    (observeRate X key).exec s = (.ok (s.shared.rates key + 1),
      s.setRates (Function.update s.shared.rates key (s.shared.rates key + 1))) := rfl

theorem exec_reject_shared (m : RateLimitMiddleware X) (s : RequestState X) :
    (m.reject.exec s).2.shared = s.shared := by
  have hkeeps : Keeps (fun s' => s'.shared = s.shared) m.reject := by
    refine .bind (keeps_modify fun _ h => h) fun _ => .bind ?_ fun _ => keeps_pure true
    exact keeps_mapInternalError _ ((answers_shared s.shared).writeResponse _ _ _ _)
  exact hkeeps s rfl

/-- A rejected request is answered, or the answer fails. -/
theorem exec_reject_ne (m : RateLimitMiddleware X) (s : RequestState X) :
    (m.reject.exec s).1 ≠ .ok false := by
  unfold RateLimitMiddleware.reject
  rw [exec_bind]
  rcases (disableKeepalive X).exec s with ⟨_ | _, s'⟩
  · exact nofun
  · dsimp only
    rw [exec_bind]
    split
    · exact fun h => Bool.noConfusion (Except.ok.inj h)
    · exact nofun

/-- A counted request: the counter of its key grows by one, and decides. -/
theorem exec_limit (m : RateLimitMiddleware X) (s : RequestState X) (key : Str) :
    ((m.limit key).exec s).2.shared.rates =
        Function.update s.shared.rates key (s.shared.rates key + 1) ∧
      (((m.limit key).exec s).1 = .ok false ↔
        ((s.shared.rates key + 1 : Nat) : Int) ≤ m.maxRequestsPerObserve) := by
  unfold RateLimitMiddleware.limit
  rw [exec_bind, exec_observeRate]
  dsimp only
  split
  · next hle => exact ⟨rfl, iff_of_true rfl hle⟩
  · next hlt => exact ⟨by rw [exec_reject_shared]; rfl, iff_of_false (exec_reject_ne m _) hlt⟩

end Counters

/-! ## A window -/

/-- A call of the request filter of an instance. -/
structure RateLimitCall (X : Externals) (ι : Type) where
  limiter : ι
  request : RequestState X

section Window

variable {ι : Type} (M : ι → RateLimitMiddleware X)

namespace RateLimitCall

variable (c : RateLimitCall X ι)

/-- The result of the call, and the counters after it. -/
def run (rates : Str → Nat) : Except ProxyError Bool × (Str → Nat) :=
  let result := (M c.limiter).requestFilter.exec (c.request.setRates rates)
  (result.1, result.2.shared.rates)

/-- The key under which the request is observed, if it is. -/
def key : Option Str :=
  match ((M c.limiter).observedKey.exec c.request).1 with
  | .ok key => key
  | .error _ => none

end RateLimitCall

/-- The counters after the calls of a window so far. -/
def ratesAfter (calls : List (RateLimitCall X ι)) : Str → Nat :=
  calls.foldl (fun rates c => (c.run M rates).2) fun _ => 0

/-- The next call rejects its request. -/
def Rejects (calls : List (RateLimitCall X ι)) (c : RateLimitCall X ι) : Prop :=
  (c.run M (ratesAfter M calls)).1 ≠ .ok false

section

variable {M} {c : RateLimitCall X ι} {k : Str}

theorem RateLimitCall.run_of_key (rates : Str → Nat) (hk : c.key M = some k) :
    ((c.run M rates).1 = .ok false ↔
        ((rates k + 1 : Nat) : Int) ≤ (M c.limiter).maxRequestsPerObserve) ∧
      (c.run M rates).2 = Function.update rates k (rates k + 1) := by
  unfold RateLimitCall.key at hk
  unfold RateLimitCall.run RateLimitMiddleware.requestFilter
  rw [exec_bind, blind_observedKey (M c.limiter) c.request]
  rcases hr : (M c.limiter).observedKey.exec c.request with ⟨_ | key, s'⟩
  · rw [hr] at hk
    cases hk
  · rw [hr] at hk
    obtain rfl : key = some k := hk
    exact (exec_limit (M c.limiter) (s'.setRates rates) k).symm

theorem RateLimitCall.run_of_no_key (rates : Str → Nat) (hk : c.key M = none) :
    (c.run M rates).2 = rates := by
  unfold RateLimitCall.key at hk
  unfold RateLimitCall.run RateLimitMiddleware.requestFilter
  rw [exec_bind, blind_observedKey (M c.limiter) c.request]
  rcases hr : (M c.limiter).observedKey.exec c.request with ⟨_ | key, s'⟩
  · rfl
  · rw [hr] at hk
    obtain rfl : key = none := hk
    rfl

end

variable [DecidableEq ι]

/-- How many requests with a key an instance has observed, and how many the others. -/
def ownObservations (calls : List (RateLimitCall X ι)) (i : ι) (k : Str) : Nat :=
  calls.countP fun c => c.limiter = i ∧ c.key M = some k

def otherObservations (calls : List (RateLimitCall X ι)) (i : ι) (k : Str) : Nat :=
  calls.countP fun c => c.limiter ≠ i ∧ c.key M = some k

variable {M} {calls : List (RateLimitCall X ι)} {c : RateLimitCall X ι} {k : Str}

/-- The counter of a key counts the observations of all instances. -/
theorem ratesAfter_eq (i : ι) (calls : List (RateLimitCall X ι)) (k : Str) :
    ratesAfter M calls k = ownObservations M calls i k + otherObservations M calls i k := by
  induction calls using List.reverseRecOn with
  | nil => rfl
  | append_singleton calls c ih =>
    have hstep : ratesAfter M (calls ++ [c]) = (c.run M (ratesAfter M calls)).2 := by
      unfold ratesAfter
      rw [List.foldl_append]
      rfl
    unfold ownObservations otherObservations at ih ⊢
    rw [hstep, List.countP_append, List.countP_append, List.countP_singleton, List.countP_singleton]
    cases hk : c.key M with
    | none =>
      rw [RateLimitCall.run_of_no_key _ hk, ih]
      simp
    | some k' =>
      rw [(RateLimitCall.run_of_key _ hk).2]
      by_cases hkk : k' = k
      · subst hkk
        by_cases hi : c.limiter = i <;> simp [hi, ih] <;> omega
      · have hkk' : k ≠ k' := fun h => hkk h.symm
        simp [hkk, hkk', ih]

theorem rejects_iff (hk : c.key M = some k) :
    Rejects M calls c ↔ (M c.limiter).maxRequestsPerObserve <
      ((ownObservations M calls c.limiter k + otherObservations M calls c.limiter k + 1 : Nat) : Int) := by
  unfold Rejects
  rw [Ne, (RateLimitCall.run_of_key _ hk).1, ratesAfter_eq c.limiter, not_le]

theorem ownObservations_concat (hk : c.key M = some k) :
    ownObservations M (calls ++ [c]) c.limiter k = ownObservations M calls c.limiter k + 1 := by
  unfold ownObservations
  rw [List.countP_append, List.countP_singleton]
  simp [hk]

/-- What is expected of an instance: it rejects a request when it has observed too many requests
with the key itself, this one included. -/
def RejectsByOwnCount (M : ι → RateLimitMiddleware X) (calls : List (RateLimitCall X ι))
    (c : RateLimitCall X ι) (k : Str) : Prop :=
  Rejects M calls c ↔
    (M c.limiter).maxRequestsPerObserve < (ownObservations M (calls ++ [c]) c.limiter k : Int)

/-- The instance has room for one more request with the key; the observations of the other
instances take it up. -/
def TakenUpByOthers (M : ι → RateLimitMiddleware X) (calls : List (RateLimitCall X ι)) (i : ι)
    (k : Str) : Prop :=
  ((ownObservations M calls i k + 1 : Nat) : Int) ≤ (M i).maxRequestsPerObserve ∧
    (M i).maxRequestsPerObserve <
      ((ownObservations M calls i k + 1 + otherObservations M calls i k : Nat) : Int)

/-- **Rate limits.** For instances in any modes and any calls of a window, an instance decides on a
request by its own count if and only if its room is not taken up by others. -/
theorem rejects_by_own_count_iff (M : ι → RateLimitMiddleware X) (calls : List (RateLimitCall X ι))
    (c : RateLimitCall X ι) (k : Str) (hk : c.key M = some k) :
    RejectsByOwnCount M calls c k ↔ ¬ TakenUpByOthers M calls c.limiter k := by
  unfold RejectsByOwnCount TakenUpByOthers
  rw [rejects_iff hk, ownObservations_concat hk]
  omega

/-! Two instances by remote address, with `max_rps` a tenth: room for one request in a window. -/

def perAddressConfig : RateLimitConfig where
  mode := .remoteIp
  maxRps := { nonpositive := false, perObserve := 1 }
  status := none
  includeHeaders := none
  rule := none

def perAddress : RateLimitMiddleware Externals.plain where
  mode := .remoteIp
  maxRequestsPerObserve := 1
  status := 429
  includeHeaders := true
  celProgram := none

def perAddressCall (limiter : Bool) : RateLimitCall Externals.plain Bool where
  limiter
  request := .plain ⟨[]⟩

theorem rejects_by_own_count_firstCall :
    RejectsByOwnCount (fun _ : Bool => perAddress) [] (perAddressCall true) "10.0.0.1".toList := by
  refine (rejects_by_own_count_iff _ [] (perAddressCall true) "10.0.0.1".toList (by decide)).2 ?_
  unfold TakenUpByOthers
  decide

/-- The first request that an instance sees is rejected: another instance has seen one. -/
theorem perAddress_rejects_first_request :
    RateLimitMiddleware.fromConfig Externals.plain perAddressConfig = .ok perAddress ∧
    (perAddressCall true).key (fun _ => perAddress) = some "10.0.0.1".toList ∧
    Rejects (fun _ => perAddress) [perAddressCall false] (perAddressCall true) ∧
    ¬ RejectsByOwnCount (fun _ => perAddress) [perAddressCall false] (perAddressCall true)
      "10.0.0.1".toList := by
  have hk : (perAddressCall true).key (fun _ => perAddress) = some "10.0.0.1".toList := by decide
  have hrejects : Rejects (fun _ => perAddress) [perAddressCall false] (perAddressCall true) :=
    (rejects_iff hk).2 (by decide)
  refine ⟨rfl, hk, hrejects, fun h => ?_⟩
  have hown : ownObservations (fun _ => perAddress) ([perAddressCall false] ++ [perAddressCall true])
      true "10.0.0.1".toList = 1 := by decide
  have hlt := h.1 hrejects
  rw [show (perAddressCall true).limiter = true from rfl, hown] at hlt
  exact absurd hlt (by decide)

end Window

end Lonesome
