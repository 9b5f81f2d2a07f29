import Lonesome.Lib.Trace
import Lonesome.Proxy.Proxy

/-!
# What expressions see in the course of a request

Two properties of the scope in which the expressions of a request are evaluated, over all runs of
the callbacks.

The functions of the request read the session as it was received, through a variable of the scope.
The session stays what it is; the variable does unless a `set_variable` overwrites it
(`request_values_stable_iff`). The error status is set by `resolve_error_page` and never taken back,
so it is seen by every evaluation after that (`errorStatus_zero_iff`).
-/

namespace Lonesome

open Lonesome.Lib

variable {X : Externals}

/-! ## The functions of the request -/

/-- Every scope in use, now and in the history, satisfies `Q`. -/
def AllScopes (Q : SessionCelContext X.H → Prop) (c : SessionCelContext X.H)
    (h : List (CelEvent X)) : Prop :=
  Q c ∧ ∀ inside c', .eval inside c' ∈ h → Q c'

section AllScopes

variable {Q : SessionCelContext X.H → Prop} {c : SessionCelContext X.H} {h : List (CelEvent X)}

theorem AllScopes.set {c' : SessionCelContext X.H} (hq : AllScopes Q c h) (hc : Q c') :
    AllScopes Q c' h :=
  ⟨hc, hq.2⟩

theorem AllScopes.concat {e : CelEvent X} (hq : AllScopes Q c h)
    (he : ∀ inside c', e = .eval inside c' → Q c') : AllScopes Q c (h ++ [e]) := by
  refine ⟨hq.1, fun inside c' hmem => ?_⟩
  rcases List.mem_append.1 hmem with hmem | hmem
  · exact hq.2 inside c' hmem
  · exact he inside c' (List.mem_singleton.1 hmem).symm

/-- A property of scopes that their updates keep. -/
theorem allScopes_invariant {Writable : Str → Prop}
    (hadd : ∀ c name v, Writable name → Q c → Q (c.addVariable name v))
    (hpayload : ∀ c p, Q c → Q (c.setJwtPayload p))
    (hheader : ∀ c resp, Q c → Q (c.setUpstreamResHeader resp))
    (hstatus : ∀ c status, Q c → Q (c.setErrorStatus status)) :
    ScopeInvariant X Writable (AllScopes Q) where
  evaluates := by
    intro c h inside hq
    refine hq.concat fun inside' c' heq => ?_
    cases heq
    exact hq.1
  addsVariable := fun c h name v hname hq => hq.set (hadd c name v hname hq.1)
  setsPayload := fun c h p hq => hq.set (hpayload c p hq.1)
  setsHeader := fun c h resp hq => hq.set (hheader c resp hq.1)
  begins := by
    intro c h status _ hq
    refine (hq.set (hstatus c (some status) hq.1)).concat fun inside c' heq => ?_
    cases heq

end AllScopes

/-- The scope holds the session under its name. -/
def SessionCelContext.HoldsSession {H : HttpCrate} (c : SessionCelContext H) : Prop :=
  c.celCtx celHttpSessionKey = some .session

/-- The session is the one that was received. -/
def SessionCelContext.Received {H : HttpCrate} (r : ReceivedRequest H) (c : SessionCelContext H) :
    Prop :=
  c.celHttpSession.toReceivedRequest = r

/-- The scope inside comprehensions, with their variables. -/
def SessionCelContext.inner {H : HttpCrate} (c : SessionCelContext H)
    (locals : List (Str × CelValue)) : SessionCelContext H :=
  locals.foldl (fun c l => c.addVariable l.1 l.2) c

theorem received_invariant (r : ReceivedRequest X.H) (Writable : Str → Prop) :
    ScopeInvariant X Writable (AllScopes (SessionCelContext.Received r)) :=
  allScopes_invariant (fun _ _ _ _ h => h) (fun _ _ h => h) (fun _ _ h => h) fun _ _ h => h

theorem holdsSession_ofReceived {H : HttpCrate} (r : ReceivedRequest H) :
    (SessionCelContext.ofReceived r).HoldsSession := by
  show (if celHttpSessionKey = celHttpSessionKey then some CelValue.session else none) = _
  exact if_pos rfl

theorem SessionCelContext.HoldsSession.addVariable {H : HttpCrate} {c : SessionCelContext H}
    (h : c.HoldsSession) {name : Str} (hname : name ≠ celHttpSessionKey) (v : CelValue) :
    (c.addVariable name v).HoldsSession := by
  show (if celHttpSessionKey = name then some v else c.celCtx celHttpSessionKey) = some .session
  rw [if_neg (Ne.symm hname)]
  exact h

theorem holdsSession_invariant :
    ScopeInvariant X (· ≠ celHttpSessionKey) (AllScopes SessionCelContext.HoldsSession) :=
  allScopes_invariant (fun _ _ v hname h => h.addVariable hname v) (fun _ _ h => h) (fun _ _ h => h)
    fun _ _ h => h

namespace RequestFn

variable {H : HttpCrate} {D : Decoders} {r : ReceivedRequest H} {c : SessionCelContext H}

theorem call_of_holdsSession (hreceived : c.Received r) (hvar : c.HoldsSession) (fn : RequestFn) :
    fn.call D c = fn.onSession D r := by
  unfold call SessionCelContext.withSession
  rw [hvar, ← hreceived]
  rfl

theorem call_of_not_holdsSession (hvar : ¬ c.HoldsSession) (fn : RequestFn) :
    fn.call D c = fn.withoutSession := by
  unfold call SessionCelContext.withSession
  split
  · next heq => exact absurd heq hvar
  · rfl

theorem call_ofReceived (fn : RequestFn) : fn.call D (.ofReceived r) = fn.onSession D r :=
  call_of_holdsSession rfl (holdsSession_ofReceived r) fn

/-- The functions have their original values when the scope holds the session; when it does not,
the method of the request is gone. -/
theorem call_eq_iff (hmethod : r.reqHeader.method ≠ "") (hreceived : c.Received r) :
    (∀ fn : RequestFn, fn.call D c = fn.call D (.ofReceived r)) ↔ c.HoldsSession := by
  constructor
  · intro h
    by_contra hvar
    have heq := h methodValue
    rw [call_of_not_holdsSession hvar, call_ofReceived] at heq
    exact hmethod (String.toList_injective (CelValue.string.inj heq).symm)
  · intro hvar fn
    rw [call_of_holdsSession hreceived hvar, call_ofReceived]

end RequestFn

/-- The middlewares of the matched route leave the variable of the session alone. -/
def LonesomeProxy.SparesSession (proxy : LonesomeProxy X) (s : RequestState X) : Prop :=
  ∀ route, proxy.matchedRoute s = some route →
    ∀ m ∈ route.content.middlewares, m.WritesOnly (· ≠ celHttpSessionKey)

theorem holdsSession_inner {H : HttpCrate} {c : SessionCelContext H} (h : c.HoldsSession)
    {locals : List (Str × CelValue)} (hlocals : ∀ l ∈ locals, l.1 ≠ celHttpSessionKey) :
    (c.inner locals).HoldsSession := by
  unfold SessionCelContext.inner
  induction locals generalizing c with
  | nil => exact h
  | cons l locals ih =>
    refine ih (h.addVariable (hlocals l List.mem_cons_self) l.2) fun l' hl' => ?_
    exact hlocals l' (List.mem_cons_of_mem l hl')

theorem received_inner {H : HttpCrate} {r : ReceivedRequest H} {c : SessionCelContext H}
    (h : c.Received r) (locals : List (Str × CelValue)) : (c.inner locals).Received r := by
  unfold SessionCelContext.inner
  induction locals generalizing c with
  | nil => exact h
  | cons l locals ih => exact ih h

/-- **Values of the request.** At every evaluation of every run, the functions of the request have
the values of the original request if and only if the scope holds the session under its name. It
does at all of them, inside comprehensions with other variables too, if no `set_variable` of the
matched route has that name. -/
theorem request_values_stable_iff (proxy : LonesomeProxy X) (session : Session X.H)
    (shared : Shared X.Ω) (time : Nat) (phases : List (Phase X))
    (hmethod : session.reqHeader.method ≠ "") :
    let s := proxy.incoming session shared time
    let original := SessionCelContext.ofReceived (session.received proxy.sniHostPolicy)
    (∀ inside c, .eval inside c ∈ (proxy.run s phases).history →
      ((∀ fn : RequestFn, fn.call X.D c = fn.call X.D original) ↔ c.HoldsSession)) ∧
    (proxy.SparesSession s → ∀ inside c, .eval inside c ∈ (proxy.run s phases).history →
      ∀ (fn : RequestFn) (locals : List (Str × CelValue)), (∀ l ∈ locals, l.1 ≠ celHttpSessionKey) →
        fn.call X.D (c.inner locals) = fn.call X.D original) := by
  intro s original
  have hreceived := (received_invariant (X := X) (session.received proxy.sniHostPolicy)
    fun _ => True).run trivial proxy session shared time ⟨rfl, by simp⟩
    (fun route _ m _ => m.writesOnly_any) phases
  refine ⟨fun inside c hmem => ?_, fun hspares inside c hmem fn locals hlocals => ?_⟩
  · exact RequestFn.call_eq_iff hmethod (hreceived.2 inside c hmem)
  · have hholds := (holdsSession_invariant (X := X)).run (by decide) proxy session shared time
      ⟨holdsSession_ofReceived _, by simp⟩ hspares phases
    have hinner := holdsSession_inner (hholds.2 inside c hmem) hlocals
    have hr := received_inner (hreceived.2 inside c hmem) locals
    rw [RequestFn.call_of_holdsSession hr hinner, RequestFn.call_ofReceived]

/-! A route for every request. -/

def plainRoute (middlewares : List (Middleware Externals.plain)) : Route Externals.plain where
  id := "route"
  priority := 0
  matcher := .fromCel (.boolean true)
  content := { middlewares, upstreamPool := ⟨[()], none, 8⟩, hashKeyProgram := none }

def plainProxy (middlewares : List (Middleware Externals.plain)) : LonesomeProxy Externals.plain where
  routes := ⟨[plainRoute middlewares]⟩
  sniHostPolicy := .looseByHeader

/-- The request to the route, after the phases. -/
def plainRun (middlewares : List (Middleware Externals.plain)) (phases : List (Phase Externals.plain)) :
    RequestState Externals.plain :=
  (plainProxy middlewares).run ((plainProxy middlewares).incoming .plain (.plain ⟨[]⟩) 0) phases

/-- The scope of the request at its start. -/
def plainScope : SessionCelContext Externals.plain.H :=
  .ofReceived (Session.plain.received .looseByHeader)

/-! A variable with the name of the session, then a response with the host in its body. -/

def overwritingConfigs : List MiddlewareConfig := [
  .setVariable ⟨celHttpSessionKey, "'x'".toList, .request, none⟩,
  .respond ⟨200, none, none, some "HostValue()".toList, none⟩]

def overwritingMiddlewares : List (Middleware Externals.plain) := [
  .setVariable ⟨celHttpSessionKey, .request, .string ['x'], none⟩,
  .respond ⟨200, none, none, some (.call none "HostValue" []), none⟩]

theorem overwritten_session_loses_host :
    overwritingConfigs.mapM (buildMiddleware Externals.plain) = .ok overwritingMiddlewares ∧
    ∃ c, .eval false c ∈ (plainRun overwritingMiddlewares [.requestFilter]).history ∧
      RequestFn.hostValue.call Externals.plain.D c = .string [] ∧
      RequestFn.hostValue.call Externals.plain.D plainScope = .string "a.example".toList := by
  have hhistory : (plainRun overwritingMiddlewares [.requestFilter]).history =
      [.eval false plainScope, .eval false (plainScope.addVariable celHttpSessionKey (.string ['x']))] := rfl
  refine ⟨rfl, plainScope.addVariable celHttpSessionKey (.string ['x']), ?_, by decide, by decide⟩
  rw [hhistory]
  exact List.mem_cons_of_mem _ List.mem_cons_self

/-! The same with another name for the variable. -/

def namedMiddlewares : List (Middleware Externals.plain) := [
  .setVariable ⟨['x'], .request, .string ['x'], none⟩,
  .respond ⟨200, none, none, some (.call none "HostValue" []), none⟩]

theorem request_values_stable_namedMiddlewares :
    RequestFn.hostValue.call Externals.plain.D (plainScope.addVariable ['x'] (.string ['x'])) =
      RequestFn.hostValue.call Externals.plain.D plainScope := by
  have h := request_values_stable_iff (plainProxy namedMiddlewares) .plain (.plain ⟨[]⟩) 0
    [.requestFilter] (by decide)
  refine h.2 ?_ false (plainScope.addVariable ['x'] (.string ['x'])) ?_ .hostValue [] (by simp)
  · intro route hroute m hm
    obtain rfl : plainRoute namedMiddlewares = route := Option.some.inj hroute
    rcases List.mem_pair.1 hm with rfl | rfl
    · exact (by decide : ['x'] ≠ celHttpSessionKey)
    · trivial
  · have hhistory : (plainRun namedMiddlewares [.requestFilter]).history =
        [.eval false plainScope, .eval false (plainScope.addVariable ['x'] (.string ['x']))] := rfl
    exact hhistory ▸ List.mem_cons_of_mem _ List.mem_cons_self

/-! ## The error status -/

/-- The status of the last call of `resolve_error_page`. -/
def lastResolved (h : List (CelEvent X)) : Option Nat :=
  h.foldl (fun last e => match e with
    | .resolve status => some status
    | .eval _ _ => last) none

theorem lastResolved_eval (h : List (CelEvent X)) (inside : Bool) (c : SessionCelContext X.H) :
    lastResolved (h ++ [.eval inside c]) = lastResolved h := by
  rw [lastResolved, List.foldl_append]
  rfl

theorem lastResolved_resolve (h : List (CelEvent X)) (status : Nat) :
    lastResolved (h ++ [.resolve status]) = some status := by
  rw [lastResolved, List.foldl_append]
  rfl

theorem mem_of_lastResolved {h : List (CelEvent X)} {status : Nat} (hlast : lastResolved h = some status) :
    .resolve status ∈ h := by
  induction h using List.reverseRecOn with
  | nil => cases hlast
  | append_singleton h e ih =>
    cases e with
    | eval inside c =>
      rw [lastResolved_eval] at hlast
      exact List.mem_append_left _ (ih hlast)
    | resolve status' =>
      rw [lastResolved_resolve, Option.some.injEq] at hlast
      rw [hlast]
      exact List.mem_append_right _ List.mem_cons_self

theorem lastResolved_eq_none_iff {h : List (CelEvent X)} :
    lastResolved h = none ↔ ∀ status, .resolve status ∉ h := by
  constructor
  · intro hlast status hmem
    induction h using List.reverseRecOn with
    | nil => cases hmem
    | append_singleton h e ih =>
      cases e with
      | eval inside c =>
        rw [lastResolved_eval] at hlast
        rcases List.mem_append.1 hmem with hmem | hmem
        · exact ih hlast hmem
        · cases List.mem_singleton.1 hmem
      | resolve status' =>
        rw [lastResolved_resolve] at hlast
        cases hlast
  · intro hno
    cases hlast : lastResolved h with
    | none => rfl
    | some status => exact absurd (mem_of_lastResolved hlast) (hno status)

/-- An evaluation outside of `resolve_error_page` sees the status of its last call. -/
def SeesLastResolved (before : List (CelEvent X)) (e : CelEvent X) : Prop :=
  ∀ c, e = .eval false c → c.celHttpSession.errorStatus = lastResolved before

/-- The error status of the scope follows the history, and so did it at each evaluation. -/
structure FollowsResolved (c : SessionCelContext X.H) (h : List (CelEvent X)) : Prop where
  now : c.celHttpSession.errorStatus = lastResolved h
  isError : ∀ status, .resolve status ∈ h → 400 ≤ status
  before : Justified SeesLastResolved h

theorem followsResolved_invariant :
    ScopeInvariant X (fun _ => True) (FollowsResolved (X := X)) where
  evaluates := by
    rintro c h inside ⟨hnow, herror, hbefore⟩
    refine ⟨by rw [lastResolved_eval, hnow], fun status hmem => ?_, hbefore.concat ?_⟩
    · rcases List.mem_append.1 hmem with hmem | hmem
      · exact herror status hmem
      · cases List.mem_singleton.1 hmem
    · intro c' heq
      cases heq
      exact hnow
  addsVariable := fun _ _ _ _ _ ⟨hnow, herror, hbefore⟩ => ⟨hnow, herror, hbefore⟩
  setsPayload := fun _ _ _ ⟨hnow, herror, hbefore⟩ => ⟨hnow, herror, hbefore⟩
  setsHeader := fun _ _ _ ⟨hnow, herror, hbefore⟩ => ⟨hnow, herror, hbefore⟩
  begins := by
    rintro c h status hstatus ⟨hnow, herror, hbefore⟩
    refine ⟨(lastResolved_resolve h status).symm, fun status' hmem => ?_, hbefore.concat ?_⟩
    · rcases List.mem_append.1 hmem with hmem | hmem
      · exact herror status' hmem
      · cases List.mem_singleton.1 hmem
        exact hstatus
    · intro c' heq
      cases heq

theorem errorStatusValue_eq_zero_iff {H : HttpCrate} (c : SessionCelContext H) :
    c.errorStatusValue = 0 ↔ c.celHttpSession.errorStatus.getD 0 = 0 ∨ ¬ c.HoldsSession := by
  unfold SessionCelContext.errorStatusValue SessionCelContext.withSession
  by_cases hvar : c.HoldsSession
  · rw [hvar]
    simp [hvar]
  · split
    · next heq => exact absurd heq hvar
    · simp [hvar]

section Scope

variable (s : RequestState X) (status : Nat)

theorem keeps_scope_executeIn (c : SessionCelContext X.H) (program : X.Program) :
    Keeps (fun s => s.scope = c) (executeIn X true program) := by
  intro s h
  rw [exec_executeIn]
  exact h

theorem scope_lookupErrorPage :
    ((lookupErrorPage X status).exec s).2.scope = s.scope.setErrorStatus (some status) := by
  have hkeeps := keeps_lookupEntries
    (keeps_scope_executeIn (s.scope.setErrorStatus (some status))) status s.shared.errorPages.snapshot
  rw [lookupErrorPage, exec_bind, exec_ensureSessionCelContext]
  exact hkeeps (s.setScope (s.scope.setErrorStatus (some status))) rfl

theorem scope_resolveErrorPage :
    ((resolveErrorPage X status).exec s).2.scope = s.scope.setErrorStatus (some status) :=
  resolveErrorPage_induct (I := fun s' => s'.scope = s.scope.setErrorStatus (some status))
    (keeps_scope_executeIn _) status rfl

end Scope

/-- **The error status.** At every evaluation of every run outside of `resolve_error_page`, the error
status is `0` if and only if `resolve_error_page` has not been called before in the request, or the
scope has lost the session. A lookup leaves the error status as it found it if and only if it was
that of the lookup already. -/
theorem errorStatus_zero_iff (proxy : LonesomeProxy X) (session : Session X.H) (shared : Shared X.Ω)
    (time : Nat) (phases : List (Phase X)) :
    (∀ before c after, (proxy.run (proxy.incoming session shared time) phases).history =
        before ++ .eval false c :: after →
      (c.errorStatusValue = 0 ↔ (∀ status, .resolve status ∉ before) ∨ ¬ c.HoldsSession)) ∧
    ∀ (s : RequestState X) (status : Nat),
      (((lookupErrorPage X status).exec s).2.scope.celHttpSession.errorStatus =
          s.scope.celHttpSession.errorStatus ↔ s.scope.celHttpSession.errorStatus = some status) ∧
      (((resolveErrorPage X status).exec s).2.scope.celHttpSession.errorStatus =
          s.scope.celHttpSession.errorStatus ↔ s.scope.celHttpSession.errorStatus = some status) := by
  constructor
  · intro before c after hhistory
    have hfollows := (followsResolved_invariant (X := X)).run trivial proxy session shared time
      ⟨rfl, by simp, justified_nil⟩ (fun route _ m _ => m.writesOnly_any) phases
    have hstatus := hfollows.before before _ after hhistory c rfl
    rw [errorStatusValue_eq_zero_iff, hstatus, ← lastResolved_eq_none_iff]
    cases hlast : lastResolved before with
    | none => simp
    | some status =>
      have hmem : .resolve status ∈ (proxy.run (proxy.incoming session shared time) phases).history := by
        rw [hhistory]
        exact List.mem_append_left _ (mem_of_lastResolved hlast)
      have hle := hfollows.isError status hmem
      have hne : status ≠ 0 := by omega
      simp [hne]
  · intro s status
    rw [scope_lookupErrorPage, scope_resolveErrorPage]
    exact ⟨eq_comm, eq_comm⟩

/-! A bare error status in a response, and the error status in the access log: no page is found. -/

def loggingConfigs : List MiddlewareConfig := [
  .accessLog ⟨none, some "access.log".toList, some "ErrorStatusValue()".toList⟩,
  .respond ⟨404, none, none, none, none⟩]

def loggingMiddlewares : List (Middleware Externals.plain) := [
  .accessLog ⟨false, "access.log".toList, some (.call none "ErrorStatusValue" [])⟩,
  .respond ⟨404, none, none, none, none⟩]

/-- Without the response the log sees none. -/
theorem errorStatus_zero_logged :
    .eval false plainScope ∈ (plainRun loggingMiddlewares [.logging none]).history ∧
      plainScope.errorStatusValue = 0 := by
  have h := errorStatus_zero_iff (plainProxy loggingMiddlewares) .plain (.plain ⟨[]⟩) 0 [.logging none]
  have hhistory : (plainRun loggingMiddlewares [.logging none]).history = [.eval false plainScope] := rfl
  refine ⟨by rw [hhistory]; exact List.mem_cons_self, (h.1 [] plainScope [] hhistory).2 (.inl ?_)⟩
  exact fun status hmem => nomatch hmem

theorem logged_errorStatus_not_zero :
    loggingConfigs.mapM (buildMiddleware Externals.plain) = .ok loggingMiddlewares ∧
    ∃ c, .eval false c ∈ (plainRun loggingMiddlewares [.requestFilter, .logging none]).history ∧
      c.errorStatusValue = 404 := by
  have hhistory : (plainRun loggingMiddlewares [.requestFilter, .logging none]).history =
      [.resolve 404, .eval false (plainScope.setErrorStatus (some 404))] := rfl
  refine ⟨rfl, plainScope.setErrorStatus (some 404), ?_, by decide⟩
  rw [hhistory]
  exact List.mem_cons_of_mem _ List.mem_cons_self

end Lonesome
