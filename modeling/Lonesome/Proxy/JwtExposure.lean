import Lonesome.Middlewares.JwtGate
import Lonesome.Proxy.CelStability

/-!
# The payloads that expressions see

Expressions read a JWT payload by three functions and by the variable `jwt_payload`. Over every run of
a request they see payloads only that a `jwt` middleware of the matched route accepted, in an earlier
`request_filter` of the run, with the header fields of the request at that time and by its clock
(`LonesomeProxy.Accepted`).

The invariant (`Watch`) is kept by the steps of all hooks; `authorize`, which writes payloads, keeps it
while the header fields are those of the callback.
-/

namespace Lonesome

open Lonesome.Lib

variable {X : Externals}

/-- The name of the variable with the payload. -/
def jwtPayloadKey : Str := "jwt_payload".toList

/-! ## What a scope exposes -/

variable (X) in
/-- The payloads that a scope exposes are such that `A`. The variable is looked at when nothing else
writes it. -/
structure Exposes (spares : Prop) (A : JwtPayload → Prop) (c : SessionCelContext X.H) : Prop where
  payload : ∀ p, c.celHttpSession.jwtPayload = some p → A p
  binding : spares → ∀ v, c.celCtx jwtPayloadKey = some v → ∃ p, A p ∧ X.toValue (.object p) = .ok v

theorem SessionCelContext.celCtx_addVariable_self {H : HttpCrate} (c : SessionCelContext H) (name : Str)
    (v : CelValue) : (c.addVariable name v).celCtx name = some v :=
  if_pos rfl

namespace Exposes

variable {spares : Prop} {A B : JwtPayload → Prop} {c : SessionCelContext X.H}

theorem mono (h : Exposes X spares A c) (hAB : ∀ p, A p → B p) : Exposes X spares B c where
  payload := fun p hp => hAB p (h.payload p hp)
  binding := fun hs v hv =>
    let ⟨p, hp, hvalue⟩ := h.binding hs v hv
    ⟨p, hAB p hp, hvalue⟩

theorem ofReceived (r : ReceivedRequest X.H) : Exposes X spares A (.ofReceived r) where
  payload := fun _ hp => (nomatch hp)
  binding := fun _ _ hv => (nomatch hv)

theorem addVariable (h : Exposes X spares A c) {name : Str} (hname : spares → name ≠ jwtPayloadKey)
    (v : CelValue) : Exposes X spares A (c.addVariable name v) where
  payload := h.payload
  binding := fun hs v' hv' => by
    refine h.binding hs v' ?_
    have heq : (c.addVariable name v).celCtx jwtPayloadKey = c.celCtx jwtPayloadKey :=
      if_neg (Ne.symm (hname hs))
    rwa [heq] at hv'

end Exposes

/-! ## The invariant -/

/-- The scope and every evaluation expose payloads only that were accepted by now, on a route such that
`R` and with header fields such that `F`, since a time. -/
structure Watch (spares : Prop) (A : Nat → JwtPayload → Prop) (R : Option (Route X) → Prop)
    (F : HeaderMap → Prop) (since : Nat) (s : RequestState X) : Prop where
  hasScope : s.ctx.sessionCelContext = some s.scope
  scope : Exposes X spares (A s.time) s.scope
  evals : ∀ inside c, .eval inside c ∈ s.history → Exposes X spares (A s.time) c
  route : R s.ctx.currentRoute
  fields : F s.session.reqHeader.headers
  since : since ≤ s.time

namespace Watch

variable {spares : Prop} {A : Nat → JwtPayload → Prop} {R : Option (Route X) → Prop}
  {F : HeaderMap → Prop} {since : Nat} {s s' : RequestState X}

/-- The scope is written. -/
theorem setScope (h : Watch spares A R F since s) {c : SessionCelContext X.H}
    (hc : Exposes X spares (A s.time) c) : Watch spares A R F since (s.setScope c) :=
  ⟨rfl, hc, h.evals, h.route, h.fields, h.since⟩

theorem agree (hmono : ∀ n n' p, n ≤ n' → A n p → A n' p) (h : Watch spares A R F since s)
    (hscope : s'.ctx.sessionCelContext = s.ctx.sessionCelContext)
    (hroute : s'.ctx.currentRoute = s.ctx.currentRoute) (htime : s.time ≤ s'.time)
    (hhistory : s'.history = s.history) (hfields : F s'.session.reqHeader.headers) :
    Watch spares A R F since s' := by
  have heq : s'.scope = s.scope := RequestState.scope_eq (hscope.trans h.hasScope)
  refine ⟨by rw [hscope, heq, h.hasScope], ?_, ?_, hroute ▸ h.route, hfields, h.since.trans htime⟩
  · rw [heq]
    exact h.scope.mono fun p => hmono _ _ p htime
  · intro inside c hc
    rw [hhistory] at hc
    exact (h.evals inside c hc).mono fun p => hmono _ _ p htime

/-- More payloads, another reading of the route and the fields, and from the start. -/
theorem mono {A' : Nat → JwtPayload → Prop} {R' : Option (Route X) → Prop} {F' : HeaderMap → Prop}
    {since' : Nat} (h : Watch spares A R F since s) (hA : ∀ p, A s.time p → A' s.time p)
    (hroute : R' s.ctx.currentRoute) (hfields : F' s.session.reqHeader.headers)
    (hsince : since' ≤ s.time) : Watch spares A' R' F' since' s where
  hasScope := h.hasScope
  scope := h.scope.mono hA
  evals := fun inside c hc => (h.evals inside c hc).mono hA
  route := hroute
  fields := hfields
  since := hsince

theorem routine (hmono : ∀ n n' p, n ≤ n' → A n p → A n' p) :
    Routine X (fun name => spares → name ≠ jwtPayloadKey) (Watch spares A R F since) where
  frame := fun s s' hagree h =>
    h.agree hmono hagree.scope hagree.route hagree.time hagree.history (hagree.fields ▸ h.fields)
  makesScope := fun s h => h.setScope h.scope
  evaluates := by
    intro s inside h
    refine ⟨h.hasScope, h.scope, fun inside' c hc => ?_, h.route, h.fields, h.since⟩
    rcases List.mem_append.1 hc with hc | hc
    · exact h.evals inside' c hc
    · cases List.mem_singleton.1 hc
      exact h.scope
  addsVariable := fun s name v hname h => h.setScope (h.scope.addVariable hname v)
  setsHeader := fun s header h => h.setScope ⟨h.scope.payload, h.scope.binding⟩
  begins := by
    intro s status _ h
    refine ⟨rfl, ⟨h.scope.payload, h.scope.binding⟩, fun inside c hc => ?_, h.route, h.fields, h.since⟩
    rcases List.mem_append.1 hc with hc | hc
    · exact h.evals inside c hc
    · cases List.mem_singleton.1 hc

/-- A payload that the middleware accepts by the clock of the step may be exposed. -/
theorem authorize (hmono : ∀ n n' p, n ≤ n' → A n p → A n' p) {m : JwtMiddleware X}
    (hA : ∀ headers t p, F headers → since ≤ t → m.Accepts headers (X.now t) p → A (t + 1) p) :
    Keeps (Watch spares A R F since) m.authorize := by
  intro s h
  have hlater : Watch spares A R F since { s with time := s.time + 1 } :=
    h.agree hmono rfl rfl (Nat.le_succ s.time) rfl h.fields
  rcases m.exec_authorize s with ⟨-, hexec⟩ | ⟨p, haccepts, hcases⟩
  · rw [hexec]
    exact hlater
  · have hp : A (s.time + 1) p := hA _ s.time p h.fields h.since haccepts
    have hpayload : Exposes X spares (A (s.time + 1)) (s.scope.setJwtPayload (some p)) :=
      ⟨fun q hq => Option.some.inj hq ▸ hp, (h.scope.mono fun q => hmono _ _ q (Nat.le_succ s.time)).binding⟩
    have hexposed : Watch spares A R F since (JwtMiddleware.exposed s p) := hlater.setScope hpayload
    rcases hcases with ⟨e, -, hexec⟩ | ⟨v, hv, hexec⟩
    · rw [hexec]
      exact hexposed
    · rw [hexec]
      refine hexposed.setScope ⟨hpayload.payload, fun _ v' hv' => ⟨p, hp, ?_⟩⟩
      obtain rfl : v = v' := Option.some.inj
        (((JwtMiddleware.exposed s p).scope.celCtx_addVariable_self jwtPayloadKey v).symm.trans hv')
      exact hv

end Watch

/-! ## Runs -/

namespace LonesomeProxy

variable (proxy : LonesomeProxy X) (s₀ : RequestState X)

/-- No `set_variable` of the matched route has the name of the payload. -/
def SparesPayload : Prop :=
  ∀ route, proxy.matchedRoute s₀ = some route →
    ∀ m ∈ route.content.middlewares, m.WritesOnly (· ≠ jwtPayloadKey)

/-- A `jwt` middleware of the matched route accepts the payload, with these header fields and by the
clock at some step between two times. -/
def AcceptedBetween (headers : HeaderMap) (t₁ t₂ : Nat) (p : JwtPayload) : Prop :=
  ∃ route m t, proxy.matchedRoute s₀ = some route ∧ .jwt m ∈ route.content.middlewares ∧
    t₁ ≤ t ∧ t < t₂ ∧ m.Accepts headers (X.now t) p

/-- A `request_filter` of the run accepted the payload. -/
def Accepted (phases : List (Phase X)) (p : JwtPayload) : Prop :=
  ∃ before after, phases = before ++ .requestFilter :: after ∧
    proxy.AcceptedBetween s₀ (proxy.run s₀ before).session.reqHeader.headers (proxy.run s₀ before).time
      (proxy.run s₀ (before ++ [.requestFilter])).time p

variable {proxy s₀}

theorem run_concat (phases : List (Phase X)) (phase : Phase X) :
    proxy.run s₀ (phases ++ [phase]) = ((phase.run proxy).exec (proxy.run s₀ phases)).2 := by
  unfold run
  rw [List.foldl_append]
  rfl

theorem Accepted.concat {phases : List (Phase X)} {p : JwtPayload} (h : proxy.Accepted s₀ phases p)
    (phase : Phase X) : proxy.Accepted s₀ (phases ++ [phase]) p := by
  obtain ⟨before, after, rfl, haccepted⟩ := h
  exact ⟨before, after ++ [phase], by simp, haccepted⟩

/-- The names that the route writes. -/
theorem writes_of_watch {A : Nat → JwtPayload → Prop} {F : HeaderMap → Prop} {since : Nat} :
    OfRoute (X := X) (·.WritesOnly fun name => proxy.SparesPayload s₀ → name ≠ jwtPayloadKey)
      (Watch (proxy.SparesPayload s₀) A (· = proxy.matchedRoute s₀) F since) := by
  intro s h route hroute m hm
  cases m with
  | setVariable m => exact fun hspares => hspares route (h.route.symm.trans hroute) _ hm
  | _ => trivial

/-- A `request_filter` adds the payloads that its middlewares accept. -/
theorem watch_requestFilter {A : JwtPayload → Prop} {s : RequestState X}
    (h : Watch (proxy.SparesPayload s₀) (fun _ => A) (· = proxy.matchedRoute s₀) (fun _ => True) 0 s) :
    Watch (proxy.SparesPayload s₀)
      (fun n p => A p ∨ proxy.AcceptedBetween s₀ s.session.reqHeader.headers s.time n p)
      (· = proxy.matchedRoute s₀) (· = s.session.reqHeader.headers) s.time (proxy.requestFilter.exec s).2 := by
  have hmono : ∀ n n' p, n ≤ n' →
      (A p ∨ proxy.AcceptedBetween s₀ s.session.reqHeader.headers s.time n p) →
      A p ∨ proxy.AcceptedBetween s₀ s.session.reqHeader.headers s.time n' p := by
    rintro n n' p hn (hp | ⟨route, m, t, hroute, hm, h₁, h₂, haccepts⟩)
    · exact .inl hp
    · exact .inr ⟨route, m, t, hroute, hm, h₁, h₂.trans_le hn, haccepts⟩
  have hbegin : Watch (proxy.SparesPayload s₀)
      (fun n p => A p ∨ proxy.AcceptedBetween s₀ s.session.reqHeader.headers s.time n p)
      (· = proxy.matchedRoute s₀) (· = s.session.reqHeader.headers) s.time s :=
    h.mono (fun _ => .inl) h.route rfl le_rfl
  refine (Watch.routine hmono).proxy_requestFilter writes_of_watch ?_ proxy s hbegin
  intro s' h' route hroute m hm
  cases m with
  | jwt m =>
    refine Watch.authorize hmono fun headers t p hfields hsince haccepts => .inr ?_
    subst hfields
    exact ⟨route, m, t, h'.route.symm.trans hroute, hm, hsince, Nat.lt_succ_self t, haccepts⟩
  | _ => trivial

variable (proxy s₀) in
/-- The invariant of a run: what is exposed has been accepted in it, on the matched route. -/
def Watched (phases : List (Phase X)) : Prop :=
  Watch (proxy.SparesPayload s₀) (fun _ => proxy.Accepted s₀ phases) (· = proxy.matchedRoute s₀)
    (fun _ => True) 0 (proxy.run s₀ phases)

/-- At any time, since nothing that has been accepted is forgotten. -/
theorem routine_watch {A : JwtPayload → Prop} {R : Option (Route X) → Prop} :
    Routine X (fun name => proxy.SparesPayload s₀ → name ≠ jwtPayloadKey)
      (Watch (proxy.SparesPayload s₀) (fun _ => A) R (fun _ => True) 0) :=
  Watch.routine fun _ _ _ _ h => h

theorem watched_incoming (session : Session X.H) (shared : Shared X.Ω) (time : Nat) :
    proxy.Watched (proxy.incoming session shared time) [] := by
  have hselected : Watch (proxy.SparesPayload (proxy.incoming session shared time))
      (fun _ => proxy.Accepted (proxy.incoming session shared time) []) (fun _ => True) (fun _ => True) 0
      (proxy.select.exec (proxy.incoming session shared time)).2 := by
    refine routine_watch.select ?_ proxy session shared time ?_
    · exact fun s route h => ⟨h.hasScope, h.scope, h.evals, trivial, trivial, h.since⟩
    · exact ⟨rfl, .ofReceived _, fun _ _ hc => (nomatch hc), trivial, trivial, Nat.zero_le _⟩
  -- from here on the route stays what it is
  exact routine_watch.proxy_earlyRequestFilter writes_of_watch proxy
    (hselected.mono (fun _ h => h) rfl trivial (Nat.zero_le _))

theorem Watched.requestFilter {phases : List (Phase X)} (h : proxy.Watched s₀ phases) :
    proxy.Watched s₀ (phases ++ [.requestFilter]) := by
  have hstate : proxy.run s₀ (phases ++ [.requestFilter]) =
      (proxy.requestFilter.exec (proxy.run s₀ phases)).2 :=
    (run_concat phases _).trans (exec_discard _ _)
  have hfilter := watch_requestFilter h
  rw [← hstate] at hfilter
  refine hfilter.mono ?_ hfilter.route trivial (Nat.zero_le _)
  rintro p (hp | hp)
  · exact hp.concat _
  · exact ⟨phases, [], rfl, hp⟩

theorem Watched.other {phases : List (Phase X)} (h : proxy.Watched s₀ phases) {phase : Phase X}
    (hphase : phase ≠ .requestFilter) : proxy.Watched s₀ (phases ++ [phase]) := by
  have hkeeps := routine_watch.phase writes_of_watch (fun o => keeps_modify fun s hs => ?_)
    (fun f => keeps_modify fun s hs => ?_) proxy phase (fun h => absurd h hphase) _ h
  · rw [← run_concat] at hkeeps
    exact hkeeps.mono (fun p hp => hp.concat phase) hkeeps.route trivial (Nat.zero_le _)
  · exact hs.agree (fun _ _ _ _ h => h) rfl rfl le_rfl rfl trivial
  · exact hs.agree (fun _ _ _ _ h => h) rfl rfl le_rfl rfl trivial

theorem watched_run (session : Session X.H) (shared : Shared X.Ω) (time : Nat)
    (phases : List (Phase X)) : proxy.Watched (proxy.incoming session shared time) phases := by
  induction phases using List.reverseRecOn with
  | nil => exact watched_incoming session shared time
  | append_singleton phases phase ih =>
    by_cases hphase : phase = .requestFilter
    · rw [hphase]
      exact ih.requestFilter
    · exact ih.other hphase

end LonesomeProxy

/-! ## What expressions see -/

namespace JwtFn

/-- What a function says about a payload, or without one. -/
def onPayload (toValue : Json → Except String CelValue) (payloadText : JwtPayload → Str)
    (payload : Option JwtPayload) : JwtFn → Except String CelValue
  | jwtClaim key expected => .ok (.bool (claimIs expected (payload.bind (Json.lookup · key))))
  | jwtClaimValue key => (toValue ((payload.bind (Json.lookup · key)).getD .null)).mapError
      fun e => s!"failed to convert claim to cel value: {e}"
  | jwtPayloadValue => .ok (.string ((payload.map payloadText).getD []))

/-- The functions read the payload of the session, or none when the scope has lost the session. -/
theorem call_eq_onPayload {H : HttpCrate} (toValue : Json → Except String CelValue)
    (payloadText : JwtPayload → Str) (c : SessionCelContext H) :
    ∃ seen : Option JwtPayload, (∀ p, seen = some p → c.celHttpSession.jwtPayload = some p) ∧
      ∀ fn : JwtFn, fn.call toValue payloadText c = fn.onPayload toValue payloadText seen := by
  by_cases hvar : c.HoldsSession
  · have hsession {R : Type} (f : CelSession H → R) : c.withSession f = some (f c.celHttpSession) := by
      unfold SessionCelContext.withSession
      rw [hvar]
    refine ⟨c.celHttpSession.jwtPayload, fun p hp => hp, fun fn => ?_⟩
    cases fn <;> simp only [call, onPayload, hsession, CelSession.jwtClaimValue, Option.getD_some,
      Option.join_some]
  · have hnone {R : Type} (f : CelSession H → R) : c.withSession f = none := by
      unfold SessionCelContext.withSession
      split
      · next heq => exact absurd heq hvar
      · rfl
    refine ⟨none, fun p hp => ?_, fun fn => ?_⟩
    · cases hp
    · cases fn <;> simp only [call, onPayload, hnone] <;> rfl

end JwtFn

theorem JwtMiddleware.fromConfig_eq_ok {cfg : JwtConfig} {m : JwtMiddleware X}
    (h : JwtMiddleware.fromConfig X cfg = .ok m) :
    m.onError = cfg.onError ∧ (cfg.rule = none → m.ruleProgram = none) := by
  unfold JwtMiddleware.fromConfig at h
  obtain ⟨_, -, h⟩ := bind_eq_ok_iff.1 h
  obtain ⟨program, hprogram, h⟩ := bind_eq_ok_iff.1 h
  obtain ⟨keys, -, h⟩ := bind_eq_ok_iff.1 h
  cases h
  refine ⟨rfl, fun hrule => ?_⟩
  rw [hrule] at hprogram
  exact (Except.ok.inj hprogram).symm

/-- **The JWT gate.** A middleware that denies and has no rule lets a request continue if and only if
it accepts it with a payload, and at every evaluation of every run the functions about the payload
read an accepted one or none; so does the variable `jwt_payload`, unless a `set_variable` of the
matched route has its name. -/
theorem jwt_gate (htoValue : ∀ members, ∃ v, X.toValue (.object members) = .ok v) :
    (∀ (cfg : JwtConfig) (m : JwtMiddleware X) (s : RequestState X),
      JwtMiddleware.fromConfig X cfg = .ok m → cfg.onError = .deny → cfg.rule = none →
      ((m.requestFilter.exec s).1 = .ok false ↔
        ∃ p, m.Accepts s.session.reqHeader.headers (X.now s.time) p)) ∧
    ∀ (proxy : LonesomeProxy X) (session : Session X.H) (shared : Shared X.Ω) (time : Nat)
      (phases : List (Phase X)) (inside : Bool) (c : SessionCelContext X.H),
      let s₀ := proxy.incoming session shared time
      .eval inside c ∈ (proxy.run s₀ phases).history →
      (∃ seen : Option JwtPayload, (∀ p, seen = some p → proxy.Accepted s₀ phases p) ∧
        ∀ fn : JwtFn, fn.call X.toValue (fun p => X.jsonText (.object p)) c =
          fn.onPayload X.toValue (fun p => X.jsonText (.object p)) seen) ∧
      (proxy.SparesPayload s₀ → ∀ v, c.celCtx jwtPayloadKey = some v →
        ∃ p, proxy.Accepted s₀ phases p ∧ X.toValue (.object p) = .ok v) := by
  constructor
  · intro cfg m s hm hdeny hrule
    obtain ⟨honError, hprogram⟩ := JwtMiddleware.fromConfig_eq_ok hm
    exact m.continues_iff htoValue (honError.trans hdeny) (hprogram hrule) s
  · intro proxy session shared time phases inside c s₀ heval
    have hexposes := (LonesomeProxy.watched_run session shared time phases).evals inside c heval
    refine ⟨?_, hexposes.binding⟩
    obtain ⟨seen, hseen, hcall⟩ := JwtFn.call_eq_onPayload X.toValue (fun p => X.jsonText (.object p)) c
    exact ⟨seen, fun p hp => hexposes.payload p (hseen p hp), hcall⟩

/-! A route that sets the variable itself, without any token. -/

def namesakeConfigs : List MiddlewareConfig := [
  .setVariable ⟨jwtPayloadKey, "'x'".toList, .request, none⟩,
  .respond ⟨200, none, none, some "HostValue()".toList, none⟩]

def namesakeMiddlewares : List (Middleware Externals.plain) := [
  .setVariable ⟨jwtPayloadKey, .request, .string ['x'], none⟩,
  .respond ⟨200, none, none, some (.call none "HostValue" []), none⟩]

theorem namesake_exposes_no_payload :
    namesakeConfigs.mapM (buildMiddleware Externals.plain) = .ok namesakeMiddlewares ∧
    ∃ c, .eval false c ∈ (plainRun namesakeMiddlewares [.requestFilter]).history ∧
      c.celCtx jwtPayloadKey = some (.string ['x']) ∧
      ∀ p, ¬ (plainProxy namesakeMiddlewares).Accepted
        ((plainProxy namesakeMiddlewares).incoming .plain (.plain ⟨[]⟩) 0) [.requestFilter] p := by
  have hhistory : (plainRun namesakeMiddlewares [.requestFilter]).history =
      [.eval false plainScope, .eval false (plainScope.addVariable jwtPayloadKey (.string ['x']))] := rfl
  refine ⟨rfl, plainScope.addVariable jwtPayloadKey (.string ['x']), ?_, by decide, ?_⟩
  · rw [hhistory]
    exact List.mem_cons_of_mem _ List.mem_cons_self
  · rintro p ⟨_, _, -, route, m, _, hroute, hm, -⟩
    obtain rfl : plainRoute namesakeMiddlewares = route := Option.some.inj hroute
    rcases List.mem_pair.1 hm with h | h <;> cases h

/-! One key, which verifies a single token. -/

def oneKeyJose : Jose where
  Jwk := Unit
  fromJwks _ := .ok [()]
  keyId _ := none
  decodeHeader token :=
    if token = "h.p.s".toList then .ok [("alg".toList, .string "HS256".toList)] else .error "invalid token"
  verifier alg _ :=
    if alg = "HS256".toList then
      some fun token => if token = "h.p.s".toList then some [("exp".toList, .nat 10)] else none
    else none
  decrypter _ _ := none
  notBefore payload := ((Json.lookup payload "nbf".toList).bind Json.asU64).map fun seconds => 1000 * seconds
  expiresAt payload := ((Json.lookup payload "exp".toList).bind Json.asU64).map fun seconds => 1000 * seconds

def Externals.oneKey : Externals := { Externals.plain with jose := oneKeyJose }

def oneKeyConfig : JwtConfig where
  headerName := "authorization".toList
  bearerPrefix := "Bearer ".toList
  jwks := "one key".toList
  validateTime := true
  onError := .deny
  rule := none

def oneKeyMiddleware : JwtMiddleware Externals.oneKey where
  headerName := "authorization".toList
  bearerPrefix := "Bearer ".toList
  onError := .deny
  validateTime := true
  jwksPool := [()]
  ruleProgram := none

def oneKeyProxy : LonesomeProxy Externals.oneKey where
  routes := ⟨[{
    id := "route"
    priority := 0
    matcher := .fromCel (.boolean true)
    content := {
      middlewares := [.jwt oneKeyMiddleware, .respond ⟨200, none, none, some (.call none "HostValue" []), none⟩]
      upstreamPool := ⟨[()], none, 8⟩
      hashKeyProgram := none } }]⟩
  sniHostPolicy := .looseByHeader

def oneKeySession : Session Externals.oneKey.H :=
  { Session.plain with reqHeader := { Session.plain.reqHeader with
      headers := [("authorization", .ofAscii "Bearer h.p.s".toList)] } }

def oneKeyState : RequestState Externals.oneKey :=
  oneKeyProxy.incoming oneKeySession (.plain ⟨[]⟩) 0

theorem oneKeyMiddleware_accepts :
    oneKeyMiddleware.Accepts oneKeySession.reqHeader.headers 0 [("exp".toList, .nat 10)] := by
  refine ⟨"Bearer h.p.s".toList, "h.p.s".toList, _, "HS256".toList, by decide, .inr ⟨by decide, ?_⟩,
    .inl (by decide), rfl, rfl, ⟨[], (), [], rfl, ⟨fun _ h => (nomatch h), rfl⟩, nofun⟩, fun _ => ⟨?_, ?_⟩⟩
  · exact ⟨"h.p.s".toList, by decide, by decide, by decide⟩
  · exact fun _ h => (nomatch h)
  · intro exp h
    rw [← Option.some.inj h]
    decide

/-- The scope after the token was accepted. -/
def oneKeyScope : SessionCelContext Externals.oneKey.H :=
  ((SessionCelContext.ofReceived (oneKeySession.received .looseByHeader)).setJwtPayload
    (some [("exp".toList, .nat 10)])).addVariable jwtPayloadKey (.other [])

theorem jwt_gate_oneKey :
    (oneKeyMiddleware.requestFilter.exec oneKeyState).1 = .ok false ∧
    ∃ p, oneKeyProxy.Accepted oneKeyState [.requestFilter] p := by
  have hgate := jwt_gate (X := .oneKey) fun _ => ⟨.other [], rfl⟩
  refine ⟨(hgate.1 oneKeyConfig oneKeyMiddleware oneKeyState rfl rfl rfl).2 ⟨_, oneKeyMiddleware_accepts⟩, ?_⟩
  have hhistory : (oneKeyProxy.run oneKeyState [.requestFilter]).history = [.eval false oneKeyScope] := rfl
  have hspares : oneKeyProxy.SparesPayload oneKeyState := by
    intro route hroute m hm
    obtain rfl := Option.some.inj hroute
    rcases List.mem_pair.1 hm with rfl | rfl <;> trivial
  have hexposes := (hgate.2 oneKeyProxy oneKeySession (.plain ⟨[]⟩) 0 [.requestFilter] false oneKeyScope
    (hhistory ▸ List.mem_singleton_self _)).2 hspares (.other []) rfl
  exact ⟨_, hexposes.choose_spec.1⟩

end Lonesome
