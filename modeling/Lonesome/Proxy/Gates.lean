import Lonesome.Middlewares.JwtGate
import Lonesome.Proxy.CelStability
import Lonesome.Proxy.Turns

/-!
# No way around a gate

`basic_auth`, `jwt` and `rate_limit` answer the requests that they do not admit. A request that
`request_filter` lets through has met every gate of its route: none of the middlewares before a gate,
none of the requests meanwhile and no order of the list gets it past one that has no reason to admit it
(`gates_hold`). What a gate looks at are the header fields as they were received: no request filter
changes them.
-/

namespace Lonesome

open Lonesome.Lib

variable {X : Externals}

/-! ## What the gates ask for -/

/-- The text of the credentials after the scheme, which may have been written several times. -/
inductive AfterScheme : Str → Str → Prop where
  | once (rest : Str) : AfterScheme ("Basic ".toList ++ rest) rest
  | again {s rest : Str} : AfterScheme s rest → AfterScheme ("Basic ".toList ++ s) rest

/-- The fields carry the name and the password of a user, the last one of that name. -/
def BasicAuthMiddleware.Authenticates (m : BasicAuthMiddleware X) (fields : HeaderMap) : Prop :=
  ∃ v value encoded username password user,
    fields.get "authorization" = some v ∧ v.toStr = some value ∧
    AfterScheme (Str.trim value) encoded ∧
    X.decodeBase64 (Str.trim encoded) = some (username ++ ':' :: password) ∧ ':' ∉ username ∧
    m.users.reverse.find? (·.name == username) = some user ∧
    X.verifyPassword password user.passwordHash = true

/-- Why a gate lets a request through that it meets in the state: its rule does not apply, or the request
has what it asks for. -/
def Middleware.Admits (s : RequestState X) : Middleware X → Prop
  | .basicAuth m => s.applies m.celProgram = false ∨ m.Authenticates s.session.reqHeader.headers
  | .jwt m => m.onError = .deny → s.applies m.ruleProgram = false ∨
      ∃ payload, m.Accepts s.session.reqHeader.headers (X.now (s.ruled m.ruleProgram).time) payload
  | .rateLimit m => s.applies m.celProgram = false ∨
      ∀ key s', m.keyValue.exec (s.ruled m.celProgram) = (.ok (some key), s') →
        s'.shared.rates key < m.maxRequestsPerObserve
  | _ => True

/-- A middleware that the request passes, with the fields it came in with. -/
structure Admitted (fields : HeaderMap) (m : Middleware X) (s s' : RequestState X) : Prop where
  passes : Passes m s s'
  fields : s.met.session.reqHeader.headers = fields
  admits : m.Admits s.met

/-! ## The gates -/

section Gates

variable {s s' : RequestState X}

theorem not_passes_of_answer {m : ReqM X Unit} (h : (do m; return true : ReqM X Bool).exec s = (.ok false, s')) :
    False := by
  obtain ⟨_, _, _, hreturn⟩ := exec_bind_eq_ok_iff.1 h
  cases hreturn

/-- A rule in front of a filter. -/
theorem declined_or {program : Option X.Program} {body : ReqM X Bool} {reason : Prop}
    (h : (do if ← shouldApply X program then body else return false : ReqM X Bool).exec s =
      (.ok false, s'))
    (hbody : body.exec (s.ruled program) = (.ok false, s') → reason) :
    s.applies program = false ∨ reason := by
  rcases exec_whenApplies_eq_ok h with ⟨hskipped, -, -⟩ | ⟨-, h⟩
  · exact .inl hskipped
  · exact .inr (hbody h)

/-! ### basic_auth -/

theorem afterScheme_go (n : Nat) (s : Str) :
    Str.trimStartMatches.go "Basic ".toList n s = s ∨
      AfterScheme s (Str.trimStartMatches.go "Basic ".toList n s) := by
  induction n generalizing s with
  | zero => exact .inl rfl
  | succ n ih =>
    rw [Str.trimStartMatches.go]
    split
    · next rest hrest =>
      obtain rfl := Str.stripPrefix_eq_some_iff.1 hrest
      refine .inr ?_
      rcases ih rest with heq | hafter
      · rw [heq]
        exact .once rest
      · exact .again hafter
    · exact .inl rfl

theorem afterScheme_trimStartMatches {s : Str} (h : "Basic ".toList.isPrefixOf s = true) :
    AfterScheme s (Str.trimStartMatches "Basic ".toList s) := by
  obtain ⟨rest, rfl⟩ := List.isPrefixOf_iff_prefix.1 h
  have hfirst : Str.trimStartMatches "Basic ".toList ("Basic ".toList ++ rest) =
      Str.trimStartMatches.go "Basic ".toList (rest.length + 5) rest := by
    rw [Str.trimStartMatches, List.length_append, Nat.add_comm]
    show Str.trimStartMatches.go _ (rest.length + 5 + 1) _ = _
    rw [Str.trimStartMatches.go, Str.stripPrefix_eq_some_iff.2 rfl]
  rw [hfirst]
  rcases afterScheme_go (rest.length + 5) rest with heq | hafter
  · rw [heq]
    exact .once rest
  · exact .again hafter

theorem parseBasicCredentials_eq_some {value username password : Str}
    (h : BasicAuthMiddleware.parseBasicCredentials X value = some (username, password)) :
    ∃ encoded, AfterScheme value encoded ∧
      X.decodeBase64 (Str.trim encoded) = some (username ++ ':' :: password) ∧ ':' ∉ username := by
  unfold BasicAuthMiddleware.parseBasicCredentials at h
  dsimp only at h
  split at h
  · next hscheme =>
    obtain ⟨decoded, hdecoded, hsplit⟩ := Option.bind_eq_some_iff.1 h
    obtain ⟨hcolon, rfl⟩ := Str.splitOnce_eq_some_iff.1 hsplit
    exact ⟨_, afterScheme_trimStartMatches hscheme, hdecoded, hcolon⟩
  · cases h

theorem BasicAuthMiddleware.authenticates_of_parse (m : BasicAuthMiddleware X) {session : Session X.H}
    {username password hash : Str}
    (hparse : parseBasicCredentials X (authValue session) = some (username, password))
    (hhash : m.passwordHash username = some hash) (hverify : X.verifyPassword password hash = true) :
    m.Authenticates session.reqHeader.headers := by
  obtain ⟨user, huser, rfl⟩ := Option.map_eq_some_iff.1 hhash
  cases hvalue : (session.reqHeader.headers.get "authorization").bind (·.toStr) with
  | none =>
    rw [authValue, hvalue] at hparse
    cases hparse
  | some value =>
    have hread : authValue session = Str.trim value := by
      rw [authValue, hvalue]
      rfl
    rw [hread] at hparse
    obtain ⟨encoded, hafter, hdecoded, hcolon⟩ := parseBasicCredentials_eq_some hparse
    obtain ⟨v, hv, htext⟩ := Option.bind_eq_some_iff.1 hvalue
    exact ⟨v, value, encoded, username, password, user, hv, htext, hafter, hdecoded, hcolon, huser, hverify⟩

theorem gate_basicAuth {m : BasicAuthMiddleware X} (h : m.requestFilter.exec s = (.ok false, s')) :
    s.applies m.celProgram = false ∨ m.Authenticates s.session.reqHeader.headers := by
  refine declined_or h fun hbody => ?_
  rw [← s.session_ruled m.celProgram]
  generalize s.ruled m.celProgram = s₁ at hbody ⊢
  rw [BasicAuthMiddleware.authenticate, exec_bind, exec_get] at hbody
  dsimp only at hbody
  split at hbody
  · exact (not_passes_of_answer hbody).elim
  · next username password hparse =>
    split at hbody
    · exact (not_passes_of_answer hbody).elim
    · next hash hhash =>
      split at hbody
      · next hverify => exact m.authenticates_of_parse hparse hhash hverify
      · exact (not_passes_of_answer hbody).elim

/-! ### jwt -/

theorem gate_jwt {m : JwtMiddleware X} (h : m.requestFilter.exec s = (.ok false, s'))
    (hdeny : m.onError = .deny) :
    s.applies m.ruleProgram = false ∨
      ∃ payload, m.Accepts s.session.reqHeader.headers (X.now (s.ruled m.ruleProgram).time) payload := by
  refine declined_or h fun hbody => ?_
  rw [← s.session_ruled m.ruleProgram]
  generalize s.ruled m.ruleProgram = s₁ at hbody ⊢
  obtain ⟨authorized, s₂, hauthorize, hrest⟩ := exec_bind_eq_ok_iff.1 hbody
  cases authorized with
  | true =>
    rcases m.exec_authorize s₁ with ⟨-, hexec⟩ | ⟨payload, haccepts, -⟩
    · rw [hexec] at hauthorize
      cases hauthorize
    · exact ⟨payload, haccepts⟩
  | false =>
    rw [hdeny] at hrest
    exact (not_passes_of_answer hrest).elim

/-! ### rate_limit -/

theorem gate_limit {m : RateLimitMiddleware X} {key : Str}
    (h : (m.limit key).exec s = (.ok false, s')) : s.shared.rates key < m.maxRequestsPerObserve := by
  obtain ⟨n, s₁, hcount, hrest⟩ := exec_bind_eq_ok_iff.1 h
  cases hcount
  split at hrest
  · next hle => exact hle
  · obtain ⟨_, _, _, hrest⟩ := exec_bind_eq_ok_iff.1 hrest
    exact (not_passes_of_answer hrest).elim

theorem gate_rateLimit {m : RateLimitMiddleware X} (h : m.requestFilter.exec s = (.ok false, s')) :
    s.applies m.celProgram = false ∨
      ∀ key s', m.keyValue.exec (s.ruled m.celProgram) = (.ok (some key), s') →
        s'.shared.rates key < m.maxRequestsPerObserve := by
  obtain ⟨observed, s₁, hobserved, hrest⟩ := exec_bind_eq_ok_iff.1 h
  rcases exec_whenApplies_eq_ok hobserved with ⟨hskipped, -, -⟩ | ⟨-, hkey⟩
  · exact .inl hskipped
  · refine .inr fun key s₂ hvalue => ?_
    rw [hvalue] at hkey
    cases hkey
    exact gate_limit hrest

/-! ## The whole list -/

theorem admits_of_passes {m : Middleware X} (h : m.requestFilter.exec s = (.ok false, s')) :
    m.Admits s := by
  cases m with
  | basicAuth m => exact gate_basicAuth h
  | jwt m => exact gate_jwt h
  | rateLimit m => exact gate_rateLimit h
  | _ => trivial

end Gates

/-! ## The fields of the request -/

section Fields

variable {fields : HeaderMap}

/-- The request still has the header fields it came with. -/
def Underway (fields : HeaderMap) (s : RequestState X) : Prop :=
  s.session.reqHeader.headers = fields

/-- No step of a request filter changes the fields. -/
theorem underway_routine : Routine X (fun _ => True) (Underway fields) where
  frame := fun _ _ h hs => h.fields.trans hs
  makesScope := fun _ hs => hs
  evaluates := fun _ _ hs => hs
  addsVariable := fun _ _ _ _ hs => hs
  setsHeader := fun _ _ hs => hs
  begins := fun _ _ _ hs => hs

/-- The same, with the route that has been selected. -/
theorem underway_routed (r : Option (Route X)) :
    Routine X (fun _ => True) (fun s => Underway fields s ∧ s.ctx.currentRoute = r) where
  frame := fun s s' h hs => ⟨underway_routine.frame s s' h hs.1, h.route.trans hs.2⟩
  makesScope := fun _ hs => hs
  evaluates := fun _ _ hs => hs
  addsVariable := fun _ _ _ _ hs => hs
  setsHeader := fun _ _ hs => hs
  begins := fun _ _ _ hs => hs

theorem underway_requestFilter (m : Middleware X) : Keeps (Underway fields) m.requestFilter := by
  refine underway_routine.requestFilter m m.writesOnly_any ?_
  cases m with
  | jwt m =>
    intro s hs
    rcases m.exec_authorize s with ⟨-, h⟩ | ⟨p, -, ⟨e, -, h⟩ | ⟨v, -, h⟩⟩ <;>
    · rw [h]
      exact hs
  | _ => trivial

/-- The fields are the same from turn to turn. -/
theorem underway_passes {m : Middleware X} {s s' : RequestState X} (h : Passes m s s')
    (hs : Underway fields s) : Underway fields s' := by
  have hkept := underway_requestFilter m s.met hs
  rwa [show m.requestFilter.exec s.met = _ from h] at hkept

end Fields

/-- **The gates hold.** When `request_filter` lets a request go on to the upstream, it has passed the
middlewares of the matched route one after the other, and every `basic_auth`, denying `jwt` and
`rate_limit` among them had a reason at its turn: its rule did not apply in the state in which it was
asked, or the fields with which the request came in carry the credentials it asks for, or the counter of
its key was below the limit. -/
theorem gates_hold (proxy : LonesomeProxy X) (session : Session X.H) (shared : Shared X.Ω) (time : Nat)
    {route : Route X} (hroute : proxy.matchedRoute (proxy.incoming session shared time) = some route)
    {s' : RequestState X}
    (h : proxy.requestFilter.exec (proxy.run (proxy.incoming session shared time) []) = (.ok false, s')) :
    Through (Admitted session.reqHeader.headers) route.content.middlewares
      (proxy.run (proxy.incoming session shared time) []).withScope s' := by
  have hselect : Underway session.reqHeader.headers
      (proxy.select.exec (proxy.incoming session shared time)).2 :=
    underway_routine.select (fun _ _ hs => hs) proxy session shared time rfl
  obtain ⟨hfields, hcurrent⟩ := (underway_routed (some route)).proxy_earlyRequestFilter
    (ofRoute_writesOnly _) proxy ⟨hselect, hroute⟩
  have hpasses := (passes_of_requestFilter hcurrent h).keeping (I := Underway session.reqHeader.headers)
    (fun _ _ _ hm hs => underway_passes hm hs) hfields
  exact hpasses.map (g := id) fun m _ _ hm => ⟨hm.1, hm.2, admits_of_passes hm.1⟩

/-! A gate for the user `a`, before a limit that is not reached. -/

/-- One user, and the encoding of that user's credentials. -/
def Externals.oneUser : Externals :=
  { Externals.plain with
    decodeBase64 := fun s => if s = "YTpi".toList then some "a:b".toList else none
    verifyPassword := fun password hash => password == "b".toList && hash == "hash".toList }

def gatedRoute : Route Externals.oneUser where
  id := "route"
  priority := 0
  matcher := .fromCel (.boolean true)
  content := {
    middlewares := [
      .basicAuth ⟨"restricted".toList, [⟨"a".toList, "hash".toList⟩], none⟩,
      .rateLimit ⟨.remoteIp, 10, 429, false, none⟩]
    upstreamPool := ⟨[()], none, 8⟩
    hashKeyProgram := none }

def gatedProxy : LonesomeProxy Externals.oneUser where
  routes := ⟨[gatedRoute]⟩
  sniHostPolicy := .looseByHeader

/-- A request with the credentials. -/
def knownSession : Session Externals.oneUser.H :=
  { Session.plain with reqHeader := { Session.plain.reqHeader with
      headers := [("authorization", .ofAscii "Basic YTpi".toList)] } }

theorem gates_hold_knownSession :
    ∃ s', gatedProxy.requestFilter.exec
        (gatedProxy.run (gatedProxy.incoming knownSession (.plain ⟨[]⟩) 0) []) = (.ok false, s') ∧
      Through (Admitted knownSession.reqHeader.headers) gatedRoute.content.middlewares
        (gatedProxy.run (gatedProxy.incoming knownSession (.plain ⟨[]⟩) 0) []).withScope s' :=
  ⟨_, rfl, gates_hold gatedProxy knownSession (.plain ⟨[]⟩) 0 rfl rfl⟩

end Lonesome
