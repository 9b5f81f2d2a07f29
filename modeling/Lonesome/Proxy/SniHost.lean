import Lonesome.Matcher.CelSessionContext

/-!
# The SNI / Host policy of the proxy

`src/proxy/proxy.rs`: the gate of `request_filter` (`sni_host_policy_reject`) and the rewrite of the
upstream authority in `upstream_request_filter` (`force_authority`).

The gate of `strict` reads the URI authority and the first `Host` field, when that is visible
ASCII; `strict_gate_iff` says what its passing means for the fields it does not read.
`strict_rewrite_header` writes the SNI into the `Host` field and into the URI, each only when the
`http` crate accepts it there; `rewrite_forces_sni_iff` says when both are written.
-/

namespace Lonesome

variable {H : HttpCrate}

/-! ## The gate -/

/-- Which HTTP status, if any, the policy asks to reject the request with. -/
def sniHostPolicyReject (policy : SniHostPolicy) (sni authority : Option Str)
    (authorityConflict : Bool) : Option Nat :=
  match policy with
  | .strict =>
    if authorityConflict then some 400
    else
      match sni, authority with
      | some sni, some authority => if !hostnameEq sni authority then some 421 else none
      | _, _ => none
  | .strictRewriteHeader => if authorityConflict then some 400 else none
  | .looseBySni | .looseByHeader => none

/-- `LonesomeProxy::sni_host_reject` -/
def sniHostReject (policy : SniHostPolicy) (cel : CelHttpSession H) : Option Nat :=
  sniHostPolicyReject policy cel.sni cel.httpAuthority cel.authorityConflict

/-- The field spells a text whose host is `sni`. -/
def HeaderValue.NamesHost (v : HeaderValue) (sni : Str) : Prop :=
  ∃ t, v.text = some t ∧ hostnameEq (stripPort t) sni = true

/-- The `Host` fields of the request. -/
def CelHttpSession.hostFields (cel : CelHttpSession H) : List HeaderValue :=
  cel.reqHeader.headers.getAll "host"

/-- Every authority of the request names the SNI host: the URI authority and every `Host` field. -/
def AuthoritiesNameSni (cel : CelHttpSession H) (sni : Str) : Prop :=
  (∀ a, cel.reqHeader.uri.authority = some a → hostnameEq a.host sni = true) ∧
    ∀ v ∈ cel.hostFields, v.NamesHost sni

/-- What the gate reads names the SNI host: the URI authority, and the first `Host` field when it
is readable. -/
def ReadFieldsNameSni (cel : CelHttpSession H) (sni : Str) : Prop :=
  (∀ a, cel.authoritySources.1 = some a → hostnameEq a sni = true) ∧
    ∀ h, cel.authoritySources.2 = some h → hostnameEq h sni = true

/-- The `Host` fields the gate does not read: those after the first, and the first when it is not
visible ASCII. -/
def CelHttpSession.unreadHostFields (cel : CelHttpSession H) : List HeaderValue :=
  match cel.hostFields with
  | [] => []
  | v :: rest => if v.toStr.isSome then rest else v :: rest

/-- The gate of `strict` passes exactly the requests whose read fields name the SNI host. -/
theorem strict_passes_iff (cel : CelHttpSession H) {sni : Str} (hs : cel.sni = some sni) :
    sniHostReject .strict cel = none ↔ ReadFieldsNameSni cel sni := by
  unfold sniHostReject sniHostPolicyReject ReadFieldsNameSni CelHttpSession.authorityConflict
    CelHttpSession.httpAuthority
  rcases cel.authoritySources with ⟨_ | a, _ | h⟩
  · simp [hs]
  · simp [hs, hostnameEq_comm sni h]
  · simp [hs, hostnameEq_comm sni a]
  · by_cases hc : hostnameEq a h = true
    · have hiff : hostnameEq h sni = true ↔ hostnameEq a sni = true := by
        rw [hostnameEq_iff] at *; rw [hostnameEq_iff, hc]
      simp [hs, hc, hostnameEq_comm sni a, hiff]
    · have hne : ¬ (hostnameEq a sni = true ∧ hostnameEq h sni = true) := fun ⟨h₁, h₂⟩ =>
        hc (hostnameEq_trans h₁ (by rwa [hostnameEq_comm]))
      simpa [hc] using hne

/-- The read fields and the unread ones are all there are. -/
theorem authoritiesNameSni_iff (cel : CelHttpSession H) (sni : Str) :
    AuthoritiesNameSni cel sni ↔
      ReadFieldsNameSni cel sni ∧ ∀ v ∈ cel.unreadHostFields, v.NamesHost sni := by
  have hauth : (∀ a, cel.reqHeader.uri.authority = some a → hostnameEq a.host sni = true) ↔
      ∀ a, cel.authoritySources.1 = some a → hostnameEq a sni = true := by
    simp [CelHttpSession.authoritySources]
  have hfirst : cel.authoritySources.2 = (cel.hostFields.head?.bind (·.toStr)).map stripPort := rfl
  unfold AuthoritiesNameSni ReadFieldsNameSni CelHttpSession.unreadHostFields
  rw [hauth, hfirst, and_assoc]
  refine and_congr_right fun _ => ?_
  rcases cel.hostFields with _ | ⟨v, rest⟩
  · simp
  · cases hv : v.toStr with
    | none => simp [hv]
    | some t =>
      have hname : v.NamesHost sni ↔ hostnameEq (stripPort t) sni = true := by
        simp [HeaderValue.NamesHost, HeaderValue.text_of_toStr hv]
      simp [hv, hname]

/-- **The `strict` gate**: for a request with an SNI, "if it passes, every authority the client
supplied names the SNI host" holds exactly when, with everything the gate reads naming the SNI
host, so do the `Host` fields it does not read. -/
theorem strict_gate_iff (cel : CelHttpSession H) {sni : Str} (hs : cel.sni = some sni) :
    (sniHostReject .strict cel = none → AuthoritiesNameSni cel sni) ↔
      (ReadFieldsNameSni cel sni → ∀ v ∈ cel.unreadHostFields, v.NamesHost sni) := by
  rw [strict_passes_iff cel hs, authoritiesNameSni_iff]
  exact ⟨fun h hr => (h hr).2, fun h hr => ⟨hr, h hr⟩⟩

/-! A request for `/` over a connection with an SNI, for the concrete cases. -/

/-- The field value of a text; empty when the text is none. -/
def HeaderValue.ofAscii (s : Str) : HeaderValue :=
  (HeaderValue.fromStr s).getD ⟨[], rfl⟩

def requestWithHosts (authority : Option (Authority H)) (hosts : List HeaderValue) :
    RequestHeader H where
  method := "GET"
  uri := { scheme := none, authority, pathAndQuery := some ⟨"/".toList, H.pathAndQueryOk_slash⟩ }
  headers := hosts.map ("host", ·)

/-- The SNI is `good.example`, and so is the first `Host` field; a second one is not. -/
def secondHostSession : CelHttpSession HttpCrate.byCharacter where
  reqHeader := requestWithHosts none
    [HeaderValue.ofAscii "good.example".toList, HeaderValue.ofAscii "evil.example".toList]
  tlsSni := some "good.example".toList
  sniHostPolicy := .strict

theorem secondHostSession_passes :
    secondHostSession.sni = some "good.example".toList ∧
    sniHostReject .strict secondHostSession = none ∧
    ¬ AuthoritiesNameSni secondHostSession "good.example".toList := by
  refine ⟨by decide, by decide, fun h => ?_⟩
  obtain ⟨t, ht, heq⟩ := h.2 (HeaderValue.ofAscii "evil.example".toList) (by decide)
  obtain rfl : "evil.example".toList = t := by
    rw [HeaderValue.text_of_toStr (s := "evil.example".toList) (by decide)] at ht
    exact Option.some.inj ht
  revert heq
  decide

/-- The same request with its first `Host` field only. -/
def oneHostSession : CelHttpSession HttpCrate.byCharacter :=
  { secondHostSession with
    reqHeader := requestWithHosts none [HeaderValue.ofAscii "good.example:443".toList] }

theorem strict_gate_oneHostSession :
    sniHostReject .strict oneHostSession = none ∧
      AuthoritiesNameSni oneHostSession "good.example".toList := by
  have hs : oneHostSession.sni = some "good.example".toList := by decide
  have hpass : sniHostReject .strict oneHostSession = none := by decide
  refine ⟨hpass, (strict_gate_iff oneHostSession hs).2 (fun _ v hv => ?_) hpass⟩
  have hnone : oneHostSession.unreadHostFields = [] := by decide
  rw [hnone] at hv
  cases hv

/-! ## The rewrite -/

/-- Overwrites both authority representations of an upstream request, each only when the `http`
crate accepts the text there. -/
def forceAuthority (req : RequestHeader H) (authority : Str) : RequestHeader H :=
  let req :=
    match HeaderValue.fromStr authority with
    | some value => { req with headers := req.headers.insert "host" value }
    | none => req
  let uri := Uri.build ((req.uri.scheme.map (·.text)).getD "https".toList) authority
    req.uri.pathText
  match uri with
  | some uri => { req with uri }
  | none => req

section Filter

variable {σ ε : Type}

/-- The `upstream_request_filter` of a middleware: it edits the upstream request and its own view
of the context (`σ`), or fails. It has no access to the SNI of the session. -/
abbrev UpstreamRequestFilter (H : HttpCrate) (σ ε : Type) :=
  σ → RequestHeader H → Except ε (σ × RequestHeader H)

/-- The middlewares in order; the first failure ends the request. -/
def runUpstreamRequestFilters : List (UpstreamRequestFilter H σ ε) → UpstreamRequestFilter H σ ε
  | [], ctx, req => .ok (ctx, req)
  | mw :: mws, ctx, req =>
    match mw ctx req with
    | .ok (ctx, req) => runUpstreamRequestFilters mws ctx req
    | .error e => .error e

/-- `LonesomeProxy::upstream_request_filter` on the middlewares of the matched route. -/
def upstreamRequestFilter (policy : SniHostPolicy) (cel : CelHttpSession H)
    (route : Option (List (UpstreamRequestFilter H σ ε))) (ctx : σ) (req : RequestHeader H) :
    Except ε (RequestHeader H) :=
  match route with
  | none => .ok req
  | some middlewares =>
    match runUpstreamRequestFilters middlewares ctx req with
    | .error e => .error e
    | .ok (_, req) =>
      if policy = .strictRewriteHeader then
        match cel.sni with
        | some sni => .ok (forceAuthority req sni)
        | none => .ok req
      else .ok req

end Filter

/-- The upstream request carries the SNI and no other authority: one `Host` field, equal to it,
and the URI authority equal to it; the path and query are those of `before`, where a URI without
them stands for `/` as everywhere in the program. -/
def SentWithSni (before sent : RequestHeader H) (sni : Str) : Prop :=
  (∃ v, sent.headers.getAll "host" = [v] ∧ v.toStr = some sni) ∧
    sent.uri.authority.map (·.text) = some sni ∧ sent.uri.pathText = before.uri.pathText

theorem build_of_authorityOk (req : RequestHeader H) {authority : Str}
    (h : H.authorityOk authority = true) :
    ∃ uri : Uri H, Uri.build ((req.uri.scheme.map (·.text)).getD "https".toList) authority
        req.uri.pathText = some uri ∧
      uri.authority.map (·.text) = some authority ∧ uri.pathText = req.uri.pathText := by
  have hscheme : H.schemeOk ((req.uri.scheme.map (·.text)).getD "https".toList) = true := by
    cases req.uri.scheme with
    | none => exact H.schemeOk_https
    | some s => exact s.ok
  simp only [Uri.build, hscheme, h, req.uri.pathText_ok, ↓reduceDIte]
  exact ⟨_, rfl, rfl, rfl⟩

/-- A text that is legal as an authority is legal as a header value too, so both representations
are written. -/
theorem forceAuthority_of_authorityOk (req : RequestHeader H) {authority : Str}
    (h : H.authorityOk authority = true) :
    SentWithSni req (forceAuthority req authority) authority := by
  obtain ⟨v, hv, hback⟩ := HeaderValue.exists_fromStr (H.visible_of_authorityOk h)
  obtain ⟨uri, huri, hauth, hpath⟩ := build_of_authorityOk req h
  simp only [forceAuthority, hv, huri]
  exact ⟨⟨v, HeaderMap.getAll_insert _ _ _, hback⟩, hauth, hpath⟩

theorem build_of_not_authorityOk {scheme authority path : Str}
    (h : H.authorityOk authority ≠ true) :
    (Uri.build scheme authority path : Option (Uri H)) = none := by
  unfold Uri.build
  split <;> rfl

/-- An illegal text is never the authority of the result: the old URI stays. -/
theorem forceAuthority_of_not_authorityOk (req : RequestHeader H) {authority : Str}
    (h : H.authorityOk authority ≠ true) :
    (forceAuthority req authority).uri = req.uri := by
  simp only [forceAuthority, build_of_not_authorityOk h]
  cases HeaderValue.fromStr authority <;> rfl

theorem authority_text_ne {uri : Uri H} {text : Str} (h : H.authorityOk text ≠ true) :
    uri.authority.map (·.text) ≠ some text := by
  intro heq
  obtain ⟨a, _, rfl⟩ := Option.map_eq_some_iff.1 heq
  exact h a.ok

/-- **The rewrite of `strict_rewrite_header`**: for every route and all middlewares that succeed,
the upstream request carries the SNI as its only authority, with the path and query it had,
exactly when the `http` crate accepts the SNI as a URI authority. -/
theorem rewrite_forces_sni_iff {σ ε : Type} (cel : CelHttpSession H) {sni : Str}
    (hs : cel.sni = some sni) (middlewares : List (UpstreamRequestFilter H σ ε)) (ctx : σ)
    (req : RequestHeader H) {ctx' : σ} {req' : RequestHeader H}
    (hok : runUpstreamRequestFilters middlewares ctx req = .ok (ctx', req')) :
    (∃ sent, upstreamRequestFilter .strictRewriteHeader cel (some middlewares) ctx req = .ok sent ∧
      SentWithSni req' sent sni) ↔ H.authorityOk sni = true := by
  have hrun : upstreamRequestFilter .strictRewriteHeader cel (some middlewares) ctx req =
      .ok (forceAuthority req' sni) := by
    simp [upstreamRequestFilter, hok, hs]
  rw [hrun]
  constructor
  · rintro ⟨sent, hsent, hsni⟩
    obtain rfl : forceAuthority req' sni = sent := Except.ok.inj hsent
    by_contra hbad
    have hold := forceAuthority_of_not_authorityOk req' hbad
    have hauth := hsni.2.1
    rw [hold] at hauth
    exact authority_text_ne hbad hauth
  · intro h
    exact ⟨_, rfl, forceAuthority_of_authorityOk req' h⟩

/-! An SNI with a space: the `Host` field takes it, the URI keeps the client's authority. -/

def spacedSniSession : CelHttpSession HttpCrate.byCharacter where
  reqHeader := requestWithHosts (some ⟨"evil.example".toList, by decide⟩) []
  tlsSni := some "good example".toList
  sniHostPolicy := .strictRewriteHeader

theorem spacedSni_forwards_client_authority :
    spacedSniSession.sni = some "good example".toList ∧
    ∃ sent, upstreamRequestFilter (σ := Unit) (ε := Unit) .strictRewriteHeader spacedSniSession
        (some []) () spacedSniSession.reqHeader = .ok sent ∧
      sent.uri.authority.map (·.text) = some "evil.example".toList ∧
      ¬ SentWithSni spacedSniSession.reqHeader sent "good example".toList := by
  refine ⟨by decide, forceAuthority spacedSniSession.reqHeader "good example".toList, rfl,
    by decide, fun h => ?_⟩
  exact authority_text_ne (by decide) h.2.1

theorem rewrite_forces_sni_plain :
    ∃ sent, upstreamRequestFilter (σ := Unit) (ε := Unit) .strictRewriteHeader
        { spacedSniSession with tlsSni := some "good.example".toList } (some []) ()
        spacedSniSession.reqHeader = .ok sent ∧
      SentWithSni spacedSniSession.reqHeader sent "good.example".toList :=
  (rewrite_forces_sni_iff { spacedSniSession with tlsSni := some "good.example".toList }
    (by decide) [] () spacedSniSession.reqHeader rfl).2 (by decide)

end Lonesome
