import Lonesome.Proxy.SniHost

/-!
# The cache key and the host it stands for

`CacheHandler::cache_key_callback` of `src/middlewares/cache/handler.rs`. The key of a request is
its route and the text of its `Host` field (else of its URI authority) followed by its path. The
host that the upstream sees is read elsewhere: the SNI when the authority is rewritten to it,
otherwise the URI authority before the `Host` field (`targetHost`).

Nothing separates the two texts that a key is made of: a `Host` field may spell out the beginning of
another request's path (`SpellsOutPath`), and nothing else makes the texts of equal keys differ
(`cache_key_injective_iff`).

And two requests with one key can have different targets. `Confused` lists the pairs that do: those
with a host that is in neither key, those whose one text is a `Host` field here and an authority there,
and those whose texts run into each other (`cache_key_isolates_iff`).
-/

namespace Lonesome

variable {H : HttpCrate}

structure CacheKeyParts where
  routeNamespace : String
  primary : Str
  userTag : Str
  deriving DecidableEq

/-- The text that stands for the host in the key. -/
def keyHost (req : RequestHeader H) : Str :=
  (((req.headers.get "host").bind (·.toStr)).or (req.uri.authority.map (·.text))).getD []

/-- `CacheHandler::cache_key_callback` on a request of the route `routeId`. -/
def cacheKeyCallback (routeId : String) (req : RequestHeader H) : CacheKeyParts where
  routeNamespace := routeId
  primary := keyHost req ++ req.uri.pathText
  userTag := []

/-- The host that the request addresses at the upstream. -/
def targetHost (policy : SniHostPolicy) (cel : CelHttpSession H) : Str :=
  if policy = .strictRewriteHeader then (cel.sni.or cel.httpAuthority).getD []
  else cel.httpAuthority.getD []

/-- A request that reaches the cache: the request as received, which rules and the gate see, and
the downstream header at the time of the lookup. Between the two only `rewrite` and
`rewrite_method` edit the header, and they keep the fields and the authority. -/
structure CachedRequest (H : HttpCrate) (policy : SniHostPolicy) where
  cel : CelHttpSession H
  req : RequestHeader H
  headers_eq : req.headers = cel.reqHeader.headers
  authority_eq : req.uri.authority = cel.reqHeader.uri.authority
  passes : sniHostReject policy cel = none

/-! ## The two texts of a key -/

/-- The host text of `r` goes on where that of `r'` ends, and spells out the part of the path of
`r'` that precedes the path of `r`. -/
def SpellsOutPath (r r' : RequestHeader H) : Prop :=
  ∃ x, x ≠ [] ∧ keyHost r = keyHost r' ++ x ∧ r'.uri.pathText = x ++ r.uri.pathText

/-- A host text that spells out a path has a character that a legal path can begin with. -/
theorem SpellsOutPath.exists_start {r r' : RequestHeader H} (h : SpellsOutPath r r') :
    ∃ c ∈ keyHost r, ∃ q, H.pathAndQueryOk (c :: q) = true := by
  obtain ⟨x, hx, hhost, hpath⟩ := h
  obtain ⟨c, y, rfl⟩ := List.exists_cons_of_ne_nil hx
  refine ⟨c, ?_, y ++ r.uri.pathText, ?_⟩
  · rw [hhost]
    exact List.mem_append_right _ List.mem_cons_self
  · rw [← List.cons_append, ← hpath]
    exact r'.uri.pathText_ok

theorem SpellsOutPath.cacheKeyCallback_eq {r r' : RequestHeader H} (h : SpellsOutPath r r')
    (routeId : String) : cacheKeyCallback routeId r = cacheKeyCallback routeId r' := by
  obtain ⟨x, -, hhost, hpath⟩ := h
  simp only [cacheKeyCallback, hhost, hpath, List.append_assoc]

theorem SpellsOutPath.keyHost_ne {r r' : RequestHeader H} (h : SpellsOutPath r r') :
    keyHost r ≠ keyHost r' := by
  obtain ⟨x, hx, hhost, -⟩ := h
  rw [hhost]
  exact fun heq => hx (List.append_right_eq_self.1 heq)

/-- Two requests with one key have the same texts, or one's host spells out a part of the other's
path. -/
theorem texts_eq_or_spellsOutPath {routeId : String} {r r' : RequestHeader H}
    (hkey : cacheKeyCallback routeId r = cacheKeyCallback routeId r') :
    (keyHost r = keyHost r' ∧ r.uri.pathText = r'.uri.pathText) ∨
      SpellsOutPath r r' ∨ SpellsOutPath r' r := by
  have hprimary : keyHost r ++ r.uri.pathText = keyHost r' ++ r'.uri.pathText :=
    congrArg CacheKeyParts.primary hkey
  rcases List.append_eq_append_iff.1 hprimary with ⟨x, hhost, hpath⟩ | ⟨x, hhost, hpath⟩
  · by_cases hx : x = []
    · subst hx
      exact .inl ⟨by simpa using hhost.symm, by simpa using hpath⟩
    · exact .inr (.inr ⟨x, hx, hhost, hpath⟩)
  · by_cases hx : x = []
    · subst hx
      exact .inl ⟨by simpa using hhost, by simpa using hpath.symm⟩
    · exact .inr (.inl ⟨x, hx, hhost, hpath⟩)

/-- Hosts without a character that a legal path can begin with, such as host names with a port, are
told apart by their keys. -/
theorem texts_eq_of_no_start {routeId : String} {r r' : RequestHeader H}
    (hstart : ∀ c ∈ keyHost r ++ keyHost r', ∀ q, H.pathAndQueryOk (c :: q) = false)
    (hkey : cacheKeyCallback routeId r = cacheKeyCallback routeId r') :
    keyHost r = keyHost r' ∧ r.uri.pathText = r'.uri.pathText := by
  rcases texts_eq_or_spellsOutPath hkey with hsame | hspells | hspells
  · exact hsame
  · obtain ⟨c, hc, q, hq⟩ := hspells.exists_start
    rw [hstart c (List.mem_append_left _ hc) q] at hq
    cases hq
  · obtain ⟨c, hc, q, hq⟩ := hspells.exists_start
    rw [hstart c (List.mem_append_right _ hc) q] at hq
    cases hq

/-- **When a key determines its texts**: two requests of one route with the same key have the same
host text and the same path and query, exactly when neither's host text spells out the beginning of
the other's path. -/
theorem cache_key_injective_iff (routeId : String) (r r' : RequestHeader H) :
    (cacheKeyCallback routeId r = cacheKeyCallback routeId r' →
      keyHost r = keyHost r' ∧ r.uri.pathText = r'.uri.pathText) ↔
      ¬ SpellsOutPath r r' ∧ ¬ SpellsOutPath r' r := by
  constructor
  · intro hinj
    constructor
    · intro hs
      exact hs.keyHost_ne (hinj (hs.cacheKeyCallback_eq routeId)).1
    · intro hs
      exact hs.keyHost_ne (hinj (hs.cacheKeyCallback_eq routeId).symm).1.symm
  · rintro ⟨hs, hs'⟩ hkey
    rcases texts_eq_or_spellsOutPath hkey with hsame | hspells | hspells
    · exact hsame
    · exact (hs hspells).elim
    · exact (hs' hspells).elim

/-- A request without an SNI or a URI authority, with the one `Host` field `v`. -/
def plainRequest (policy : SniHostPolicy) (v : HeaderValue) (q : PathAndQuery H) :
    CachedRequest H policy where
  cel :=
    { reqHeader :=
        { method := "GET"
          uri := { scheme := none, authority := none, pathAndQuery := some q }
          headers := [("host", v)] }
      tlsSni := none
      sniHostPolicy := policy }
  req :=
    { method := "GET"
      uri := { scheme := none, authority := none, pathAndQuery := some q }
      headers := [("host", v)] }
  headers_eq := rfl
  authority_eq := rfl
  passes := by cases policy <;> rfl

/-- `GET path` with the one `Host` field `host`, accepted by the gate. -/
def hostPathRequest (host path : String)
    (hpath : HttpCrate.byCharacter.pathAndQueryOk path.toList = true) :
    RequestHeader HttpCrate.byCharacter :=
  (plainRequest .strict (HeaderValue.ofAscii host.toList) ⟨path.toList, hpath⟩).req

theorem hostPathRequest_collide :
    cacheKeyCallback "route" (hostPathRequest "a" "/b/c" rfl) =
      cacheKeyCallback "route" (hostPathRequest "a/b" "/c" rfl) ∧
    keyHost (hostPathRequest "a" "/b/c" rfl) ≠ keyHost (hostPathRequest "a/b" "/c" rfl) ∧
    (hostPathRequest "a" "/b/c" rfl).uri.pathText ≠
      (hostPathRequest "a/b" "/c" rfl).uri.pathText := by
  refine ⟨?_, ?_, ?_⟩ <;> decide

/-! ## The host of a key -/

/-- The text of the first `Host` field, if it is readable. -/
def hostField (req : RequestHeader H) : Option Str :=
  (req.headers.get "host").bind (·.toStr)

/-- Where a request has the text in its key from. -/
inductive HostPlace where
  | field
  | authority
  | nowhere
  deriving DecidableEq, Repr

def hostPlace (req : RequestHeader H) : HostPlace :=
  match hostField req, req.uri.authority with
  | some _, _ => .field
  | none, some _ => .authority
  | none, none => .nowhere

/-- The host that this text names. The port of a field and that of an authority are cut off in different
ways. -/
def keyedHost (req : RequestHeader H) : Str :=
  match hostField req, req.uri.authority with
  | some text, _ => stripPort text
  | none, some authority => authority.host
  | none, none => []

/-- A host that the request is sent to and that is not in its key: the SNI, where the authority is
rewritten to it, and the URI authority of a request that has a `Host` field too, where the gate does not
compare the two. -/
def unkeyedHost {policy : SniHostPolicy} (r : CachedRequest H policy) : Option Str :=
  if policy = .strictRewriteHeader then r.cel.sni
  else if policy = .strict then none
  else if (hostField r.req).isSome then r.req.uri.authority.map (·.host) else none

/-- The host that the request is sent to. -/
def sentTo {policy : SniHostPolicy} (r : CachedRequest H policy) : Str :=
  (unkeyedHost r).getD (keyedHost r.req)

/-- The pairs of requests that one key confuses. -/
inductive Confused {policy : SniHostPolicy} (r r' : CachedRequest H policy) : Prop
  /-- The same host text before the same path, and a host beside the key that tells them apart. -/
  | unkeyed (htext : keyHost r.req = keyHost r'.req) (hpath : r.req.uri.pathText = r'.req.uri.pathText)
    (hunkeyed : unkeyedHost r ≠ none ∨ unkeyedHost r' ≠ none)
    (hhosts : hostnameEq (sentTo r) (sentTo r') = false)
  /-- The same text again, but read as a `Host` field in one and as an authority in the other. -/
  | places (htext : keyHost r.req = keyHost r'.req) (hpath : r.req.uri.pathText = r'.req.uri.pathText)
    (hplaces : hostPlace r.req ≠ hostPlace r'.req)
    (hhosts : hostnameEq (keyedHost r.req) (keyedHost r'.req) = false)
    (hkeyed : unkeyedHost r = none ∧ unkeyedHost r' = none)
  /-- A host text that spells out the beginning of the other's path, for another host. -/
  | spelled (hspells : SpellsOutPath r.req r'.req ∨ SpellsOutPath r'.req r.req)
    (hhosts : hostnameEq (sentTo r) (sentTo r') = false)

theorem keyHost_eq (req : RequestHeader H) :
    keyHost req = ((hostField req).or (req.uri.authority.map (·.text))).getD [] := rfl

/-- One text that comes from one place names one host. -/
theorem keyedHost_eq_of_places {req req' : RequestHeader H} (htext : keyHost req = keyHost req')
    (hplaces : hostPlace req = hostPlace req') : keyedHost req = keyedHost req' := by
  rw [keyHost_eq, keyHost_eq] at htext
  unfold hostPlace at hplaces
  unfold keyedHost
  generalize hostField req = field, hostField req' = field' at htext hplaces ⊢
  generalize req.uri.authority = authority, req'.uri.authority = authority' at htext hplaces ⊢
  cases field with
  | some text =>
    cases field' with
    | some text' => exact congrArg stripPort htext
    | none => cases authority' <;> cases hplaces
  | none =>
    cases field' with
    | some text' => cases authority <;> cases hplaces
    | none =>
      cases authority with
      | some a =>
        cases authority' with
        | some a' => exact congrArg H.authorityHost htext
        | none => cases hplaces
      | none =>
        cases authority' with
        | some a' => cases hplaces
        | none => rfl

/-- What the policies read, of the request at the time of the lookup. -/
theorem authoritySources_eq {policy : SniHostPolicy} (r : CachedRequest H policy) :
    r.cel.authoritySources =
      (r.req.uri.authority.map (·.host), (hostField r.req).map stripPort) := by
  unfold CelHttpSession.authoritySources hostField
  rw [← r.headers_eq, ← r.authority_eq]

/-- A gate that compares the two lets no request through whose authority is not the host of its key. -/
theorem hostnameEq_httpAuthority {policy : SniHostPolicy} (r : CachedRequest H policy)
    (hconflict : r.cel.authorityConflict = false) :
    hostnameEq (r.cel.httpAuthority.getD []) (keyedHost r.req) = true := by
  unfold CelHttpSession.authorityConflict at hconflict
  unfold CelHttpSession.httpAuthority keyedHost
  rw [authoritySources_eq] at hconflict ⊢
  cases hfield : hostField r.req with
  | none =>
    cases hauthority : r.req.uri.authority with
    | none => exact hostnameEq_refl _
    | some a => exact hostnameEq_refl _
  | some text =>
    cases hauthority : r.req.uri.authority with
    | none => exact hostnameEq_refl _
    | some a =>
      rw [hfield, hauthority] at hconflict
      simpa using hconflict

theorem not_authorityConflict {policy : SniHostPolicy} (r : CachedRequest H policy)
    (hpolicy : policy = .strict ∨ policy = .strictRewriteHeader) : r.cel.authorityConflict = false := by
  have hpasses := r.passes
  unfold sniHostReject sniHostPolicyReject at hpasses
  cases hconflict : r.cel.authorityConflict with
  | false => rfl
  | true =>
    rw [hconflict] at hpasses
    rcases hpolicy with rfl | rfl <;> cases hpasses

/-- The target of a request is the host it is sent to. -/
theorem hostnameEq_targetHost {policy : SniHostPolicy} (r : CachedRequest H policy) :
    hostnameEq (targetHost policy r.cel) (sentTo r) = true := by
  unfold targetHost sentTo unkeyedHost
  by_cases hrewrite : policy = .strictRewriteHeader
  · rw [if_pos hrewrite, if_pos hrewrite]
    cases r.cel.sni with
    | some sni => exact hostnameEq_refl _
    | none => exact hostnameEq_httpAuthority r (not_authorityConflict r (.inr hrewrite))
  · rw [if_neg hrewrite, if_neg hrewrite]
    by_cases hstrict : policy = .strict
    · rw [if_pos hstrict]
      exact hostnameEq_httpAuthority r (not_authorityConflict r (.inl hstrict))
    · -- the authority is in the key of a request without a field, and beside the key of one with it
      rw [if_neg hstrict, CelHttpSession.httpAuthority, authoritySources_eq]
      unfold keyedHost
      cases hostField r.req with
      | none => cases r.req.uri.authority <;> exact hostnameEq_refl _
      | some text => cases r.req.uri.authority <;> exact hostnameEq_refl _

theorem hostnameEq_targets {policy : SniHostPolicy} (r r' : CachedRequest H policy) :
    hostnameEq (targetHost policy r.cel) (targetHost policy r'.cel) = hostnameEq (sentTo r) (sentTo r') := by
  have hr := hostnameEq_targetHost r
  have hr' := hostnameEq_targetHost r'
  rw [hostnameEq_iff] at hr hr'
  rw [Bool.eq_iff_iff, hostnameEq_iff, hostnameEq_iff, hr, hr']

/-- **When a key stands for one host**: two requests of one route with the same key address the same
host at the upstream, exactly when they are none of the pairs that a key confuses. -/
theorem cache_key_isolates_iff (policy : SniHostPolicy) (routeId : String)
    (r r' : CachedRequest H policy) :
    (cacheKeyCallback routeId r.req = cacheKeyCallback routeId r'.req →
      hostnameEq (targetHost policy r.cel) (targetHost policy r'.cel) = true) ↔ ¬ Confused r r' := by
  rw [hostnameEq_targets]
  constructor
  · intro hsame hconfused
    cases hconfused with
    | unkeyed htext hpath _ hhosts =>
      rw [hsame (by simp only [cacheKeyCallback, htext, hpath])] at hhosts
      cases hhosts
    | places htext hpath _ hhosts hkeyed =>
      have hagree := hsame (by simp only [cacheKeyCallback, htext, hpath])
      rw [sentTo, sentTo, hkeyed.1, hkeyed.2, Option.getD_none, Option.getD_none, hhosts] at hagree
      cases hagree
    | spelled hspells hhosts =>
      have hkey : cacheKeyCallback routeId r.req = cacheKeyCallback routeId r'.req := by
        rcases hspells with hspells | hspells
        · exact hspells.cacheKeyCallback_eq routeId
        · exact (hspells.cacheKeyCallback_eq routeId).symm
      rw [hsame hkey] at hhosts
      cases hhosts
  · intro hconfused hkey
    by_contra hne
    have hhosts : hostnameEq (sentTo r) (sentTo r') = false := Bool.eq_false_iff.2 hne
    rcases texts_eq_or_spellsOutPath hkey with ⟨htext, hpath⟩ | hspells
    · by_cases hkeyed : unkeyedHost r = none ∧ unkeyedHost r' = none
      · have hnamed : hostnameEq (keyedHost r.req) (keyedHost r'.req) = false := by
          rw [sentTo, sentTo, hkeyed.1, hkeyed.2] at hhosts
          exact hhosts
        refine hconfused (.places htext hpath (fun hplaces => ?_) hnamed hkeyed)
        rw [keyedHost_eq_of_places htext hplaces, hostnameEq_refl] at hnamed
        cases hnamed
      · exact hconfused (.unkeyed htext hpath (not_and_or.1 hkeyed) hhosts)
    · exact hconfused (.spelled hspells hhosts)

/-! Under `strict_rewrite_header`: one `Host` field, two SNIs. -/

def sharedHostSession (sni : Str) : CelHttpSession HttpCrate.byCharacter where
  reqHeader := requestWithHosts none [HeaderValue.ofAscii "shared.example".toList]
  tlsSni := some sni
  sniHostPolicy := .strictRewriteHeader

def sharedHostRequest (sni : Str) : CachedRequest HttpCrate.byCharacter .strictRewriteHeader where
  cel := sharedHostSession sni
  req := (sharedHostSession sni).reqHeader
  headers_eq := rfl
  authority_eq := rfl
  passes := rfl

theorem sharedHostRequest_crosses_hosts :
    cacheKeyCallback "route" (sharedHostRequest "a.example".toList).req =
      cacheKeyCallback "route" (sharedHostRequest "b.example".toList).req ∧
    hostnameEq (targetHost .strictRewriteHeader (sharedHostRequest "a.example".toList).cel)
      (targetHost .strictRewriteHeader (sharedHostRequest "b.example".toList).cel) = false := by
  have hreq : ∀ s, (sharedHostRequest s).req = (sharedHostRequest []).req := fun _ => rfl
  have htarget : ∀ c s, targetHost .strictRewriteHeader (sharedHostRequest (c :: s)).cel = c :: s :=
    fun _ _ => rfl
  refine ⟨by rw [hreq, hreq "b.example".toList], ?_⟩
  rw [show "a.example".toList = 'a' :: ".example".toList from rfl,
    show "b.example".toList = 'b' :: ".example".toList from rfl, htarget, htarget]
  decide

end Lonesome
