import Lonesome.Middlewares.Auth

/-!
# What the jwt middleware accepts

`src/middlewares/jwt` decides over a token by a chain of stages that can fail, with a search over the
candidate keys in the middle. `JwtMiddleware.Accepts` says in one place which payload a request is
accepted with, and `exec_authorize` that the stages come to the same.
-/

namespace Lonesome

open Lonesome.Lib

variable {X : Externals}

/-! ## Tokens -/

theorem Str.stripPrefix_eq_some_iff {pat s rest : Str} :
    Str.stripPrefix pat s = some rest ↔ s = pat ++ rest := by
  unfold Str.stripPrefix
  split
  · next h =>
    obtain ⟨t, rfl⟩ := List.isPrefixOf_iff_prefix.1 h
    simp
  · next h =>
    refine ⟨fun hnone => (nomatch hnone), fun heq => absurd ?_ h⟩
    exact List.isPrefixOf_iff_prefix.2 ⟨rest, heq.symm⟩

/-- The number of segments of a token. -/
def segments (token : Str) : Nat := token.count '.' + 1

section Keys

variable (X)

/-- The key is one of those the token may be read with: it has the `kid` of the token, if that has
one. -/
def FitsKid (kid : Option Str) (jwk : X.jose.Jwk) : Prop :=
  ∀ expected, kid = some expected → X.jose.keyId jwk = some expected

/-- What a key makes of a token: a signature is verified, an encrypted token is decrypted. -/
def readWith (alg token : Str) (jwk : X.jose.Jwk) : Option JwtPayload :=
  match segments token with
  | 3 => (createVerifier X alg jwk).bind (· token)
  | 5 => (createDecrypter X alg jwk).bind (· token)
  | _ => none

/-- The payload is what the first key of the set that can read the token makes of it. -/
def FirstReads (keys : List X.jose.Jwk) (kid : Option Str) (alg token : Str) (payload : JwtPayload) :
    Prop :=
  ∃ before jwk after, keys = before ++ jwk :: after ∧
    (FitsKid X kid jwk ∧ readWith X alg token jwk = some payload) ∧
    ∀ k ∈ before, FitsKid X kid k → readWith X alg token k = none

/-- The payload is valid at the time. -/
def InTime (payload : JwtPayload) (now : Int) : Prop :=
  (∀ nbf, X.jose.notBefore payload = some nbf → nbf ≤ now) ∧
    ∀ exp, X.jose.expiresAt payload = some exp → now < exp

end Keys

namespace JwtMiddleware

variable (m : JwtMiddleware X)

/-- The token that the value of the header field carries. -/
def CarriesToken (value token : Str) : Prop :=
  (m.bearerPrefix = [] ∧ token = Str.trim value) ∨
    (m.bearerPrefix ≠ [] ∧
      ∃ rest, Str.trim value = m.bearerPrefix ++ rest ∧ token = Str.trim rest ∧ token ≠ [])

/-- A request with these header fields is accepted with the payload. -/
def Accepts (headers : HeaderMap) (now : Int) (payload : JwtPayload) : Prop :=
  ∃ value token header alg,
    (headers.getStr m.headerName).bind (·.toStr) = some value ∧
    m.CarriesToken value token ∧
    (segments token = 3 ∨ segments token = 5) ∧
    X.jose.decodeHeader token = .ok header ∧
    (Json.lookup header "alg".toList).bind Json.asStr = some alg ∧
    FirstReads X m.jwksPool ((Json.lookup header "kid".toList).bind Json.asStr) alg token payload ∧
    (m.validateTime = true → InTime X payload now)

/-! ## The stages -/

theorem extractToken_eq_ok_iff (session : Session X.H) (token : Str) :
    m.extractToken session = .ok token ↔
      ∃ value, (session.reqHeader.headers.getStr m.headerName).bind (·.toStr) = some value ∧
        m.CarriesToken value token := by
  unfold extractToken CarriesToken
  cases hvalue : (session.reqHeader.headers.getStr m.headerName).bind (·.toStr) with
  | none => simp
  | some value =>
    simp only [Option.map_some, Option.some.injEq, exists_eq_left']
    by_cases hstarts : m.bearerPrefix = []
    · simp [hstarts, eq_comm]
    · rw [if_neg (by simpa using hstarts)]
      cases hstrip : Str.stripPrefix m.bearerPrefix (Str.trim value) with
      | none =>
        have hno (rest : Str) : Str.trim value ≠ m.bearerPrefix ++ rest :=
          fun heq => by rw [Str.stripPrefix_eq_some_iff.2 heq] at hstrip; cases hstrip
        simp [hstarts, hno]
      | some rest =>
        have hvalue := Str.stripPrefix_eq_some_iff.1 hstrip
        by_cases hempty : Str.trim rest = []
        · simp [hstarts, hvalue, hempty]
        · simp only [List.isEmpty_iff, hempty, if_false, Except.ok.injEq, hstarts, false_and, ne_eq,
            not_false_eq_true, true_and, false_or, hvalue, List.append_cancel_left_eq]
          constructor
          · rintro rfl
            exact ⟨rest, rfl, rfl, hempty⟩
          · rintro ⟨rest', rfl, rfl, -⟩
            rfl

/-- The filter of `candidate_keys`. -/
def isCandidate (kid : Option Str) (jwk : X.jose.Jwk) : Bool :=
  match kid with
  | some expected => X.jose.keyId jwk == some expected
  | none => true

theorem isCandidate_iff (kid : Option Str) (jwk : X.jose.Jwk) :
    isCandidate kid jwk = true ↔ FitsKid X kid jwk := by
  unfold isCandidate FitsKid
  cases kid <;> simp

section Readers

variable (create : Str → X.jose.Jwk → Option (Str → Option JwtPayload)) (kind : String)
  (keys : List X.jose.Jwk) (alg : Str) (kid : Option Str) (token : Str) (payload : JwtPayload)

/-- Both checks for an empty list only tell errors apart: there is no payload without a reader. -/
theorem readersFor_reads_iff :
    (∃ readers, readersFor X create kind keys alg kid = .ok readers ∧
        readers.findSome? (· token) = some payload) ↔
      ((keys.filter (isCandidate kid)).filterMap (create alg)).findSome? (· token) = some payload := by
  have hcandidates : candidateKeys X keys kid =
      if (keys.filter (isCandidate kid)).isEmpty then
        match kid with
        | some kid => .error s!"jwt kid not found in jwks: {String.ofList kid}"
        | none => .error "no jwks key available for token"
      else .ok (keys.filter (isCandidate kid)) := by
    unfold candidateKeys isCandidate
    cases kid <;> rfl
  constructor
  · rintro ⟨readers, hreaders, hread⟩
    obtain ⟨candidates, hc, hr⟩ := bind_eq_ok_iff.1 hreaders
    rw [hcandidates] at hc
    split at hc
    · cases kid <;> cases hc
    · cases hc
      dsimp only at hr
      split at hr
      · cases hr
      · cases hr
        exact hread
  · intro hread
    have hreaders : ((keys.filter (isCandidate kid)).filterMap (create alg)).isEmpty = false := by
      rw [List.isEmpty_eq_false_iff]
      intro hnil
      rw [hnil] at hread
      cases hread
    have hkeys : (keys.filter (isCandidate kid)).isEmpty = false := by
      rw [List.isEmpty_eq_false_iff]
      intro hnil
      rw [hnil] at hread
      cases hread
    refine ⟨_, ?_, hread⟩
    unfold readersFor
    rw [hcandidates, hkeys]
    show (if ((keys.filter (isCandidate kid)).filterMap (create alg)).isEmpty then _ else _) = _
    rw [hreaders]
    rfl

/-- The search over the readers is one over the keys. -/
theorem findSome?_readers :
    ((keys.filter (isCandidate kid)).filterMap (create alg)).findSome? (· token) =
      keys.findSome? fun jwk => if isCandidate kid jwk then (create alg jwk).bind (· token) else none := by
  rw [← List.head?_filterMap, ← List.head?_filterMap, List.filterMap_filterMap, List.filterMap_filter]

end Readers

theorem readAlgKid_eq_ok_iff (token alg : Str) (kid : Option Str) :
    readAlgKid X token = .ok (alg, kid) ↔
      ∃ header, X.jose.decodeHeader token = .ok header ∧
        (Json.lookup header "alg".toList).bind Json.asStr = some alg ∧
        kid = (Json.lookup header "kid".toList).bind Json.asStr := by
  unfold readAlgKid
  cases X.jose.decodeHeader token with
  | error e => simp
  | ok header =>
    cases halg : (Json.lookup header "alg".toList).bind Json.asStr with
    | none => simp only [Except.ok.injEq, exists_eq_left', halg, reduceCtorEq, false_and]
    | some alg' =>
      simp only [Except.ok.injEq, exists_eq_left', halg, Option.some.injEq, Prod.mk.injEq]
      exact and_congr_right fun _ => eq_comm

theorem decodeWith_eq_ok (readers : Str → Option Str → Except String (List (Str → Option JwtPayload)))
    (failure : String) (token : Str) (payload : JwtPayload) :
    decodeWith (X := X) readers failure token = .ok payload ↔
      ∃ alg kid, readAlgKid X token = .ok (alg, kid) ∧
        ∃ rs, readers alg kid = .ok rs ∧ rs.findSome? (· token) = some payload := by
  unfold decodeWith
  rw [bind_eq_ok_iff, Prod.exists]
  refine exists_congr fun alg => exists_congr fun kid => and_congr_right fun _ => ?_
  rw [bind_eq_ok_iff]
  refine exists_congr fun rs => and_congr_right fun _ => ?_
  cases rs.findSome? (· token) with
  | none => exact ⟨fun h => (nomatch h), fun h => (nomatch h)⟩
  | some p => exact ⟨fun h => congrArg some (Except.ok.inj h), fun h => congrArg Except.ok (Option.some.inj h)⟩

/-- `decode_jwt` and `decode_jwe`, with the payload of the first key. -/
theorem decodeWith_eq_ok_iff {create : Str → X.jose.Jwk → Option (Str → Option JwtPayload)}
    (kind failure : String) (keys : List X.jose.Jwk) {token : Str}
    (hread : ∀ alg jwk, readWith X alg token jwk = (create alg jwk).bind (· token))
    (payload : JwtPayload) :
    decodeWith (X := X) (readersFor X create kind keys) failure token = .ok payload ↔
      ∃ header alg, X.jose.decodeHeader token = .ok header ∧
        (Json.lookup header "alg".toList).bind Json.asStr = some alg ∧
        FirstReads X keys ((Json.lookup header "kid".toList).bind Json.asStr) alg token payload := by
  have hfirst (alg : Str) (kid : Option Str) :
      (∃ rs, readersFor X create kind keys alg kid = .ok rs ∧ rs.findSome? (· token) = some payload) ↔
        FirstReads X keys kid alg token payload := by
    rw [readersFor_reads_iff, findSome?_readers, List.findSome?_eq_some_iff]
    simp only [← hread, Option.ite_none_right_eq_some, ite_eq_right_iff, isCandidate_iff, FirstReads]
  rw [decodeWith_eq_ok]
  constructor
  · rintro ⟨alg, kid, hhead, hreads⟩
    obtain ⟨header, hdecode, halg, rfl⟩ := (readAlgKid_eq_ok_iff token alg kid).1 hhead
    exact ⟨header, alg, hdecode, halg, (hfirst alg _).1 hreads⟩
  · rintro ⟨header, alg, hdecode, halg, hreads⟩
    exact ⟨alg, _, (readAlgKid_eq_ok_iff token alg _).2 ⟨header, hdecode, halg, rfl⟩, (hfirst alg _).2 hreads⟩

theorem validateTimeClaims_eq_ok_iff (payload : JwtPayload) (now : Int) :
    validateTimeClaims X payload now = .ok () ↔ InTime X payload now := by
  unfold validateTimeClaims InTime
  rcases X.jose.notBefore payload with _ | nbf <;>
    rcases X.jose.expiresAt payload with _ | exp <;>
      simp [Option.any]
  by_cases hnbf : now < nbf
  · simp [hnbf, not_le.2 hnbf]
  · simp [hnbf, not_lt.1 hnbf]

theorem thenValidate_eq_ok_iff (decoded : Except String JwtPayload) (now : Int)
    (payload : JwtPayload) :
    (do
      let payload ← decoded
      if m.validateTime then
        validateTimeClaims X payload now
        return payload
      else return payload) = .ok payload ↔
      decoded = .ok payload ∧ (m.validateTime = true → InTime X payload now) := by
  cases decoded with
  | error e =>
    constructor
    · exact fun h => (nomatch h)
    · exact fun h => (nomatch h.1)
  | ok p =>
    show (if m.validateTime = true then validateTimeClaims X p now >>= fun _ => pure p else pure p) =
      .ok payload ↔ _
    split
    · next hvalidate =>
      rw [bind_eq_ok_iff]
      constructor
      · rintro ⟨_, htime, hp⟩
        obtain rfl : p = payload := Except.ok.inj hp
        exact ⟨rfl, fun _ => (validateTimeClaims_eq_ok_iff p now).1 htime⟩
      · rintro ⟨hp, htime⟩
        obtain rfl : p = payload := Except.ok.inj hp
        exact ⟨(), (validateTimeClaims_eq_ok_iff p now).2 (htime hvalidate), rfl⟩
    · next hvalidate =>
      exact ⟨fun hp => ⟨hp, fun h => absurd h hvalidate⟩, fun h => h.1⟩

theorem verifyOrDecryptPayload_eq_ok_iff (token : Str) (now : Int) (payload : JwtPayload) :
    m.verifyOrDecryptPayload token now = .ok payload ↔
      (segments token = 3 ∨ segments token = 5) ∧
      (∃ header alg, X.jose.decodeHeader token = .ok header ∧
        (Json.lookup header "alg".toList).bind Json.asStr = some alg ∧
        FirstReads X m.jwksPool ((Json.lookup header "kid".toList).bind Json.asStr) alg token payload) ∧
      (m.validateTime = true → InTime X payload now) := by
  have hcount : token.count '.' + 1 = segments token := rfl
  unfold verifyOrDecryptPayload
  by_cases h3 : segments token = 3
  · have hread (alg : Str) (jwk : X.jose.Jwk) :
        readWith X alg token jwk = (createVerifier X alg jwk).bind (· token) := by
      rw [readWith, h3]
      rfl
    simp only [hcount, h3, true_or, true_and]
    rw [thenValidate_eq_ok_iff]
    exact and_congr_left fun _ => decodeWith_eq_ok_iff _ _ _ hread payload
  by_cases h5 : segments token = 5
  · have hread (alg : Str) (jwk : X.jose.Jwk) :
        readWith X alg token jwk = (createDecrypter X alg jwk).bind (· token) := by
      rw [readWith, h5]
      rfl
    simp only [hcount, h5, or_true, true_and]
    rw [thenValidate_eq_ok_iff]
    exact and_congr_left fun _ => decodeWith_eq_ok_iff _ _ _ hread payload
  · simp only [hcount, h3, h5, or_self, false_and, iff_false]
    generalize segments token = n at h3 h5
    match n, h3, h5 with
    | 0, _, _ | 1, _, _ | 2, _, _ | 4, _, _ | _ + 6, _, _ => exact fun h => (nomatch h)

/-- The stages accept a request with the payload that `Accepts` names. -/
theorem stages_eq_ok_iff (session : Session X.H) (now : Int) (payload : JwtPayload) :
    (m.extractToken session >>= fun token => m.verifyOrDecryptPayload token now) = .ok payload ↔
      m.Accepts session.reqHeader.headers now payload := by
  simp only [bind_eq_ok_iff, extractToken_eq_ok_iff, verifyOrDecryptPayload_eq_ok_iff, Accepts]
  constructor
  · rintro ⟨token, ⟨value, hvalue, hcarries⟩, hsegments, ⟨header, alg, hhead, halg, hfirst⟩, htime⟩
    exact ⟨value, token, header, alg, hvalue, hcarries, hsegments, hhead, halg, hfirst, htime⟩
  · rintro ⟨value, token, header, alg, hvalue, hcarries, hsegments, hhead, halg, hfirst, htime⟩
    exact ⟨token, ⟨value, hvalue, hcarries⟩, hsegments, ⟨header, alg, hhead, halg, hfirst⟩, htime⟩

/-! ## The filter -/

/-- The state in which an accepted payload is exposed. -/
def exposed (s : RequestState X) (payload : JwtPayload) : RequestState X :=
  { s with time := s.time + 1 }.setScope (s.scope.setJwtPayload (some payload))

theorem exec_setCelClaims (s : RequestState X) (payload : JwtPayload) :
    (setCelClaims X payload).exec s =
      match X.toValue (.object payload) with
      | .error e => (.error (middlewareInternalError "jwt payload to cel value failed" e),
          s.setScope (s.scope.setJwtPayload (some payload)))
      | .ok v => (.ok (), s.setScope
          ((s.scope.setJwtPayload (some payload)).addVariable "jwt_payload".toList v)) := by
  unfold setCelClaims setJwtPayload
  rw [bind_assoc, exec_bind, exec_ensureSessionCelContext]
  cases X.toValue (.object payload) with
  | error e => rfl
  | ok v => rfl

theorem exec_authorize_of_error (s : RequestState X) {e : String}
    (h : (m.extractToken s.session >>= fun token =>
      m.verifyOrDecryptPayload token (X.now s.time)) = .error e) :
    m.authorize.exec s = (.ok false, { s with time := s.time + 1 }) := by
  unfold authorize
  rw [exec_bind, exec_get]
  dsimp only
  rw [exec_bind, exec_tick]
  dsimp only
  rw [h]
  rfl

theorem exec_authorize_of_ok (s : RequestState X) {p : JwtPayload}
    (h : (m.extractToken s.session >>= fun token =>
      m.verifyOrDecryptPayload token (X.now s.time)) = .ok p) :
    m.authorize.exec s = (tryCatch (do setCelClaims X p; return true) fun _ => pure false :
      ReqM X Bool).exec { s with time := s.time + 1 } := by
  unfold authorize
  rw [exec_bind, exec_get]
  dsimp only
  rw [exec_bind, exec_tick]
  dsimp only
  rw [h]

/-- What `authorize` does: without an accepted payload it only looks at the clock, otherwise it
exposes the payload, and the variable if the payload has a value. -/
theorem exec_authorize (s : RequestState X) :
    ((∀ p, ¬ m.Accepts s.session.reqHeader.headers (X.now s.time) p) ∧
      m.authorize.exec s = (.ok false, { s with time := s.time + 1 })) ∨
    ∃ p, m.Accepts s.session.reqHeader.headers (X.now s.time) p ∧
      ((∃ e, X.toValue (.object p) = .error e ∧ m.authorize.exec s = (.ok false, exposed s p)) ∨
        ∃ v, X.toValue (.object p) = .ok v ∧ m.authorize.exec s = (.ok true,
          (exposed s p).setScope ((exposed s p).scope.addVariable "jwt_payload".toList v))) := by
  cases hstages : m.extractToken s.session >>= fun token =>
      m.verifyOrDecryptPayload token (X.now s.time) with
  | error e =>
    refine .inl ⟨fun p haccepts => ?_, m.exec_authorize_of_error s hstages⟩
    rw [(m.stages_eq_ok_iff s.session (X.now s.time) p).2 haccepts] at hstages
    cases hstages
  | ok p =>
    refine .inr ⟨p, (m.stages_eq_ok_iff s.session (X.now s.time) p).1 hstages, ?_⟩
    rw [m.exec_authorize_of_ok s hstages, exec_tryCatch, exec_bind, exec_setCelClaims]
    cases hvalue : X.toValue (.object p) with
    | error e => exact .inl ⟨e, rfl, rfl⟩
    | ok v => exact .inr ⟨v, rfl, rfl⟩

theorem exec_denyUnauthorized_ne (s : RequestState X) : ((denyUnauthorized X).exec s).1 ≠ .ok false := by
  unfold denyUnauthorized
  rw [exec_bind]
  rcases (mapInternalError X "jwt write 401 failed" (writeResponse X 401 [] none none)).exec s with
    ⟨_ | _, s'⟩
  · exact nofun
  · exact fun h => Bool.noConfusion (Except.ok.inj h)

/-- **The gate**: a middleware that denies and has no rule lets exactly the accepted requests
continue. -/
theorem continues_iff (htoValue : ∀ members, ∃ v, X.toValue (.object members) = .ok v)
    (hdeny : m.onError = .deny) (hrule : m.ruleProgram = none) (s : RequestState X) :
    (m.requestFilter.exec s).1 = .ok false ↔
      ∃ p, m.Accepts s.session.reqHeader.headers (X.now s.time) p := by
  have hexec : m.requestFilter.exec s =
      Eff.exec (do if ← m.authorize then return false else denyUnauthorized X) s := by
    unfold requestFilter shouldApply
    rw [hrule, hdeny]
    rfl
  rw [hexec, exec_bind]
  rcases m.exec_authorize s with ⟨hnone, hauthorize⟩ | ⟨p, haccepts, h⟩
  · rw [hauthorize]
    refine iff_of_false (exec_denyUnauthorized_ne _) ?_
    rintro ⟨p, haccepts⟩
    exact hnone p haccepts
  · refine iff_of_true ?_ ⟨p, haccepts⟩
    obtain ⟨v, hv⟩ := htoValue p
    rcases h with ⟨e, he, -⟩ | ⟨v', -, hauthorize⟩
    · rw [hv] at he
      cases he
    · rw [hauthorize]
      rfl

end JwtMiddleware

end Lonesome
