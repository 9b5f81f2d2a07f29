import Lonesome.Proxy.Response

/-!
# Authentication

The request filters of `src/middlewares/basic_auth` and `src/middlewares/jwt`. A request that is
refused is answered with a bare `401`, which an error page may serve.
-/

namespace Lonesome

open Lonesome.Lib

variable {X : Externals}

/-! ## basic_auth -/

namespace BasicAuthMiddleware

variable (m : BasicAuthMiddleware X)

def shouldApply : ReqM X Bool := Lonesome.shouldApply X m.celProgram

def issueChallenge : ReqM X Bool := do
  let wwwAuthenticate := "Basic realm=\"".toList ++ m.realm ++ "\", charset=\"UTF-8\"".toList
  mapInternalError X "basic_auth write 401 failed"
    (writeResponse X 401 [("www-authenticate", wwwAuthenticate)] none none)
  return true

variable (X) in
def parseBasicCredentials (authValue : Str) : Option (Str × Str) :=
  let scheme := "Basic ".toList
  if scheme.isPrefixOf authValue then
    let encoded := Str.trim (Str.trimStartMatches scheme authValue)
    (X.decodeBase64 encoded).bind (·.splitOnce ':')
  else none

/-- The last user of a name counts. -/
def passwordHash (username : Str) : Option Str :=
  (m.users.reverse.find? (·.name == username)).map (·.passwordHash)

/-- The value of the `authorization` field, empty when there is none to read. -/
def authValue (session : Session X.H) : Str :=
  (((session.reqHeader.headers.get "authorization").bind (·.toStr)).map Str.trim).getD []

def authenticate : ReqM X Bool := do
  let s ← get
  match parseBasicCredentials X (authValue s.session) with
  | none => m.issueChallenge
  | some (username, password) =>
    match m.passwordHash username with
    | none => m.issueChallenge
    | some hash => if X.verifyPassword password hash then return false else m.issueChallenge

def requestFilter : ReqM X Bool := do
  if ← m.shouldApply then m.authenticate else return false

end BasicAuthMiddleware

/-! ## jwt -/

/-- The algorithms of `create_verifier`. -/
def jwsAlgorithms : List String :=
  ["HS256", "HS384", "HS512", "RS256", "RS384", "RS512", "PS256", "PS384", "PS512", "ES256",
    "ES384", "ES512", "ES256K", "EdDSA"]

/-- The algorithms of `create_decrypter`. -/
def jweAlgorithms : List String :=
  ["dir", "RSA-OAEP", "RSA-OAEP-256", "RSA-OAEP-384", "RSA-OAEP-512", "A128KW", "A192KW", "A256KW",
    "A128GCMKW", "A192GCMKW", "A256GCMKW", "ECDH-ES", "ECDH-ES+A128KW", "ECDH-ES+A192KW",
    "ECDH-ES+A256KW"]

section Jwks

variable (X)

def createVerifier (alg : Str) (jwk : X.jose.Jwk) : Option (Str → Option JwtPayload) :=
  if String.ofList alg ∈ jwsAlgorithms then X.jose.verifier alg jwk else none

def createDecrypter (alg : Str) (jwk : X.jose.Jwk) : Option (Str → Option JwtPayload) :=
  if String.ofList alg ∈ jweAlgorithms then X.jose.decrypter alg jwk else none

def candidateKeys (keys : List X.jose.Jwk) (kid : Option Str) : Except String (List X.jose.Jwk) :=
  let candidates := keys.filter fun jwk =>
    match kid with
    | some expected => X.jose.keyId jwk == some expected
    | none => true
  if candidates.isEmpty then
    match kid with
    | some kid => .error s!"jwt kid not found in jwks: {String.ofList kid}"
    | none => .error "no jwks key available for token"
  else .ok candidates

/-- `verifiers_for` and `decrypters_for`: the ways of reading a token that the keys allow. -/
def readersFor (create : Str → X.jose.Jwk → Option (Str → Option JwtPayload)) (kind : String)
    (keys : List X.jose.Jwk) (alg : Str) (kid : Option Str) :
    Except String (List (Str → Option JwtPayload)) := do
  let candidates ← candidateKeys X keys kid
  let readers := candidates.filterMap (create alg)
  if readers.isEmpty then .error s!"{kind} alg not supported by jwks keys: {String.ofList alg}"
  else .ok readers

def verifiersFor : List X.jose.Jwk → Str → Option Str → Except String (List (Str → Option JwtPayload)) :=
  readersFor X (createVerifier X) "jwt"

def decryptersFor : List X.jose.Jwk → Str → Option Str → Except String (List (Str → Option JwtPayload)) :=
  readersFor X (createDecrypter X) "jwe"

/-- The `alg` of the token's header, and its `kid` when that is a string. -/
def readAlgKid (token : Str) : Except String (Str × Option Str) :=
  match X.jose.decodeHeader token with
  | .error e => .error s!"jwt decode header failed: {e}"
  | .ok header =>
    match (Json.lookup header "alg".toList).bind Json.asStr with
    | none => .error "jwt header missing alg"
    | some alg => .ok (alg, (Json.lookup header "kid".toList).bind Json.asStr)

end Jwks

namespace JwtMiddleware

variable (m : JwtMiddleware X)

def shouldApply : ReqM X Bool := Lonesome.shouldApply X m.ruleProgram

def extractToken (session : Session X.H) : Except String Str :=
  match ((session.reqHeader.headers.getStr m.headerName).bind (·.toStr)).map Str.trim with
  | none => .error s!"missing auth header: {String.ofList m.headerName}"
  | some headerVal =>
    if m.bearerPrefix.isEmpty then .ok headerVal
    else
      match Str.stripPrefix m.bearerPrefix headerVal with
      | none => .error s!"invalid auth header prefix on {String.ofList m.headerName}"
      | some rest =>
        let token := Str.trim rest
        if token.isEmpty then .error "empty jwt token" else .ok token

/-- `decode_jwt` and `decode_jwe`: the payload of the first reader that accepts the token. -/
def decodeWith (readers : Str → Option Str → Except String (List (Str → Option JwtPayload)))
    (failure : String) (token : Str) : Except String JwtPayload := do
  let (alg, kid) ← readAlgKid X token
  match (← readers alg kid).findSome? (· token) with
  | some payload => return payload
  | none => throw failure

def decodeJwt : Str → Except String JwtPayload :=
  decodeWith (X := X) (verifiersFor X m.jwksPool) "jwt verify failed"

def decodeJwe : Str → Except String JwtPayload :=
  decodeWith (X := X) (decryptersFor X m.jwksPool) "jwe decrypt failed"

variable (X) in
def validateTimeClaims (payload : JwtPayload) (now : Int) : Except String Unit :=
  if (X.jose.notBefore payload).any (now < ·) then .error "jwt nbf is in the future"
  else if (X.jose.expiresAt payload).any (· ≤ now) then .error "jwt exp is expired"
  else .ok ()

def verifyOrDecryptPayload (token : Str) (now : Int) : Except String JwtPayload := do
  let partCount := token.count '.' + 1
  let payload ← match partCount with
    | 3 => m.decodeJwt token
    | 5 => m.decodeJwe token
    | _ => throw s!"invalid token format: expected 3(JWT) or 5(JWE) segments, got {partCount}"
  if m.validateTime then validateTimeClaims X payload now
  return payload

variable (X) in
/-- `ensure_session_cel_context(..).cel_http_session.set_jwt_payload(Some(payload))` -/
def setJwtPayload (payload : JwtPayload) : ReqM X Unit := do
  let c ← ensureSessionCelContext X
  setCelContext X (c.setJwtPayload (some payload))

variable (X) in
/-- The payload is set before it is converted for the scope. -/
def setCelClaims (payload : JwtPayload) : ReqM X Unit := do
  setJwtPayload X payload
  let celPayload ← orInternalError X "jwt payload to cel value failed" (X.toValue (.object payload))
  addVariable X "jwt_payload".toList celPayload

variable (X) in
def denyUnauthorized : ReqM X Bool := do
  mapInternalError X "jwt write 401 failed" (writeResponse X 401 [] none none)
  return true

/-- The closure of `request_filter`: `false` for an error of any kind. -/
def authorize : ReqM X Bool := do
  let s ← get
  let t ← tick X
  match m.extractToken s.session >>= fun token => m.verifyOrDecryptPayload token (X.now t) with
  | .error _ => return false
  | .ok payload => tryCatch (do setCelClaims X payload; return true) fun _ => pure false

def requestFilter : ReqM X Bool := do
  if ← m.shouldApply then
    if ← m.authorize then return false
    else
      match m.onError with
      | .passthrough => return false
      | .deny => denyUnauthorized X
  else return false

end JwtMiddleware

/-! ## Invariants -/

namespace Responds

variable {Writable : Str → Prop} {I : RequestState X → Prop} (hI : Responds X Writable I)
include hI

theorem basicAuth_requestFilter (m : BasicAuthMiddleware X) : Keeps I m.requestFilter := by
  refine hI.whenApplies m.celProgram ?_ false
  refine .bind keeps_get fun s => ?_
  split
  · exact hI.answer _ _ _ _ _
  · split
    · exact hI.answer _ _ _ _ _
    · exact .ite (fun _ => keeps_pure false) fun _ => hI.answer _ _ _ _ _

/-- The payload is written by `authorize` only. -/
theorem jwt_requestFilter (m : JwtMiddleware X) (hauthorize : Keeps I m.authorize) :
    Keeps I m.requestFilter := by
  refine hI.whenApplies m.ruleProgram ?_ false
  refine .bind hauthorize fun authorized => .ite (fun _ => keeps_pure false) fun _ => ?_
  split
  · exact keeps_pure false
  · exact hI.answer _ _ _ _ _

end Responds

theorem Evaluates.jwt_authorize {Writable : Str → Prop} {I : RequestState X → Prop}
    (hI : Evaluates X Writable I) (hname : Writable "jwt_payload".toList)
    (hpayload : ∀ payload, Keeps I (JwtMiddleware.setJwtPayload X payload)) (m : JwtMiddleware X) :
    Keeps I m.authorize := by
  refine .bind keeps_get fun s => .bind hI.tick fun t => ?_
  split
  · exact keeps_pure false
  · next payload _ =>
    refine .tryCatch (.bind (.bind (hpayload payload) fun _ => ?_) fun _ => keeps_pure true)
      fun _ => keeps_pure false
    exact .bind (keeps_orInternalError _ _) fun v => hI.addVariable _ hname v

theorem Steady.jwt_authorize {Writable : Str → Prop} {I : RequestState X → Prop}
    (hI : Steady X Writable I) (hname : Writable "jwt_payload".toList) (m : JwtMiddleware X) :
    Keeps I m.authorize := by
  refine hI.routine.responds.jwt_authorize hname (fun payload s h => ?_) m
  rw [JwtMiddleware.setJwtPayload, exec_bind, exec_ensureSessionCelContext]
  exact hI.setsPayload s (some payload) h

end Lonesome
