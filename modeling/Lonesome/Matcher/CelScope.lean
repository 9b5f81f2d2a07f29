import Lonesome.Matcher.CelCommon
import Lonesome.Matcher.CelSessionContext

/-!
# The functions of an expression and the scope they read

`src/matcher/cel_common.rs` and the parts of `cel_session_context.rs` behind it. The functions take
no argument for the request: they find the session in a variable of the scope that the expression
is evaluated in (`withSession`), beside the variables that middlewares put there.

Of the session, what was received (`ReceivedRequest`) does not change any more; the header of the
upstream response, the JWT payload and the error status are written as the request goes on. The
functions of the request (`RequestFn`) are given the former only: `RequestFn.call`.
-/

namespace Lonesome

/-- A JSON value. -/
inductive Json where
  | null
  | bool (v : Bool)
  | nat (v : Nat)
  | number (text : Str)
  | string (v : Str)
  | array (items : List Json)
  | object (members : List (Str × Json))

namespace Json

/-- `as_str`, `as_u64` and `get` of `serde_json::Value`. -/
def asStr : Json → Option Str
  | .string v => some v
  | _ => none

def asU64 : Json → Option Nat
  | .nat v => some v
  | _ => none

def lookup (members : List (Str × Json)) (key : Str) : Option Json :=
  (members.find? (·.1 == key)).map (·.2)

end Json

/-- The claims of a token. -/
abbrev JwtPayload := List (Str × Json)

/-- A CEL value; a float is given by its text, and `session` is the opaque value that stands for
the session of the request. -/
inductive CelValue where
  | string (v : Str)
  | int (v : Int)
  | uint (v : Nat)
  | float (text : Str)
  | bool (v : Bool)
  | session
  | other (text : Str)
  deriving DecidableEq, Repr

/-- `to_string` on the scalar kinds. -/
def CelValue.scalarText : CelValue → Option Str
  | .string v => some v
  | .int v => some (toString v).toList
  | .uint v => some (toString v).toList
  | .float text => some text
  | .bool v => some (toString v).toList
  | .session | .other _ => none

/-- An address of the `pingora` sockets. -/
inductive SocketAddr where
  | inet (ip : Str) (port : Nat)
  | unix (path : Str)
  deriving DecidableEq, Repr

/-- `percent_decode_str(..).decode_utf8_lossy()` and `form_urlencoded::parse`. -/
structure Decoders where
  percentDecode : Str → Str
  formUrlencoded : Str → List (Str × Str)

variable {H : HttpCrate}

/-! ## The session -/

/-- What `CelHttpSession` takes over when it is made, and never changes. -/
structure ReceivedRequest (H : HttpCrate) extends CelHttpSession H where
  clientAddr : Option SocketAddr

namespace ReceivedRequest

def method (s : ReceivedRequest H) : Str := s.reqHeader.method.toList

/-- The decoded path, which is computed once. -/
def path (D : Decoders) (s : ReceivedRequest H) : Str :=
  D.percentDecode s.reqHeader.uri.path

def clientIp (s : ReceivedRequest H) : Str :=
  match s.clientAddr with
  | some (.inet ip _) => ip
  | _ => []

def queryPairs (D : Decoders) (s : ReceivedRequest H) : List (Str × Str) :=
  D.formUrlencoded (s.reqHeader.uri.query.getD [])

/-- The readable values of a field. -/
def headerValues (s : ReceivedRequest H) (key : Str) : List Str :=
  (s.reqHeader.headers.getAll (String.ofList key.toAsciiLowercase)).filterMap (·.toStr)

def headerValue (s : ReceivedRequest H) (key : Str) : Option Str :=
  (s.reqHeader.headers.getStr key).bind (·.toStr)

end ReceivedRequest

/-- The session with the fields behind its locks. -/
structure CelSession (H : HttpCrate) extends ReceivedRequest H where
  upstreamResHeader : Option ResponseHeader
  jwtPayload : Option JwtPayload
  errorStatus : Option Nat

/-- `jwt_claim_value`: a claim of the payload. -/
def CelSession.jwtClaimValue (s : CelSession H) (key : Str) : Option Json :=
  s.jwtPayload.bind (Json.lookup · key)

/-- `SessionCelContext`: the variables of the scope of a request, and its session. -/
structure SessionCelContext (H : HttpCrate) where
  celCtx : Str → Option CelValue
  celHttpSession : CelSession H

/-- `CEL_HTTP_SESSION_KEY` -/
def celHttpSessionKey : Str := "_cel_http_session".toList

namespace SessionCelContext

/-- `read_session_cel_context` -/
def ofReceived (r : ReceivedRequest H) : SessionCelContext H where
  celCtx name := if name = celHttpSessionKey then some .session else none
  celHttpSession := { r with upstreamResHeader := none, jwtPayload := none, errorStatus := none }

/-- `Context::add_variable_from_value` -/
def addVariable (c : SessionCelContext H) (name : Str) (v : CelValue) : SessionCelContext H :=
  { c with celCtx := fun n => if n = name then some v else c.celCtx n }

def setErrorStatus (c : SessionCelContext H) (status : Option Nat) : SessionCelContext H :=
  { c with celHttpSession := { c.celHttpSession with errorStatus := status } }

def setUpstreamResHeader (c : SessionCelContext H) (header : Option ResponseHeader) :
    SessionCelContext H :=
  { c with celHttpSession := { c.celHttpSession with upstreamResHeader := header } }

def setJwtPayload (c : SessionCelContext H) (payload : Option JwtPayload) : SessionCelContext H :=
  { c with celHttpSession := { c.celHttpSession with jwtPayload := payload } }

/-- The session, through the variable that holds it. -/
def withSession {R : Type} (c : SessionCelContext H) (f : CelSession H → R) : Option R :=
  match c.celCtx celHttpSessionKey with
  | some .session => some (f c.celHttpSession)
  | _ => none

/-! ## The functions -/

/-- `ErrorStatusValue()` -/
def errorStatusValue (c : SessionCelContext H) : Nat :=
  (c.withSession fun s => s.errorStatus.getD 0).getD 0

/-- `ResponseStatusValue()` -/
def responseStatusValue (c : SessionCelContext H) : Nat :=
  (c.withSession fun s => (s.upstreamResHeader.map (·.status)).getD 0).getD 0

/-- `ResponseHeaderValue(key)` -/
def responseHeaderValue (c : SessionCelContext H) (key : Str) : Str :=
  (c.withSession fun s =>
    ((s.upstreamResHeader.bind (·.headers.getStr key)).bind (·.toStr)).getD []).getD []

end SessionCelContext

/-- The functions of an expression that are about the JWT payload. -/
inductive JwtFn where
  | jwtClaim (key expected : Str)
  | jwtClaimValue (key : Str)
  | jwtPayloadValue

namespace JwtFn

/-- `JwtClaim` on the claim: a string or a number that is spelled so. -/
def claimIs (expected : Str) : Option Json → Bool
  | some (.string v) => v == expected
  | some (.nat v) => (toString v).toList == expected
  | some (.number text) => text == expected
  | _ => false

/-- A call in a scope, with `cel::to_value` and `to_string` of a payload. -/
def call (toValue : Json → Except String CelValue) (payloadText : JwtPayload → Str)
    (c : SessionCelContext H) : JwtFn → Except String CelValue
  | jwtClaim key expected =>
    .ok (.bool ((c.withSession fun s => claimIs expected (s.jwtClaimValue key)).getD false))
  | jwtClaimValue key =>
    (toValue ((c.withSession fun s => s.jwtClaimValue key).join.getD .null)).mapError
      fun e => s!"failed to convert claim to cel value: {e}"
  | jwtPayloadValue =>
    .ok (.string ((c.withSession fun s => s.jwtPayload.map payloadText).join.getD []))

end JwtFn

/-- The functions of an expression that are about the request. -/
inductive RequestFn where
  | methodValue
  | hostValue
  | pathValue
  | headerValue (key : Str)
  | queryValue (key : Str)
  | sniValue
  | authorityValue
  | clientIpValue
  | host (expected : Str)
  | path (expected : Str)
  | pathPrefix (expected : Str)
  | method (expected : Str)
  | header (key value : Str)
  | query (key value : Str)

namespace RequestFn

/-- What the function makes of the session. -/
def onSession (D : Decoders) (s : ReceivedRequest H) : RequestFn → CelValue
  | methodValue => .string s.method
  | hostValue => .string s.host
  | pathValue => .string (s.path D)
  | headerValue key => .string ((s.headerValue key).getD [])
  | queryValue key => .string (((s.queryPairs D).find? (·.1 == key)).map (·.2) |>.getD [])
  | sniValue => .string (s.sni.getD [])
  | authorityValue => .string (s.httpAuthority.getD [])
  | clientIpValue => .string s.clientIp
  | host expected => .bool (Cel.hostMatches s.host expected)
  | path expected => .bool (s.path D == expected)
  | pathPrefix expected => .bool (expected.isPrefixOf (s.path D))
  | method expected => .bool (s.method == expected)
  | header key value => .bool ((s.headerValues key).any (· == value))
  | query key value => .bool ((s.queryPairs D).any fun p => p.1 == key && p.2 == value)

/-- The result without a session: the empty string, or `false`. -/
def withoutSession : RequestFn → CelValue
  | methodValue | hostValue | pathValue | headerValue _ | queryValue _ | sniValue | authorityValue
  | clientIpValue => .string []
  | host _ | path _ | pathPrefix _ | method _ | header .. | query .. => .bool false

/-- A call in a scope. -/
def call (D : Decoders) (c : SessionCelContext H) (fn : RequestFn) : CelValue :=
  (c.withSession fun s => fn.onSession D s.toReceivedRequest).getD fn.withoutSession

end RequestFn

end Lonesome
