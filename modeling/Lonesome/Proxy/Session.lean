import Lonesome.Matcher.CelScope
import Lonesome.Matcher.Matcher
import Lonesome.Proxy.SniHost
import Lonesome.Server.ErrorPageStore
import Lonesome.Upstream.Health

/-!
# The surroundings of a request

The crates that the proxy calls (`Externals`), the state that requests share (`Shared`) and the
downstream session of `pingora` (`Session`).

What a call of a crate depends on beside its arguments (the clock, a random number, the network, the
work of other threads) is the time of the call, a counter of the request.
-/

namespace Lonesome

open Lonesome.Cel (Expr)
open Lonesome.ErrorPages (ErrorPageStore)
open Lonesome.Upstream (HealthTable)

/-- `josekit`: the keys of a set, and what a key makes of a token. -/
structure Jose where
  Jwk : Type
  fromJwks : Str → Except String (List Jwk)
  keyId : Jwk → Option Str
  /-- `decode_header` -/
  decodeHeader : Str → Except String (List (Str × Json))
  /-- `verifier_from_jwk` for an algorithm, with `decode_with_verifier` -/
  verifier : Str → Jwk → Option (Str → Option JwtPayload)
  /-- `decrypter_from_jwk` for an algorithm, with `decode_with_decrypter` -/
  decrypter : Str → Jwk → Option (Str → Option JwtPayload)
  /-- `not_before` and `expires_at` of a payload, in milliseconds. -/
  notBefore : JwtPayload → Option Int
  expiresAt : JwtPayload → Option Int

/-- `pingora::cache::CachePhase`, without the reasons. -/
inductive CachePhase where
  | hit
  | miss
  | stale
  | staleUpdating
  | expired
  | revalidated
  | revalidatedNoCache
  | bypass
  | disabled
  | uninit
  | cacheKey
  deriving DecidableEq, Repr

/-- What all requests share: the counters of `RATE_LIMITER` in its window, the error pages, the
passive health of the upstreams of a route, and the lines of the access logs by file. -/
structure Shared (Ω : Type) where
  rates : Str → Nat
  errorPages : ErrorPageStore (Expr Ω)
  health : HealthTable
  accessLog : List (Str × Str)

structure Externals where
  H : HttpCrate
  /-- Constants of expressions other than strings and booleans. -/
  Ω : Type
  D : Decoders
  crates : ErrorPages.Crates (Expr Ω)
  /-- `Program::execute` in a scope. -/
  execute : Nat → SessionCelContext H → Expr Ω → Except String CelValue
  /-- `{:?}` of a value. -/
  debug : CelValue → String
  Regex : Type
  newRegex : Str → Except String Regex
  isMatch : Regex → Str → Bool
  replace : Regex → Str → Str → Str
  /-- The error of `Method::from_bytes`, and of opening a file for appending. -/
  methodError : Str → Option String
  openError : Str → Option String
  /-- `BASE64_STANDARD.decode`, and the text of the bytes. -/
  decodeBase64 : Str → Option Str
  /-- `password_auth::verify_password` -/
  verifyPassword : Str → Str → Bool
  jose : Jose
  /-- `cel::to_value` -/
  toValue : Json → Except String CelValue
  /-- `run_interceptor` -/
  runInterceptor : Nat → Str → Str → Str → Except ProxyError (Option Json)
  Endpoint : Type
  Peer : Type
  /-- `peer_from_endpoint` -/
  peerFromEndpoint : Nat → Endpoint → Except ProxyError Peer
  /-- The error of a write to the downstream, if it fails. -/
  writeError : Nat → Option ProxyError
  /-- The clock, in milliseconds, and as RFC 3339. -/
  now : Nat → Int
  timestamp : Nat → Str
  /-- `to_string` of an error, a URI and a JSON value. -/
  errorText : ProxyError → String
  uriText : Uri H → Str
  jsonText : Json → Str
  /-- `session.cache.phase()` -/
  cachePhase : Nat → CachePhase
  /-- What other requests and the control plane do meanwhile. -/
  others : Nat → Shared Ω → Shared Ω

/-- A compiled CEL program. -/
abbrev Externals.Program (X : Externals) : Type := Expr X.Ω

/-- The settings of a `ResponseCompression` module. -/
structure CompressionSettings where
  gzip : Nat
  br : Nat
  zstd : Nat
  decompress : Bool
  preserveEtag : Bool
  deriving DecidableEq

/-- A write to the downstream. -/
inductive Written where
  | head (resp : ResponseHeader)
  | body (chunk : Str)
  deriving DecidableEq

def Written.head? : Written → Option ResponseHeader
  | .head resp => some resp
  | .body _ => none

/-- `pingora::proxy::Session`: the request as it is at the time, its connection, and what has been
written to it, in order. -/
structure Session (H : HttpCrate) where
  reqHeader : RequestHeader H
  clientAddr : Option SocketAddr
  /-- The SNI of the TLS connection; the outer `none` is a connection without TLS. -/
  sslDigest : Option (Option Str)
  keepalive : Option Nat
  written : List Written
  downstreamCompression : Option CompressionSettings
  upstreamCompression : CompressionSettings

/-- `response_written`: the head of the response. `pingora` does not send a second one. -/
def Session.responseWritten {H : HttpCrate} (s : Session H) : Option ResponseHeader :=
  s.written.findSome? Written.head?

/-- The part of a new `CelHttpSession` that comes from the session. -/
def Session.received {H : HttpCrate} (s : Session H) (policy : SniHostPolicy) :
    ReceivedRequest H where
  reqHeader := s.reqHeader
  tlsSni := s.sslDigest.join
  sniHostPolicy := policy
  clientAddr := s.clientAddr

/-! ## Concrete crates -/

/-- Expressions without operators: a quoted string, and two of the functions. -/
def compilePlain (source : Str) : Except String (Expr Empty) :=
  if source = "HostValue()".toList then .ok (.call none "HostValue" [])
  else if source = "ErrorStatusValue()".toList then .ok (.call none "ErrorStatusValue" [])
  else if source.head? = some '\'' then .ok (.string source.tail.dropLast)
  else .error "unsupported expression"

def executePlain {H : HttpCrate} (D : Decoders) (c : SessionCelContext H) :
    Expr Empty → Except String CelValue
  | .string v => .ok (.string v)
  | .boolean v => .ok (.bool v)
  | .call none "HostValue" [] => .ok (RequestFn.hostValue.call D c)
  | .call none "ErrorStatusValue" [] => .ok (.int c.errorStatusValue)
  | _ => .error "undeclared reference"

/-- Crates for requests to plain paths, on their own and with writes that succeed: no expressions
beyond those above, no regular expressions, no passwords and no keys. -/
def Externals.plain : Externals where
  H := .byCharacter
  Ω := Empty
  D := ⟨id, fun _ => []⟩
  crates := ⟨compilePlain, fun name => some (String.ofList name.toAsciiLowercase)⟩
  execute _ c e := executePlain ⟨id, fun _ => []⟩ c e
  debug _ := ""
  Regex := Empty
  newRegex _ := .error "unsupported regex"
  isMatch regex _ := nomatch regex
  replace regex _ _ := nomatch regex
  methodError _ := none
  openError _ := none
  decodeBase64 _ := none
  verifyPassword _ _ := false
  jose := {
    Jwk := Empty
    fromJwks := fun _ => .ok []
    keyId := fun _ => none
    decodeHeader := fun _ => .error "unsupported token"
    verifier := fun _ _ => none
    decrypter := fun _ _ => none
    notBefore := fun _ => none
    expiresAt := fun _ => none }
  toValue _ := .ok (.other [])
  runInterceptor _ _ _ _ := .ok none
  Endpoint := Unit
  Peer := Unit
  peerFromEndpoint _ _ := .ok ()
  writeError _ := none
  now t := t
  timestamp _ := []
  errorText e := e.context
  uriText u := u.pathText
  jsonText _ := []
  cachePhase _ := .disabled
  others _ shared := shared

/-- A process that has served nothing yet, with the error pages of a store. -/
def Shared.plain (errorPages : ErrorPageStore (Expr Empty)) : Shared Externals.plain.Ω where
  rates _ := 0
  errorPages := errorPages
  health := .fresh
  accessLog := []

/-- A request for `http://a.example/` from `10.0.0.1`. -/
def Session.plain : Session Externals.plain.H where
  reqHeader := requestWithHosts none [HeaderValue.ofAscii "a.example".toList]
  clientAddr := some (.inet "10.0.0.1".toList 40000)
  sslDigest := none
  keepalive := some 60
  written := []
  downstreamCompression := none
  upstreamCompression := ⟨0, 0, 0, false, false⟩

end Lonesome
