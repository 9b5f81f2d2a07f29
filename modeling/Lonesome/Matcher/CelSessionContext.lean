import Lonesome.Http
import Lonesome.Matcher.Precheck.Cel

/-!
# The request as rules see it

`src/matcher/cel_session_context.rs`: the SNI, the HTTP authority of a request and the host that
routing uses, under the four policies of `src/config/startup_config.rs`. The fields of the session
that are not about the authority (JWT payload, client address, response header, ...) are not here.
-/

namespace Lonesome

/-- How the TLS SNI relates to the HTTP authority for routing and forwarding. -/
inductive SniHostPolicy where
  | looseBySni
  | looseByHeader
  | strict
  | strictRewriteHeader
  deriving DecidableEq, Repr

/-! ## Comparing hosts -/

/-- Compares two hostnames: ASCII case-insensitive, trailing dots ignored. -/
def hostnameEq (a b : Str) : Bool :=
  (a.trimEndMatches '.').eqIgnoreAsciiCase (b.trimEndMatches '.')

/-- What `hostnameEq` compares. -/
def canonicalHost (a : Str) : Str :=
  (a.trimEndMatches '.').toAsciiLowercase

theorem hostnameEq_iff (a b : Str) : hostnameEq a b = true ↔ canonicalHost a = canonicalHost b :=
  beq_iff_eq

theorem hostnameEq_refl (a : Str) : hostnameEq a a = true :=
  (hostnameEq_iff a a).2 rfl

theorem hostnameEq_comm (a b : Str) : hostnameEq a b = hostnameEq b a := by
  rw [Bool.eq_iff_iff, hostnameEq_iff, hostnameEq_iff]
  exact eq_comm

theorem hostnameEq_trans {a b c : Str} (h₁ : hostnameEq a b = true) (h₂ : hostnameEq b c = true) :
    hostnameEq a c = true := by
  rw [hostnameEq_iff] at *
  exact h₁.trans h₂

example : hostnameEq "a.example.com.".toList "A.EXAMPLE.com".toList = true := by decide

/-- `h.split(':').next().trim()`: the host of a `Host` field. -/
def stripPort (h : Str) : Str :=
  Str.trim (h.beforeFirst ':')

/-! ## The session -/

variable {H : HttpCrate}

structure CelHttpSession (H : HttpCrate) where
  reqHeader : RequestHeader H
  tlsSni : Option Str
  sniHostPolicy : SniHostPolicy

namespace CelHttpSession

/-- The TLS SNI, when present and not empty. -/
def sni (s : CelHttpSession H) : Option Str :=
  s.tlsSni.filter fun t => !t.isEmpty

/-- The host of the URI authority, and that of the first `Host` field when it is readable. -/
def authoritySources (s : CelHttpSession H) : Option Str × Option Str :=
  let authority := s.reqHeader.uri.authority.map (·.host)
  let hostHeader := ((s.reqHeader.headers.get "host").bind (·.toStr)).map stripPort
  (authority, hostHeader)

/-- The HTTP-level authority: the URI authority, otherwise the `Host` header. -/
def httpAuthority (s : CelHttpSession H) : Option Str :=
  s.authoritySources.1.or s.authoritySources.2

/-- The request carries a URI authority and a `Host` header that differ. -/
def authorityConflict (s : CelHttpSession H) : Bool :=
  match s.authoritySources with
  | (some a, some h) => !hostnameEq a h
  | _ => false

/-- The host that routing and `Host(...)` see. -/
def host (s : CelHttpSession H) : Str :=
  let authority := s.httpAuthority
  match s.sniHostPolicy with
  | .looseBySni | .strictRewriteHeader => (s.sni.or authority).getD []
  | .looseByHeader | .strict => authority.getD []

end CelHttpSession

end Lonesome
