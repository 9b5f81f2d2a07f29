import Lonesome.Upstream.LoadBalancer
import Lonesome.VirtualJs.Registry

/-!
# The peer of an endpoint

`peer_from_endpoint` and `apply_peer_tunables` of `src/upstream/upstream.rs` and
`virtual_open_connection` of `src/virtual_js/registry_connect.rs`. The settings of an upstream go from
its configuration to the endpoint of the pool, and from there to the peer that `pingora` connects to:
its options, and the client certificate beside them. A peer of a virtual listener has options of its
own, which have the protocol version and the connector and nothing else of the settings.
`settings_reach_peer_iff` says for which configurations nothing is lost.
-/

namespace Lonesome.Upstream

open Lonesome.Lib
open VirtualJs (Registry.State)

variable (C : Crates)

/-! ## Validation -/

def requireNonBlank (what : String) (text : Str) : Except String Unit :=
  if (Str.trim text).isEmpty then throw s!"upstream {what} cannot be empty" else pure ()

def requirePositive (name : String) (ms : Option Nat) : Except String Unit :=
  if ms = some 0 then throw s!"upstream {name} must be > 0" else pure ()

def UpstreamConfig.validate (cfg : UpstreamConfig) : Except String Unit := do
  match cfg.address with
  | .tcp addr => requireNonBlank "tcp address" addr
  | .unix path => requireNonBlank "unix path" path
  | .virtualJs key => requireNonBlank "virtual_js key" key
  if cfg.weight = 0 then throw "upstream weight must be >= 1"
  requirePositive "connect_timeout_ms" cfg.connectTimeoutMs
  requirePositive "read_timeout_ms" cfg.readTimeoutMs
  requirePositive "write_timeout_ms" cfg.writeTimeoutMs
  requirePositive "idle_timeout_ms" cfg.idleTimeoutMs
  match cfg.clientCertPem, cfg.clientKeyPem with
  | some _, some _ => pure ()
  | none, none => pure ()
  | _, _ => throw "upstream client_cert_pem and client_key_pem must be provided together"

/-! ## Peers -/

/-- The options of `pingora` that the settings are about. -/
structure PeerOptions where
  connectionTimeout : Option Nat
  readTimeout : Option Nat
  writeTimeout : Option Nat
  idleTimeout : Option Nat
  verifyCert : Bool
  ca : Option (List C.Cert)
  /-- The highest and the lowest version of HTTP. -/
  httpVersion : Nat × Nat
  /-- `VirtualJsConnector`, as the instance of its listener. -/
  customL4 : Option Nat

inductive PeerAddress where
  | inet (address : Str)
  | uds (path : Str)
  | sockaddr (addr : C.Addr)

structure HttpPeer where
  address : PeerAddress C
  tls : Bool
  sni : Str
  clientCertKey : Option (List C.Cert × C.PrivateKey)
  options : PeerOptions C

/-- What `pingora` gives for peers. -/
structure PeerCrate where
  /-- `PeerOptions::new` -/
  newOptions : PeerOptions C
  /-- The panic of `HttpPeer::new` on an address that it cannot resolve. -/
  inetPanic : Str → Option String
  /-- The error of `HttpPeer::new_uds`, if it fails. -/
  udsError : Str → Option String

/-- The defaults that `PeerOptions::new` is documented to have. -/
structure PeerCrate.PlainDefaults {C : Crates} (L : PeerCrate C) : Prop where
  connectionTimeout : L.newOptions.connectionTimeout = none
  readTimeout : L.newOptions.readTimeout = none
  writeTimeout : L.newOptions.writeTimeout = none
  idleTimeout : L.newOptions.idleTimeout = none
  verifyCert : L.newOptions.verifyCert = true
  ca : L.newOptions.ca = none
  httpVersion : L.newOptions.httpVersion ≠ (2, 2)

variable {C}
variable (L : PeerCrate C)

/-- A peer as `pingora` makes it. -/
def HttpPeer.untuned (address : PeerAddress C) (tls : Bool) (sni : Str) : HttpPeer C :=
  ⟨address, tls, sni, none, L.newOptions⟩

def HttpPeer.new (address : Str) (tls : Bool) (sni : Str) : Except String (HttpPeer C) :=
  match L.inetPanic address with
  | some e => .error e
  | none => .ok (.untuned L (.inet address) tls sni)

def HttpPeer.newUds (path : Str) (tls : Bool) (sni : Str) : Except String (HttpPeer C) :=
  match L.udsError path with
  | some e => .error e
  | none => .ok (.untuned L (.uds path) tls sni)

/-- `set_http_version(2, 2)` if `!tls && h2c` -/
def PeerOptions.forceH2c (options : PeerOptions C) (tls h2c : Bool) : PeerOptions C :=
  { options with httpVersion := if !tls && h2c then (2, 2) else options.httpVersion }

def applyPeerTunables (peer : HttpPeer C) (tunables : PeerTunables C) : HttpPeer C :=
  { peer with
    clientCertKey := tunables.clientCertKey.or peer.clientCertKey
    options := { peer.options with
      connectionTimeout := tunables.connectTimeoutMs.or peer.options.connectionTimeout
      readTimeout := tunables.readTimeoutMs.or peer.options.readTimeout
      writeTimeout := tunables.writeTimeoutMs.or peer.options.writeTimeout
      idleTimeout := tunables.idleTimeoutMs.or peer.options.idleTimeout
      verifyCert := tunables.verifyCert
      ca := tunables.ca.or peer.options.ca } }

/-- The peer of a virtual listener, with the registry as it is at the time. -/
def virtualOpenConnection (w : Registry.State) (key : Str) (dummyAddr : C.Addr) (tls h2c : Bool)
    (sni : Str) : Except String (HttpPeer C) :=
  match w.listeners key with
  | none => .error s!"virtual listener '{String.ofList key}' is not registered"
  | some listener =>
    let options := L.newOptions.forceH2c tls h2c
    .ok { HttpPeer.untuned L (.sockaddr dummyAddr) tls sni with
      options := { options with customL4 := some listener } }

/-- The peer of an endpoint that is connected to by its own address. -/
def tunedPeer (endpoint : UpstreamEndpoint C) (peer : HttpPeer C) : HttpPeer C :=
  let peer := applyPeerTunables peer endpoint.tunables
  { peer with options := peer.options.forceH2c endpoint.tls endpoint.h2c }

/-- A panic of the library: no error of the program, but there is no peer either. -/
def panicked (message : String) : ProxyError :=
  .because (.other "panic") "" message

def peerFromEndpoint (w : Registry.State) (endpoint : UpstreamEndpoint C) :
    Except ProxyError (HttpPeer C) :=
  match endpoint.address with
  | .tcp address =>
    match HttpPeer.new L address endpoint.tls endpoint.sni with
    | .error e => .error (panicked e)
    | .ok peer => .ok (tunedPeer endpoint peer)
  | .unix path =>
    match HttpPeer.newUds L path endpoint.tls endpoint.sni with
    | .error e => .error (selectionFailed .internalError s!"failed to create uds peer: {e}")
    | .ok peer => .ok (tunedPeer endpoint peer)
  | .virtualJs key =>
    match syntheticBackendAddr endpoint with
    | .error e =>
      .error (.because .internalError "synthetic addr for virtual_js creation failed" e)
    | .ok dummyAddr =>
      match virtualOpenConnection L w key dummyAddr endpoint.tls endpoint.h2c endpoint.sni with
      | .error e => .error (selectionFailed .internalError e)
      | .ok peer => .ok peer

/-! ## Settings -/

/-- The settings of a configuration, in the options of its peer or as the library has them. -/
structure SettingsReach (cfg : UpstreamConfig) (peer : HttpPeer C) : Prop where
  connectTimeout :
    peer.options.connectionTimeout = cfg.connectTimeoutMs.or L.newOptions.connectionTimeout
  readTimeout : peer.options.readTimeout = cfg.readTimeoutMs.or L.newOptions.readTimeout
  writeTimeout : peer.options.writeTimeout = cfg.writeTimeoutMs.or L.newOptions.writeTimeout
  idleTimeout : peer.options.idleTimeout = cfg.idleTimeoutMs.or L.newOptions.idleTimeout
  verifyCert : peer.options.verifyCert = cfg.verifyCert.getD true
  clientCertKey : ∀ cert key, cfg.clientCertPem = some cert → cfg.clientKeyPem = some key →
    ∃ certs k, C.stackFromPem cert = .ok certs ∧ C.privateKeyFromPem key = .ok k ∧
      peer.clientCertKey = some (certs, k)
  noClientCertKey : cfg.clientCertPem = none → peer.clientCertKey = none
  ca : ∀ pem, cfg.caCertPem = some pem →
    ∃ certs, C.stackFromPem pem = .ok certs ∧ peer.options.ca = some certs
  noCa : cfg.caCertPem = none → peer.options.ca = L.newOptions.ca
  sni : peer.sni = cfg.sni.getD []
  tls : peer.tls = cfg.tls
  http2 : peer.options.httpVersion = (2, 2) ↔ cfg.h2c = some true ∧ cfg.tls = false

/-- Nothing is set beside the address, the weight, TLS with its SNI, and `h2c`. -/
structure Untuned (cfg : UpstreamConfig) : Prop where
  connectTimeout : cfg.connectTimeoutMs = none
  readTimeout : cfg.readTimeoutMs = none
  writeTimeout : cfg.writeTimeoutMs = none
  idleTimeout : cfg.idleTimeoutMs = none
  verifyCert : cfg.verifyCert ≠ some false
  clientCert : cfg.clientCertPem = none
  ca : cfg.caCertPem = none

/-- What the tunables of a configuration are. -/
structure TunablesOf (cfg : UpstreamConfig) (t : PeerTunables C) : Prop where
  connectTimeout : t.connectTimeoutMs = cfg.connectTimeoutMs
  readTimeout : t.readTimeoutMs = cfg.readTimeoutMs
  writeTimeout : t.writeTimeoutMs = cfg.writeTimeoutMs
  idleTimeout : t.idleTimeoutMs = cfg.idleTimeoutMs
  verifyCert : t.verifyCert = cfg.verifyCert.getD true
  clientCertKey : ∀ cert key, cfg.clientCertPem = some cert → cfg.clientKeyPem = some key →
    ∃ certs k, C.stackFromPem cert = .ok certs ∧ C.privateKeyFromPem key = .ok k ∧
      t.clientCertKey = some (certs, k)
  noClientCertKey : cfg.clientCertPem = none → t.clientCertKey = none
  together : cfg.clientCertPem = none ↔ cfg.clientKeyPem = none
  ca : ∀ pem, cfg.caCertPem = some pem → ∃ certs, C.stackFromPem pem = .ok certs ∧ t.ca = some certs
  noCa : cfg.caCertPem = none → t.ca = none

theorem orMessage_eq_ok_iff {α : Type} {message : String} {result : Except String α} {a : α} :
    orMessage message result = .ok a ↔ result = .ok a := by
  cases result with
  | error e =>
    constructor
    · exact fun h => (nomatch h)
    · exact fun h => (nomatch h)
  | ok b => exact Iff.rfl

variable (C) in
/-- The client certificate with its key. -/
def clientCertKeyOf (cfg : UpstreamConfig) : Except String (Option (List C.Cert × C.PrivateKey)) :=
  match cfg.clientCertPem, cfg.clientKeyPem with
  | some cert, some key => do
    let certs ← orMessage "invalid upstream client_cert_pem" (C.stackFromPem cert)
    let key ← orMessage "invalid upstream client_key_pem" (C.privateKeyFromPem key)
    return some (certs, key)
  | none, none => .ok none
  | _, _ => .error "upstream client_cert_pem and client_key_pem must be provided together"

variable (C) in
def caOf (cfg : UpstreamConfig) : Except String (Option (List C.Cert)) :=
  match cfg.caCertPem with
  | some pem => some <$> orMessage "invalid upstream ca_cert_pem" (C.stackFromPem pem)
  | none => .ok none

theorem fromConfig_eq (cfg : UpstreamConfig) : PeerTunables.fromConfig C cfg =
    clientCertKeyOf C cfg >>= fun clientCertKey => caOf C cfg >>= fun ca =>
      .ok ⟨cfg.connectTimeoutMs, cfg.readTimeoutMs, cfg.writeTimeoutMs, cfg.idleTimeoutMs,
        cfg.verifyCert.getD true, clientCertKey, ca⟩ := by
  unfold PeerTunables.fromConfig clientCertKeyOf caOf
  cases cfg.clientCertPem with
  | none =>
    cases cfg.clientKeyPem with
    | none => cases cfg.caCertPem <;> rfl
    | some key => rfl
  | some cert =>
    cases cfg.clientKeyPem with
    | none => rfl
    | some key =>
      dsimp only
      cases C.stackFromPem cert with
      | error e => rfl
      | ok certs =>
        cases C.privateKeyFromPem key with
        | error e => rfl
        | ok key => cases cfg.caCertPem <;> rfl

section Parsed

variable {cfg : UpstreamConfig} {clientCertKey : Option (List C.Cert × C.PrivateKey)}
  {ca : Option (List C.Cert)}

theorem clientCertKeyOf_some (h : clientCertKeyOf C cfg = .ok clientCertKey) {cert key : Str}
    (hcert : cfg.clientCertPem = some cert) (hkey : cfg.clientKeyPem = some key) :
    ∃ certs k, C.stackFromPem cert = .ok certs ∧ C.privateKeyFromPem key = .ok k ∧
      clientCertKey = some (certs, k) := by
  unfold clientCertKeyOf at h
  rw [hcert, hkey] at h
  obtain ⟨certs, hcerts, h⟩ := bind_eq_ok_iff.1 h
  obtain ⟨k, hk, h⟩ := bind_eq_ok_iff.1 h
  cases h
  exact ⟨certs, k, orMessage_eq_ok_iff.1 hcerts, orMessage_eq_ok_iff.1 hk, rfl⟩

/-- The certificate and the key come together. -/
theorem clientCertKeyOf_none (h : clientCertKeyOf C cfg = .ok clientCertKey) :
    (cfg.clientCertPem = none ↔ cfg.clientKeyPem = none) ∧
      (cfg.clientCertPem = none → clientCertKey = none) := by
  unfold clientCertKeyOf at h
  cases hcert : cfg.clientCertPem with
  | none =>
    cases hkey : cfg.clientKeyPem with
    | none =>
      rw [hcert, hkey] at h
      cases h
      exact ⟨Iff.rfl, fun _ => rfl⟩
    | some key =>
      rw [hcert, hkey] at h
      cases h
  | some cert =>
    cases hkey : cfg.clientKeyPem with
    | none =>
      rw [hcert, hkey] at h
      cases h
    | some key => simp

theorem caOf_some (h : caOf C cfg = .ok ca) {pem : Str} (hpem : cfg.caCertPem = some pem) :
    ∃ certs, C.stackFromPem pem = .ok certs ∧ ca = some certs := by
  unfold caOf at h
  rw [hpem] at h
  dsimp only at h
  cases hcerts : C.stackFromPem pem with
  | error e =>
    rw [hcerts] at h
    cases h
  | ok certs =>
    rw [hcerts] at h
    cases h
    exact ⟨certs, rfl, rfl⟩

theorem caOf_none (h : caOf C cfg = .ok ca) (hpem : cfg.caCertPem = none) : ca = none := by
  unfold caOf at h
  rw [hpem] at h
  cases h
  rfl

end Parsed

theorem tunablesOf_fromConfig {cfg : UpstreamConfig} {t : PeerTunables C}
    (h : PeerTunables.fromConfig C cfg = .ok t) : TunablesOf cfg t := by
  rw [fromConfig_eq] at h
  obtain ⟨clientCertKey, hclient, h⟩ := bind_eq_ok_iff.1 h
  obtain ⟨ca, hca, h⟩ := bind_eq_ok_iff.1 h
  cases h
  exact {
    connectTimeout := rfl
    readTimeout := rfl
    writeTimeout := rfl
    idleTimeout := rfl
    verifyCert := rfl
    clientCertKey := fun _ _ => clientCertKeyOf_some hclient
    noClientCertKey := (clientCertKeyOf_none hclient).2
    together := (clientCertKeyOf_none hclient).1
    ca := fun _ => caOf_some hca
    noCa := caOf_none hca }

/-- The fields of an endpoint beside its tunables. -/
theorem tunablesOf_endpoint {cfg : UpstreamConfig} {endpoint : UpstreamEndpoint C}
    (h : UpstreamEndpoint.fromConfig C cfg = .ok endpoint) :
    TunablesOf cfg endpoint.tunables ∧ endpoint.address = cfg.address ∧ endpoint.tls = cfg.tls ∧
      endpoint.h2c = cfg.h2c.getD false ∧ endpoint.sni = cfg.sni.getD [] := by
  obtain ⟨t, ht, h⟩ := bind_eq_ok_iff.1 h
  cases h
  exact ⟨tunablesOf_fromConfig ht, rfl, rfl, rfl, rfl⟩

variable {L}

/-- The version is set as the configuration says. -/
theorem forceH2c_httpVersion {options : PeerOptions C} (hoptions : options.httpVersion ≠ (2, 2))
    {cfg : UpstreamConfig} :
    (options.forceH2c cfg.tls (cfg.h2c.getD false)).httpVersion = (2, 2) ↔
      cfg.h2c = some true ∧ cfg.tls = false := by
  unfold PeerOptions.forceH2c
  dsimp only
  cases cfg.tls with
  | true => simpa using hoptions
  | false =>
    cases cfg.h2c with
    | none => simpa using hoptions
    | some h2c =>
      cases h2c with
      | false => simpa using hoptions
      | true => simp

/-- A peer that the tunables are applied to has all settings. -/
theorem settingsReach_tunedPeer (hL : L.PlainDefaults) {cfg : UpstreamConfig}
    {endpoint : UpstreamEndpoint C} (h : UpstreamEndpoint.fromConfig C cfg = .ok endpoint)
    (address : PeerAddress C) :
    SettingsReach L cfg (tunedPeer endpoint (.untuned L address endpoint.tls endpoint.sni)) := by
  obtain ⟨ht, -, htls, hh2c, hsni⟩ := tunablesOf_endpoint h
  exact {
    connectTimeout := by rw [← ht.connectTimeout]; rfl
    readTimeout := by rw [← ht.readTimeout]; rfl
    writeTimeout := by rw [← ht.writeTimeout]; rfl
    idleTimeout := by rw [← ht.idleTimeout]; rfl
    verifyCert := ht.verifyCert
    clientCertKey := fun cert key hcert hkey => by
      obtain ⟨certs, k, hcerts, hk, heq⟩ := ht.clientCertKey cert key hcert hkey
      refine ⟨certs, k, hcerts, hk, ?_⟩
      show endpoint.tunables.clientCertKey.or none = _
      rw [heq, Option.some_or]
    noClientCertKey := fun hcert => by
      show endpoint.tunables.clientCertKey.or none = _
      rw [ht.noClientCertKey hcert, Option.none_or]
    ca := fun pem hpem => by
      obtain ⟨certs, hcerts, heq⟩ := ht.ca pem hpem
      refine ⟨certs, hcerts, ?_⟩
      show endpoint.tunables.ca.or _ = _
      rw [heq, Option.some_or]
    noCa := fun hpem => by
      show endpoint.tunables.ca.or L.newOptions.ca = _
      rw [ht.noCa hpem, Option.none_or]
    sni := hsni
    tls := htls
    http2 := by
      rw [← forceH2c_httpVersion hL.httpVersion, ← htls, ← hh2c]
      exact Iff.rfl }

/-- A default of `none` stands for a setting that is not made, and for no other. -/
theorem eq_or_iff {c d : Option Nat} (hd : d = none) : d = c.or d ↔ c = none := by
  subst hd
  rw [Option.or_none]
  exact eq_comm

/-- A virtual peer has them if and only if there are none beside TLS and `h2c`. -/
theorem settingsReach_virtual_iff (hL : L.PlainDefaults) {w : Registry.State} {cfg : UpstreamConfig}
    {endpoint : UpstreamEndpoint C} (h : UpstreamEndpoint.fromConfig C cfg = .ok endpoint) {key : Str}
    {addr : C.Addr} {peer : HttpPeer C}
    (hpeer : virtualOpenConnection L w key addr endpoint.tls endpoint.h2c endpoint.sni = .ok peer) :
    SettingsReach L cfg peer ↔ Untuned cfg := by
  obtain ⟨ht, -, htls, hh2c, hsni⟩ := tunablesOf_endpoint h
  unfold virtualOpenConnection at hpeer
  split at hpeer
  · cases hpeer
  cases hpeer
  constructor
  · intro hreach
    exact {
      connectTimeout := (eq_or_iff hL.connectionTimeout).1 hreach.connectTimeout
      readTimeout := (eq_or_iff hL.readTimeout).1 hreach.readTimeout
      writeTimeout := (eq_or_iff hL.writeTimeout).1 hreach.writeTimeout
      idleTimeout := (eq_or_iff hL.idleTimeout).1 hreach.idleTimeout
      verifyCert := fun hfalse => by
        have heq : L.newOptions.verifyCert = _ := hreach.verifyCert
        rw [hL.verifyCert, hfalse] at heq
        cases heq
      clientCert := by
        cases hcert : cfg.clientCertPem with
        | none => rfl
        | some cert =>
          obtain ⟨k, hk⟩ := Option.ne_none_iff_exists'.1 (mt ht.together.2 (by rw [hcert]; simp))
          obtain ⟨_, _, -, -, heq⟩ := hreach.clientCertKey cert k hcert hk
          cases heq
      ca := by
        cases hpem : cfg.caCertPem with
        | none => rfl
        | some pem =>
          obtain ⟨certs, -, heq⟩ := hreach.ca pem hpem
          have hdefault : L.newOptions.ca = some certs := heq
          rw [hL.ca] at hdefault
          cases hdefault }
  · intro huntuned
    exact {
      connectTimeout := (eq_or_iff hL.connectionTimeout).2 huntuned.connectTimeout
      readTimeout := (eq_or_iff hL.readTimeout).2 huntuned.readTimeout
      writeTimeout := (eq_or_iff hL.writeTimeout).2 huntuned.writeTimeout
      idleTimeout := (eq_or_iff hL.idleTimeout).2 huntuned.idleTimeout
      verifyCert := by
        show L.newOptions.verifyCert = _
        rw [hL.verifyCert]
        have hne := huntuned.verifyCert
        cases hverify : cfg.verifyCert with
        | none => rfl
        | some verify =>
          cases verify with
          | true => rfl
          | false => exact (hne hverify).elim
      clientCertKey := fun _ _ hcert => by
        rw [huntuned.clientCert] at hcert
        cases hcert
      noClientCertKey := fun _ => rfl
      ca := fun _ hpem => by
        rw [huntuned.ca] at hpem
        cases hpem
      noCa := fun _ => rfl
      sni := hsni
      tls := htls
      http2 := by
        rw [← forceH2c_httpVersion hL.httpVersion, ← htls, ← hh2c] }

/-- A peer of a virtual listener is what `virtual_open_connection` returned. -/
theorem exists_virtualOpenConnection {w : Registry.State} {endpoint : UpstreamEndpoint C} {key : Str}
    (hkind : endpoint.address = .virtualJs key) {peer : HttpPeer C}
    (h : peerFromEndpoint L w endpoint = .ok peer) :
    ∃ addr, virtualOpenConnection L w key addr endpoint.tls endpoint.h2c endpoint.sni = .ok peer := by
  unfold peerFromEndpoint at h
  rw [hkind] at h
  dsimp only at h
  split at h
  · cases h
  · next addr _ =>
    refine ⟨addr, ?_⟩
    cases hopen : virtualOpenConnection L w key addr endpoint.tls endpoint.h2c endpoint.sni with
    | error e =>
      rw [hopen] at h
      cases h
    | ok peer' =>
      rw [hopen] at h
      cases h
      rfl

/-- **Settings**: the peer of an endpoint has all settings of its upstream if and only if it is no
virtual listener, or there are no settings for the connection to it beside TLS and `h2c`. -/
theorem settings_reach_peer_iff (hL : L.PlainDefaults) {cfg : UpstreamConfig}
    (_hvalid : cfg.validate = .ok ()) {endpoint : UpstreamEndpoint C}
    (h : UpstreamEndpoint.fromConfig C cfg = .ok endpoint) {w : Registry.State} {peer : HttpPeer C}
    (hpeer : peerFromEndpoint L w endpoint = .ok peer) :
    SettingsReach L cfg peer ↔ (∀ key, cfg.address ≠ .virtualJs key) ∨ Untuned cfg := by
  have haddress := (tunablesOf_endpoint h).2.1
  rw [← haddress]
  cases hkind : endpoint.address with
  | tcp address =>
    unfold peerFromEndpoint at hpeer
    rw [hkind] at hpeer
    dsimp only at hpeer
    unfold HttpPeer.new at hpeer
    cases hpanic : L.inetPanic address with
    | some e =>
      rw [hpanic] at hpeer
      cases hpeer
    | none =>
      rw [hpanic] at hpeer
      cases hpeer
      refine iff_of_true (settingsReach_tunedPeer hL h _) (.inl fun key hkey => ?_)
      cases hkey
  | unix path =>
    unfold peerFromEndpoint at hpeer
    rw [hkind] at hpeer
    dsimp only at hpeer
    unfold HttpPeer.newUds at hpeer
    cases huds : L.udsError path with
    | some e =>
      rw [huds] at hpeer
      cases hpeer
    | none =>
      rw [huds] at hpeer
      cases hpeer
      refine iff_of_true (settingsReach_tunedPeer hL h _) (.inl fun key hkey => ?_)
      cases hkey
  | virtualJs key =>
    obtain ⟨addr, hopen⟩ := exists_virtualOpenConnection hkind hpeer
    rw [settingsReach_virtual_iff hL h hopen]
    refine ⟨.inr, fun hor => hor.resolve_left fun hno => ?_⟩
    exact hno key rfl

/-! An upstream with a connect timeout, by TCP and as a virtual listener. -/

def PeerCrate.plain : PeerCrate .roundRobin where
  newOptions := ⟨none, none, none, none, true, none, (1, 1), none⟩
  inetPanic address := if address.contains ':' then none else some "invalid socket address"
  udsError _ := none

theorem plainDefaults_plain : PeerCrate.plain.PlainDefaults :=
  ⟨rfl, rfl, rfl, rfl, rfl, rfl, by decide⟩

def timedUpstream (address : UpstreamAddressConfig) : UpstreamConfig :=
  { tcpUpstream "" with address, connectTimeoutMs := some 250 }

def oneListener (key : String) : Registry.State :=
  Registry.State.init.setRegistered key.toList (some 0)

theorem settings_reach_tcp_peer :
    ∃ endpoint peer, (timedUpstream (.tcp "127.0.0.1:9000".toList)).validate = .ok () ∧
      UpstreamEndpoint.fromConfig .roundRobin (timedUpstream (.tcp "127.0.0.1:9000".toList)) =
        .ok endpoint ∧
      peerFromEndpoint .plain (oneListener "worker") endpoint = .ok peer ∧
      SettingsReach .plain (timedUpstream (.tcp "127.0.0.1:9000".toList)) peer := by
  refine ⟨_, _, rfl, rfl, rfl, (settings_reach_peer_iff plainDefaults_plain rfl rfl
    (w := oneListener "worker") rfl).2 ?_⟩
  exact .inl fun key h => nomatch h

/-- The timeout of the virtual listener is dropped. -/
theorem virtual_peer_without_timeout :
    ∃ endpoint peer, (timedUpstream (.virtualJs "worker".toList)).validate = .ok () ∧
      UpstreamEndpoint.fromConfig .roundRobin (timedUpstream (.virtualJs "worker".toList)) =
        .ok endpoint ∧
      peerFromEndpoint .plain (oneListener "worker") endpoint = .ok peer ∧
      peer.options.connectionTimeout = none ∧
      ¬ SettingsReach .plain (timedUpstream (.virtualJs "worker".toList)) peer := by
  refine ⟨_, _, rfl, rfl, rfl, rfl, fun h => ?_⟩
  cases h.connectTimeout

end Lonesome.Upstream
