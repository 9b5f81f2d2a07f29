import Lonesome.Middlewares.Respond

/-!
# The port of an authority

A request names its host in the `Host` field or in the authority of its URI. The program strips the
port of the first with a split at `:` (`authority_sources` of `src/matcher/cel_session_context.rs`,
`redirect_location` of `src/middlewares/redirect_https/mod.rs`), that of the second with
`Authority::host` of the `http` crate. `PortStrippedAlike` says what should not depend on the place;
it holds exactly for the texts whose host has no `:`, so not for IPv6 literals (`portStripped_iff`).
-/

namespace Lonesome

/-! ## The grammar -/

/-- An authority without userinfo: a registered name, an IPv4 address or a literal in brackets, then
a port, which may be empty, or none. -/
structure AuthorityText (t host : Str) : Prop where
  noUserinfo : '@' ∉ t
  port : t = host ∨ ∃ digits : Str, (∀ c ∈ digits, c.isDigit = true) ∧ t = host ++ ':' :: digits
  kind : '[' ∉ host ∧ ':' ∉ host ∨ ∃ addr : Str, ']' ∉ addr ∧ host = '[' :: addr ++ [']']

/-- What the program relies on: an authority has no blanks, and `Authority::host` gives the text
before the port, with the brackets of a literal. -/
structure HttpCrate.HostBeforePort (H : HttpCrate) : Prop where
  noBlank : ∀ t, H.authorityOk t = true → ∀ c ∈ t, Str.isWhitespace c = false
  host : ∀ t host, H.authorityOk t = true → AuthorityText t host → H.authorityHost t = host

namespace Str

theorem beforeFirst_of_notMem {c : Char} {s : Str} (h : c ∉ s) : beforeFirst c s = s := by
  unfold beforeFirst
  rw [List.takeWhile_eq_self_iff]
  intro d hd
  rw [bne_iff_ne]
  rintro rfl
  exact h hd

theorem beforeFirst_append {c : Char} {s rest : Str} (h : c ∉ s) :
    beforeFirst c (s ++ c :: rest) = s := by
  unfold beforeFirst
  have hs : ∀ d ∈ s, (d != c) = true := by
    intro d hd
    rw [bne_iff_ne]
    rintro rfl
    exact h hd
  rw [List.takeWhile_append_of_pos hs, List.takeWhile_cons]
  simp

theorem notMem_beforeFirst (c : Char) (s : Str) : c ∉ beforeFirst c s := by
  intro h
  have hne := List.mem_takeWhile_imp h
  simp at hne

theorem trim_of_noBlank {s : Str} (h : ∀ c ∈ s, isWhitespace c = false) : trim s = s := by
  unfold trim
  have hleft : s.dropWhile isWhitespace = s := by
    cases s with
    | nil => rfl
    | cons c s => rw [List.dropWhile_cons, h c List.mem_cons_self]; rfl
  rw [hleft, List.rdropWhile_eq_self_iff]
  intro hne
  rw [h _ (List.getLast_mem hne)]
  simp

theorem mem_of_mem_trim {c : Char} {s : Str} (h : c ∈ trim s) : c ∈ s :=
  (List.dropWhile_suffix _).subset ((List.rdropWhile_prefix _ _).subset h)

end Str

/-- The canonical host keeps a `:`. -/
theorem colon_mem_canonicalHost_iff {a : Str} : ':' ∈ canonicalHost a ↔ ':' ∈ a := by
  have hdots : ':' ∈ a.trimEndMatches '.' ↔ ':' ∈ a := by
    unfold Str.trimEndMatches
    constructor
    · exact fun h => (List.rdropWhile_prefix _ _).subset h
    · intro h
      rw [← @List.rdropWhile_append_rtakeWhile _ (· == '.') a, List.mem_append] at h
      rcases h with h | h
      · exact h
      · have hdot := List.mem_rtakeWhile_imp h
        simp at hdot
  unfold canonicalHost
  rw [← hdots]
  constructor
  · intro h
    obtain ⟨c, hc, hlower⟩ := List.mem_map.1 h
    rw [← (Str.toLower_eq_iff (by decide)).1 hlower]
    exact hc
  · intro h
    exact List.mem_map.2 ⟨':', h, by decide⟩

/-! ## The host from both places -/

/-- The first `Host` field is readable and spells the text. -/
def RequestHeader.HostIs {H : HttpCrate} (req : RequestHeader H) (t : Str) : Prop :=
  (req.headers.get "host").bind (·.toStr) = some t

/-- The authority of the URI is the text. -/
def RequestHeader.AuthorityIs {H : HttpCrate} (req : RequestHeader H) (t : Str) : Prop :=
  req.uri.authority.map (·.text) = some t

/-- No matter in which place a request carries the text, it names the same host: the two hosts are
equal as host names, there is no conflict between them, and neither the HTTP authority nor the
location of `redirect_https` depends on the place. -/
structure PortStrippedAlike (X : Externals) (t : Str) : Prop where
  hosts : ∀ s s' : CelHttpSession X.H, s.reqHeader.HostIs t → s'.reqHeader.AuthorityIs t →
    ∃ h a, s.authoritySources.2 = some h ∧ s'.authoritySources.1 = some a ∧ hostnameEq h a = true
  conflict : ∀ s : CelHttpSession X.H, s.reqHeader.HostIs t → s.reqHeader.AuthorityIs t →
    s.authorityConflict = false
  authority : ∀ s s' : CelHttpSession X.H, s.reqHeader.HostIs t → s.reqHeader.uri.authority = none →
    s'.reqHeader.AuthorityIs t → s.httpAuthority = s'.httpAuthority
  location : ∀ (m : RedirectHttpsMiddleware X) (r r' : Session X.H), r.reqHeader.HostIs t →
    r'.reqHeader.AuthorityIs t → r'.reqHeader.headers.get "host" = none →
    r.reqHeader.uri.pathText = r'.reqHeader.uri.pathText → m.redirectLocation r = m.redirectLocation r'

section

variable {X : Externals} {t host : Str}

theorem authoritySources_of_hostIs {s : CelHttpSession X.H} (h : s.reqHeader.HostIs t) :
    s.authoritySources.2 = some (stripPort t) := by
  unfold CelHttpSession.authoritySources
  dsimp only
  rw [h]
  rfl

theorem authority_of_authorityIs {req : RequestHeader X.H} (h : req.AuthorityIs t) :
    req.uri.authority.map (·.host) = some (X.H.authorityHost t) := by
  obtain ⟨a, ha, rfl⟩ := Option.map_eq_some_iff.1 h
  rw [ha]
  rfl

theorem authoritySources_of_authorityIs {s : CelHttpSession X.H} (h : s.reqHeader.AuthorityIs t) :
    s.authoritySources.1 = some (X.H.authorityHost t) :=
  authority_of_authorityIs h

/-- Without a `:` in the host, the split at the first `:` is the split at the port. -/
theorem AuthorityText.beforeFirst_eq (ht : AuthorityText t host) (hcolon : ':' ∉ host) :
    t.beforeFirst ':' = host := by
  rcases ht.port with rfl | ⟨digits, -, rfl⟩
  · exact Str.beforeFirst_of_notMem hcolon
  · exact Str.beforeFirst_append hcolon

theorem AuthorityText.stripPort_eq (hH : X.H.HostBeforePort) (ok : X.H.authorityOk t = true)
    (ht : AuthorityText t host) (hcolon : ':' ∉ host) : stripPort t = host := by
  unfold stripPort
  rw [ht.beforeFirst_eq hcolon]
  refine Str.trim_of_noBlank fun c hc => hH.noBlank t ok c ?_
  rcases ht.port with rfl | ⟨digits, -, rfl⟩
  · exact hc
  · exact List.mem_append_left _ hc

theorem portStrippedAlike_of_noColon (hH : X.H.HostBeforePort) (ok : X.H.authorityOk t = true)
    (ht : AuthorityText t host) (hcolon : ':' ∉ host) : PortStrippedAlike X t := by
  have hfield := AuthorityText.stripPort_eq hH ok ht hcolon
  have huri := hH.host t host ok ht
  refine ⟨?_, ?_, ?_, ?_⟩
  · intro s s' hs hs'
    refine ⟨_, _, authoritySources_of_hostIs hs, authoritySources_of_authorityIs hs', ?_⟩
    rw [hfield, huri]
    exact hostnameEq_refl host
  · intro s hs hs'
    have h₂ := authoritySources_of_hostIs hs
    have h₁ := authoritySources_of_authorityIs hs'
    rw [hfield] at h₂
    rw [huri] at h₁
    unfold CelHttpSession.authorityConflict
    rw [← Prod.eta s.authoritySources, h₁, h₂]
    simp [hostnameEq_refl]
  · intro s s' hs hnone hs'
    have h₁ : s.authoritySources.1 = none := by
      unfold CelHttpSession.authoritySources
      dsimp only
      rw [hnone]
      rfl
    unfold CelHttpSession.httpAuthority
    rw [h₁, authoritySources_of_hostIs hs, authoritySources_of_authorityIs hs', hfield, huri]
    rfl
  · intro m r r' hr hr' hnone hpath
    unfold RedirectHttpsMiddleware.redirectLocation
    dsimp only
    rw [hr, hnone, authority_of_authorityIs hr', hpath, huri]
    show some _ = some _
    dsimp only
    rw [ht.beforeFirst_eq hcolon]

/-- A request with the text in the `Host` field, and one with it in the URI. -/
theorem exists_requests (X : Externals) (ok : X.H.authorityOk t = true) :
    ∃ s s' : CelHttpSession X.H, s.reqHeader.HostIs t ∧ s'.reqHeader.AuthorityIs t := by
  obtain ⟨v, -, hv⟩ := HeaderValue.exists_fromStr (X.H.visible_of_authorityOk ok)
  refine ⟨⟨⟨"GET", ⟨none, none, none⟩, [("host", v)]⟩, none, .strict⟩,
    ⟨⟨"GET", ⟨none, some ⟨t, ok⟩, none⟩, []⟩, none, .strict⟩, ?_, rfl⟩
  exact hv

/-- **Port stripping**: an authority text is stripped of its port alike in both places if and only
if its host has no `:`. -/
theorem portStripped_iff (X : Externals) (hH : X.H.HostBeforePort) {t host : Str}
    (ok : X.H.authorityOk t = true) (ht : AuthorityText t host) :
    PortStrippedAlike X t ↔ ':' ∉ host := by
  constructor
  · intro halike hcolon
    obtain ⟨s, s', hs, hs'⟩ := exists_requests X ok
    obtain ⟨h, a, hh, ha, heq⟩ := halike.hosts s s' hs hs'
    rw [authoritySources_of_hostIs hs] at hh
    rw [authoritySources_of_authorityIs hs', hH.host t host ok ht] at ha
    cases hh
    cases ha
    rw [hostnameEq_iff] at heq
    have hmem := colon_mem_canonicalHost_iff.2 hcolon
    rw [← heq, colon_mem_canonicalHost_iff] at hmem
    exact Str.notMem_beforeFirst ':' t (Str.mem_of_mem_trim hmem)
  · exact portStrippedAlike_of_noColon hH ok ht

end

/-! The crate that checks characters. -/

theorem byCharacter_noBlank {t : Str} (ok : HttpCrate.byCharacter.authorityOk t = true) :
    ∀ c ∈ t, Str.isWhitespace c = false := by
  intro c hc
  have hchar := List.all_eq_true.1 (Bool.and_eq_true_iff.1 ok).2 c hc
  obtain ⟨hvisible, hkind⟩ := Bool.and_eq_true_iff.1 hchar
  have hne : c.toNat ≠ 32 ∧ c.toNat ≠ 9 := by
    refine ⟨fun h => ?_, fun h => ?_⟩
    all_goals
      rw [← Char.ofNat_toNat c, h] at hkind
      revert hkind
      decide
  simp only [visibleCode, Bool.or_eq_true, Bool.and_eq_true, decide_eq_true_eq, beq_iff_eq] at hvisible
  have hrange : 33 ≤ c.toNat ∧ c.toNat < 127 := by omega
  simp only [Str.isWhitespace, Bool.or_eq_false_iff, Bool.and_eq_false_iff, decide_eq_false_iff_not,
    beq_eq_false_iff_ne]
  omega

theorem byCharacter_host {t host : Str} (ht : AuthorityText t host) :
    HttpCrate.byCharacter.authorityHost t = host := by
  have huser : (t.reverse.takeWhile (· != '@')).reverse = t := by
    have hself := Str.beforeFirst_of_notMem (c := '@') (s := t.reverse)
      (by simpa using ht.noUserinfo)
    rw [Str.beforeFirst] at hself
    rw [hself, List.reverse_reverse]
  unfold HttpCrate.byCharacter
  dsimp only
  rw [huser]
  rcases ht.kind with ⟨hbracket, hcolon⟩ | ⟨addr, haddr, rfl⟩
  · have hhead : t.head? ≠ some '[' := by
      intro h
      rcases ht.port with rfl | ⟨digits, -, rfl⟩
      · exact hbracket (List.mem_of_mem_head? h)
      · cases host with
        | nil => cases h
        | cons c host =>
          cases h
          exact hbracket List.mem_cons_self
    rw [if_neg hhead]
    exact ht.beforeFirst_eq hcolon
  · obtain ⟨rest, rfl⟩ : ∃ rest, t = '[' :: addr ++ ']' :: rest := by
      rcases ht.port with rfl | ⟨digits, -, rfl⟩
      · exact ⟨[], rfl⟩
      · exact ⟨':' :: digits, by simp⟩
    have hopen : ']' ∉ '[' :: addr := by simp [haddr]
    have hclose := @Str.beforeFirst_append ']' ('[' :: addr) rest hopen
    rw [Str.beforeFirst] at hclose
    have hhead : ('[' :: addr ++ ']' :: rest).head? = some '[' := rfl
    rw [if_pos hhead, hclose]

theorem byCharacter_hostBeforePort : HttpCrate.byCharacter.HostBeforePort where
  noBlank _ ok := byCharacter_noBlank ok
  host _ _ _ ht := byCharacter_host ht

theorem portStripped_exampleName :
    AuthorityText "example.com:8080".toList "example.com".toList ∧
    PortStrippedAlike Externals.plain "example.com:8080".toList := by
  have ht : AuthorityText "example.com:8080".toList "example.com".toList :=
    ⟨by decide, .inr ⟨"8080".toList, List.all_eq_true.1 (by decide), rfl⟩, .inl (by decide)⟩
  refine ⟨ht, ?_⟩
  exact (portStripped_iff Externals.plain byCharacter_hostBeforePort (by decide) ht).2 (by decide)

/-- A request that carries `[::1]:8080` in both places. -/
def literalRequest : CelHttpSession Externals.plain.H where
  reqHeader := {
    method := "GET"
    uri := ⟨none, some ⟨"[::1]:8080".toList, by decide⟩, none⟩
    headers := [("host", HeaderValue.ofAscii "[::1]:8080".toList)] }
  tlsSni := none
  sniHostPolicy := .strict

/-- It is taken for one that contradicts itself. -/
theorem literalRequest_conflict :
    Externals.plain.H.HostBeforePort ∧ AuthorityText "[::1]:8080".toList "[::1]".toList ∧
    literalRequest.reqHeader.HostIs "[::1]:8080".toList ∧
    literalRequest.reqHeader.AuthorityIs "[::1]:8080".toList ∧
    literalRequest.authoritySources = (some "[::1]".toList, some "[".toList) ∧
    literalRequest.authorityConflict = true ∧
    ¬ PortStrippedAlike Externals.plain "[::1]:8080".toList := by
  have hconflict : literalRequest.authorityConflict = true := by decide
  refine ⟨byCharacter_hostBeforePort, ?_, rfl, rfl, by decide, hconflict, fun h => ?_⟩
  · exact ⟨by decide, .inr ⟨"8080".toList, List.all_eq_true.1 (by decide), rfl⟩,
      .inr ⟨"::1".toList, by decide, rfl⟩⟩
  · rw [h.conflict literalRequest rfl rfl] at hconflict
    cases hconflict

end Lonesome
