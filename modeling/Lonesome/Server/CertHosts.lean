import Lonesome.Matcher.CelCommon
import Lonesome.Server.CertStore

/-!
# Host rules and certificates

A rule `Host("*.example.com")` of a route and the certificate for `*.example.com` are meant to be
about the same hosts. `host_matches` of `src/matcher/cel_common.rs` compares texts as they are,
`CertStore` of `src/server/cert_store.rs` folds their case; both take a wildcard for one label. After
any calls, a host that a rule matches is served the certificate of the rule, unless it has one of its
own (`lookup_of_hostMatches`).

The calls of a history may name any host, so its names are compared by the lower case that the store
itself uses.
-/

namespace Lonesome.Certs

open Lonesome.Lib

variable {χ κ : Type} (C : Crates χ κ)

/-- What the store takes a host text for. -/
def slotIn (host : Str) : Slot :=
  if host = "*".toList then .default
  else
    match stripWildcard host with
    | some domain => .wildcard (C.toLowercase domain)
    | none => .exact (C.toLowercase host)

/-- What a call writes: a successful `set` its entry, a failed one nothing. -/
def effectIn : Op → Option (Slot × Option (CertEntry χ κ))
  | .set host certPem keyPem allowMismatch =>
    match acceptedEntry C host certPem keyPem allowMismatch with
    | .ok entry => some (slotIn C host, some entry)
    | .error _ => none
  | .remove host => some (slotIn C host, none)

/-- The last call with an effect on a host, up to case, is a `set` that registers the entry. -/
def RegisteredFor (ops : List Op) (host : Str) (entry : CertEntry χ κ) : Prop :=
  ∃ t, SetLast (effectIn C) ops t (slotIn C host) entry

variable {C} {s : CertStore χ κ} {ops : List Op} {host p h domain : Str} {entry : CertEntry χ κ}

theorem slotIn_wildcard (hw : stripWildcard host = some domain) :
    slotIn C host = .wildcard (C.toLowercase domain) := by
  have hstar : host ≠ "*".toList := by
    rintro rfl
    cases hw
  rw [slotIn, if_neg hstar, hw]

theorem slotIn_exact (hstar : host ≠ "*".toList) (hw : stripWildcard host = none) :
    slotIn C host = .exact (C.toLowercase host) := by
  rw [slotIn, if_neg hstar, hw]

theorem write_slotIn (v : Option (CertEntry χ κ)) :
    (s.write C host v).slots = Function.update s.slots (slotIn C host) v := by
  unfold CertStore.write
  rcases host_cases host with rfl | ⟨hstar, domain, hw⟩ | ⟨hstar, hw⟩
  · exact slots_default s v
  · simp only [if_neg hstar, hw]
    rw [slots_wildcard, slotIn_wildcard hw]
  · simp only [if_neg hstar, hw]
    rw [slots_exact, slotIn_exact hstar hw]

/-- One call. -/
theorem step_slotIn (op : Op) : (step C s op).slots = applyWrite s.slots (effectIn C op) := by
  cases op with
  | set host certPem keyPem allowMismatch =>
    rw [step, set_eq, effectIn]
    cases acceptedEntry C host certPem keyPem allowMismatch with
    | error e => rfl
    | ok entry => exact write_slotIn (some entry)
  | remove host =>
    rw [step, remove_eq, effectIn]
    exact write_slotIn none

/-- Any calls: the store holds what was set last. -/
theorem represents_effectIn (C : Crates χ κ) (ops : List Op) :
    Represents (effectIn C) ops (run C ops).slots := by
  induction ops using List.reverseRecOn with
  | nil =>
    have hnew : (run C []).slots = fun _ => none := by
      funext slot
      cases slot <;> rfl
    rw [hnew]
    exact represents_nil
  | append_singleton ops op ih =>
    refine ih.concat ?_
    rw [run, List.foldl_append]
    exact step_slotIn op

theorem slots_slotIn (hentry : RegisteredFor C ops host entry) :
    (run C ops).slots (slotIn C host) = some entry :=
  (represents_effectIn C ops _ _).2 hentry

/-- A pattern that is not a wildcard matches itself. -/
theorem eq_of_hostMatches (hw : stripWildcard p = none) (hm : Cel.hostMatches h p = true) : h = p := by
  unfold Cel.hostMatches at hm
  unfold stripWildcard at hw
  split at hm
  · cases hw
  · exact beq_iff_eq.1 hm

/-- **Host rules line up with certificates**: after any calls, a host that matches a pattern with a
certificate is served that certificate, or, for a wildcard pattern only, the certificate of the host
itself; so neither the default nor another wildcard's. -/
theorem lookup_of_hostMatches (C : Crates χ κ) (ops : List Op) {p h : Str} (hp : p.isAscii = true)
    (hstar : p ≠ "*".toList) (hh : h.isAscii = true) {entry : CertEntry χ κ}
    (hentry : RegisteredFor C ops p entry) (hm : Cel.hostMatches h p = true) :
    (run C ops).lookup C h = some entry ∨
      (∃ domain, stripWildcard p = some domain) ∧ ∃ own,
        (∃ t, SetLast (effectIn C) ops t (.exact (C.toLowercase h)) own) ∧
          (run C ops).lookup C h = some own := by
  have hslot := slots_slotIn hentry
  unfold CertStore.lookup
  dsimp only
  cases hw : stripWildcard p with
  | none =>
    obtain rfl := eq_of_hostMatches hw hm
    rw [slotIn_exact hstar hw] at hslot
    left
    have hexact : (run C ops).exact (C.toLowercase h) = some entry := hslot
    simp only [hexact]
  | some domain =>
    rw [slotIn_wildcard hw] at hslot
    obtain rfl := stripWildcard_eq_some hw
    obtain ⟨label, -, hdot, rfl⟩ := (Cel.hostMatches_wildcard h domain).1 hm
    cases hexact : (run C ops).exact (C.toLowercase (label ++ '.' :: domain)) with
    | some own =>
      exact .inr ⟨⟨domain, rfl⟩, own, (represents_effectIn C ops (.exact _) own).1 hexact, rfl⟩
    | none =>
      left
      have hdomain := isAscii_of_stripWildcard hw hp
      have hsplit : Str.splitOnce '.' (C.toLowercase (label ++ '.' :: domain)) =
          some (Str.toAsciiLowercase label, C.toLowercase domain) := by
        rw [C.toLowercase_ascii _ hh, C.toLowercase_ascii _ hdomain,
          Str.splitOnce_toAsciiLowercase (by decide), Str.splitOnce_eq_some_iff.2 ⟨hdot, rfl⟩]
        rfl
      have hwildcard : (run C ops).wildcard (C.toLowercase domain) = some entry := hslot
      simp only [hsplit, hwildcard]

/-- A wildcard and a default; `b` has a certificate of its own. -/
def wildcardCalls : List Op :=
  [.set "*.Example.com".toList "*.example.com".toList "key".toList false,
    .set "*".toList "fallback".toList "key".toList false,
    .set "B.example.com".toList "b.example.com".toList "key".toList false]

theorem lookup_of_hostMatches_wildcardCalls :
    RegisteredFor namedCerts wildcardCalls "*.example.com".toList ⟨"*.example.com".toList, [], ()⟩ ∧
    Cel.hostMatches "a.example.com".toList "*.example.com".toList = true ∧
    ((run namedCerts wildcardCalls).lookup namedCerts "a.example.com".toList =
        some ⟨"*.example.com".toList, [], ()⟩ ∨
      (∃ domain, stripWildcard "*.example.com".toList = some domain) ∧ ∃ own,
        (∃ t, SetLast (effectIn namedCerts) wildcardCalls t (.exact "a.example.com".toList) own) ∧
          (run namedCerts wildcardCalls).lookup namedCerts "a.example.com".toList = some own) := by
  have hentry : RegisteredFor namedCerts wildcardCalls "*.example.com".toList
      ⟨"*.example.com".toList, [], ()⟩ :=
    (represents_effectIn namedCerts wildcardCalls _ _).1 (by decide)
  refine ⟨hentry, by decide, ?_⟩
  exact lookup_of_hostMatches namedCerts wildcardCalls (by decide) (by decide) (by decide) hentry
    (by decide)

end Lonesome.Certs
