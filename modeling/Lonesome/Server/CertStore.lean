import Lonesome.Text
import Lonesome.Lib.History

/-!
# The certificate store

`src/server/cert_store.rs`: certificates for exact hosts, for one-label wildcards and a default,
in three maps. Hosts are keyed in lower case, wildcards by the domain after `*.`.

Together the maps are one map over `Slot`, and `set` and `remove` write one slot of it or fail
before any write (`set_eq`, `remove_eq`). So the store represents its history in the sense of
`Lib.Represents`, and `lookup` reads the slots in order of priority.
-/

namespace Lonesome.Certs

open Lonesome.Lib

/-- OpenSSL and Unicode: parsing of PEM text, the names of a certificate, and `str::to_lowercase`,
of which only the part on ASCII text is known. -/
structure Crates (χ κ : Type) where
  /-- `X509::stack_from_pem` -/
  stackFromPem : Str → Except String (List χ)
  /-- `PKey::private_key_from_pem` -/
  privateKeyFromPem : Str → Except String κ
  /-- The DNS names of the subject alternative names, or else the common names. -/
  certNames : χ → List Str
  toLowercase : Str → Str
  toLowercase_ascii : ∀ s : Str, s.isAscii = true → toLowercase s = s.toAsciiLowercase

variable {χ κ : Type} {C : Crates χ κ}

/-- A leaf certificate with its intermediates, and the key. -/
structure CertEntry (χ κ : Type) where
  leaf : χ
  intermediates : List χ
  key : κ
  deriving DecidableEq

def parseCertEntry (C : Crates χ κ) (certPem keyPem : Str) : Except String (CertEntry χ κ) :=
  match C.stackFromPem certPem with
  | .error e => .error s!"invalid cert_pem: {e}"
  | .ok [] => .error "cert_pem contains no certificates"
  | .ok (leaf :: intermediates) =>
    match C.privateKeyFromPem keyPem with
    | .error e => .error s!"invalid key_pem: {e}"
    | .ok key => .ok ⟨leaf, intermediates, key⟩

/-- `host.strip_prefix("*.")` -/
def stripWildcard : Str → Option Str
  | '*' :: '.' :: domain => some domain
  | _ => none

def verifyCertMatches (C : Crates χ κ) (leaf : χ) (host : Str) : Except String Unit :=
  let names := C.certNames leaf
  let matched :=
    match stripWildcard host with
    | some domain =>
      let wild : Str := "*.".toList ++ domain
      names.any fun n => n.eqIgnoreAsciiCase wild
    | none => names.any fun n => n.eqIgnoreAsciiCase host
  if matched then .ok ()
  else
    let listed := ", ".intercalate (names.map String.ofList)
    .error s!"certificate does not match host '{String.ofList host}' (cert names: {listed})"

/-- The three maps; wildcards are keyed by the domain without `*.`. -/
structure CertStore (χ κ : Type) where
  default : Option (CertEntry χ κ)
  exact : Str → Option (CertEntry χ κ)
  wildcard : Str → Option (CertEntry χ κ)

namespace CertStore

def new : CertStore χ κ := ⟨none, fun _ => none, fun _ => none⟩

/-- Registers or replaces the certificate of a host. -/
def set (C : Crates χ κ) (s : CertStore χ κ) (host certPem keyPem : Str) (allowMismatch : Bool) :
    CertStore χ κ × Except String Unit :=
  match parseCertEntry C certPem keyPem with
  | .error e => (s, .error e)
  | .ok entry =>
    if host = "*".toList then ({ s with default := some entry }, .ok ())
    else
      match (if allowMismatch then .ok () else verifyCertMatches C entry.leaf host) with
      | .error e => (s, .error e)
      | .ok () =>
        match stripWildcard host with
        | some domain =>
          if domain.isEmpty || domain.contains '*' then
            (s, .error s!"invalid wildcard cert host '{String.ofList host}'")
          else
            ({ s with wildcard := Function.update s.wildcard (C.toLowercase domain) (some entry) },
              .ok ())
        | none =>
          ({ s with exact := Function.update s.exact (C.toLowercase host) (some entry) }, .ok ())

/-- Removes the certificate of a host; says whether there was one. -/
def remove (C : Crates χ κ) (s : CertStore χ κ) (host : Str) : CertStore χ κ × Bool :=
  if host = "*".toList then ({ s with default := none }, s.default.isSome)
  else
    match stripWildcard host with
    | some domain =>
      let domain := C.toLowercase domain
      ({ s with wildcard := Function.update s.wildcard domain none }, (s.wildcard domain).isSome)
    | none =>
      let host := C.toLowercase host
      ({ s with exact := Function.update s.exact host none }, (s.exact host).isSome)

/-- The certificate for a host name: exact, then the wildcard of the immediate parent domain, then
the default. -/
def lookup (C : Crates χ κ) (s : CertStore χ κ) (host : Str) : Option (CertEntry χ κ) :=
  let host := C.toLowercase host
  match s.exact host with
  | some entry => some entry
  | none =>
    match host.splitOnce '.' with
    | some (_, parent) =>
      match s.wildcard parent with
      | some entry => some entry
      | none => s.default
    | none => s.default

end CertStore

/-- A call that writes the store. -/
inductive Op where
  | set (host certPem keyPem : Str) (allowMismatch : Bool)
  | remove (host : Str)

def Op.host : Op → Str
  | .set host _ _ _ => host
  | .remove host => host

def step (C : Crates χ κ) (s : CertStore χ κ) : Op → CertStore χ κ
  | .set host certPem keyPem allowMismatch => (s.set C host certPem keyPem allowMismatch).1
  | .remove host => (s.remove C host).1

/-- The store after a sequence of calls from the empty one. -/
def run (C : Crates χ κ) (ops : List Op) : CertStore χ κ :=
  ops.foldl (step C) .new

/-! ## One map -/

/-- What a host stands for, up to case. -/
inductive Slot where
  | default
  | exact (host : Str)
  | wildcard (domain : Str)
  deriving DecidableEq, Repr

/-- The slot of a host text that `set` or `remove` is given. -/
def slotOf (host : Str) : Slot :=
  if host = "*".toList then .default
  else
    match stripWildcard host with
    | some domain => .wildcard domain.toAsciiLowercase
    | none => .exact host.toAsciiLowercase

def CertStore.slots (s : CertStore χ κ) : Slot → Option (CertEntry χ κ)
  | .default => s.default
  | .exact host => s.exact host
  | .wildcard domain => s.wildcard domain

/-- The entry that `set` registers, or why it registers none. -/
def acceptedEntry (C : Crates χ κ) (host certPem keyPem : Str) (allowMismatch : Bool) :
    Except String (CertEntry χ κ) :=
  match parseCertEntry C certPem keyPem with
  | .error e => .error e
  | .ok entry =>
    if host = "*".toList then .ok entry
    else
      match (if allowMismatch then .ok () else verifyCertMatches C entry.leaf host) with
      | .error e => .error e
      | .ok () =>
        match stripWildcard host with
        | some domain =>
          if domain.isEmpty || domain.contains '*' then
            .error s!"invalid wildcard cert host '{String.ofList host}'"
          else .ok entry
        | none => .ok entry

/-- The one write of `set` and of `remove`. -/
def CertStore.write (C : Crates χ κ) (s : CertStore χ κ) (host : Str)
    (v : Option (CertEntry χ κ)) : CertStore χ κ :=
  if host = "*".toList then { s with default := v }
  else
    match stripWildcard host with
    | some domain =>
      { s with wildcard := Function.update s.wildcard (C.toLowercase domain) v }
    | none => { s with exact := Function.update s.exact (C.toLowercase host) v }

/-- What a call writes: a successful `set` its entry, a failed one nothing. -/
def effect (C : Crates χ κ) : Op → Option (Slot × Option (CertEntry χ κ))
  | .set host certPem keyPem allowMismatch =>
    match acceptedEntry C host certPem keyPem allowMismatch with
    | .ok entry => some (slotOf host, some entry)
    | .error _ => none
  | .remove host => some (slotOf host, none)

/-- The order of lookup over the slots: the host itself, the wildcard of what follows its first
dot, the default. -/
def resolve (m : Slot → Option (CertEntry χ κ)) (h : Str) : Option (CertEntry χ κ) :=
  (m (.exact h.toAsciiLowercase)).or
    (((h.splitOnce '.').bind fun p => m (.wildcard p.2.toAsciiLowercase)).or (m .default))

/-! ## What the calls do to the map -/

section Slots

variable (s : CertStore χ κ) (v : Option (CertEntry χ κ))

@[ext] theorem CertStore.ext_slots {s s' : CertStore χ κ} (h : s.slots = s'.slots) : s = s' := by
  obtain ⟨d, e, w⟩ := s
  obtain ⟨d', e', w'⟩ := s'
  have hd : d = d' := congrFun h .default
  have he : e = e' := funext fun host => congrFun h (.exact host)
  have hw : w = w' := funext fun domain => congrFun h (.wildcard domain)
  rw [hd, he, hw]

theorem slots_default : ({ s with default := v } : CertStore χ κ).slots =
    Function.update s.slots .default v := by
  funext slot
  cases slot with
  | default => simp [CertStore.slots]
  | exact host => simp [CertStore.slots, Function.update_of_ne]
  | wildcard domain => simp [CertStore.slots, Function.update_of_ne]

theorem slots_exact (host : Str) :
    ({ s with exact := Function.update s.exact host v } : CertStore χ κ).slots =
      Function.update s.slots (.exact host) v := by
  funext slot
  cases slot with
  | default => simp [CertStore.slots, Function.update_of_ne]
  | exact host' => by_cases h : host' = host <;> simp [CertStore.slots, Function.update, h]
  | wildcard domain => simp [CertStore.slots, Function.update_of_ne]

theorem slots_wildcard (domain : Str) :
    ({ s with wildcard := Function.update s.wildcard domain v } : CertStore χ κ).slots =
      Function.update s.slots (.wildcard domain) v := by
  funext slot
  cases slot with
  | default => simp [CertStore.slots, Function.update_of_ne]
  | exact host => simp [CertStore.slots, Function.update_of_ne]
  | wildcard domain' => by_cases h : domain' = domain <;> simp [CertStore.slots, Function.update, h]

end Slots

theorem stripWildcard_eq_some {host domain : Str} (h : stripWildcard host = some domain) :
    host = "*.".toList ++ domain := by
  unfold stripWildcard at h
  split at h
  · cases h; rfl
  · cases h

theorem isAscii_of_stripWildcard {host domain : Str} (h : stripWildcard host = some domain)
    (hhost : host.isAscii = true) : domain.isAscii = true := by
  rw [stripWildcard_eq_some h, Str.isAscii, List.all_append, Bool.and_eq_true] at hhost
  exact hhost.2

variable {s : CertStore χ κ} {host certPem keyPem : Str} {allowMismatch : Bool}
  {entry : CertEntry χ κ}

theorem slotOf_wildcard {domain : Str} (hw : stripWildcard host = some domain) :
    slotOf host = .wildcard domain.toAsciiLowercase := by
  have hstar : host ≠ "*".toList := by rintro rfl; cases hw
  rw [slotOf, if_neg hstar, hw]

theorem slotOf_exact (hstar : host ≠ "*".toList) (hw : stripWildcard host = none) :
    slotOf host = .exact host.toAsciiLowercase := by
  rw [slotOf, if_neg hstar, hw]

/-- A text is the default, a wildcard or an exact host. -/
theorem host_cases (host : Str) : host = "*".toList ∨
    (host ≠ "*".toList ∧ ∃ domain, stripWildcard host = some domain) ∨
    (host ≠ "*".toList ∧ stripWildcard host = none) := by
  by_cases hstar : host = "*".toList
  · exact .inl hstar
  · cases hw : stripWildcard host with
    | some domain => exact .inr (.inl ⟨hstar, domain, rfl⟩)
    | none => exact .inr (.inr ⟨hstar, rfl⟩)

/-- **The errors of `set` come before its write.** -/
theorem set_eq : s.set C host certPem keyPem allowMismatch =
    match acceptedEntry C host certPem keyPem allowMismatch with
    | .error e => (s, .error e)
    | .ok entry => (s.write C host (some entry), .ok ()) := by
  unfold CertStore.set acceptedEntry CertStore.write
  cases parseCertEntry C certPem keyPem with
  | error e => rfl
  | ok entry =>
    rcases host_cases host with rfl | ⟨hstar, domain, hw⟩ | ⟨hstar, hw⟩
    · rfl
    · simp only [if_neg hstar, hw]
      cases (if allowMismatch = true then .ok () else verifyCertMatches C entry.leaf host) with
      | error e => rfl
      | ok _ =>
        by_cases hbad : (domain.isEmpty || domain.contains '*') = true
        · simp only [if_pos hbad]
        · simp only [if_neg hbad]
    · simp only [if_neg hstar, hw]
      cases (if allowMismatch = true then .ok () else verifyCertMatches C entry.leaf host) with
      | error e => rfl
      | ok _ => rfl

theorem remove_eq : (s.remove C host).1 = s.write C host none := by
  unfold CertStore.remove CertStore.write
  rcases host_cases host with rfl | ⟨hstar, domain, hw⟩ | ⟨hstar, hw⟩
  · rfl
  · simp only [if_neg hstar, hw]
  · simp only [if_neg hstar, hw]

theorem write_slots (v : Option (CertEntry χ κ)) (hhost : host.isAscii = true) :
    (s.write C host v).slots = Function.update s.slots (slotOf host) v := by
  unfold CertStore.write
  rcases host_cases host with rfl | ⟨hstar, domain, hw⟩ | ⟨hstar, hw⟩
  · exact slots_default s v
  · simp only [if_neg hstar, hw]
    rw [slots_wildcard, slotOf_wildcard hw,
      C.toLowercase_ascii domain (isAscii_of_stripWildcard hw hhost)]
  · simp only [if_neg hstar, hw]
    rw [slots_exact, slotOf_exact hstar hw, C.toLowercase_ascii host hhost]

/-- `remove` answers whether the slot was taken. -/
theorem remove_result (hhost : host.isAscii = true) :
    (s.remove C host).2 = (s.slots (slotOf host)).isSome := by
  unfold CertStore.remove
  rcases host_cases host with rfl | ⟨hstar, domain, hw⟩ | ⟨hstar, hw⟩
  · rfl
  · simp only [if_neg hstar, hw]
    rw [slotOf_wildcard hw, C.toLowercase_ascii domain (isAscii_of_stripWildcard hw hhost)]
    rfl
  · simp only [if_neg hstar, hw]
    rw [slotOf_exact hstar hw, C.toLowercase_ascii host hhost]
    rfl

/-- `lookup` reads the slots in order of priority. -/
theorem lookup_eq_resolve (s : CertStore χ κ) {h : Str} (hh : h.isAscii = true) :
    s.lookup C h = resolve s.slots h := by
  unfold CertStore.lookup resolve
  simp only [C.toLowercase_ascii h hh, Str.splitOnce_toAsciiLowercase (c := '.') (by decide)]
  cases he : s.exact h.toAsciiLowercase with
  | some entry => simp [CertStore.slots, he]
  | none =>
    cases hs : Str.splitOnce '.' h with
    | none => simp [CertStore.slots, he]
    | some parts =>
      cases hw : s.wildcard parts.2.toAsciiLowercase with
      | some entry => simp [CertStore.slots, he, hw]
      | none => simp [CertStore.slots, he, hw]

/-! ## Histories -/

/-- One call writes the map as its effect says. -/
theorem step_slots (op : Op) (hop : op.host.isAscii = true) :
    (step C s op).slots = applyWrite s.slots (effect C op) := by
  cases op with
  | set host certPem keyPem allowMismatch =>
    rw [step, set_eq, effect]
    cases acceptedEntry C host certPem keyPem allowMismatch with
    | error e => rfl
    | ok entry => exact write_slots (some entry) hop
  | remove host =>
    rw [step, remove_eq, effect]
    exact write_slots none hop

/-- The store represents the history of its calls. -/
theorem represents_run (C : Crates χ κ) {ops : List Op}
    (hops : ∀ op ∈ ops, op.host.isAscii = true) : Represents (effect C) ops (run C ops).slots := by
  induction ops using List.reverseRecOn with
  | nil =>
    have hnew : (run C []).slots = fun _ => none := by
      funext slot
      cases slot <;> rfl
    rw [hnew]
    exact represents_nil
  | append_singleton ops op ih =>
    have hrest := ih fun o ho => hops o (List.mem_append_left _ ho)
    have hop := hops op (List.mem_append_right _ (List.mem_singleton_self op))
    refine hrest.concat ?_
    rw [run, List.foldl_append]
    exact step_slots op hop

/-! ## One label -/

/-- The wildcard of `domain` is read only for hosts of one label before the domain. -/
theorem resolve_update_wildcard {m : Slot → Option (CertEntry χ κ)} {v : Option (CertEntry χ κ)}
    {domain h : Str}
    (hlabels : ∀ label parent : Str, '.' ∉ label → h = label ++ '.' :: parent →
      parent.toAsciiLowercase ≠ domain) :
    resolve (Function.update m (.wildcard domain) v) h = resolve m h := by
  unfold resolve
  cases hs : Str.splitOnce '.' h with
  | none => simp [Function.update_of_ne]
  | some parts =>
    obtain ⟨label, parent⟩ := parts
    obtain ⟨hdot, heq⟩ := Str.splitOnce_eq_some_iff.1 hs
    have hne := hlabels label parent hdot heq
    simp [Function.update_of_ne, hne]

/-- Neither the apex of a domain nor a host with two more labels is one label before it. -/
theorem not_one_label {domain h : Str}
    (hh : h.toAsciiLowercase = domain ∨ ∃ first second : Str,
      h.toAsciiLowercase = first ++ '.' :: (second ++ '.' :: domain))
    (label parent : Str) (hdot : '.' ∉ label) (heq : h = label ++ '.' :: parent) :
    parent.toAsciiLowercase ≠ domain := by
  intro hparent
  have hlower : h.toAsciiLowercase = label.toAsciiLowercase ++ '.' :: domain := by
    rw [heq, ← hparent]
    simp [Str.toAsciiLowercase, (Str.toLower_eq_iff (c := '.') (d := '.') (by decide)).2 rfl]
  have hdot' : '.' ∉ label.toAsciiLowercase := by
    intro hmem
    obtain ⟨c, hc, hcl⟩ := List.mem_map.1 hmem
    exact hdot ((Str.toLower_eq_iff (by decide)).1 hcl ▸ hc)
  rcases hh with hapex | ⟨first, second, hdeep⟩
  · rw [hapex] at hlower
    have hlen := congrArg List.length hlower
    simp only [List.length_append, List.length_cons] at hlen
    omega
  · rw [hdeep] at hlower
    have hlen : first ++ '.' :: second = label.toAsciiLowercase := by
      have happend : (first ++ '.' :: second) ++ '.' :: domain =
          label.toAsciiLowercase ++ '.' :: domain := by simpa using hlower
      exact List.append_cancel_right happend
    exact hdot' (hlen ▸ by simp)

/-- **The certificate store**, after any calls on ASCII hosts: its slots hold what was set last;
a failed `set` leaves it as it was; `remove` says whether it changed it; `lookup` prefers the exact
host to the wildcard of its parent domain and that to the default; and no wildcard answers for its
apex or for two more labels. -/
theorem certStore_semantics (C : Crates χ κ) {ops : List Op}
    (hops : ∀ op ∈ ops, op.host.isAscii = true) :
    let s := run C ops
    Represents (effect C) ops s.slots ∧
    (∀ host certPem keyPem allowMismatch,
      (effect C (.set host certPem keyPem allowMismatch) = none ↔
        (s.set C host certPem keyPem allowMismatch).2 ≠ .ok ()) ∧
      ((s.set C host certPem keyPem allowMismatch).2 ≠ .ok () →
        (s.set C host certPem keyPem allowMismatch).1 = s)) ∧
    (∀ host : Str, host.isAscii = true →
      ((s.remove C host).2 = true ↔ (s.remove C host).1 ≠ s)) ∧
    (∀ h : Str, h.isAscii = true → s.lookup C h = resolve s.slots h) ∧
    (∀ domain h : Str, domain.isAscii = true → h.isAscii = true →
      (h.eqIgnoreAsciiCase domain = true ∨ ∃ first second : Str,
        h.eqIgnoreAsciiCase (first ++ '.' :: (second ++ '.' :: domain)) = true) →
      (s.remove C ("*.".toList ++ domain)).1.lookup C h = s.lookup C h) := by
  intro s
  refine ⟨represents_run C hops, ?_, ?_, fun h hh => lookup_eq_resolve s hh, ?_⟩
  · intro host certPem keyPem allowMismatch
    rw [set_eq, effect]
    cases acceptedEntry C host certPem keyPem allowMismatch with
    | error e => simp
    | ok entry => simp
  · intro host hhost
    rw [remove_result hhost]
    have hslots := write_slots (C := C) (s := s) none hhost
    rw [← remove_eq] at hslots
    constructor
    · intro hsome heq
      rw [heq] at hslots
      rw [hslots, Function.update_self] at hsome
      cases hsome
    · intro hne
      cases hslot : s.slots (slotOf host) with
      | some entry => rfl
      | none =>
        refine absurd (CertStore.ext_slots ?_) hne
        rw [hslots, ← hslot, Function.update_eq_self]
  · intro domain h hdomain hh hlabels
    have hhost : Str.isAscii ("*.".toList ++ domain) = true := by
      rw [Str.isAscii, List.all_append, Bool.and_eq_true]
      exact ⟨by decide, hdomain⟩
    rw [lookup_eq_resolve _ hh, lookup_eq_resolve _ hh, remove_eq, write_slots none hhost,
      slotOf_wildcard (show stripWildcard ("*.".toList ++ domain) = some domain from rfl)]
    refine resolve_update_wildcard (not_one_label ?_)
    refine hlabels.imp (fun heq => beq_iff_eq.1 heq) ?_
    rintro ⟨first, second, heq⟩
    refine ⟨first.toAsciiLowercase, second.toAsciiLowercase, ?_⟩
    rw [beq_iff_eq.1 heq]
    simp [Str.toAsciiLowercase, (Str.toLower_eq_iff (c := '.') (d := '.') (by decide)).2 rfl]

/-- PEM texts that spell the one name of a certificate. -/
def namedCerts : Crates Str Unit where
  stackFromPem pem := if pem.isEmpty then .ok [] else .ok [pem]
  privateKeyFromPem pem := if pem = "key".toList then .ok () else .error "no start line"
  certNames name := [name]
  toLowercase := Str.toAsciiLowercase
  toLowercase_ascii _ _ := rfl

/-- A wildcard, a default, an exact host that is refused, and one that is removed again. -/
def certCalls : List Op :=
  [.set "*.Example.com".toList "*.example.com".toList "key".toList false,
    .set "*".toList "fallback".toList "key".toList false,
    .set "b.example.com".toList "other".toList "key".toList false,
    .set "c.example.com".toList "c.example.com".toList "key".toList false,
    .remove "C.example.com".toList]

theorem certStore_semantics_certCalls :
    Represents (effect namedCerts) certCalls (run namedCerts certCalls).slots ∧
    (run namedCerts certCalls).lookup namedCerts "c.EXAMPLE.com".toList =
      some ⟨"*.example.com".toList, [], ()⟩ := by
  have h := @certStore_semantics _ _ namedCerts certCalls (by decide)
  refine ⟨h.1, ?_⟩
  rw [h.2.2.2.1 _ (by decide)]
  decide

end Lonesome.Certs
