import Lonesome.Lib.Interleaving
import Lonesome.Lib.Trace
import Lonesome.Server.CertHosts

/-!
# TLS handshakes while certificates change

`src/server/tls_callbacks.rs` over the store of `src/server/cert_store.rs`. A handshake reads the store
up to three times, the exact host, the wildcard of its parent and the default, and JavaScript registers
and removes certificates in between. A call writes one slot of the store in one action; only the removal
of the default reads it first, in an action of its own.

Taken together the reads of a handshake need not show the store at any one time. But each of them does,
so the certificate that is served was registered during the handshake, and each slot that would have
come before it was empty at some time during it (`handshakes_explained`): a slot that holds an entry
throughout a handshake, behind slots that stay empty, is the one that is served.
-/

namespace Lonesome.Certs

open Lonesome.Interleaving
open Lonesome.Lib

variable {χ κ : Type}

/-! ## The model -/

/-- Whether OpenSSL takes what the callback hands it. -/
structure TlsAnswers (χ : Type) where
  certificate : Bool
  privateKey : Bool
  chainCert : χ → Bool

/-- What a handshake has in place of the static certificate of the listener. -/
structure Override (χ κ : Type) where
  leaf : Option χ
  key : Option κ
  chain : List χ
  deriving DecidableEq

def Override.empty : Override χ κ := ⟨none, none, []⟩

/-- The end of `certificate_callback`: a certificate or a key that is not taken ends it, an intermediate
that is not taken is skipped. -/
def applyEntry (answers : TlsAnswers χ) (entry : CertEntry χ κ) : Override χ κ :=
  if answers.certificate then
    if answers.privateKey then
      ⟨some entry.leaf, some entry.key, entry.intermediates.filter answers.chainCert⟩
    else ⟨some entry.leaf, none, []⟩
  else .empty

/-- What `update_cert` and `remove_cert` return. -/
inductive Reply where
  | updated (result : Except String Unit)
  | removed (wasThere : Bool)

def reply (C : Crates χ κ) (s : CertStore χ κ) : Op → Reply
  | .set host certPem keyPem allowMismatch => .updated (s.set C host certPem keyPem allowMismatch).2
  | .remove host => .removed (s.remove C host).2

/-- A handshake that is done, with the numbers of calls before its beginning and its end, and what
OpenSSL took of the entry that was found. -/
structure Served (χ κ : Type) where
  sni : Option Str
  start : Nat
  finish : Nat
  found : Option (CertEntry χ κ)
  answers : TlsAnswers χ
  override : Override χ κ

/-- The store, the calls that have written it with their replies, and the handshakes that are done. -/
structure State (χ κ : Type) where
  store : CertStore χ κ
  calls : List (Op × Reply)
  served : List (Served χ κ)

/-- A call before its write, the removal of the default before its second action, or a handshake before
each of its reads. -/
inductive Task where
  | update (op : Op)
  | clearDefault (wasSome : Bool)
  | certificate (sni : Option Str) (start : Nat)
  | wildcard (sni parent : Str) (start : Nat)
  | fallback (sni : Str) (start : Nat)

namespace State

def init : State χ κ := ⟨.new, [], []⟩

/-- A call writes the store and returns. -/
def record (C : Crates χ κ) (s : State χ κ) (op : Op) (r : Reply) : State χ κ :=
  { s with store := step C s.store op, calls := s.calls ++ [(op, r)] }

/-- A handshake is done. -/
def serve (s : State χ κ) (answers : TlsAnswers χ) (sni : Option Str) (start : Nat)
    (found : Option (CertEntry χ κ)) : State χ κ :=
  let override := (found.map (applyEntry answers)).getD .empty
  { s with served := s.served ++ [⟨sni, start, s.calls.length, found, answers, override⟩] }

end State

variable (C : Crates χ κ)

def updateAct (s : State χ κ) : Op → State χ κ × Option Task
  | .remove host =>
    if host = "*".toList then (s, some (.clearDefault s.store.default.isSome))
    else (s.record C (.remove host) (reply C s.store (.remove host)), none)
  | op => (s.record C op (reply C s.store op), none)

/-- `lookup`, one read after the other. -/
def act (s : State χ κ) (answers : TlsAnswers χ) : Task → State χ κ × Option Task
  | .update op => updateAct C s op
  | .clearDefault wasSome => (s.record C (.remove "*".toList) (.removed wasSome), none)
  | .certificate none start => (s.serve answers none start none, none)
  | .certificate (some sni) start =>
    match s.store.exact (C.toLowercase sni) with
    | some entry => (s.serve answers (some sni) start (some entry), none)
    | none =>
      match (C.toLowercase sni).splitOnce '.' with
      | some (_, parent) => (s, some (.wildcard sni parent start))
      | none => (s, some (.fallback sni start))
  | .wildcard sni parent start =>
    match s.store.wildcard parent with
    | some entry => (s.serve answers (some sni) start (some entry), none)
    | none => (s, some (.fallback sni start))
  | .fallback sni start => (s.serve answers (some sni) start s.store.default, none)

/-- A handshake begins now. -/
def begins (p : Pool (State χ κ) Task) : Task → Bool
  | .update _ => true
  | .certificate _ start => start == p.shared.calls.length
  | _ => false

/-- The store with the calls and the handshakes. -/
def handshakes : Object (State χ κ) Task (TlsAnswers χ) Empty where
  initial := .init
  begins := begins
  act _ s t answers := some (act C s answers t)
  env _ e := nomatch e

/-! ## What a handshake is served -/

/-- The store after the first `n` calls. -/
def storeAt (calls : List (Op × Reply)) (n : Nat) : CertStore χ κ :=
  run C ((calls.take n).map Prod.fst)

/-- A slot had this value at some time from `start` on, until `finish`. -/
def Held (calls : List (Op × Reply)) (start finish : Nat) (slot : Slot)
    (v : Option (CertEntry χ κ)) : Prop :=
  ∃ n, start ≤ n ∧ n ≤ finish ∧ (storeAt C calls n).slots slot = v

/-- The slots for a server name, the first one first. -/
def slotsFor (sni : Str) : List Slot :=
  let host := C.toLowercase sni
  .exact host :: ((host.splitOnce '.').map fun p => Slot.wildcard p.2).toList ++ [.default]

/-- Why a handshake found what it found: it was in one of the slots, behind slots that were empty, or
all of them were. -/
def Found (calls : List (Op × Reply)) (start finish : Nat) (sni : Str) :
    Option (CertEntry χ κ) → Prop
  | some entry => ∃ before slot after, slotsFor C sni = before ++ slot :: after ∧
      (∀ s ∈ before, Held C calls start finish s none) ∧ Held C calls start finish slot (some entry)
  | none => ∀ s ∈ slotsFor C sni, Held C calls start finish s none

/-- The override is the entry, as far as OpenSSL takes it: the leaf if it is taken, then the key if that
is, and after both the intermediates but those that are refused. With nothing refused it is the whole
entry. -/
structure Override.Of (o : Override χ κ) (answers : TlsAnswers χ) (entry : CertEntry χ κ) : Prop where
  leaf : o.leaf = if answers.certificate then some entry.leaf else none
  key : o.key = if answers.certificate ∧ answers.privateKey then some entry.key else none
  chain : o.chain = if answers.certificate ∧ answers.privateKey then
    entry.intermediates.filter answers.chainCert else []
  whole : answers.certificate = true → answers.privateKey = true →
    (∀ cert ∈ entry.intermediates, answers.chainCert cert = true) →
    o = ⟨some entry.leaf, some entry.key, entry.intermediates⟩

theorem applyEntry_of (answers : TlsAnswers χ) (entry : CertEntry χ κ) :
    (applyEntry answers entry).Of answers entry := by
  obtain ⟨certificate, privateKey, chainCert⟩ := answers
  cases certificate with
  | false => exact ⟨rfl, rfl, rfl, fun h => (nomatch h)⟩
  | true =>
    cases privateKey with
    | false => exact ⟨rfl, rfl, rfl, fun _ h => (nomatch h)⟩
    | true =>
      refine ⟨rfl, rfl, rfl, fun _ _ hall => ?_⟩
      show (⟨_, _, entry.intermediates.filter chainCert⟩ : Override χ κ) = _
      rw [List.filter_eq_self.2 hall]

/-- A handshake that is done is explained by the calls. -/
structure Served.Explained (calls : List (Op × Reply)) (x : Served χ κ) : Prop where
  order : x.start ≤ x.finish ∧ x.finish ≤ calls.length
  found : ∀ sni, x.sni = some sni → Found C calls x.start x.finish sni x.found
  unnamed : x.sni = none → x.found = none
  overrides : ∀ entry, x.found = some entry → x.override.Of x.answers entry
  keeps : x.found = none → x.override = .empty

variable {C} {calls : List (Op × Reply)} {start finish : Nat} {sni : Str} {slot : Slot}
  {v : Option (CertEntry χ κ)}

theorem storeAt_concat (c : Op × Reply) {n : Nat} (h : n ≤ calls.length) :
    storeAt C (calls ++ [c]) n = storeAt C calls n := by
  rw [storeAt, List.take_append_of_le_length h]
  rfl

namespace Held

theorem concat (h : Held C calls start finish slot v) (hfinish : finish ≤ calls.length)
    (c : Op × Reply) : Held C (calls ++ [c]) start finish slot v := by
  obtain ⟨n, hstart, hn, hslot⟩ := h
  refine ⟨n, hstart, hn, ?_⟩
  rw [storeAt_concat c (hn.trans hfinish)]
  exact hslot

theorem later (h : Held C calls start finish slot v) {finish' : Nat} (hle : finish ≤ finish') :
    Held C calls start finish' slot v := by
  obtain ⟨n, hstart, hn, hslot⟩ := h
  exact ⟨n, hstart, hn.trans hle, hslot⟩

/-- What is read now. -/
theorem now (hstart : start ≤ calls.length)
    (hslot : (run C (calls.map Prod.fst)).slots slot = v) :
    Held C calls start calls.length slot v := by
  refine ⟨calls.length, hstart, le_rfl, ?_⟩
  rw [storeAt, List.take_length]
  exact hslot

end Held

theorem Found.concat {found : Option (CertEntry χ κ)} (h : Found C calls start finish sni found)
    (hfinish : finish ≤ calls.length) (c : Op × Reply) :
    Found C (calls ++ [c]) start finish sni found := by
  cases found with
  | none => exact fun s hs => (h s hs).concat hfinish c
  | some entry =>
    obtain ⟨before, slot, after, hslots, hempty, hheld⟩ := h
    exact ⟨before, slot, after, hslots, fun s hs => (hempty s hs).concat hfinish c,
      hheld.concat hfinish c⟩

theorem Served.Explained.concat {x : Served χ κ} (h : x.Explained C calls) (c : Op × Reply) :
    x.Explained C (calls ++ [c]) where
  order := ⟨h.order.1, h.order.2.trans (by simp)⟩
  found := fun sni hsni => (h.found sni hsni).concat h.order.2 c
  unnamed := h.unnamed
  overrides := h.overrides
  keeps := h.keeps

/-! ## The invariant -/

/-- What a handshake has seen before its next read: the slots before that one were empty. -/
def Task.Explained (C : Crates χ κ) (calls : List (Op × Reply)) : Task → Prop
  | .certificate _ start => start ≤ calls.length
  | .wildcard sni parent start => start ≤ calls.length ∧
      slotsFor C sni = [.exact (C.toLowercase sni), .wildcard parent, .default] ∧
      Held C calls start calls.length (.exact (C.toLowercase sni)) none
  | .fallback sni start => start ≤ calls.length ∧ ∃ before, slotsFor C sni = before ++ [.default] ∧
      ∀ s ∈ before, Held C calls start calls.length s none
  | _ => True

theorem Task.Explained.concat {t : Task} (h : t.Explained C calls) (c : Op × Reply) :
    t.Explained C (calls ++ [c]) := by
  have hlen : calls.length ≤ (calls ++ [c]).length := by simp
  cases t with
  | certificate sni start => exact h.trans hlen
  | wildcard sni parent start =>
    exact ⟨h.1.trans hlen, h.2.1, (h.2.2.concat le_rfl c).later hlen⟩
  | fallback sni start =>
    obtain ⟨hstart, before, hslots, hempty⟩ := h
    exact ⟨hstart.trans hlen, before, hslots, fun s hs => ((hempty s hs).concat le_rfl c).later hlen⟩
  | _ => trivial

/-- The store is that of its calls, and the handshakes are explained by them. -/
structure Consistent (C : Crates χ κ) (p : Pool (State χ κ) Task) : Prop where
  store : p.shared.store = run C (p.shared.calls.map Prod.fst)
  replies : Justified (fun before c => c.1 ≠ .remove "*".toList →
    c.2 = reply C (run C (before.map Prod.fst)) c.1) p.shared.calls
  tasks : p.All (Task.Explained C p.shared.calls)
  served : ∀ x ∈ p.shared.served, x.Explained C p.shared.calls

namespace Consistent

variable {p : Pool (State χ κ) Task} (hp : Consistent C p) {i : Nat}
include hp

theorem record {op : Op} {r : Reply} (hr : op ≠ .remove "*".toList → r = reply C p.shared.store op) :
    Consistent C (p.set i (p.shared.record C op r) none) where
  store := by
    show step C p.shared.store op = run C ((p.shared.calls ++ [(op, r)]).map Prod.fst)
    rw [List.map_append, run, List.foldl_append, hp.store]
    rfl
  replies := hp.replies.concat (by
    rw [← hp.store]
    exact hr)
  tasks := hp.tasks.set (fun _ _ _ _ ht => ht.concat (op, r)) fun _ ht => (nomatch ht)
  served := fun x hx => (hp.served x hx).concat (op, r)

theorem serve (answers : TlsAnswers χ) {sni : Option Str} {start : Nat}
    {found : Option (CertEntry χ κ)} (hstart : start ≤ p.shared.calls.length)
    (hfound : ∀ name, sni = some name →
      Found C p.shared.calls start p.shared.calls.length name found)
    (hunnamed : sni = none → found = none) :
    Consistent C (p.set i (p.shared.serve answers sni start found) none) where
  store := hp.store
  replies := hp.replies
  tasks := hp.tasks.set (fun _ _ _ _ ht => ht) fun _ ht => (nomatch ht)
  served := by
    intro x hx
    rcases List.mem_append.1 hx with hold | hnew
    · exact hp.served x hold
    · obtain rfl := List.mem_singleton.1 hnew
      refine ⟨⟨hstart, le_rfl⟩, hfound, hunnamed, fun entry hentry => ?_, fun hnone => ?_⟩
      · obtain rfl : found = some entry := hentry
        exact applyEntry_of answers entry
      · obtain rfl : found = none := hnone
        rfl

/-- A handshake goes on to its next read. -/
theorem next {t : Task} (ht : t.Explained C p.shared.calls) :
    Consistent C (p.set i p.shared (some t)) where
  store := hp.store
  replies := hp.replies
  tasks := hp.tasks.set (fun _ _ _ _ hu => hu) fun u hu => by
    cases hu
    exact ht
  served := hp.served

theorem update (op : Op) : Consistent C
    (p.set i (updateAct C p.shared op).1 (updateAct C p.shared op).2) := by
  cases op with
  | set host certPem keyPem allowMismatch => exact hp.record fun _ => rfl
  | remove host =>
    by_cases hstar : host = "*".toList
    · have hact : updateAct C p.shared (.remove host) =
        (p.shared, some (.clearDefault p.shared.store.default.isSome)) := if_pos hstar
      rw [hact]
      exact hp.next (t := .clearDefault _) trivial
    · have hact : updateAct C p.shared (.remove host) =
        (p.shared.record C (.remove host) (reply C p.shared.store (.remove host)), none) := if_neg hstar
      rw [hact]
      exact hp.record fun _ => rfl

theorem now {slot : Slot} {v : Option (CertEntry χ κ)} {start : Nat}
    (hstart : start ≤ p.shared.calls.length) (hslot : p.shared.store.slots slot = v) :
    Held C p.shared.calls start p.shared.calls.length slot v := by
  refine .now hstart ?_
  rw [← hp.store]
  exact hslot

/-- The first read. -/
theorem certificate (answers : TlsAnswers χ) {sni : Str} {start : Nat}
    (hstart : start ≤ p.shared.calls.length) {s' : State χ κ} {t' : Option Task}
    (h : act C p.shared answers (.certificate (some sni) start) = (s', t')) :
    Consistent C (p.set i s' t') := by
  cases hexact : p.shared.store.exact (C.toLowercase sni) with
  | some entry =>
    simp only [act, hexact] at h
    cases h
    refine hp.serve answers hstart (fun name hname => ?_) fun hnone => (nomatch hnone)
    cases hname
    exact ⟨[], .exact _, _, rfl, fun _ hs => (nomatch hs), hp.now hstart hexact⟩
  | none =>
    have hempty : Held C p.shared.calls start p.shared.calls.length (.exact (C.toLowercase sni)) none :=
      hp.now hstart hexact
    cases hsplit : (C.toLowercase sni).splitOnce '.' with
    | some parts =>
      simp only [act, hexact, hsplit] at h
      cases h
      refine hp.next ⟨hstart, ?_, hempty⟩
      simp [slotsFor, hsplit]
    | none =>
      simp only [act, hexact, hsplit] at h
      cases h
      refine hp.next ⟨hstart, [.exact (C.toLowercase sni)], by simp [slotsFor, hsplit], ?_⟩
      intro s hs
      obtain rfl := List.mem_singleton.1 hs
      exact hempty

theorem wildcard (answers : TlsAnswers χ) {sni parent : Str} {start : Nat}
    (ht : (Task.wildcard sni parent start).Explained C p.shared.calls) {s' : State χ κ}
    {t' : Option Task} (h : act C p.shared answers (.wildcard sni parent start) = (s', t')) :
    Consistent C (p.set i s' t') := by
  obtain ⟨hstart, hslots, hempty⟩ := ht
  cases hwild : p.shared.store.wildcard parent with
  | some entry =>
    simp only [act, hwild] at h
    cases h
    refine hp.serve answers hstart (fun name hname => ?_) fun hnone => (nomatch hnone)
    cases hname
    refine ⟨[.exact (C.toLowercase sni)], .wildcard parent, [.default], hslots, ?_, ?_⟩
    · intro s hs
      obtain rfl := List.mem_singleton.1 hs
      exact hempty
    · exact hp.now hstart hwild
  | none =>
    simp only [act, hwild] at h
    cases h
    have hwildEmpty : Held C p.shared.calls start p.shared.calls.length (.wildcard parent) none :=
      hp.now hstart hwild
    refine hp.next ⟨hstart, [.exact (C.toLowercase sni), .wildcard parent], hslots, ?_⟩
    intro s hs
    simp only [List.mem_cons, List.not_mem_nil, or_false] at hs
    rcases hs with rfl | rfl
    · exact hempty
    · exact hwildEmpty

theorem fallback (answers : TlsAnswers χ) {sni : Str} {start : Nat}
    (ht : (Task.fallback sni start).Explained C p.shared.calls) :
    Consistent C (p.set i (p.shared.serve answers (some sni) start p.shared.store.default) none) := by
  obtain ⟨hstart, before, hslots, hempty⟩ := ht
  refine hp.serve answers hstart (fun name hname => ?_) fun hnone => (nomatch hnone)
  cases hname
  cases hdefault : p.shared.store.default with
  | some entry => exact ⟨before, .default, [], hslots, hempty, hp.now hstart hdefault⟩
  | none =>
    intro s hs
    rw [hslots, List.mem_append] at hs
    rcases hs with hs | hs
    · exact hempty s hs
    · obtain rfl := List.mem_singleton.1 hs
      exact hp.now hstart hdefault

end Consistent

theorem consistent {p : Pool (State χ κ) Task} (h : (handshakes C).Reachable p) : Consistent C p := by
  refine Object.ReachableVia.invariant (O := handshakes C) (I := Consistent C) ?_ ?_ ?_ ?_ h
  · exact ⟨rfl, justified_nil, fun _ _ ht => (nomatch ht), fun _ hx => (nomatch hx)⟩
  · intro p i t hp _ _ hbegins
    refine hp.next ?_
    cases t with
    | update op => trivial
    | certificate sni start => exact Nat.le_of_eq (beq_iff_eq.1 hbegins)
    | _ => cases hbegins
  · intro p i answers t s' t' hp _ ht hact
    have hact : act C p.shared answers t = (s', t') := Option.some.inj hact
    have hexplained : t.Explained C p.shared.calls := hp.tasks i t ht
    cases t with
    | update op =>
      have hdone := hp.update (i := i) op
      rw [show updateAct C p.shared op = (s', t') from hact] at hdone
      exact hdone
    | clearDefault wasSome =>
      cases hact
      exact hp.record fun hne => (hne rfl).elim
    | certificate sni start =>
      cases sni with
      | none =>
        cases hact
        exact hp.serve answers hexplained (fun _ hname => (nomatch hname)) fun _ => rfl
      | some sni => exact hp.certificate answers hexplained hact
    | wildcard sni parent start => exact hp.wildcard answers hexplained hact
    | fallback sni start =>
      cases hact
      exact hp.fallback answers hexplained
  · intro p e
    exact nomatch e

/-! ## The result -/

/-- A slot that holds an entry all the time, behind slots that are empty all the time, is found. -/
theorem Found.of_steady {found : Option (CertEntry χ κ)} (h : Found C calls start finish sni found)
    {before after : List Slot} {entry : CertEntry χ κ} (hslots : slotsFor C sni = before ++ slot :: after)
    (hsteady : ∀ n, start ≤ n → n ≤ finish → (storeAt C calls n).slots slot = some entry ∧
      ∀ s ∈ before, (storeAt C calls n).slots s = none) : found = some entry := by
  have hnever : ¬ Held C calls start finish slot none := by
    rintro ⟨n, hstart, hn, hnone⟩
    rw [(hsteady n hstart hn).1] at hnone
    cases hnone
  cases found with
  | none =>
    refine (hnever (h slot ?_)).elim
    rw [hslots]
    exact List.mem_append_right _ List.mem_cons_self
  | some other =>
    obtain ⟨before', slot', after', hslots', hempty, n, hstart, hn, hheld⟩ := h
    rw [hslots] at hslots'
    rcases List.append_eq_append_iff.1 hslots' with ⟨l, hl, hrest⟩ | ⟨l, hl, hrest⟩
    · cases l with
      | nil =>
        obtain ⟨rfl, -⟩ := List.cons.inj hrest
        rw [(hsteady n hstart hn).1] at hheld
        exact hheld.symm
      | cons first l =>
        obtain ⟨rfl, -⟩ := List.cons.inj hrest
        refine (hnever (hempty slot ?_)).elim
        rw [hl]
        exact List.mem_append_right _ List.mem_cons_self
    · cases l with
      | nil =>
        obtain ⟨rfl, -⟩ := List.cons.inj hrest
        rw [(hsteady n hstart hn).1] at hheld
        exact hheld.symm
      | cons first l =>
        obtain ⟨rfl, -⟩ := List.cons.inj hrest
        have hmem : slot' ∈ before := by
          rw [hl]
          exact List.mem_append_right _ List.mem_cons_self
        rw [(hsteady n hstart hn).2 slot' hmem] at hheld
        cases hheld

/-- `lookup` takes the first of the slots that is not empty. -/
theorem lookup_eq_findSome (s : CertStore χ κ) (sni : Str) :
    s.lookup C sni = (slotsFor C sni).findSome? s.slots := by
  unfold CertStore.lookup slotsFor
  cases hexact : s.exact (C.toLowercase sni) with
  | some entry => simp [CertStore.slots, hexact]
  | none =>
    cases hsplit : (C.toLowercase sni).splitOnce '.' with
    | none => simp [CertStore.slots, hexact, hsplit]
    | some parts =>
      cases hwild : s.wildcard parts.2 with
      | some entry => simp [CertStore.slots, hexact, hsplit, hwild]
      | none => simp [CertStore.slots, hexact, hsplit, hwild]

/-- Without calls in between, the reads are a lookup. -/
theorem Found.eq_lookup {found : Option (CertEntry χ κ)} (h : Found C calls start start sni found) :
    found = (storeAt C calls start).lookup C sni := by
  have hheld {slot : Slot} {v : Option (CertEntry χ κ)} (h : Held C calls start start slot v) :
      (storeAt C calls start).slots slot = v := by
    obtain ⟨n, hstart, hn, hslot⟩ := h
    obtain rfl : n = start := by omega
    exact hslot
  rw [lookup_eq_findSome]
  cases found with
  | none =>
    symm
    rw [List.findSome?_eq_none_iff]
    exact fun s hs => hheld (h s hs)
  | some entry =>
    obtain ⟨before, slot, after, hslots, hempty, hentry⟩ := h
    symm
    rw [List.findSome?_eq_some_iff]
    exact ⟨before, slot, after, hslots, hheld hentry, fun s hs => hheld (hempty s hs)⟩

/-- **Handshakes while certificates change.** In every interleaving of handshakes with calls of
`update_cert` and `remove_cert`, the store is the one that the calls leave one after the other, and every
call but the removal of the default returns what it would then. A handshake with a server name is served
an entry that stood in one of the slots of the name during the handshake, where each slot before it was
empty at some time during the handshake, or nothing, if each slot was; the leaf, the key and the
intermediates all are those of that entry, up to what OpenSSL refuses. A slot that holds one entry
throughout the handshake, behind slots that stay empty, decides; and without calls during the handshake
it is a `lookup`. -/
theorem handshakes_explained {p : Pool (State χ κ) Task} (h : (handshakes C).Reachable p) :
    p.shared.store = run C (p.shared.calls.map Prod.fst) ∧
    (∀ before op r after, p.shared.calls = before ++ (op, r) :: after → op ≠ .remove "*".toList →
      r = reply C (run C (before.map Prod.fst)) op) ∧
    ∀ x ∈ p.shared.served, x.Explained C p.shared.calls ∧
      (∀ sni, x.sni = some sni → x.start = x.finish →
        x.found = (storeAt C p.shared.calls x.start).lookup C sni) ∧
      ∀ sni before slot after entry, x.sni = some sni →
        slotsFor C sni = before ++ slot :: after →
        (∀ n, x.start ≤ n → n ≤ x.finish →
          (storeAt C p.shared.calls n).slots slot = some entry ∧
          ∀ s ∈ before, (storeAt C p.shared.calls n).slots s = none) →
        x.found = some entry ∧ x.override.Of x.answers entry := by
  have hp := consistent h
  refine ⟨hp.store, fun before op r after heq => hp.replies before (op, r) after heq, fun x hx => ?_⟩
  have hx := hp.served x hx
  refine ⟨hx, fun sni hsni hsame => ?_, fun sni before slot after entry hsni hslots hsteady => ?_⟩
  · have hfound := hx.found sni hsni
    rw [← hsame] at hfound
    exact hfound.eq_lookup
  have hfound := (hx.found sni hsni).of_steady hslots hsteady
  exact ⟨hfound, hx.overrides entry hfound⟩

/-! A handshake between whose reads a default is registered. -/

def allTaken : TlsAnswers Str := ⟨true, true, fun _ => true⟩

def defaultMeanwhile : List (Move Task (TlsAnswers Str) Empty) :=
  [.begin 0 (.update (.set "*.example.com".toList "*.example.com".toList "key".toList false)),
    .act 0 allTaken, .begin 1 (.certificate (some "A.example.com".toList) 1), .act 1 allTaken,
    .begin 0 (.update (.set "*".toList "fallback".toList "key".toList false)), .act 0 allTaken,
    .act 1 allTaken]

theorem handshakes_explained_defaultMeanwhile :
    ∃ p, (handshakes namedCerts).Reachable p ∧ ∃ x ∈ p.shared.served,
      x.sni = some "A.example.com".toList ∧ x.start < x.finish ∧
      x.found = some ⟨"*.example.com".toList, [], ()⟩ ∧
      x.override = ⟨some "*.example.com".toList, some (), []⟩ := by
  obtain ⟨p, hrun, x, hx, hsni, hstart, hfinish, hanswers, hcalls⟩ : ∃ p,
      (handshakes namedCerts).run (handshakes namedCerts).start defaultMeanwhile = some p ∧
      ∃ x ∈ p.shared.served, x.sni = some "A.example.com".toList ∧ x.start = 1 ∧ x.finish = 2 ∧
      x.answers = allTaken ∧ p.shared.calls.map Prod.fst =
        [.set "*.example.com".toList "*.example.com".toList "key".toList false,
          .set "*".toList "fallback".toList "key".toList false] :=
    ⟨_, rfl, _, List.mem_singleton_self _, rfl, rfl, rfl, rfl, rfl⟩
  have hreach := Object.reachable_of_run hrun
  have hserved := ((handshakes_explained hreach).2.2 x hx).2.2 "A.example.com".toList
    [.exact "a.example.com".toList] (.wildcard "example.com".toList) [.default]
    ⟨"*.example.com".toList, [], ()⟩ hsni rfl
  obtain ⟨hfound, hoverride⟩ := hserved fun n hn hn' => by
    rw [storeAt, List.map_take, hcalls]
    obtain rfl | rfl : n = 1 ∨ n = 2 := by omega
    · exact ⟨rfl, by decide⟩
    · exact ⟨rfl, by decide⟩
  rw [hanswers] at hoverride
  exact ⟨p, hreach, x, hx, hsni, by omega, hfound, hoverride.whole rfl rfl fun _ _ => rfl⟩

end Lonesome.Certs
