import Lonesome.VirtualJs.Registry
import Mathlib.Data.List.TakeWhile

/-!
# The way of a connection through the registry

An id is issued once and belongs to the listener it was issued for (`Known`). A socket entry is
always on someone's list: it is attached to its listener, or a deactivation has drained it and still
has to detach it, or its own connect finds the listener inactive and detaches it (`Flow.held`); and
an inactive listener has attached connections only while a drain is ahead (`Flow.draining`).

Both invariants only speak about which frames are ahead in some call, and one action replaces one
frame by others (`Replaces`): `known_step` and `flow_step`.
-/

namespace Lonesome.VirtualJs.Registry

/-! ## Connection ids -/

theorem takeWhile_reverse_connId (key : Str) (n : Nat) :
    (connId key n).reverse.takeWhile Char.isDigit = (Nat.toDigits 10 n).reverse := by
  have hdigits : ∀ c ∈ (Nat.toDigits 10 n).reverse, c.isDigit = true := by
    intro c hc
    exact Nat.isDigit_of_mem_toDigits (by decide) (by decide) (List.mem_reverse.1 hc)
  have hcolon : ((key ++ ":conn:".toList).reverse).takeWhile Char.isDigit = [] := by
    rw [List.reverse_append]
    rfl
  rw [connId, List.reverse_append, List.takeWhile_append_of_pos hdigits, hcolon, List.append_nil]

/-- The number of an id can be read off it. -/
theorem connId_seq_inj {key key' : Str} {n n' : Nat} (h : connId key n = connId key' n') :
    n = n' := by
  have hdigits : Nat.toDigits 10 n = Nat.toDigits 10 n' := by
    apply List.reverse_injective
    rw [← takeWhile_reverse_connId key, ← takeWhile_reverse_connId key', h]
  have hn := Nat.ofDigitChars_toDigits (b := 10) (n := n) (by decide) (by decide)
  rw [hdigits, Nat.ofDigitChars_toDigits (by decide) (by decide)] at hn
  exact hn.symm

/-! ## Frames ahead -/

/-- The frames ahead change by `new` in place of at most one `f`. -/
structure Replaces (P P' : Frame → Prop) (f : Frame) (new : List Frame) : Prop where
  old : ∀ g, P' g → g ∈ new ∨ P g
  kept : ∀ g, P g → g = f ∨ P' g
  pushed : ∀ g ∈ new, P' g

/-! ## What an id belongs to -/

/-- The id of a connect, once it has one and until it only has to fail. -/
def Connect.connId : Connect → Option Str
  | .attach c | .insert c | .recheck c | .openEvent c | .deactivated c | .finalCheck c
  | .socketState c => some c
  | .check | .nextConnId | .fail => none

def Frame.listener : Frame → Option Nat
  | .connect l _ | .detachConnection l _ | .deactivateListenerInstance l | .deactivateListener l _ =>
    some l
  | _ => none

/-- The frame works on `c` as a connection of `l`. -/
def Frame.Names (l : Nat) (c : Str) : Frame → Prop
  | .connect l' pc => l' = l ∧ pc.connId = some c
  | .detachSocketState c' (.connect l') => l' = l ∧ c' = c
  | .detachConnection l' c' => l' = l ∧ c' = c
  | _ => False

/-- Listeners that are named exist, ids have been issued, each once and for one listener. -/
structure Known (w : State) (P : Frame → Prop) : Prop where
  issued : ∀ l c, Event.issued l c ∈ w.history →
    l < w.created ∧ ∃ key n, n < w.seq ∧ c = connId key n
  owner : ∀ l l' c, Event.issued l c ∈ w.history → Event.issued l' c ∈ w.history → l = l'
  sockets : ∀ c l, w.sockets c = some l → Event.issued l c ∈ w.history
  attached : ∀ c l, c ∈ w.connections l → Event.issued l c ∈ w.history
  listeners : ∀ key l, w.listeners key = some l → l < w.created
  inactive : ∀ l, w.isActive l = false → l < w.created
  created : ∀ g, P g → ∀ l, g.listener = some l → l < w.created
  named : ∀ g, P g → ∀ l c, g.Names l c → Event.issued l c ∈ w.history

namespace Known

variable {w : State} {P P' : Frame → Prop} {f : Frame} {new : List Frame}

theorem frames (hk : Known w P) (hr : Replaces P P' f new)
    (hcreated : ∀ g ∈ new, ∀ l, g.listener = some l → l < w.created)
    (hnamed : ∀ g ∈ new, ∀ l c, g.Names l c → Event.issued l c ∈ w.history) : Known w P' where
  issued := hk.issued
  owner := hk.owner
  sockets := hk.sockets
  attached := hk.attached
  listeners := hk.listeners
  inactive := hk.inactive
  created g hg := (hr.old g hg).elim (hcreated g) (hk.created g)
  named g hg := (hr.old g hg).elim (hnamed g) (hk.named g)

/-- The new frames name nothing that the old one did not. -/
theorem inherits (hk : Known w P) (ht : P f) (hr : Replaces P P' f new)
    (h : ∀ g ∈ new, (∀ l, g.listener = some l → f.listener = some l) ∧
      ∀ l c, g.Names l c → f.Names l c) : Known w P' := by
  refine hk.frames hr ?_ ?_
  · intro g hg l hl
    exact hk.created f ht l ((h g hg).1 l hl)
  · intro g hg l c hc
    exact hk.named f ht l c ((h g hg).2 l c hc)

/-- Events other than new ids. -/
theorem log (hk : Known w P) {events : List Event} (he : ∀ l c, Event.issued l c ∉ events) :
    Known { w with history := w.history ++ events } P := by
  have hmem : ∀ l c, Event.issued l c ∈ w.history ++ events ↔ Event.issued l c ∈ w.history := by
    intro l c
    simp [he l c]
  constructor
  · intro l c h
    exact hk.issued l c ((hmem l c).1 h)
  · intro l l' c h h'
    exact hk.owner l l' c ((hmem l c).1 h) ((hmem l' c).1 h')
  · intro c l h
    exact (hmem l c).2 (hk.sockets c l h)
  · intro c l h
    exact (hmem l c).2 (hk.attached c l h)
  · exact hk.listeners
  · exact hk.inactive
  · exact hk.created
  · intro g hg l c h
    exact (hmem l c).2 (hk.named g hg l c h)

theorem setSocket (hk : Known w P) {c : Str} {entry : Option Nat}
    (he : ∀ l, entry = some l → Event.issued l c ∈ w.history) : Known (w.setSocket c entry) P where
  issued := hk.issued
  owner := hk.owner
  sockets c' l h := by
    rw [State.sockets_setSocket] at h
    split at h
    · next hc => exact hc ▸ he l h
    · exact hk.sockets c' l h
  attached := hk.attached
  listeners := hk.listeners
  inactive := hk.inactive
  created := hk.created
  named := hk.named

theorem setRegistered (hk : Known w P) {key : Str} {entry : Option Nat}
    (he : ∀ l, entry = some l → l < w.created) : Known (w.setRegistered key entry) P where
  issued := hk.issued
  owner := hk.owner
  sockets := hk.sockets
  attached := hk.attached
  listeners key' l h := by
    rw [State.listeners_setRegistered] at h
    split at h
    · exact he l h
    · exact hk.listeners key' l h
  inactive := hk.inactive
  created := hk.created
  named := hk.named

theorem setListener (hk : Known w P) {l : Nat} {listener : Listener}
    (hc : ∀ c ∈ listener.connections, Event.issued l c ∈ w.history)
    (ha : listener.active = false → l < w.created) :
    Known (w.setListener l listener) P where
  issued := hk.issued
  owner := hk.owner
  sockets := hk.sockets
  attached c l' h := by
    rw [State.connections, State.instances_setListener] at h
    split at h
    · next hl => exact hl ▸ hc c h
    · exact hk.attached c l' h
  listeners := hk.listeners
  inactive l' h := by
    rw [State.isActive, State.instances_setListener] at h
    split at h
    · next hl => exact hl ▸ ha h
    · exact hk.inactive l' h
  created := hk.created
  named := hk.named

theorem create (hk : Known w P) : Known { w with created := w.created + 1 } P where
  issued l c h := ⟨Nat.lt_succ_of_lt (hk.issued l c h).1, (hk.issued l c h).2⟩
  owner := hk.owner
  sockets := hk.sockets
  attached := hk.attached
  listeners key l h := Nat.lt_succ_of_lt (hk.listeners key l h)
  inactive l h := Nat.lt_succ_of_lt (hk.inactive l h)
  created g hg l h := Nat.lt_succ_of_lt (hk.created g hg l h)
  named := hk.named

/-- The next id has not been issued. -/
theorem not_issued_next (hk : Known w P) (key : Str) (l : Nat) :
    Event.issued l (connId key w.seq) ∉ w.history := by
  intro h
  obtain ⟨-, key', n, hn, heq⟩ := hk.issued l _ h
  rw [connId_seq_inj heq] at hn
  exact Nat.lt_irrefl _ hn

theorem issue (hk : Known w P) {l : Nat} (hl : l < w.created) (key : Str) :
    Known ({ w with seq := w.seq + 1 }.log (.issued l (connId key w.seq))) P := by
  have hmem : ∀ l' c, Event.issued l' c ∈ w.history ++ [.issued l (connId key w.seq)] ↔
      Event.issued l' c ∈ w.history ∨ (l' = l ∧ c = connId key w.seq) := by
    simp
  constructor
  · intro l' c h
    rcases (hmem l' c).1 h with h | ⟨rfl, rfl⟩
    · obtain ⟨hl', key', n, hn, hc⟩ := hk.issued l' c h
      exact ⟨hl', key', n, Nat.lt_succ_of_lt hn, hc⟩
    · exact ⟨hl, key, w.seq, Nat.lt_succ_self _, rfl⟩
  · intro l₁ l₂ c h₁ h₂
    rcases (hmem l₁ c).1 h₁ with h₁ | ⟨hl₁, hc⟩ <;> rcases (hmem l₂ c).1 h₂ with h₂ | ⟨hl₂, hc'⟩
    · exact hk.owner l₁ l₂ c h₁ h₂
    · exact (hk.not_issued_next key l₁ (hc' ▸ h₁)).elim
    · exact (hk.not_issued_next key l₂ (hc ▸ h₂)).elim
    · rw [hl₁, hl₂]
  · intro c l' h
    exact (hmem l' c).2 (.inl (hk.sockets c l' h))
  · intro c l' h
    exact (hmem l' c).2 (.inl (hk.attached c l' h))
  · exact hk.listeners
  · exact hk.inactive
  · exact hk.created
  · intro g hg l' c h
    exact (hmem l' c).2 (.inl (hk.named g hg l' c h))

end Known

theorem known_step {w w' : State} {P P' : Frame → Prop} {f : Frame} {new : List Frame}
    (hk : Known w P) (hstep : FrameStep w f w' new) (ht : P f) (hr : Replaces P P' f new) :
    Known w' P' := by
  have hcreated := hk.created f ht
  have hnamed := hk.named f ht
  cases hstep with
  | registerRefused | notRegistered | detachAbsent | listenerAbsent | loopDone | checked
  | rechecked | recheckFailed | opened | openClosed | openFailed | deactivated | finalChecked
  | finalCheckFailed | instanceReplaced =>
    exact hk.inherits ht hr (by simp [Frame.listener, Frame.Names, Connect.connId])
  | checkRefused | attachRefused | cancelled | connected | notFound | failed =>
    exact (hk.inherits ht hr (by simp)).log (by simp)
  | @registered key h =>
    have hnew : Known (w.setListener w.created (.new key)) P' :=
      (hk.inherits ht hr (by simp)).setListener (by simp [Listener.new]) (by simp [Listener.new])
    refine hnew.create.setRegistered ?_
    intro l hl
    cases hl
    exact Nat.lt_succ_self _
  | unregistered h =>
    have hl := hk.listeners _ _ h
    exact (hk.frames hr (by simpa [Frame.listener] using hl) (by simp [Frame.Names])).setRegistered
      (by simp)
  | @issued l =>
    have hl := hcreated l rfl
    refine (hk.issue hl _).frames hr ?_ ?_
    · simpa [Frame.listener, State.log] using hl
    · simp [Frame.Names, Connect.connId]
  | @attached l c h =>
    refine (hk.inherits ht hr (by simp [Frame.listener, Frame.Names, Connect.connId])).setListener ?_
      (hk.inactive l)
    intro c' hc'
    rcases Finset.mem_insert.1 hc' with rfl | hc'
    · exact hnamed l c' ⟨rfl, rfl⟩
    · exact hk.attached c' l hc'
  | @inserted l c =>
    refine (hk.inherits ht hr (by simp [Frame.listener, Frame.Names, Connect.connId])).setSocket ?_
    intro l' hl'
    cases hl'
    exact hnamed l c ⟨rfl, rfl⟩
  | @detached c caller l h =>
    have hissued := hk.sockets c l h
    have hnew : Known w P' := by
      refine hk.frames hr ?_ ?_
      · simpa [Frame.listener] using (hk.issued l c hissued).1
      · simpa [Frame.Names] using hissued
    refine (hnew.setSocket (by simp)).log ?_
    cases caller <;> simp [Caller.logsDetached]
  | @connectionDetached l c =>
    refine (hk.inherits ht hr (by simp)).setListener ?_ (hk.inactive l)
    intro c' hc'
    exact hk.attached c' l (Finset.mem_of_mem_erase hc')
  | @listenerFound c l h =>
    refine hk.frames hr ?_ (by simp [Frame.Names])
    simpa [Frame.listener] using (hk.issued l c (hk.sockets c l h)).1
  | instanceRemoved h =>
    exact (hk.inherits ht hr (by simp [Frame.listener, Frame.Names])).setRegistered (by simp)
  | @stored l =>
    refine (hk.inherits ht hr (by simp [Frame.listener, Frame.Names])).setListener ?_
      fun _ => hcreated l rfl
    exact fun c hc => hk.attached c l hc
  | @drained l cs h =>
    exact (hk.inherits ht hr (by simp [Frame.listener, Frame.Names])).setListener (by simp)
      (hk.inactive l)
  | loopNext => exact (hk.inherits ht hr (by simp [Frame.listener, Frame.Names])).log (by simp)

/-! ## What a connection is held by -/

/-- The id of a connect that is not yet in `sockets`. -/
def Connect.early : Connect → Option Str
  | .attach c | .insert c => some c
  | _ => none

/-- The frame will still detach the socket entry of `c`, of a deactivated listener `l`. -/
def Frame.Releases (w : State) (l : Nat) (c : Str) : Frame → Prop
  | .deactivateListener l' (.loop cs) => l' = l ∧ c ∈ cs
  | .detachSocketState c' (.deactivate l') => c' = c ∧ l' = l
  | .detachSocketState c' (.connect l') => c' = c ∧ l' = l
  | .connect l' (.recheck c') => l' = l ∧ c' = c ∧ w.isActive l = false
  | _ => False

/-- The way of a connection through the registry. -/
structure Flow (w : State) (P : Frame → Prop) : Prop where
  early : ∀ l pc c, P (.connect l pc) → pc.early = some c →
    w.sockets c = none ∧ ∀ l', ¬ P (.detachConnection l' c)
  inserting : ∀ l c, P (.connect l (.insert c)) → c ∈ w.connections l ∨ w.isActive l = false
  detaching : ∀ l c, P (.detachConnection l c) → w.sockets c = none
  deactivated : ∀ l pc, P (.deactivateListener l pc) → pc ≠ .store → w.isActive l = false
  draining : ∀ l c, w.isActive l = false → c ∈ w.connections l → P (.deactivateListener l .drain)
  held : ∀ l c, w.sockets c = some l → c ∈ w.connections l ∨ ∃ g, P g ∧ g.Releases w l c
  aborting : ∀ l c, P (.detachSocketState c (.deactivate l)) → Event.aborted c ∈ w.history
  closed : ∀ l c, Event.connected l c ∈ w.history →
    Event.aborted c ∈ w.history ∨ Event.detached c ∈ w.history ∨ w.sockets c = some l

theorem Frame.Releases.connId_eq {w : State} {l : Nat} {c c' : Str} {caller : Caller}
    (h : (Frame.detachSocketState c caller).Releases w l c') : c' = c := by
  cases caller with
  | api => exact h.elim
  | connect l' => exact h.1.symm
  | deactivate l' => exact h.1.symm

/-- What `Flow` asks of a new frame. -/
def Frame.Fits (w : State) (P : Frame → Prop) : Frame → Prop
  | .connect l pc =>
    (∀ c, pc.early = some c → w.sockets c = none ∧ ∀ l', ¬ P (.detachConnection l' c)) ∧
      ∀ c, pc = .insert c → c ∈ w.connections l ∨ w.isActive l = false
  | .detachConnection _ c =>
    w.sockets c = none ∧ ∀ l' pc, P (.connect l' pc) → pc.early ≠ some c
  | .deactivateListener l pc => pc ≠ .store → w.isActive l = false
  | .detachSocketState c (.deactivate _) => Event.aborted c ∈ w.history
  | _ => True

/-- Frames of which it asks nothing. -/
def Frame.isPlain : Frame → Bool
  | .connect _ pc => pc.early.isNone
  | .detachConnection .. => false
  | .deactivateListener _ pc => pc = .store
  | .detachSocketState _ (.deactivate _) => false
  | _ => true

theorem Frame.fits_of_isPlain {w : State} {P : Frame → Prop} {g : Frame} (h : g.isPlain = true) :
    g.Fits w P := by
  cases g with
  | connect l pc =>
    have hnone : pc.early = none := Option.isNone_iff_eq_none.1 h
    refine ⟨fun c hc => ?_, fun c hc => ?_⟩
    · rw [hnone] at hc
      cases hc
    · rw [hc] at hnone
      cases hnone
  | detachConnection l c => cases h
  | deactivateListener l pc => exact fun hne => (hne (of_decide_eq_true h)).elim
  | detachSocketState c caller =>
    cases caller with
    | deactivate l => cases h
    | api | connect => trivial
  | registerListener | unregisterListener | deactivateSocketListener
  | deactivateListenerInstance => trivial

namespace Flow

variable {w : State} {P P' : Frame → Prop} {f : Frame} {new : List Frame}

/-- A frame is replaced in a state that does not change: if it had connections to release, they are
attached or passed on. -/
theorem frames (hf : Flow w P) (hr : Replaces P P' f new)
    (hdrain : ∀ l, f ≠ .deactivateListener l .drain)
    (hrel : ∀ l c, w.sockets c = some l → f.Releases w l c →
      c ∈ w.connections l ∨ ∃ g ∈ new, g.Releases w l c)
    (hfits : ∀ g ∈ new, g.Fits w P)
    (hsep : ∀ l c, .detachConnection l c ∈ new → ∀ l' pc, .connect l' pc ∉ new) : Flow w P' := by
  constructor
  · intro l pc c hg hearly
    rcases hr.old _ hg with hnew | hold
    · obtain ⟨hnone, hno⟩ := (hfits _ hnew).1 c hearly
      refine ⟨hnone, fun l' hd => ?_⟩
      rcases hr.old _ hd with hd | hd
      · exact hsep l' c hd l pc hnew
      · exact hno l' hd
    · obtain ⟨hnone, hno⟩ := hf.early l pc c hold hearly
      refine ⟨hnone, fun l' hd => ?_⟩
      rcases hr.old _ hd with hd | hd
      · exact (hfits _ hd).2 l pc hold hearly
      · exact hno l' hd
  · intro l c hg
    exact (hr.old _ hg).elim (fun h => (hfits _ h).2 c rfl) (hf.inserting l c)
  · intro l c hg
    exact (hr.old _ hg).elim (fun h => (hfits _ h).1) (hf.detaching l c)
  · intro l pc hg hpc
    exact (hr.old _ hg).elim (fun h => hfits _ h hpc) (fun h => hf.deactivated l pc h hpc)
  · intro l c hinactive hc
    exact (hr.kept _ (hf.draining l c hinactive hc)).resolve_left (Ne.symm (hdrain l))
  · intro l c hs
    rcases hf.held l c hs with hc | ⟨g, hg, hrelg⟩
    · exact .inl hc
    · rcases hr.kept g hg with rfl | hg'
      · refine (hrel l c hs hrelg).imp_right ?_
        rintro ⟨g', hg', hrel'⟩
        exact ⟨g', hr.pushed g' hg', hrel'⟩
      · exact .inr ⟨g, hg', hrelg⟩
  · intro l c hg
    exact (hr.old _ hg).elim (fun h => hfits _ h) (hf.aborting l c)
  · exact hf.closed

/-- Events that report no connection. -/
theorem log (hf : Flow w P) {events : List Event} (he : ∀ l c, Event.connected l c ∉ events) :
    Flow { w with history := w.history ++ events } P where
  early := hf.early
  inserting := hf.inserting
  detaching := hf.detaching
  deactivated := hf.deactivated
  draining := hf.draining
  held := hf.held
  aborting l c hg := List.mem_append_left _ (hf.aborting l c hg)
  closed l c h := by
    have hold := (List.mem_append.1 h).resolve_right (he l c)
    exact (hf.closed l c hold).imp (List.mem_append_left _) (Or.imp_left (List.mem_append_left _))

theorem logConnected (hf : Flow w P) {l : Nat} {c : Str} (hs : w.sockets c = some l) :
    Flow (w.log (.connected l c)) P where
  early := hf.early
  inserting := hf.inserting
  detaching := hf.detaching
  deactivated := hf.deactivated
  draining := hf.draining
  held := hf.held
  aborting l' c' hg := List.mem_append_left _ (hf.aborting l' c' hg)
  closed l' c' h := by
    rcases List.mem_append.1 h with h | h
    · exact (hf.closed l' c' h).imp (List.mem_append_left _) (Or.imp_left (List.mem_append_left _))
    · simp only [List.mem_singleton, Event.connected.injEq] at h
      rw [h.1, h.2]
      exact .inr (.inr hs)

/-- `Flow` does not look at the registered listeners and the counters. -/
theorem congr (hf : Flow w P) {w' : State} (hi : w'.instances = w.instances)
    (hs : w'.sockets = w.sockets) (hh : w'.history = w.history) : Flow w' P := by
  cases w
  cases w'
  cases hi
  cases hs
  cases hh
  exact ⟨hf.early, hf.inserting, hf.detaching, hf.deactivated, hf.draining, hf.held, hf.aborting,
    hf.closed⟩

/-- Releases only depend on the listener being inactive. -/
theorem releases_mono {w w' : State} {g : Frame} {l : Nat} {c : Str} (h : g.Releases w l c)
    (hw : w.isActive l = false → w'.isActive l = false) : g.Releases w' l c := by
  unfold Frame.Releases at h
  split at h
  · exact h
  · exact h
  · exact h
  · exact ⟨h.1, h.2.1, hw h.2.2⟩
  · exact h.elim

theorem attachConnection (hf : Flow w P) {l : Nat} {c : Str} (hl : w.isActive l = true) :
    Flow (w.attachConnection l c) P := by
  have hgrow (l' : Nat) (c' : Str) (hc' : c' ∈ w.connections l') :=
    (State.mem_connections_attachConnection (l := l) (c := c)).2 (.inr hc')
  constructor
  · exact hf.early
  · intro l' c' hg
    rw [State.isActive_attachConnection]
    exact (hf.inserting l' c' hg).imp_left (hgrow l' c')
  · exact hf.detaching
  · intro l' pc hg hpc
    rw [State.isActive_attachConnection]
    exact hf.deactivated l' pc hg hpc
  · intro l' c' hinactive hc'
    rw [State.isActive_attachConnection] at hinactive
    rcases State.mem_connections_attachConnection.1 hc' with ⟨h, -⟩ | hold
    · rw [h, hl] at hinactive
      cases hinactive
    · exact hf.draining l' c' hinactive hold
  · intro l' c' hs
    refine (hf.held l' c' hs).imp (hgrow l' c') ?_
    rintro ⟨g, hg, hrel⟩
    exact ⟨g, hg, releases_mono hrel (by rw [State.isActive_attachConnection]; exact id)⟩
  · exact hf.aborting
  · exact hf.closed

theorem insertSocket (hf : Flow w P) {l : Nat} {c : Str} (hnone : w.sockets c = none)
    (hearly : ∀ l' pc, P (.connect l' pc) → pc.early ≠ some c)
    (hdetach : ∀ l', ¬ P (.detachConnection l' c))
    (hheld : c ∈ w.connections l ∨ ∃ g, P g ∧ g.Releases w l c) :
    Flow (w.setSocket c (some l)) P := by
  constructor
  · intro l' pc c' hg he
    have hc : c' ≠ c := by
      rintro rfl
      exact hearly l' pc hg he
    rw [State.sockets_setSocket, if_neg hc]
    exact hf.early l' pc c' hg he
  · exact hf.inserting
  · intro l' c' hg
    have hc : c' ≠ c := by
      rintro rfl
      exact hdetach l' hg
    rw [State.sockets_setSocket, if_neg hc]
    exact hf.detaching l' c' hg
  · exact hf.deactivated
  · exact hf.draining
  · intro l' c' hs
    rw [State.sockets_setSocket] at hs
    split at hs
    · next hc =>
      cases hs
      exact hc ▸ hheld
    · exact hf.held l' c' hs
  · exact hf.aborting
  · intro l' c' h
    rw [State.sockets_setSocket]
    split
    · next hc =>
      rcases hf.closed l' c' h with ha | hd | hs
      · exact .inl ha
      · exact .inr (.inl hd)
      · rw [hc, hnone] at hs
        cases hs
    · exact hf.closed l' c' h

/-- A socket entry is removed: its socket has been aborted, or the removal is on record. -/
theorem removeSocket (hf : Flow w P) {c : Str} {events : List Event}
    (hev : ∀ e ∈ events, e = .detached c)
    (hclosed : Event.aborted c ∈ w.history ∨ Event.detached c ∈ events) :
    Flow { w.setSocket c none with history := w.history ++ events } P := by
  constructor
  · intro l pc c' hg he
    refine ⟨?_, (hf.early l pc c' hg he).2⟩
    rw [State.sockets_setSocket]
    split
    · rfl
    · exact (hf.early l pc c' hg he).1
  · exact hf.inserting
  · intro l c' hg
    rw [State.sockets_setSocket]
    split
    · rfl
    · exact hf.detaching l c' hg
  · exact hf.deactivated
  · exact hf.draining
  · intro l c' hs
    rw [State.sockets_setSocket] at hs
    split at hs
    · cases hs
    · exact hf.held l c' hs
  · intro l c' hg
    exact List.mem_append_left _ (hf.aborting l c' hg)
  · intro l c' h
    rcases List.mem_append.1 h with h | h
    · rw [State.sockets_setSocket]
      split
      · next hc =>
        rw [hc]
        exact hclosed.imp (List.mem_append_left _) fun hd => .inl (List.mem_append_right _ hd)
      · exact (hf.closed l c' h).imp (List.mem_append_left _)
          (Or.imp_left (List.mem_append_left _))
    · cases hev _ h

theorem detachConnection (hf : Flow w P) {l : Nat} {c : Str} (hd : P (.detachConnection l c)) :
    Flow (w.detachConnection l c) P := by
  -- what is erased is neither being inserted nor in `sockets`
  have hkeep (l' : Nat) (c' : Str) (hc' : c' ∈ w.connections l') (hne : c' ≠ c) :
      c' ∈ (w.detachConnection l c).connections l' :=
    State.mem_connections_detachConnection.2 ⟨hc', fun h => hne h.2⟩
  constructor
  · exact hf.early
  · intro l' c' hg
    rw [State.isActive_detachConnection]
    refine (hf.inserting l' c' hg).imp_left fun hc' => hkeep l' c' hc' ?_
    rintro rfl
    exact (hf.early l' _ c' hg rfl).2 l hd
  · exact hf.detaching
  · intro l' pc hg hpc
    rw [State.isActive_detachConnection]
    exact hf.deactivated l' pc hg hpc
  · intro l' c' hinactive hc'
    rw [State.isActive_detachConnection] at hinactive
    exact hf.draining l' c' hinactive (State.mem_connections_detachConnection.1 hc').1
  · intro l' c' hs
    refine (hf.held l' c' hs).imp (fun hc' => hkeep l' c' hc' ?_) ?_
    · rintro rfl
      have hnone := hf.detaching l c' hd
      rw [show w.sockets c' = some l' from hs] at hnone
      cases hnone
    · rintro ⟨g, hg, hrel⟩
      exact ⟨g, hg, releases_mono hrel (by rw [State.isActive_detachConnection]; exact id)⟩
  · exact hf.aborting
  · exact hf.closed

/-- A new instance: nothing can name it yet. -/
theorem create (hf : Flow w P) (hk : Known w P) (key : Str) :
    Flow (w.setListener w.created (.new key)) P := by
  have hold : ∀ l, l < w.created →
      (w.setListener w.created (.new key)).instances l = w.instances l := by
    intro l hl
    rw [State.instances_setListener, if_neg (Nat.ne_of_lt hl)]
  have hactive : ∀ l, l < w.created →
      (w.setListener w.created (.new key)).isActive l = w.isActive l := by
    intro l hl
    rw [State.isActive, hold l hl, State.isActive]
  have hconn : ∀ l, l < w.created →
      (w.setListener w.created (.new key)).connections l = w.connections l := by
    intro l hl
    rw [State.connections, hold l hl, State.connections]
  constructor
  · exact hf.early
  · intro l c hg
    have hl := hk.created _ hg l rfl
    rw [hconn l hl, hactive l hl]
    exact hf.inserting l c hg
  · exact hf.detaching
  · intro l pc hg hpc
    rw [hactive l (hk.created _ hg l rfl)]
    exact hf.deactivated l pc hg hpc
  · intro l c hinactive hc
    by_cases hl : l = w.created
    · rw [hl, State.isActive, State.instances_setListener, if_pos rfl] at hinactive
      cases hinactive
    · have hinst : (w.setListener w.created (.new key)).instances l = w.instances l := by
        rw [State.instances_setListener, if_neg hl]
      rw [State.isActive, hinst] at hinactive
      rw [State.connections, hinst] at hc
      exact hf.draining l c hinactive hc
  · intro l c hs
    have hl := (hk.issued l c (hk.sockets c l hs)).1
    rw [hconn l hl]
    refine (hf.held l c hs).imp_right ?_
    rintro ⟨g, hg, hrel⟩
    exact ⟨g, hg, releases_mono hrel (by rw [hactive l hl]; exact id)⟩
  · exact hf.aborting
  · exact hf.closed

/-- A deactivation of `l` moves on to `pc'`: a connection that it takes from a listener, which is
inactive by then, is on its list if it has a socket entry. -/
theorem deactivates (hf : Flow w P) {w' : State} {l : Nat} {pc pc' : Deactivate}
    (hr : Replaces P P' (.deactivateListener l pc) [.deactivateListener l pc'])
    (hrel : ∀ l' c, ¬ (Frame.deactivateListener l pc).Releases w l' c)
    (hsockets : w'.sockets = w.sockets) (hhistory : w'.history = w.history)
    (hactive : ∀ l', w.isActive l' = false → w'.isActive l' = false) (hl : w'.isActive l = false)
    (htaken : ∀ l' c, c ∈ w.connections l' → c ∈ w'.connections l' ∨
      w'.isActive l' = false ∧ (w.sockets c ≠ none → (Frame.deactivateListener l pc').Releases w' l' c))
    (hdraining : ∀ l' c, w'.isActive l' = false → c ∈ w'.connections l' →
      P' (.deactivateListener l' .drain)) : Flow w' P' := by
  have hold : ∀ g, P' g → g = .deactivateListener l pc' ∨ P g := by
    intro g hg
    simpa using hr.old g hg
  constructor
  · intro l' pc₂ c hg he
    obtain ⟨hnone, hno⟩ := hf.early l' pc₂ c ((hold _ hg).resolve_left (by simp)) he
    rw [hsockets]
    refine ⟨hnone, fun l'' hd => hno l'' ?_⟩
    exact (hold _ hd).resolve_left (by simp)
  · intro l' c hg
    rcases hf.inserting l' c ((hold _ hg).resolve_left (by simp)) with hc | hinactive
    · exact (htaken l' c hc).imp_right And.left
    · exact .inr (hactive l' hinactive)
  · intro l' c hg
    rw [hsockets]
    exact hf.detaching l' c ((hold _ hg).resolve_left (by simp))
  · intro l' pc₂ hg hpc
    rcases hold _ hg with heq | hg
    · cases heq
      exact hl
    · exact hactive l' (hf.deactivated l' pc₂ hg hpc)
  · exact hdraining
  · intro l' c hs
    rw [hsockets] at hs
    rcases hf.held l' c hs with hc | ⟨g, hg, hrelg⟩
    · refine (htaken l' c hc).imp_right fun h => ?_
      exact ⟨_, hr.pushed _ List.mem_cons_self, h.2 (by simp [hs])⟩
    · rcases hr.kept g hg with rfl | hg
      · exact (hrel l' c hrelg).elim
      · exact .inr ⟨g, hg, releases_mono hrelg (hactive l')⟩
  · intro l' c hg
    rw [hhistory]
    exact hf.aborting l' c ((hold _ hg).resolve_left (by simp))
  · intro l' c h
    rw [hhistory] at h ⊢
    rw [hsockets]
    exact hf.closed l' c h

/-- The flag is cleared, with the drain ahead. -/
theorem store (hf : Flow w P) {l : Nat}
    (hr : Replaces P P' (.deactivateListener l .store) [.deactivateListener l .drain]) :
    Flow (w.storeInactive l) P' := by
  refine hf.deactivates hr (by simp [Frame.Releases]) rfl rfl ?_ ?_ ?_ ?_
  · intro l' h
    rw [State.isActive_storeInactive]
    split
    · rfl
    · exact h
  · rw [State.isActive_storeInactive, if_pos rfl]
  · intro l' c hc
    rw [State.connections_storeInactive]
    exact .inl hc
  · intro l' c hinactive hc
    rw [State.connections_storeInactive] at hc
    by_cases hl : l' = l
    · rw [hl]
      exact hr.pushed _ (by simp)
    · rw [State.isActive_storeInactive, if_neg hl] at hinactive
      exact (hr.kept _ (hf.draining l' c hinactive hc)).resolve_left (by simp)

/-- The connections are drained: those in `sockets` are on the list of the loop. -/
theorem drain (hf : Flow w P) {l : Nat} {cs : List Str} (hcs : w.Drains l cs)
    (ht : P (.deactivateListener l .drain))
    (hr : Replaces P P' (.deactivateListener l .drain) [.deactivateListener l (.loop cs)]) :
    Flow (w.drain l) P' := by
  have hinactive := hf.deactivated l .drain ht (by simp)
  refine hf.deactivates hr (by simp [Frame.Releases]) rfl rfl ?_ ?_ ?_ ?_
  · intro l' h
    rwa [State.isActive_drain]
  · rwa [State.isActive_drain]
  · intro l' c hc
    rw [State.connections_drain, State.isActive_drain]
    split
    · next hl =>
      refine .inr ⟨hl ▸ hinactive, fun hs => ⟨hl.symm, ?_⟩⟩
      exact hcs.2.2 c (hl ▸ hc) hs
    · exact .inl hc
  · intro l' c hin hc
    rw [State.isActive_drain] at hin
    rw [State.connections_drain] at hc
    split at hc
    · simp at hc
    · next hl =>
      refine (hr.kept _ (hf.draining l' c hin hc)).resolve_left ?_
      simpa using hl

/-- Frames of which `Flow` asks nothing, in place of one that releases nothing. -/
theorem plain (hf : Flow w P) (hr : Replaces P P' f new)
    (hdrain : ∀ l, f ≠ .deactivateListener l .drain) (hrel : ∀ l c, ¬ f.Releases w l c)
    (hplain : ∀ g ∈ new, g.isPlain = true) : Flow w P' := by
  refine hf.frames hr hdrain (fun l c _ h => (hrel l c h).elim) ?_ ?_
  · intro g hg
    exact Frame.fits_of_isPlain (hplain g hg)
  · intro l c hd
    cases hplain _ hd

/-- A new id: nothing can name it yet. -/
theorem issue (hf : Flow w P) (hk : Known w P) {l : Nat} {key : Str}
    (hr : Replaces P P' (.connect l .nextConnId) [.connect l (.attach (connId key w.seq))]) :
    Flow ({ w with seq := w.seq + 1 }.log (.issued l (connId key w.seq))) P' := by
  have hseq : Flow { w with seq := w.seq + 1 } P := hf.congr rfl rfl rfl
  have hf' : Flow ({ w with seq := w.seq + 1 }.log (.issued l (connId key w.seq))) P :=
    hseq.log (by simp)
  refine hf'.frames hr (by simp) (by simp [Frame.Releases]) ?_ (by simp)
  intro g hg
  rw [List.mem_singleton.1 hg]
  refine ⟨fun c hc => ?_, by simp⟩
  have hfresh : ∀ l', Event.issued l' c ∉ w.history := by
    intro l' h
    rw [← Option.some.inj hc] at h
    exact hk.not_issued_next _ l' h
  refine ⟨?_, fun l' hd => hfresh l' (hk.named _ hd l' c ⟨rfl, rfl⟩)⟩
  cases hs : w.sockets c with
  | none => exact hs
  | some l' => exact (hfresh l' (hk.sockets c l' hs)).elim

/-- The first removal of a detach, with the second ahead. -/
theorem detach (hf : Flow w P) {c : Str} {caller : Caller} {l : Nat} (h : w.sockets c = some l)
    (ht : P (.detachSocketState c caller))
    (hr : Replaces P P' (.detachSocketState c caller) [.detachConnection l c]) :
    Flow { w.setSocket c none with history := w.history ++ caller.logsDetached c } P' := by
  have hearly : ∀ l' pc, P (.connect l' pc) → pc.early ≠ some c := by
    intro l' pc hg he
    rw [(hf.early l' pc c hg he).1] at h
    cases h
  have hf' : Flow { w.setSocket c none with history := w.history ++ caller.logsDetached c } P := by
    refine hf.removeSocket ?_ ?_
    · cases caller <;> simp [Caller.logsDetached]
    · cases caller with
      | api => exact .inr List.mem_cons_self
      | connect l' => exact .inr List.mem_cons_self
      | deactivate l' => exact .inl (hf.aborting l' c ht)
  have hnone : (w.setSocket c none).sockets c = none := by
    rw [State.sockets_setSocket, if_pos rfl]
  refine hf'.frames hr (by simp) ?_ ?_ (by simp)
  · intro l' c' hs hrel
    rw [hrel.connId_eq] at hs
    rw [hnone] at hs
    cases hs
  · intro g hg
    rw [List.mem_singleton.1 hg]
    exact ⟨hnone, hearly⟩

/-- The loop of a deactivation aborts the next socket, with the detach ahead. -/
theorem loopNext (hf : Flow w P) {l : Nat} {c : Str} {cs : List Str}
    (ht : P (.deactivateListener l (.loop (c :: cs))))
    (hr : Replaces P P' (.deactivateListener l (.loop (c :: cs)))
      [.detachSocketState c (.deactivate l), .deactivateListener l (.loop cs)]) :
    Flow (w.log (.aborted c)) P' := by
  have hinactive := hf.deactivated l _ ht (by simp)
  have hf' : Flow (w.log (.aborted c)) P := hf.log (by simp)
  refine hf'.frames hr (by simp) ?_ ?_ (by simp)
  · rintro l' c' hs ⟨rfl, hmem⟩
    refine .inr ?_
    rcases List.mem_cons.1 hmem with rfl | hmem
    · exact ⟨_, List.mem_cons_self, rfl, rfl⟩
    · exact ⟨_, List.mem_cons_of_mem _ List.mem_cons_self, rfl, hmem⟩
  · intro g hg
    rcases List.mem_cons.1 hg with rfl | hg
    · exact List.mem_append_right _ List.mem_cons_self
    · rw [List.mem_singleton.1 hg]
      exact fun _ => hinactive

end Flow

theorem flow_step {w w' : State} {P P' : Frame → Prop} {f : Frame} {new : List Frame}
    (hk : Known w P) (hf : Flow w P) (hstep : FrameStep w f w' new) (ht : P f)
    (hr : Replaces P P' f new)
    (hone : ∀ l c, f = .connect l (.insert c) →
      ∀ l' pc, P' (.connect l' pc) → pc.early ≠ some c) : Flow w' P' := by
  cases hstep with
  | registerRefused | notRegistered | listenerAbsent | listenerFound | checked | opened
  | openClosed | openFailed | deactivated | finalChecked | finalCheckFailed | instanceReplaced =>
    exact hf.plain hr (by simp) (by simp [Frame.Releases]) (by simp [Frame.isPlain, Connect.early])
  | unregistered | instanceRemoved =>
    exact (hf.plain hr (by simp) (by simp [Frame.Releases]) (by simp [Frame.isPlain])).congr rfl rfl rfl
  | checkRefused | attachRefused | cancelled | notFound | failed =>
    exact (hf.plain hr (by simp) (by simp [Frame.Releases]) (by simp)).log (by simp)
  | loopDone => exact hf.plain hr (by simp) (by simp [Frame.Releases]) (by simp)
  | @registered key h =>
    have hf' := hf.plain hr (by simp) (by simp [Frame.Releases]) (by simp)
    have hk' : Known w P' := hk.inherits ht hr (by simp)
    exact (hf'.create hk' key).congr rfl rfl rfl
  | issued => exact hf.issue hk hr
  | @attached l c h =>
    refine (hf.attachConnection h).frames hr (by simp) (by simp [Frame.Releases]) ?_ (by simp)
    intro g hg
    rw [List.mem_singleton.1 hg]
    constructor
    · intro c' hc'
      cases hc'
      exact hf.early l _ c ht rfl
    · intro c' hc'
      cases hc'
      exact .inl (State.mem_connections_attachConnection.2 (.inl ⟨rfl, rfl⟩))
  | @inserted l c =>
    obtain ⟨hnone, hno⟩ := hf.early l _ c ht rfl
    have hf' := hf.plain hr (by simp) (by simp [Frame.Releases])
      (by simp [Frame.isPlain, Connect.early])
    refine hf'.insertSocket hnone (hone l c rfl) ?_ ?_
    · intro l' hd
      exact hno l' ((hr.old _ hd).resolve_left (by simp))
    · refine (hf.inserting l c ht).imp_right fun hinactive => ?_
      exact ⟨_, hr.pushed _ List.mem_cons_self, rfl, rfl, hinactive⟩
  | @rechecked l l' c h hl =>
    -- the entry's listener is active, so the connect had nothing to release
    refine hf.frames hr (by simp) ?_ (by simp [Frame.Fits, Connect.early]) (by simp)
    rintro l₂ c₂ hs ⟨rfl, rfl, hinactive⟩
    rw [h, Option.some.injEq] at hs
    rw [← hs, hl] at hinactive
    cases hinactive
  | @recheckFailed l c h =>
    refine hf.frames hr (by simp) ?_ (by simp [Frame.Fits, Connect.early]) (by simp)
    rintro l₂ c₂ hs ⟨rfl, rfl, hinactive⟩
    exact .inr ⟨_, List.mem_cons_self, rfl, rfl⟩
  | @connected l l' c h =>
    have hissued := hk.named _ ht l c ⟨rfl, rfl⟩
    have hl := hk.owner l' l c (hk.sockets c l' h) hissued
    exact (hf.plain hr (by simp) (by simp [Frame.Releases]) (by simp)).logConnected (hl ▸ h)
  | @detachAbsent c caller h =>
    refine hf.frames hr (by simp) ?_ (by simp) (by simp)
    intro l c' hs hrel
    rw [hrel.connId_eq, h] at hs
    cases hs
  | detached h => exact hf.detach h ht hr
  | @connectionDetached l c =>
    exact (hf.detachConnection ht).plain hr (by simp) (by simp [Frame.Releases]) (by simp)
  | @stored l => exact hf.store hr
  | @drained l cs h => exact hf.drain h ht hr
  | loopNext => exact hf.loopNext ht hr

end Lonesome.VirtualJs.Registry
