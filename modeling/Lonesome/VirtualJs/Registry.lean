import Lonesome.Lib.Interleaving
import Lonesome.Text
import Mathlib.Data.Finset.Basic

/-!
# The virtual listener registry

`src/virtual_js/registry_store.rs`, `registry_types.rs` and `registry_connect.rs`: listeners
registered under keys, the connections attached to each, and the global map of sockets. A call is a
stack of frames; one action runs the top frame up to the next access of shared state, pushing the
functions it calls. What a lock protects is one action.

A listener's `active` flag, its `connections` and the `sockets` map change in separate actions.

The ids come from a counter, which counts on here; that of the source wraps, and the two cannot be told
apart until 2^64 ids have been taken (`reachable_of_wrapping`).
-/

namespace Lonesome.VirtualJs.Registry

open Lonesome.Interleaving

/-! ## The model -/

structure Listener where
  key : Str
  active : Bool
  connections : Finset Str

def Listener.new (key : Str) : Listener := ⟨key, true, ∅⟩

/-- `format!("{key}:conn:{n}")` -/
def connId (key : Str) (n : Nat) : Str := key ++ ":conn:".toList ++ Nat.toDigits 10 n

/-- What has happened to connections: an id was issued to a connect through a listener, a connect
returned, a socket was aborted, a socket was detached other than by a deactivation. -/
inductive Event
  | issued (listener : Nat) (connId : Str)
  | connected (listener : Nat) (connId : Str)
  | failed (listener : Nat)
  | cancelled (listener : Nat)
  | aborted (connId : Str)
  | detached (connId : Str)
deriving DecidableEq

/-- The registry: instances of listeners are numbered as they are created, `listeners` has those
registered, and `sockets` has the listener of each socket entry. `seq` counts on where the `AtomicU64`
of the source wraps (`wrapping`). -/
structure State where
  instances : Nat → Listener
  created : Nat
  listeners : Str → Option Nat
  sockets : Str → Option Nat
  seq : Nat
  history : List Event

namespace State

def init : State where
  instances _ := .new []
  created := 0
  listeners _ := none
  sockets _ := none
  seq := 0
  history := []

def isActive (w : State) (l : Nat) : Bool := (w.instances l).active

def connections (w : State) (l : Nat) : Finset Str := (w.instances l).connections

def log (w : State) (e : Event) : State := { w with history := w.history ++ [e] }

def setListener (w : State) (l : Nat) (listener : Listener) : State :=
  { w with instances := Function.update w.instances l listener }

/-- The locked part of `attach_connection`, on an active listener. -/
def attachConnection (w : State) (l : Nat) (connId : Str) : State :=
  w.setListener l { w.instances l with connections := insert connId (w.connections l) }

def detachConnection (w : State) (l : Nat) (connId : Str) : State :=
  w.setListener l { w.instances l with connections := (w.connections l).erase connId }

def storeInactive (w : State) (l : Nat) : State :=
  w.setListener l { w.instances l with active := false }

def drain (w : State) (l : Nat) : State :=
  w.setListener l { w.instances l with connections := ∅ }

def setSocket (w : State) (connId : Str) (entry : Option Nat) : State :=
  { w with sockets := Function.update w.sockets connId entry }

def setRegistered (w : State) (key : Str) (entry : Option Nat) : State :=
  { w with listeners := Function.update w.listeners key entry }

/-! Lookups after updates. -/

section Lookups

variable (w : State) (l l' : Nat) (c c' key key' : Str) (entry : Option Nat) (e : Event)

@[simp] theorem history_log : (w.log e).history = w.history ++ [e] := rfl

theorem sockets_setSocket :
    (w.setSocket c entry).sockets c' = if c' = c then entry else w.sockets c' :=
  Function.update_apply ..

theorem listeners_setRegistered :
    (w.setRegistered key entry).listeners key' = if key' = key then entry else w.listeners key' :=
  Function.update_apply ..

theorem instances_setListener (listener : Listener) :
    (w.setListener l listener).instances l' = if l' = l then listener else w.instances l' :=
  Function.update_apply ..

/-- Writing the connections of a listener leaves every flag. -/
theorem isActive_setConnections (cs : Finset Str) :
    (w.setListener l { w.instances l with connections := cs }).isActive l' = w.isActive l' := by
  rw [isActive, instances_setListener]
  split
  · next h => rw [isActive, h]
  · rfl

theorem connections_setConnections (cs : Finset Str) :
    (w.setListener l { w.instances l with connections := cs }).connections l' =
      if l' = l then cs else w.connections l' := by
  rw [connections, instances_setListener]
  split <;> rfl

@[simp] theorem isActive_attachConnection :
    (w.attachConnection l c).isActive l' = w.isActive l' := isActive_setConnections ..

theorem connections_attachConnection :
    (w.attachConnection l c).connections l' =
      if l' = l then insert c (w.connections l) else w.connections l' :=
  connections_setConnections ..

variable {w l l' c c'} in
theorem mem_connections_attachConnection :
    c' ∈ (w.attachConnection l c).connections l' ↔ (l' = l ∧ c' = c) ∨ c' ∈ w.connections l' := by
  rw [connections_attachConnection]
  split
  · next h => rw [Finset.mem_insert, h, eq_self, true_and]
  · next h => rw [iff_false_intro h, false_and, false_or]

@[simp] theorem isActive_detachConnection :
    (w.detachConnection l c).isActive l' = w.isActive l' := isActive_setConnections ..

theorem connections_detachConnection :
    (w.detachConnection l c).connections l' =
      if l' = l then (w.connections l).erase c else w.connections l' :=
  connections_setConnections ..

variable {w l l' c c'} in
theorem mem_connections_detachConnection :
    c' ∈ (w.detachConnection l c).connections l' ↔ c' ∈ w.connections l' ∧ ¬ (l' = l ∧ c' = c) := by
  rw [connections_detachConnection]
  split
  · next h => rw [Finset.mem_erase, h, eq_self, true_and, and_comm]
  · next h => rw [iff_false_intro h, false_and, not_false_eq_true, and_true]

@[simp] theorem isActive_drain : (w.drain l).isActive l' = w.isActive l' :=
  isActive_setConnections ..

theorem connections_drain :
    (w.drain l).connections l' = if l' = l then ∅ else w.connections l' :=
  connections_setConnections ..

theorem isActive_storeInactive :
    (w.storeInactive l).isActive l' = if l' = l then false else w.isActive l' := by
  rw [storeInactive, isActive, instances_setListener]
  split <;> rfl

@[simp] theorem connections_storeInactive :
    (w.storeInactive l).connections l' = w.connections l' := by
  rw [storeInactive, connections, instances_setListener]
  split
  · next h => rw [connections, h]
  · rfl

end Lookups

end State

/-- Where a `connect` is; `fail` is left once it has detached its socket. -/
inductive Connect
  | check
  | nextConnId
  | attach (connId : Str)
  | insert (connId : Str)
  | recheck (connId : Str)
  | openEvent (connId : Str)
  | deactivated (connId : Str)
  | finalCheck (connId : Str)
  | socketState (connId : Str)
  | fail
deriving DecidableEq

inductive Deactivate
  | store
  | drain
  | loop (connIds : List Str)
deriving DecidableEq

/-- Who called `detach_socket_state`. -/
inductive Caller
  | api
  | connect (listener : Nat)
  | deactivate (listener : Nat)
deriving DecidableEq

inductive Frame
  | registerListener (key : Str)
  | unregisterListener (key : Str)
  | connect (listener : Nat) (pc : Connect)
  | detachSocketState (connId : Str) (caller : Caller)
  | detachConnection (listener : Nat) (connId : Str)
  | deactivateSocketListener (connId : Str)
  | deactivateListenerInstance (listener : Nat)
  | deactivateListener (listener : Nat) (pc : Deactivate)
deriving DecidableEq

/-- What the registry does not decide: how the `open` event ends, and which connections a drain
yields in which order. -/
inductive Choice
  | go
  | openFails (closed : Bool)
  | cancel
  | drained (connIds : List Str)

open Registry.Frame in
def connectAct (w : State) (l : Nat) : Connect → Choice → Option (State × List Frame)
  | .check, _ =>
    if w.isActive l then some (w, [connect l .nextConnId]) else some (w.log (.failed l), [])
  | .nextConnId, _ =>
    let connId := connId (w.instances l).key w.seq
    some ({ w with seq := w.seq + 1 }.log (.issued l connId), [connect l (.attach connId)])
  | .attach connId, _ =>
    if w.isActive l then some (w.attachConnection l connId, [connect l (.insert connId)])
    else some (w.log (.failed l), [])
  | .insert connId, _ => some (w.setSocket connId (some l), [connect l (.recheck connId)])
  | .recheck connId, _ =>
    if (w.sockets connId).any w.isActive then some (w, [connect l (.openEvent connId)])
    else some (w, [detachSocketState connId (.connect l), connect l .fail])
  | .openEvent connId, .go => some (w, [connect l (.finalCheck connId)])
  | .openEvent connId, .openFails true =>
    some (w, [deactivateListenerInstance l, connect l (.deactivated connId)])
  | .openEvent connId, .openFails false =>
    some (w, [detachSocketState connId (.connect l), connect l .fail])
  | .openEvent _, .cancel => some (w.log (.cancelled l), [])
  | .openEvent _, .drained _ => none
  | .deactivated connId, _ => some (w, [detachSocketState connId (.connect l), connect l .fail])
  | .finalCheck connId, _ =>
    if w.isActive l then some (w, [connect l (.socketState connId)])
    else some (w, [detachSocketState connId (.connect l), connect l .fail])
  | .socketState connId, _ =>
    match w.sockets connId with
    | some _ => some (w.log (.connected l connId), [])
    | none => some (w.log (.failed l), [])
  | .fail, _ => some (w.log (.failed l), [])

/-- The connections a drain may yield: a weak reference is upgraded as long as the socket lives,
which an entry of `sockets` makes sure of. -/
def State.Drains (w : State) (l : Nat) (connIds : List Str) : Prop :=
  connIds.Nodup ∧ (∀ c ∈ connIds, c ∈ w.connections l) ∧
    ∀ c ∈ w.connections l, w.sockets c ≠ none → c ∈ connIds

instance (w : State) (l : Nat) (connIds : List Str) : Decidable (w.Drains l connIds) :=
  inferInstanceAs (Decidable (_ ∧ _ ∧ _))

open Registry.Frame in
def deactivateAct (w : State) (l : Nat) : Deactivate → Choice → Option (State × List Frame)
  | .store, _ => some (w.storeInactive l, [deactivateListener l .drain])
  | .drain, .drained connIds =>
    if w.Drains l connIds then some (w.drain l, [deactivateListener l (.loop connIds)]) else none
  | .drain, _ => none
  | .loop [], _ => some (w, [])
  | .loop (connId :: connIds), _ =>
    some (w.log (.aborted connId),
      [detachSocketState connId (.deactivate l), deactivateListener l (.loop connIds)])

/-- `detached` is an event of the other callers: a deactivation has aborted the socket. -/
def Caller.logsDetached (connId : Str) : Caller → List Event
  | .deactivate _ => []
  | _ => [.detached connId]

open Registry.Frame in
def frameAct (w : State) : Frame → Choice → Option (State × List Frame)
  | registerListener key, _ =>
    match w.listeners key with
    | some _ => some (w, [])
    | none =>
      some ({ (w.setListener w.created (.new key)).setRegistered key (some w.created) with
        created := w.created + 1 }, [])
  | unregisterListener key, _ =>
    match w.listeners key with
    | none => some (w, [])
    | some l => some (w.setRegistered key none, [deactivateListener l .store])
  | connect l pc, choice => connectAct w l pc choice
  | detachSocketState connId caller, _ =>
    match w.sockets connId with
    | none => some (w, [])
    | some l =>
      some ({ w.setSocket connId none with history := w.history ++ caller.logsDetached connId },
        [detachConnection l connId])
  | detachConnection l connId, _ => some (w.detachConnection l connId, [])
  | deactivateSocketListener connId, _ =>
    match w.sockets connId with
    | none => some (w, [])
    | some l => some (w, [deactivateListenerInstance l])
  | deactivateListenerInstance l, _ =>
    let key := (w.instances l).key
    if w.listeners key = some l then some (w.setRegistered key none, [deactivateListener l .store])
    else some (w, [deactivateListener l .store])
  | deactivateListener l pc, choice => deactivateAct w l pc choice

/-- A call is over when its stack is empty. -/
def running : List Frame → Option (List Frame)
  | [] => none
  | stack => some stack

def act (w : State) (stack : List Frame) (choice : Choice) : Option (State × Option (List Frame)) :=
  match stack with
  | [] => none
  | frame :: rest => (frameAct w frame choice).map fun r => (r.1, running (r.2 ++ rest))

/-- The calls that begin: on an existing instance of a listener, on any key and any id. -/
def begins (w : State) : List Frame → Bool
  | [.registerListener _] | [.unregisterListener _] | [.deactivateSocketListener _] => true
  | [.detachSocketState _ .api] => true
  | [.connect l .check] | [.deactivateListenerInstance l] => l < w.created
  | _ => false

def registry : Object State (List Frame) Choice Empty where
  initial := .init
  begins p stack := begins p.shared stack
  act _ := act
  env _ e := e.elim

/-! ## What a frame does -/

open Registry.Frame in
/-- One action of a frame: the state it leads to and the frames in its place, case by case. -/
inductive FrameStep (w : State) : Frame → State → List Frame → Prop
  | registerRefused {key : Str} {l : Nat} (h : w.listeners key = some l) :
      FrameStep w (registerListener key) w []
  | registered {key : Str} (h : w.listeners key = none) :
      FrameStep w (registerListener key)
        { (w.setListener w.created (.new key)).setRegistered key (some w.created) with
          created := w.created + 1 } []
  | notRegistered {key : Str} (h : w.listeners key = none) :
      FrameStep w (unregisterListener key) w []
  | unregistered {key : Str} {l : Nat} (h : w.listeners key = some l) :
      FrameStep w (unregisterListener key) (w.setRegistered key none) [deactivateListener l .store]
  | checked {l : Nat} (h : w.isActive l = true) :
      FrameStep w (connect l .check) w [connect l .nextConnId]
  | checkRefused {l : Nat} (h : w.isActive l = false) :
      FrameStep w (connect l .check) (w.log (.failed l)) []
  | issued {l : Nat} :
      FrameStep w (connect l .nextConnId)
        ({ w with seq := w.seq + 1 }.log (.issued l (connId (w.instances l).key w.seq)))
        [connect l (.attach (connId (w.instances l).key w.seq))]
  | attached {l : Nat} {c : Str} (h : w.isActive l = true) :
      FrameStep w (connect l (.attach c)) (w.attachConnection l c) [connect l (.insert c)]
  | attachRefused {l : Nat} {c : Str} (h : w.isActive l = false) :
      FrameStep w (connect l (.attach c)) (w.log (.failed l)) []
  | inserted {l : Nat} {c : Str} :
      FrameStep w (connect l (.insert c)) (w.setSocket c (some l)) [connect l (.recheck c)]
  | rechecked {l l' : Nat} {c : Str} (h : w.sockets c = some l') (hl : w.isActive l' = true) :
      FrameStep w (connect l (.recheck c)) w [connect l (.openEvent c)]
  | recheckFailed {l : Nat} {c : Str} (h : (w.sockets c).any w.isActive = false) :
      FrameStep w (connect l (.recheck c)) w [detachSocketState c (.connect l), connect l .fail]
  | opened {l : Nat} {c : Str} :
      FrameStep w (connect l (.openEvent c)) w [connect l (.finalCheck c)]
  | openClosed {l : Nat} {c : Str} :
      FrameStep w (connect l (.openEvent c)) w
        [deactivateListenerInstance l, connect l (.deactivated c)]
  | openFailed {l : Nat} {c : Str} :
      FrameStep w (connect l (.openEvent c)) w [detachSocketState c (.connect l), connect l .fail]
  | cancelled {l : Nat} {c : Str} :
      FrameStep w (connect l (.openEvent c)) (w.log (.cancelled l)) []
  | deactivated {l : Nat} {c : Str} :
      FrameStep w (connect l (.deactivated c)) w [detachSocketState c (.connect l), connect l .fail]
  | finalChecked {l : Nat} {c : Str} (h : w.isActive l = true) :
      FrameStep w (connect l (.finalCheck c)) w [connect l (.socketState c)]
  | finalCheckFailed {l : Nat} {c : Str} (h : w.isActive l = false) :
      FrameStep w (connect l (.finalCheck c)) w [detachSocketState c (.connect l), connect l .fail]
  | connected {l l' : Nat} {c : Str} (h : w.sockets c = some l') :
      FrameStep w (connect l (.socketState c)) (w.log (.connected l c)) []
  | notFound {l : Nat} {c : Str} (h : w.sockets c = none) :
      FrameStep w (connect l (.socketState c)) (w.log (.failed l)) []
  | failed {l : Nat} : FrameStep w (connect l .fail) (w.log (.failed l)) []
  | detachAbsent {c : Str} {caller : Caller} (h : w.sockets c = none) :
      FrameStep w (detachSocketState c caller) w []
  | detached {c : Str} {caller : Caller} {l : Nat} (h : w.sockets c = some l) :
      FrameStep w (detachSocketState c caller)
        { w.setSocket c none with history := w.history ++ caller.logsDetached c }
        [detachConnection l c]
  | connectionDetached {l : Nat} {c : Str} :
      FrameStep w (detachConnection l c) (w.detachConnection l c) []
  | listenerAbsent {c : Str} (h : w.sockets c = none) :
      FrameStep w (deactivateSocketListener c) w []
  | listenerFound {c : Str} {l : Nat} (h : w.sockets c = some l) :
      FrameStep w (deactivateSocketListener c) w [deactivateListenerInstance l]
  | instanceRemoved {l : Nat} (h : w.listeners (w.instances l).key = some l) :
      FrameStep w (deactivateListenerInstance l) (w.setRegistered (w.instances l).key none)
        [deactivateListener l .store]
  | instanceReplaced {l : Nat} (h : w.listeners (w.instances l).key ≠ some l) :
      FrameStep w (deactivateListenerInstance l) w [deactivateListener l .store]
  | stored {l : Nat} :
      FrameStep w (deactivateListener l .store) (w.storeInactive l) [deactivateListener l .drain]
  | drained {l : Nat} {cs : List Str} (h : w.Drains l cs) :
      FrameStep w (deactivateListener l .drain) (w.drain l) [deactivateListener l (.loop cs)]
  | loopDone {l : Nat} : FrameStep w (deactivateListener l (.loop [])) w []
  | loopNext {l : Nat} {c : Str} {cs : List Str} :
      FrameStep w (deactivateListener l (.loop (c :: cs))) (w.log (.aborted c))
        [detachSocketState c (.deactivate l), deactivateListener l (.loop cs)]

theorem connectAct_step {w w' : State} {l : Nat} {pc : Connect} {choice : Choice}
    {new : List Frame} (h : connectAct w l pc choice = some (w', new)) :
    FrameStep w (.connect l pc) w' new := by
  cases pc with
  | check =>
    simp only [connectAct] at h
    split at h
    · next ha => cases h; exact .checked ha
    · next ha => cases h; exact .checkRefused (Bool.eq_false_iff.2 ha)
  | nextConnId => cases h; exact .issued
  | attach c =>
    simp only [connectAct] at h
    split at h
    · next ha => cases h; exact .attached ha
    · next ha => cases h; exact .attachRefused (Bool.eq_false_iff.2 ha)
  | insert c => cases h; exact .inserted
  | recheck c =>
    simp only [connectAct] at h
    split at h
    · next ha =>
      obtain ⟨l', hs, hl⟩ := (Option.any_eq_true ..).1 ha
      cases h
      exact .rechecked hs hl
    · next ha => cases h; exact .recheckFailed (Bool.eq_false_iff.2 ha)
  | openEvent c =>
    cases choice with
    | go => cases h; exact .opened
    | openFails closed =>
      cases closed with
      | true => cases h; exact .openClosed
      | false => cases h; exact .openFailed
    | cancel => cases h; exact .cancelled
    | drained cs => cases h
  | deactivated c => cases h; exact .deactivated
  | finalCheck c =>
    simp only [connectAct] at h
    split at h
    · next ha => cases h; exact .finalChecked ha
    · next ha => cases h; exact .finalCheckFailed (Bool.eq_false_iff.2 ha)
  | socketState c =>
    simp only [connectAct] at h
    split at h
    · next l' hs => cases h; exact .connected hs
    · next hs => cases h; exact .notFound hs
  | fail => cases h; exact .failed

theorem deactivateAct_step {w w' : State} {l : Nat} {pc : Deactivate} {choice : Choice}
    {new : List Frame} (h : deactivateAct w l pc choice = some (w', new)) :
    FrameStep w (.deactivateListener l pc) w' new := by
  cases pc with
  | store => cases h; exact .stored
  | drain =>
    cases choice with
    | drained cs =>
      simp only [deactivateAct] at h
      split at h
      · next hd => cases h; exact .drained hd
      · cases h
    | _ => cases h
  | loop cs =>
    cases cs with
    | nil => cases h; exact .loopDone
    | cons c cs => cases h; exact .loopNext

theorem frameAct_step {w w' : State} {f : Frame} {choice : Choice} {new : List Frame}
    (h : frameAct w f choice = some (w', new)) : FrameStep w f w' new := by
  cases f with
  | registerListener key =>
    simp only [frameAct] at h
    split at h
    · next l hl => cases h; exact .registerRefused hl
    · next hl => cases h; exact .registered hl
  | unregisterListener key =>
    simp only [frameAct] at h
    split at h
    · next hl => cases h; exact .notRegistered hl
    · next l hl => cases h; exact .unregistered hl
  | connect l pc => exact connectAct_step h
  | detachSocketState c caller =>
    simp only [frameAct] at h
    split at h
    · next hs => cases h; exact .detachAbsent hs
    · next l hs => cases h; exact .detached hs
  | detachConnection l c => cases h; exact .connectionDetached
  | deactivateSocketListener c =>
    simp only [frameAct] at h
    split at h
    · next hs => cases h; exact .listenerAbsent hs
    · next l hs => cases h; exact .listenerFound hs
  | deactivateListenerInstance l =>
    simp only [frameAct] at h
    split at h
    · next hl => cases h; exact .instanceRemoved hl
    · next hl => cases h; exact .instanceReplaced hl
  | deactivateListener l pc => exact deactivateAct_step h

/-- An action of a call is one of its top frame. -/
theorem act_frameAct {w w' : State} {stack : List Frame} {choice : Choice}
    {stack' : Option (List Frame)} (h : act w stack choice = some (w', stack')) :
    ∃ f rest new, stack = f :: rest ∧ frameAct w f choice = some (w', new) ∧
      stack' = running (new ++ rest) := by
  cases stack with
  | nil => cases h
  | cons f rest =>
    obtain ⟨⟨w₁, new⟩, hframe, heq⟩ := Option.map_eq_some_iff.1 h
    cases heq
    exact ⟨f, rest, new, rfl, hframe, rfl⟩

theorem act_step {w w' : State} {stack : List Frame} {choice : Choice}
    {stack' : Option (List Frame)} (h : act w stack choice = some (w', stack')) :
    ∃ f rest new, stack = f :: rest ∧ FrameStep w f w' new ∧ stack' = running (new ++ rest) := by
  obtain ⟨f, rest, new, hstack, hframe, hstack'⟩ := act_frameAct h
  exact ⟨f, rest, new, hstack, frameAct_step hframe, hstack'⟩

/-! ## The counter of the ids -/

def Event.issuedId : Event → Option Str
  | .issued _ connId => some connId
  | _ => none

/-- The ids that `next_conn_id` has returned, in order. -/
def State.connIds (w : State) : List Str := w.history.filterMap Event.issuedId

theorem FrameStep.connIds {w w' : State} {f : Frame} {new : List Frame}
    (h : FrameStep w f w' new) :
    (w'.connIds = w.connIds ∧ w'.seq = w.seq) ∨
      ∃ key, w'.connIds = w.connIds ++ [Registry.connId key w.seq] ∧ w'.seq = w.seq + 1 := by
  unfold State.connIds
  cases h with
  | @issued l => exact .inr ⟨(w.instances l).key, by simp [Event.issuedId], rfl⟩
  | @detached c caller l h =>
    cases caller <;> exact .inl ⟨by simp [Caller.logsDetached, Event.issuedId], rfl⟩
  | checkRefused | attachRefused | cancelled | connected | notFound | failed | loopNext =>
    exact .inl ⟨by simp [Event.issuedId], rfl⟩
  | _ => exact .inl ⟨rfl, rfl⟩

theorem FrameStep.length_connIds {w w' : State} {f : Frame} {new : List Frame}
    (h : FrameStep w f w' new) : w.connIds.length ≤ w'.connIds.length := by
  rcases h.connIds with ⟨heq, -⟩ | ⟨key, heq, -⟩
  · rw [heq]
  · rw [heq, List.length_append]
    exact Nat.le_add_right _ _

/-- The counter is the number of ids. -/
theorem reachable_seq {p : Pool State (List Frame)} (h : registry.Reachable p) :
    p.shared.seq = p.shared.connIds.length := by
  refine h.invariant (I := fun p => p.shared.seq = p.shared.connIds.length) rfl ?_ ?_ ?_
  · intro p i stack hseq _ _ _
    exact hseq
  · intro p i choice stack w' stack' hseq _ _ hact
    obtain ⟨f, rest, new, -, hstep, -⟩ := act_step hact
    rw [Pool.set_shared]
    rcases hstep.connIds with ⟨heq, hsame⟩ | ⟨key, heq, hnext⟩
    · rw [heq, hsame, hseq]
    · rw [heq, hnext, hseq, List.length_append, List.length_singleton]
  · intro p e
    exact e.elim

/-- `seq` as an `AtomicU64` holds it. -/
def State.wrap (w : State) : State := { w with seq := (UInt64.ofNat w.seq).toNat }

/-- The registry with the counter of the source: `fetch_add` wraps. What holds of `registry` holds of it
until 2^64 ids have been taken (`reachable_of_wrapping`). -/
def wrapping : Object State (List Frame) Choice Empty := registry.followedBy State.wrap

theorem wrap_of_reachable {p : Pool State (List Frame)} (h : registry.Reachable p)
    (hids : p.shared.connIds.length < UInt64.size) : p.shared.wrap = p.shared := by
  have hseq : p.shared.seq < UInt64.size := (reachable_seq h).trans_lt hids
  rw [State.wrap, UInt64.toNat_ofNat_of_lt' hseq]

/-- **The counter of the source.** Until 2^64 ids have been taken, what the registry comes to with a
counter that wraps it comes to with one that does not. -/
theorem reachable_of_wrapping {p : Pool State (List Frame)} (h : wrapping.Reachable p)
    (hids : p.shared.connIds.length < UInt64.size) : registry.Reachable p := by
  refine h.of_followedBy (B := fun w => w.connIds.length < UInt64.size) ?_ ?_ ?_ hids
  · exact fun q hq => wrap_of_reachable hq
  · intro i w stack choice w' stack' hact hbound
    obtain ⟨f, rest, new, -, hstep, -⟩ := act_step hact
    exact hstep.length_connIds.trans_lt hbound
  · intro w e
    exact e.elim

end Lonesome.VirtualJs.Registry
