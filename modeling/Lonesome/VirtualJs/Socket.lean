import Lonesome.Lib.Interleaving
import Mathlib.Data.List.Basic

/-!
# The virtual socket

`src/virtual_js/socket.rs`. JavaScript pushes chunks, the end of the stream and errors into a
`VirtualJsSocketState`; the proxy polls them out into read buffers of its own sizes. A chunk is
stored with the offset up to which it has been read.

The calls run interleaved on one socket. A push loads the `closed` flag, updates the read state
under its lock and wakes the reader, each in an action of its own; a poll registers the waker and
then examines the read state under the lock. Seen from outside the socket is a queue of bytes
(`Fifo.Moves`): one poll is a move of it (`examine_moves`), so is every action of every call
(`act_moves`), and hence every run (`socket_delivers_in_order`).
-/

namespace Lonesome.VirtualJs

open Lonesome.Interleaving

/-! ## A queue from outside -/

/-- A first-in-first-out queue that holds `q` takes `taken` in at the back, gives `given` out at
the front, and holds `q'`. -/
def Fifo.Moves {α : Type} (q taken given q' : List α) : Prop :=
  q ++ taken = given ++ q'

namespace Fifo.Moves

variable {α : Type} {q q' q'' taken taken' given given' : List α}

theorem refl : Moves q [] [] q := by
  simp [Moves]

theorem trans (h : Moves q taken given q') (h' : Moves q' taken' given' q'') :
    Moves q (taken ++ taken') (given ++ given') q'' := by
  unfold Moves at h h' ⊢
  rw [← List.append_assoc, h, List.append_assoc, h', List.append_assoc]

end Fifo.Moves

/-! ## The read state -/

abbrev Bytes := List UInt8

structure ReadState where
  pending : List (Bytes × Nat)
  eof : Bool
  err : Option String

/-- `tokio::io::ReadBuf`: the bytes filled in so far, out of `capacity`. -/
structure ReadBuf where
  filled : Bytes
  capacity : Nat
  filled_le : filled.length ≤ capacity

def ReadBuf.remaining (buf : ReadBuf) : Nat := buf.capacity - buf.filled.length

/-- `put_slice` panics beyond the remaining capacity. -/
def ReadBuf.putSlice (buf : ReadBuf) (slice : Bytes) (h : slice.length ≤ buf.remaining) : ReadBuf where
  filled := buf.filled ++ slice
  capacity := buf.capacity
  filled_le := by
    have hle := buf.filled_le
    unfold remaining at h
    rw [List.length_append]
    omega

/-- `chunk[start..end]` -/
def slice (chunk : Bytes) (start stop : Nat) : Bytes := (chunk.take stop).drop start

theorem length_slice_le (chunk : Bytes) (start n : Nat) : (slice chunk start (start + n)).length ≤ n := by
  rw [slice, List.length_drop, List.length_take]
  omega

/-- The loop of `poll_read`: what is left of `pending`, and the buffer. -/
def readLoop : List (Bytes × Nat) → ReadBuf → List (Bytes × Nat) × ReadBuf
  | [], buf => ([], buf)
  | (chunk, offset) :: pending, buf =>
    if buf.remaining = 0 then ((chunk, offset) :: pending, buf)
    else
      let remain := chunk.length - offset
      if remain = 0 then readLoop pending buf
      else
        let toCopy := min remain buf.remaining
        let buf' := buf.putSlice (slice chunk offset (offset + toCopy))
          (Nat.le_trans (length_slice_le ..) (Nat.min_le_right ..))
        if offset + toCopy < chunk.length then ((chunk, offset + toCopy) :: pending, buf')
        else readLoop pending buf'

/-- The bytes the queue still holds: the chunks from their offsets. -/
def queued (pending : List (Bytes × Nat)) : Bytes :=
  pending.flatMap fun c => c.1.drop c.2

/-! ## The socket -/

/-- `AtomicWaker`: whether a waker is stored, and whether the last one stored has been woken. -/
structure AtomicWaker where
  stored : Bool
  woken : Bool

def AtomicWaker.register (_ : AtomicWaker) : AtomicWaker := ⟨true, false⟩

def AtomicWaker.wake (w : AtomicWaker) : AtomicWaker :=
  if w.stored then ⟨false, true⟩ else w

structure VirtualJsSocketState where
  read : ReadState
  readWaker : AtomicWaker
  closed : Bool

inductive Poll
  | pending
  | ready (result : Except String Unit)

namespace VirtualJsSocketState

def new : VirtualJsSocketState := ⟨⟨[], false, none⟩, ⟨false, false⟩, false⟩

/-- What `poll_read` does under the lock. -/
def examine (s : VirtualJsSocketState) (buf : ReadBuf) : VirtualJsSocketState × ReadBuf × Poll :=
  match s.read.err with
  | some message => ({ s with closed := true }, buf, .ready (.error message))
  | none =>
    let (pending, buf') := readLoop s.read.pending buf
    let s' := { s with read := { s.read with pending := pending } }
    if buf'.filled.isEmpty then
      if s'.read.eof then ({ s' with closed := true }, buf', .ready (.ok ()))
      else (s', buf', .pending)
    else (s', buf', .ready (.ok ()))

end VirtualJsSocketState

/-- The calls of JavaScript and of the registry. -/
inductive Push
  | data (payload : Bytes)
  | eof
  | error (message : String)
  | abort (message : String)

namespace Push

/-- The first action, on the `closed` flag: what it is set to, or what the call returns. `abort`
sets it; the others give up on a closed socket, silently unless data would be lost. -/
def check (closed : Bool) : Push → Except (Except String Unit) Bool
  | .data _ => if closed then .error (.error "socket already closed") else .ok closed
  | .eof | .error _ => if closed then .error (.ok ()) else .ok closed
  | .abort _ => .ok true

/-- What the call does under the lock. -/
def update (read : ReadState) : Push → Except String ReadState
  | .data payload =>
    if read.eof then .error "socket already eof"
    else if read.err.isSome then .error "socket already in error state"
    else .ok { read with pending := read.pending ++ [(payload, 0)] }
  | .eof => .ok { read with eof := true }
  | .error message => .ok { read with err := some message }
  | .abort message =>
    if !read.eof && read.err.isNone then .ok { read with err := some message } else .ok read

end Push

/-! ## Calls on one socket -/

inductive PushPc
  | check | update | wake

/-- The running calls, and where each is; a poll has its buffer. -/
inductive Call
  | push (call : Push) (pc : PushPc)
  | pollRead (buf : ReadBuf) (registered : Bool)
  | pollShutdown

/-- What the calls have done: a payload was put into the queue, a push returned, a poll returned
having put bytes into its buffer. The number is the slot of the call. -/
inductive Event
  | accepted (slot : Nat) (payload : Bytes)
  | returned (slot : Nat) (call : Push) (result : Except String Unit)
  | polled (slot : Nat) (bytes : Bytes) (result : Poll)

structure Socket where
  state : VirtualJsSocketState
  history : List Event

def Socket.log (s : Socket) (events : List Event) : Socket :=
  { s with history := s.history ++ events }

/-- The event of the locked update: only `data` accepts anything. -/
def Push.accepts (slot : Nat) : Push → List Event
  | .data payload => [.accepted slot payload]
  | _ => []

def pushAct (i : Nat) (s : Socket) (call : Push) : PushPc → Socket × Option Call
  | .check =>
    match call.check s.state.closed with
    | .error result => (s.log [.returned i call result], none)
    | .ok closed => ({ s with state.closed := closed }, some (.push call .update))
  | .update =>
    match call.update s.state.read with
    | .error message => (s.log [.returned i call (.error message)], none)
    | .ok read => ({ s with state.read := read }.log (call.accepts i), some (.push call .wake))
  | .wake =>
    ({ s with state.readWaker := s.state.readWaker.wake }.log [.returned i call (.ok ())], none)

def act (i : Nat) (s : Socket) : Call → Socket × Option Call
  | .push call pc => pushAct i s call pc
  | .pollRead buf false =>
    ({ s with state.readWaker := s.state.readWaker.register }, some (.pollRead buf true))
  | .pollRead buf true =>
    let (state, buf', result) := s.state.examine buf
    ({ s with state := state }.log [.polled i (buf'.filled.drop buf.filled.length) result], none)
  -- `poll_shutdown` also tells the listener, which is not part of the socket
  | .pollShutdown => ({ s with state.closed := true }, none)

/-- Calls begin in their first action. -/
def Call.isFirst : Call → Bool
  | .push _ .check | .pollRead _ false | .pollShutdown => true
  | _ => false

def socket : Object Socket Call Unit Empty where
  initial := ⟨.new, []⟩
  begins _ call := call.isFirst
  act i s call _ := some (act i s call)
  env _ e := e.elim

/-! ## One poll -/

/-- A chunk up to `stop` and from there on. -/
theorem drop_eq_slice_append (chunk : Bytes) (start n : Nat) :
    chunk.drop start = slice chunk start (start + n) ++ chunk.drop (start + n) := by
  rw [slice, List.drop_take, Nat.add_sub_cancel_left, ← List.drop_drop, List.take_append_drop]

/-- The loop moves bytes from the front of the queue to the end of the buffer. -/
theorem readLoop_moves (pending : List (Bytes × Nat)) (buf : ReadBuf) :
    ∃ given, (readLoop pending buf).2.filled = buf.filled ++ given ∧
      Fifo.Moves (queued pending) [] given (queued (readLoop pending buf).1) := by
  fun_induction readLoop pending buf with
  | case1 buf => exact ⟨[], by simp, Fifo.Moves.refl⟩
  | case2 chunk offset pending buf hfull => exact ⟨[], by simp, Fifo.Moves.refl⟩
  | case3 chunk offset pending buf hroom remain hempty ih =>
    -- a chunk read to its end holds nothing
    obtain ⟨given, hfilled, hmoves⟩ := ih
    refine ⟨given, hfilled, ?_⟩
    have hnil : chunk.drop offset = [] := List.drop_eq_nil_of_le (by omega)
    simpa [Fifo.Moves, queued, hnil] using hmoves
  | case4 chunk offset pending buf hroom remain hsome toCopy buf' hpart =>
    refine ⟨slice chunk offset (offset + toCopy), rfl, ?_⟩
    simp only [Fifo.Moves, queued, List.flatMap_cons, List.append_nil]
    rw [← List.append_assoc, ← drop_eq_slice_append]
  | case5 chunk offset pending buf hroom remain hsome toCopy buf' hwhole ih =>
    obtain ⟨given, hfilled, hmoves⟩ := ih
    refine ⟨slice chunk offset (offset + toCopy) ++ given, ?_, ?_⟩
    · rw [hfilled, ← List.append_assoc]
      rfl
    · have hnil : chunk.drop (offset + toCopy) = [] := List.drop_eq_nil_of_le (by omega)
      have hslice := drop_eq_slice_append chunk offset toCopy
      rw [hnil, List.append_nil] at hslice
      simp only [Fifo.Moves, queued, List.flatMap_cons, List.append_nil] at hmoves ⊢
      rw [hslice, hmoves, List.append_assoc]

/-- **One poll is a move of the queue**: what leaves the queue is what is added to the buffer. -/
theorem examine_moves (s : VirtualJsSocketState) (buf : ReadBuf) :
    Fifo.Moves (queued s.read.pending) []
      ((s.examine buf).2.1.filled.drop buf.filled.length)
      (queued (s.examine buf).1.read.pending) := by
  obtain ⟨given, hfilled, hmoves⟩ := readLoop_moves s.read.pending buf
  have hdrop : (readLoop s.read.pending buf).2.filled.drop buf.filled.length = given := by
    rw [hfilled, List.drop_left]
  unfold VirtualJsSocketState.examine
  split
  · simpa using Fifo.Moves.refl
  · rw [← hdrop] at hmoves
    dsimp only
    split
    · split <;> exact hmoves
    · exact hmoves

/-! ## All runs -/

/-- The payloads accepted so far, in order, with the slots of their calls. -/
def acceptedCalls (history : List Event) : List (Nat × Bytes) :=
  history.filterMap fun
    | .accepted slot payload => some (slot, payload)
    | _ => none

/-- The payloads of the `push_data` calls that have returned `Ok`. -/
def okCalls (history : List Event) : List (Nat × Bytes) :=
  history.filterMap fun
    | .returned slot (.data payload) (.ok _) => some (slot, payload)
    | _ => none

def ofSlot (i : Nat) (calls : List (Nat × Bytes)) : List Bytes :=
  (calls.filter (·.1 == i)).map (·.2)

/-- The bytes accepted so far. -/
def accepted (history : List Event) : Bytes := (acceptedCalls history).flatMap (·.2)

/-- The bytes put into read buffers so far. -/
def delivered (history : List Event) : Bytes :=
  history.flatMap fun
    | .polled _ bytes _ => bytes
    | _ => []

/-- The accepted payload of a `push_data` that has only its wake and its `Ok` left. -/
def unreturned : Option Call → List Bytes
  | some (.push (.data payload) .wake) => [payload]
  | _ => []

@[simp] theorem accepted_append (h h' : List Event) :
    accepted (h ++ h') = accepted h ++ accepted h' := by
  simp [accepted, acceptedCalls]

@[simp] theorem delivered_append (h h' : List Event) :
    delivered (h ++ h') = delivered h ++ delivered h' := by
  simp [delivered]

@[simp] theorem ofSlot_acceptedCalls_append (i : Nat) (h h' : List Event) :
    ofSlot i (acceptedCalls (h ++ h')) = ofSlot i (acceptedCalls h) ++ ofSlot i (acceptedCalls h') := by
  simp [ofSlot, acceptedCalls]

@[simp] theorem ofSlot_okCalls_append (i : Nat) (h h' : List Event) :
    ofSlot i (okCalls (h ++ h')) = ofSlot i (okCalls h) ++ ofSlot i (okCalls h') := by
  simp [ofSlot, okCalls]

/-- The locked update of a push puts what it accepts at the back of the queue. -/
theorem update_moves {read read' : ReadState} {call : Push} (i : Nat)
    (h : call.update read = .ok read') :
    Fifo.Moves (queued read.pending) (accepted (call.accepts i)) [] (queued read'.pending) := by
  cases call with
  | data payload =>
    simp only [Push.update] at h
    split at h
    · cases h
    · split at h
      · cases h
      · cases h
        simp [Fifo.Moves, queued, Push.accepts, accepted, acceptedCalls]
  | eof => cases h; exact Fifo.Moves.refl
  | error message => cases h; exact Fifo.Moves.refl
  | abort message =>
    simp only [Push.update] at h
    split at h <;> cases h <;> exact Fifo.Moves.refl

/-- A push that gives up in its check has not accepted a payload. -/
theorem okCalls_of_check {call : Push} {closed : Bool} {result : Except String Unit} (i : Nat)
    (h : call.check closed = .error result) : okCalls [.returned i call result] = [] := by
  cases call with
  | data payload =>
    simp only [Push.check] at h
    split at h
    · cases h
      rfl
    · cases h
  | eof | error | abort => rfl

/-- An action of the call in slot `i`, with its events, is a move of the queue of bytes and of the
calls of its slot that have not returned. -/
structure ActMoves (i : Nat) (s : Socket) (call : Call) (r : Socket × Option Call)
    (events : List Event) : Prop where
  history : r.1.history = s.history ++ events
  bytes : Fifo.Moves (queued s.state.read.pending) (accepted events) (delivered events)
    (queued r.1.state.read.pending)
  calls : Fifo.Moves (unreturned (some call)) (ofSlot i (acceptedCalls events))
    (ofSlot i (okCalls events)) (unreturned r.2)
  others : ∀ j, j ≠ i → ofSlot j (acceptedCalls events) = [] ∧ ofSlot j (okCalls events) = []

/-- An action that leaves the queue alone and accepts, confirms and delivers nothing. -/
theorem ActMoves.quiet {i : Nat} {s : Socket} {call : Call} {r : Socket × Option Call}
    {events : List Event} (hhistory : r.1.history = s.history ++ events)
    (hpending : r.1.state.read.pending = s.state.read.pending)
    (hcalls : acceptedCalls events = [] ∧ okCalls events = []) (hdelivered : delivered events = [])
    (hsame : unreturned r.2 = unreturned (some call)) : ActMoves i s call r events where
  history := hhistory
  bytes := by
    rw [hpending, accepted, hcalls.1, hdelivered]
    exact .refl
  calls := by
    rw [hsame, hcalls.1, hcalls.2]
    exact .refl
  others j _ := by
    rw [hcalls.1, hcalls.2]
    exact ⟨rfl, rfl⟩

theorem pushAct_check_moves (i : Nat) (s : Socket) (call : Push) :
    ∃ events, ActMoves i s (.push call .check) (pushAct i s call .check) events := by
  cases hcheck : call.check s.state.closed with
  | error result =>
    refine ⟨[.returned i call result], .quiet ?_ ?_ ⟨rfl, okCalls_of_check i hcheck⟩ rfl ?_⟩
    · simp only [pushAct, hcheck, Socket.log]
    · simp only [pushAct, hcheck, Socket.log]
    · simp only [pushAct, hcheck]
      cases call <;> rfl
  | ok closed =>
    refine ⟨[], .quiet ?_ ?_ ⟨rfl, rfl⟩ rfl ?_⟩
    · simp only [pushAct, hcheck, List.append_nil]
    · simp only [pushAct, hcheck]
    · simp only [pushAct, hcheck]
      cases call <;> rfl

theorem pushAct_update_moves (i : Nat) (s : Socket) (call : Push) :
    ∃ events, ActMoves i s (.push call .update) (pushAct i s call .update) events := by
  cases hupdate : call.update s.state.read with
  | error message =>
    have hok : okCalls [.returned i call (.error message)] = [] := by cases call <;> rfl
    refine ⟨[.returned i call (.error message)], .quiet ?_ ?_ ⟨rfl, hok⟩ rfl ?_⟩
    · simp only [pushAct, hupdate, Socket.log]
    · simp only [pushAct, hupdate, Socket.log]
    · simp only [pushAct, hupdate]
      cases call <;> rfl
  | ok read =>
    have hdelivered : delivered (call.accepts i) = [] := by cases call <;> rfl
    refine ⟨call.accepts i, ?_, ?_, ?_, ?_⟩
    · simp only [pushAct, hupdate, Socket.log]
    · simp only [pushAct, hupdate, hdelivered]
      exact update_moves i hupdate
    · simp only [pushAct, hupdate]
      cases call <;> simp [Push.accepts, unreturned, ofSlot, acceptedCalls, okCalls, Fifo.Moves]
    · intro j hj
      cases call <;> simp [Push.accepts, ofSlot, acceptedCalls, okCalls, Ne.symm hj]

theorem pushAct_wake_moves (i : Nat) (s : Socket) (call : Push) :
    ∃ events, ActMoves i s (.push call .wake) (pushAct i s call .wake) events := by
  refine ⟨[.returned i call (.ok ())], rfl, .refl, ?_, fun j hj => ⟨rfl, ?_⟩⟩
  · cases call <;> simp [pushAct, unreturned, ofSlot, acceptedCalls, okCalls, Fifo.Moves]
  · cases call <;> simp [ofSlot, okCalls, Ne.symm hj]

/-- **Every action of a call is a move.** -/
theorem act_moves (i : Nat) (s : Socket) (call : Call) :
    ∃ events, ActMoves i s call (act i s call) events := by
  cases call with
  | pollShutdown => exact ⟨[], .quiet (List.append_nil _).symm rfl ⟨rfl, rfl⟩ rfl rfl⟩
  | pollRead buf registered =>
    cases registered with
    | false => exact ⟨[], .quiet (List.append_nil _).symm rfl ⟨rfl, rfl⟩ rfl rfl⟩
    | true =>
      refine ⟨[.polled i ((s.state.examine buf).2.1.filled.drop buf.filled.length)
        (s.state.examine buf).2.2], rfl, ?_, .refl, fun _ _ => ⟨rfl, rfl⟩⟩
      simp only [delivered, List.flatMap_cons, List.flatMap_nil, List.append_nil]
      exact examine_moves s.state buf
  | push call pc =>
    cases pc with
    | check => exact pushAct_check_moves i s call
    | update => exact pushAct_update_moves i s call
    | wake => exact pushAct_wake_moves i s call

/-- The invariant of all runs: the queue of bytes, and each slot, seen from outside. -/
structure Inv (p : Pool Socket Call) : Prop where
  bytes : Fifo.Moves [] (accepted p.shared.history) (delivered p.shared.history)
    (queued p.shared.state.read.pending)
  calls : ∀ i, Fifo.Moves [] (ofSlot i (acceptedCalls p.shared.history))
    (ofSlot i (okCalls p.shared.history)) (unreturned (p.tasks i))

theorem inv_begin {p : Pool Socket Call} {i : Nat} {call : Call} (hp : Inv p)
    (hfree : p.tasks i = none) (hfirst : call.isFirst = true) :
    Inv (p.set i p.shared (some call)) := by
  refine ⟨hp.bytes, fun j => ?_⟩
  by_cases hj : j = i
  · subst hj
    have hnew : unreturned (some call) = unreturned (p.tasks j) := by
      rw [hfree]
      revert hfirst
      unfold Call.isFirst
      split <;> simp [unreturned]
    rw [Pool.set_tasks_self, hnew]
    exact hp.calls j
  · rw [Pool.set_tasks_of_ne p hj]
    exact hp.calls j

theorem inv_act {p : Pool Socket Call} {i : Nat} {call : Call} (hp : Inv p)
    (hcall : p.tasks i = some call) :
    Inv (p.set i (act i p.shared call).1 (act i p.shared call).2) := by
  obtain ⟨events, hmoves⟩ := act_moves i p.shared call
  constructor
  · rw [Pool.set_shared, hmoves.history, accepted_append, delivered_append]
    exact hp.bytes.trans hmoves.bytes
  · intro j
    rw [Pool.set_shared, hmoves.history, ofSlot_acceptedCalls_append, ofSlot_okCalls_append]
    have hj' := hp.calls j
    by_cases hj : j = i
    · subst hj
      rw [Pool.set_tasks_self]
      rw [hcall] at hj'
      exact hj'.trans hmoves.calls
    · obtain ⟨ha, hr⟩ := hmoves.others j hj
      rw [Pool.set_tasks_of_ne p hj, ha, hr, List.append_nil, List.append_nil]
      exact hj'

theorem reachable_inv {p : Pool Socket Call} (h : socket.Reachable p) : Inv p := by
  refine h.invariant ?_ ?_ ?_ ?_
  · exact ⟨.refl, fun i => .refl⟩
  · intro p i call hp _ hfree hfirst
    exact inv_begin hp hfree hfirst
  · intro p i choice call s' call' hp _ hcall hact
    have hact : act i p.shared call = (s', call') := Option.some.inj hact
    have hp' := inv_act hp hcall
    rw [hact] at hp'
    exact hp'
  · intro p e
    exact e.elim

/-- **Nothing is lost, duplicated or reordered.** In every run, at every moment: the bytes put into
read buffers, followed by what the queue still holds, are the accepted payloads in order; slot by
slot, these are the payloads of the `push_data` calls that have returned `Ok`, and of one that has
nothing left but to do so; and each move takes bytes into the queue by accepting them, and out of
it by putting them into a read buffer. -/
theorem socket_delivers_in_order {p : Pool Socket Call} (h : socket.Reachable p) :
    accepted p.shared.history =
      delivered p.shared.history ++ queued p.shared.state.read.pending ∧
    delivered p.shared.history <+: accepted p.shared.history ∧
    (∀ i, ofSlot i (acceptedCalls p.shared.history) =
      ofSlot i (okCalls p.shared.history) ++ unreturned (p.tasks i)) ∧
    ∀ m p', socket.move p m = some p' → ∃ events, p'.shared.history = p.shared.history ++ events ∧
      Fifo.Moves (queued p.shared.state.read.pending) (accepted events) (delivered events)
        (queued p'.shared.state.read.pending) := by
  have hp := reachable_inv h
  have hbytes := hp.bytes
  refine ⟨hbytes, ⟨_, hbytes.symm⟩, hp.calls, ?_⟩
  intro m p' hmove
  obtain ⟨i, call, rfl, hfree, hb, rfl⟩ | ⟨i, choice, call, s', call', rfl, hcall, hact, rfl⟩ |
    ⟨e, s', rfl, henv, rfl⟩ := Object.move_cases hmove
  · exact ⟨[], by simp, .refl⟩
  · have hact : act i p.shared call = (s', call') := Option.some.inj hact
    obtain ⟨events, hmoves⟩ := act_moves i p.shared call
    rw [hact] at hmoves
    exact ⟨events, hmoves.history, hmoves.bytes⟩
  · exact e.elim

/-- Three bytes pushed, two of them read. -/
theorem socket_delivers_in_order_partial :
    ∃ p, socket.Reachable p ∧ delivered p.shared.history = [1, 2] ∧
      accepted p.shared.history = [1, 2] ++ queued p.shared.state.read.pending ∧
      queued p.shared.state.read.pending = [3] := by
  have hreach := Object.Reachable.leads (O := socket) .start
    (Object.leads_of_run [.begin 0 (.push (.data [1, 2, 3]) .check), .act 0 (), .act 0 (), .act 0 (),
      .begin 0 (.pollRead ⟨[], 2, by decide⟩ false), .act 0 (), .act 0 ()] rfl)
  exact ⟨_, hreach, rfl, (socket_delivers_in_order hreach).1, rfl⟩

end Lonesome.VirtualJs
