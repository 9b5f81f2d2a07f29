import Lonesome.VirtualJs.Socket
import Lonesome.VirtualJs.SocketLifetime

/-!
# The streams of the virtual upstreams

`src/virtual_js` as one system: the registry and the sockets of the proxy (`connections`), with the
read state of every socket and the events that the callbacks of the listeners receive. JavaScript
pushes by id through `push_event`; the proxy polls its sockets; a connect and a deactivation send
events of their own.

Without the read states and the events this is `connections` (`reachable_forget`), and the part that
belongs to one id is `socket` (`reachable_view`): the streams do not get into each other's way, and
what is known of one socket holds of each of them.
-/

namespace Lonesome.VirtualJs.Streams

open Lonesome.Interleaving
open Registry (World Frame Role Code Answer Status)

/-! ## The model -/

/-- The first argument of the callback of a listener. -/
inductive EventKind
  | opened
  | write
  | close
deriving DecidableEq

/-- An event that the queue of a listener has taken. -/
structure ListenerEventCall where
  listener : Nat
  kind : EventKind
  connId : Str
  data : Bytes
deriving DecidableEq

/-- The read state of each id, which sockets are in a `poll_read`, the events taken by the queues of
the listeners, and the `push_event` calls that were refused before they reached a socket. -/
structure Layer where
  world : World
  sockets : Str → Socket
  reading : Str → Bool
  events : List ListenerEventCall
  refused : List (Nat × Str × String)

namespace Layer

def setSocket (s : Layer) (c : Str) (socket : Socket) : Layer :=
  { s with sockets := Function.update s.sockets c socket }

def setReading (s : Layer) (c : Str) (reading : Bool) : Layer :=
  { s with reading := Function.update s.reading c reading }

def send (s : Layer) (l : Nat) (kind : EventKind) (c : Str) (data : Bytes) : Layer :=
  { s with events := s.events ++ [⟨l, kind, c, data⟩] }

def refuse (s : Layer) (slot : Nat) (c : Str) (message : String) : Layer :=
  { s with refused := s.refused ++ [(slot, c, message)] }

end Layer

/-- What `push_event` makes of its arguments. -/
def pushOf (kind : Str) (data : Option Bytes) (message : Option String) : Except String Push :=
  if kind = "data".toList then
    match data with
    | some payload => .ok (.data payload)
    | none => .error "virtual_push_event kind=data requires data"
  else if kind = "eof".toList then .ok .eof
  else if kind = "error".toList then
    match message with
    | some message => .ok (.error message)
    | none => .error "virtual_push_event kind=error requires message"
  else .error ("unsupported virtual_push_event kind '" ++ String.ofList kind ++ "'")

/-- The calls that go through a listener or the registry: as in `Code`, with the bytes written, the
wait for the `open` callback, and the stages of an `abort` inside of `deactivate_listener`. -/
inductive Work
  | pollWrite (connId : Str) (data : Bytes)
  | onWrite (listener : Nat) (connId : Str) (data : Bytes) (checked : Bool)
  | pollShutdown (connId : Str)
  | onClose (listener : Nat) (connId : Str) (checked : Bool)
  | registry (stack : List Frame)
  | awaitOpen (listener : Nat) (connId : Str) (rest : List Frame)
  | abort (listener : Nat) (connId : Str) (message : String) (pc : PushPc) (connIds : List Str)
      (rest : List Frame)

/-- A push on a socket, before and after it has been looked up, a read, or one of the above. -/
inductive Task
  | pushEvent (kind : Str) (connId : Str) (data : Option Bytes) (message : Option String)
  | push (connId : Str) (call : Push) (pc : PushPc)
  | pollRead (connId : Str) (buf : ReadBuf) (registered : Bool)
  | through (role : Role) (work : Work)

/-- An action of the registry, and the `VirtualJsSocket` that the last one of a connect makes. -/
def registryAct (s : Layer) (stack : List Frame) (choice : Registry.Choice) :
    Option (Layer × Option Work) :=
  (Registry.act s.world.registry stack choice).map fun r =>
    ({ s with world := ⟨r.1, s.world.streamsAfter stack⟩ }, r.2.map .registry)

/-- `format!("virtual listener '{}' was unregistered", listener.key)` -/
def unregisteredMessage (s : Layer) (l : Nat) : String :=
  "virtual listener '" ++ String.ofList (s.world.registry.instances l).key ++ "' was unregistered"

/-- The actions of the registry that do something outside of it too: a new id gets its read state,
`open` is sent and then awaited, a deactivation sends `close` before it aborts. -/
def registryStep (s : Layer) (stack : List Frame) (answer : Answer) :
    Option (Layer × Option Work) :=
  match stack, answer with
  | .connect l .nextConnId :: _, .registry choice =>
    let connId := Registry.connId (s.world.registry.instances l).key s.world.registry.seq
    registryAct (s.setSocket connId ⟨.new, []⟩) stack choice
  | .connect l (.openEvent c) :: rest, .sent status =>
    match status with
    | .ok => some (s.send l .opened c [], some (.awaitOpen l c rest))
    | .closed => registryAct s stack (.openFails true)
    | .failed => registryAct s stack (.openFails false)
  | .connect _ (.openEvent _) :: _, _ => none
  | .deactivateListener l (.loop (c :: cs)) :: rest, .sent status =>
    let s' := match status with
      | .ok => s.send l .close c []
      | _ => s
    some (s', some (.abort l c (unregisteredMessage s l) .check cs rest))
  | .deactivateListener _ (.loop (_ :: _)) :: _, _ => none
  | stack, .registry choice => registryAct s stack choice
  | _, _ => none

/-- Where a push goes on; a read is never the answer. -/
def nextPc : Option Call → Option PushPc
  | some (.push _ pc) => some pc
  | _ => none

def workAct (i : Nat) (s : Layer) (work : Work) (answer : Answer) : Option (Layer × Option Work) :=
  match work with
  | .pollWrite c data =>
    match s.world.streams c with
    | some ⟨l, .idle⟩ =>
      if s.reading c then none
      else if (s.sockets c).state.closed then some (s, none)
      else some ({ s with world := s.world.setUse c fun _ => .polled },
        some (.onWrite l c data false))
    | _ => none
  | .onWrite l c data false =>
    if s.world.registry.isActive l then some (s, some (.onWrite l c data true)) else some (s, none)
  | .onWrite l c data true =>
    match answer with
    | .sent .ok => some (s.send l .write c data, none)
    | .sent .closed => some (s, some (.registry [.deactivateSocketListener c]))
    | .sent .failed => some (s, none)
    | _ => none
  | .pollShutdown c =>
    match s.world.streams c with
    | some ⟨l, .idle⟩ =>
      if s.reading c then none
      else
        let s' := s.setSocket c (act i (s.sockets c) .pollShutdown).1
        some ({ s' with world := s.world.setUse c fun _ => .polled }, some (.onClose l c false))
    | _ => none
  | .onClose l c false =>
    if s.world.registry.isActive l then some (s, some (.onClose l c true))
    else some (s, some (.registry [.detachSocketState c .api]))
  | .onClose l c true =>
    match answer with
    | .sent .ok => some (s.send l .close c [], some (.registry [.detachSocketState c .api]))
    | .sent .closed => some (s, some (.registry [.deactivateSocketListener c]))
    | .sent .failed => some (s, none)
    | _ => none
  | .registry stack => registryStep s stack answer
  | .awaitOpen l c rest =>
    match answer with
    | .registry choice => registryAct s (.connect l (.openEvent c) :: rest) choice
    | _ => none
  | .abort l c message pc cs rest =>
    let r := pushAct i (s.sockets c) (.abort message) pc
    match nextPc r.2 with
    | some pc' => some (s.setSocket c r.1, some (.abort l c message pc' cs rest))
    | none => registryAct (s.setSocket c r.1) (.deactivateListener l (.loop (c :: cs)) :: rest) .go

/-- What the registry has of a call. -/
def Work.code : Work → Code
  | .pollWrite c _ => .pollWrite c
  | .onWrite l c _ checked => .onWrite l c checked
  | .pollShutdown c => .pollShutdown c
  | .onClose l c checked => .onClose l c checked
  | .registry stack => .registry stack
  | .awaitOpen l c rest => .registry (.connect l (.openEvent c) :: rest)
  | .abort l c _ _ cs rest => .registry (.deactivateListener l (.loop (c :: cs)) :: rest)

/-- `push_eof` and `push_error` are followed by `detach_socket`; they only fail on a poisoned lock. -/
def afterPush (c : Str) : Push → Option Task
  | .data _ => none
  | _ => some (.through .other (.registry [.detachSocketState c .api]))

def taskAct (i : Nat) (s : Layer) (task : Task) (answer : Answer) : Option (Layer × Option Task) :=
  match task with
  | .pushEvent kind c data message =>
    match pushOf kind data message with
    | .error error => some (s.refuse i c error, none)
    | .ok call =>
      if (s.world.registry.sockets c).isSome then some (s, some (.push c call .check))
      else some (s.refuse i c ("socket '" ++ String.ofList c ++ "' not found"), none)
  | .push c call pc =>
    let r := pushAct i (s.sockets c) call pc
    match nextPc r.2 with
    | some pc' => some (s.setSocket c r.1, some (.push c call pc'))
    | none => some (s.setSocket c r.1, afterPush c call)
  | .pollRead c buf false =>
    match s.world.streams c with
    | some ⟨_, .idle⟩ =>
      if s.reading c then none
      else some ((s.setReading c true).setSocket c (act i (s.sockets c) (.pollRead buf false)).1,
        some (.pollRead c buf true))
    | _ => none
  | .pollRead c buf true =>
    some ((s.setReading c false).setSocket c (act i (s.sockets c) (.pollRead buf true)).1, none)
  | .through role work =>
    (workAct i s work answer).map fun r =>
      match r.2 with
      | none => ({ r.1 with world := r.1.world.leave role }, none)
      | some work' => (r.1, some (.through (role.after work'.code) work'))

/-- The calls that begin: as in `connections`, and reads. -/
def begins (w : Registry.State) : Task → Bool
  | .pushEvent .. | .pollRead _ _ false => true
  | .through role (.pollWrite c _) => Registry.callBegins w ⟨role, .pollWrite c⟩
  | .through role (.pollShutdown c) => Registry.callBegins w ⟨role, .pollShutdown c⟩
  | .through role (.registry stack) => Registry.callBegins w ⟨role, .registry stack⟩
  | _ => false

/-- A socket that is being read is not dropped. -/
def drop (s : Layer) (c : Str) : Option Layer :=
  if s.reading c then none else (s.world.drop c).map fun w => { s with world := w }

def streams : Object Layer Task Answer Str where
  initial := ⟨⟨.init, fun _ => none⟩, fun _ => ⟨.new, []⟩, fun _ => false, [], []⟩
  begins p task := begins p.shared.world.registry task
  act := taskAct
  env := drop

/-! ## What a call does -/

/-- An action of the registry on a stack: what its top frame does. -/
structure Inside (s : Layer) (stack : List Frame) (choice : Registry.Choice) (s' : Layer)
    (work' : Option Work) (f : Frame) (rest new : List Frame) (w' : Registry.State) : Prop where
  stack_eq : stack = f :: rest
  frame : Registry.frameAct s.world.registry f choice = some (w', new)
  layer : s' = { s with world := ⟨w', s.world.streamsAfter stack⟩ }
  work : work' = (Registry.running (new ++ rest)).map .registry

theorem registryAct_inside {s s' : Layer} {stack : List Frame} {choice : Registry.Choice}
    {work' : Option Work} (h : registryAct s stack choice = some (s', work')) :
    ∃ f rest new w', Inside s stack choice s' work' f rest new w' := by
  obtain ⟨⟨w', stack'⟩, hact, heq⟩ := Option.map_eq_some_iff.1 h
  obtain ⟨f, rest, new, rfl, hframe, rfl⟩ := Registry.act_frameAct hact
  cases heq
  exact ⟨f, rest, new, w', rfl, hframe, rfl, rfl⟩

/-- What an action of a call does, case by case. Inside of the registry the id of a connect comes
with a read state (`issued`), its `open` is not over before it has been sent (`inside`), and the
loop of a deactivation goes on once the socket is aborted (`aborted`). -/
inductive WorkStep (i : Nat) (s : Layer) : Work → Layer → Option Work → Prop
  | writeClosed {c : Str} {data : Bytes} {l : Nat} (hc : s.world.streams c = some ⟨l, .idle⟩)
      (hclosed : (s.sockets c).state.closed = true) : WorkStep i s (.pollWrite c data) s none
  | writeBegun {c : Str} {data : Bytes} {l : Nat} (hc : s.world.streams c = some ⟨l, .idle⟩)
      (hclosed : (s.sockets c).state.closed = false) :
      WorkStep i s (.pollWrite c data) { s with world := s.world.setUse c fun _ => .polled }
        (some (.onWrite l c data false))
  | writeActive {l : Nat} {c : Str} {data : Bytes} (ha : s.world.registry.isActive l = true) :
      WorkStep i s (.onWrite l c data false) s (some (.onWrite l c data true))
  | writeInactive {l : Nat} {c : Str} {data : Bytes} (ha : s.world.registry.isActive l = false) :
      WorkStep i s (.onWrite l c data false) s none
  | written {l : Nat} {c : Str} {data : Bytes} :
      WorkStep i s (.onWrite l c data true) (s.send l .write c data) none
  | writeFoundClosed {l : Nat} {c : Str} {data : Bytes} :
      WorkStep i s (.onWrite l c data true) s (some (.registry [.deactivateSocketListener c]))
  | writeFailed {l : Nat} {c : Str} {data : Bytes} : WorkStep i s (.onWrite l c data true) s none
  | shutdown {c : Str} {l : Nat} (hc : s.world.streams c = some ⟨l, .idle⟩) :
      WorkStep i s (.pollShutdown c)
        { s.setSocket c (act i (s.sockets c) .pollShutdown).1 with
          world := s.world.setUse c fun _ => .polled }
        (some (.onClose l c false))
  | closeActive {l : Nat} {c : Str} (ha : s.world.registry.isActive l = true) :
      WorkStep i s (.onClose l c false) s (some (.onClose l c true))
  | closeInactive {l : Nat} {c : Str} (ha : s.world.registry.isActive l = false) :
      WorkStep i s (.onClose l c false) s (some (.registry [.detachSocketState c .api]))
  | closed {l : Nat} {c : Str} :
      WorkStep i s (.onClose l c true) (s.send l .close c [])
        (some (.registry [.detachSocketState c .api]))
  | closeFoundClosed {l : Nat} {c : Str} :
      WorkStep i s (.onClose l c true) s (some (.registry [.deactivateSocketListener c]))
  | closeFailed {l : Nat} {c : Str} : WorkStep i s (.onClose l c true) s none
  | issued {l : Nat} {rest : List Frame} {choice : Registry.Choice} {s' : Layer}
      {work' : Option Work}
      (h : registryAct (s.setSocket
        (Registry.connId (s.world.registry.instances l).key s.world.registry.seq) ⟨.new, []⟩)
        (.connect l .nextConnId :: rest) choice = some (s', work')) :
      WorkStep i s (.registry (.connect l .nextConnId :: rest)) s' work'
  | openSent {l : Nat} {c : Str} {rest : List Frame} :
      WorkStep i s (.registry (.connect l (.openEvent c) :: rest)) (s.send l .opened c [])
        (some (.awaitOpen l c rest))
  | closeSent {l : Nat} {c : Str} {cs : List Str} {rest : List Frame} :
      WorkStep i s (.registry (.deactivateListener l (.loop (c :: cs)) :: rest))
        (s.send l .close c [])
        (some (.abort l c (unregisteredMessage s l) .check cs rest))
  | closeNotSent {l : Nat} {c : Str} {cs : List Str} {rest : List Frame} :
      WorkStep i s (.registry (.deactivateListener l (.loop (c :: cs)) :: rest)) s
        (some (.abort l c (unregisteredMessage s l) .check cs rest))
  | inside {stack : List Frame} {choice : Registry.Choice} {s' : Layer} {work' : Option Work}
      (h : registryAct s stack choice = some (s', work'))
      (hopen : ∀ l c rest, stack = .connect l (.openEvent c) :: rest →
        ∃ closed, choice = .openFails closed)
      (hissue : ∀ l rest, stack ≠ .connect l .nextConnId :: rest) :
      WorkStep i s (.registry stack) s' work'
  | awaited {l : Nat} {c : Str} {rest : List Frame} {choice : Registry.Choice} {s' : Layer}
      {work' : Option Work}
      (h : registryAct s (.connect l (.openEvent c) :: rest) choice = some (s', work')) :
      WorkStep i s (.awaitOpen l c rest) s' work'
  | aborting {l : Nat} {c : Str} {message : String} {pc pc' : PushPc} {cs : List Str}
      {rest : List Frame} (h : nextPc (pushAct i (s.sockets c) (.abort message) pc).2 = some pc') :
      WorkStep i s (.abort l c message pc cs rest)
        (s.setSocket c (pushAct i (s.sockets c) (.abort message) pc).1)
        (some (.abort l c message pc' cs rest))
  | aborted {l : Nat} {c : Str} {message : String} {pc : PushPc} {cs : List Str}
      {rest : List Frame} {s' : Layer} {work' : Option Work}
      (h : nextPc (pushAct i (s.sockets c) (.abort message) pc).2 = none)
      (hact : registryAct (s.setSocket c (pushAct i (s.sockets c) (.abort message) pc).1)
        (.deactivateListener l (.loop (c :: cs)) :: rest) .go = some (s', work')) :
      WorkStep i s (.abort l c message pc cs rest) s' work'

theorem registryStep_step {i : Nat} {s s' : Layer} {stack : List Frame} {answer : Answer}
    {work' : Option Work} (h : registryStep s stack answer = some (s', work')) :
    WorkStep i s (.registry stack) s' work' := by
  unfold registryStep at h
  split at h
  · exact .issued h
  · next l c rest status =>
    cases status with
    | ok => cases h; exact .openSent
    | closed =>
      refine .inside h (fun l c rest _ => ⟨true, rfl⟩) (fun l rest heq => ?_)
      cases heq
    | failed =>
      refine .inside h (fun l c rest _ => ⟨false, rfl⟩) (fun l rest heq => ?_)
      cases heq
  · cases h
  · next l c cs rest status =>
    cases status with
    | ok => cases h; exact .closeSent
    | closed | failed => cases h; exact .closeNotSent
  · cases h
  · next hissue hopen _ =>
    refine .inside h (fun l c rest heq => ?_) (fun l rest heq => ?_)
    · exact (hopen l c rest heq).elim
    · exact hissue l rest heq
  · cases h

theorem workAct_step {i : Nat} {s s' : Layer} {work : Work} {answer : Answer}
    {work' : Option Work} (h : workAct i s work answer = some (s', work')) :
    WorkStep i s work s' work' := by
  cases work with
  | pollWrite c data =>
    simp only [workAct] at h
    split at h
    · next l hc =>
      split at h
      · cases h
      · split at h
        · next hclosed => cases h; exact .writeClosed hc hclosed
        · next hclosed => cases h; exact .writeBegun hc (Bool.eq_false_iff.2 hclosed)
    · cases h
  | onWrite l c data checked =>
    cases checked with
    | false =>
      simp only [workAct] at h
      split at h
      · next ha => cases h; exact .writeActive ha
      · next ha => cases h; exact .writeInactive (Bool.eq_false_iff.2 ha)
    | true =>
      simp only [workAct] at h
      split at h
      · cases h; exact .written
      · cases h; exact .writeFoundClosed
      · cases h; exact .writeFailed
      · cases h
  | pollShutdown c =>
    simp only [workAct] at h
    split at h
    · next l hc =>
      split at h
      · cases h
      · cases h; exact .shutdown hc
    · cases h
  | onClose l c checked =>
    cases checked with
    | false =>
      simp only [workAct] at h
      split at h
      · next ha => cases h; exact .closeActive ha
      · next ha => cases h; exact .closeInactive (Bool.eq_false_iff.2 ha)
    | true =>
      simp only [workAct] at h
      split at h
      · cases h; exact .closed
      · cases h; exact .closeFoundClosed
      · cases h; exact .closeFailed
      · cases h
  | registry stack => exact registryStep_step h
  | awaitOpen l c rest =>
    simp only [workAct] at h
    split at h
    · exact .awaited h
    · cases h
  | abort l c message pc cs rest =>
    simp only [workAct] at h
    split at h
    · next pc' hpc => cases h; exact .aborting hpc
    · next hpc => exact .aborted hpc h

/-! ## The connections inside -/

def pushKind : Push → Registry.PushKind
  | .data _ => .data
  | .eof => .eof
  | .error _ | .abort _ => .error

/-- What `connections` has of a call: a push that has found its socket is over there, up to the
detach that follows it. -/
def Task.forget : Task → Option Registry.Call
  | .pushEvent kind c data message =>
    match pushOf kind data message with
    | .ok call => some ⟨.other, .pushEvent (pushKind call) c⟩
    | .error _ => none
  | .push c call _ => (afterPush c call).map fun _ => ⟨.other, .registry [.detachSocketState c .api]⟩
  | .pollRead .. => none
  | .through role work => some ⟨role, work.code⟩

def forget (p : Pool Layer Task) : Pool World Registry.Call :=
  ⟨p.shared.world, fun i => (p.tasks i).bind Task.forget⟩

/-- Cutting a part out of a pool commutes with `set`. -/
theorem forget_set (p : Pool Layer Task) (i : Nat) (s' : Layer) (task' : Option Task) :
    forget (p.set i s' task') = (forget p).set i s'.world (task'.bind Task.forget) := by
  refine congrArg (Pool.mk s'.world) (funext fun j => ?_)
  by_cases hj : j = i
  · rw [hj, Function.update_self]
    exact congrArg (Option.bind · _) (Function.update_self ..)
  · rw [Function.update_of_ne hj]
    exact congrArg (Option.bind · _) (Function.update_of_ne hj ..)

/-- An action of a call is one of its code, or nothing that `connections` sees. -/
inductive Seen (s s' : Layer) (work : Work) : Option Work → Prop
  | waits {work₂ : Work} (hworld : s'.world = s.world) (hcode : work₂.code = work.code)
      (hrole : ∀ role : Role, role.after work.code = role) : Seen s s' work (some work₂)
  | acts {work' : Option Work} (answer : Answer)
      (hcode : Registry.codeAct s.world work.code answer = some (s'.world, work'.map Work.code)) :
      Seen s s' work work'

theorem registryAct_seen {s s' : Layer} (s₁ : Layer) {work : Work} {stack : List Frame}
    {choice : Registry.Choice} {work' : Option Work} (hw : s₁.world = s.world)
    (hcode : work.code = .registry stack)
    (h : registryAct s₁ stack choice = some (s', work')) : Seen s s' work work' := by
  obtain ⟨⟨w', stack'⟩, hact, heq⟩ := Option.map_eq_some_iff.1 h
  cases heq
  refine .acts (.registry choice) ?_
  simp only [hcode, Registry.codeAct, ← hw, hact, Option.map_some, Option.map_map]
  rfl

theorem WorkStep.seen {i : Nat} {s s' : Layer} {work : Work} {work' : Option Work}
    (h : WorkStep i s work s' work') : Seen s s' work work' := by
  cases h with
  | writeClosed hc => exact .acts .socketClosed (by simp [Work.code, Registry.codeAct, hc])
  | writeBegun hc | shutdown hc =>
    exact .acts (.sent .ok) (by simp [Work.code, Registry.codeAct, hc])
  | writeActive ha | writeInactive ha | closeActive ha | closeInactive ha =>
    exact .acts (.sent .ok) (by simp [Work.code, Registry.codeAct, ha])
  | written | closed => exact .acts (.sent .ok) rfl
  | writeFoundClosed | closeFoundClosed => exact .acts (.sent .closed) rfl
  | writeFailed | closeFailed => exact .acts (.sent .failed) rfl
  | openSent | closeSent | closeNotSent | aborting => exact .waits rfl rfl fun _ => rfl
  | issued h => exact registryAct_seen (s.setSocket _ _) rfl rfl h
  | inside h _ _ => exact registryAct_seen s rfl rfl h
  | awaited h => exact registryAct_seen s rfl rfl h
  | aborted _ h => exact registryAct_seen (s.setSocket _ _) rfl rfl h

/-- What `connections` sees of an action: nothing, or one of its own. -/
theorem taskAct_forget {i : Nat} {s s' : Layer} {task : Task} {answer : Answer}
    {task' : Option Task} (h : taskAct i s task answer = some (s', task')) :
    (s'.world = s.world ∧ task'.bind Task.forget = task.forget) ∨
    ∃ call answer', task.forget = some call ∧
      Registry.callAct s.world call answer' = some (s'.world, task'.bind Task.forget) := by
  cases task with
  | pushEvent kind c data message =>
    cases hcall : pushOf kind data message with
    | error error =>
      simp only [taskAct, hcall] at h
      cases h
      exact .inl ⟨rfl, by simp [Task.forget, hcall]⟩
    | ok call =>
      have hforget : (Task.pushEvent kind c data message).forget =
          some ⟨.other, .pushEvent (pushKind call) c⟩ := by simp [Task.forget, hcall]
      refine .inr ⟨_, .sent .ok, hforget, ?_⟩
      simp only [taskAct, hcall] at h
      split at h
      · next hentry =>
        cases h
        cases call with
        | data payload => rfl
        | eof | error | abort =>
          simp [Registry.callAct, Registry.codeAct, pushKind, hentry, Task.forget, afterPush,
            Role.after]
      · next hentry =>
        cases h
        cases call with
        | data payload => rfl
        | eof | error | abort =>
          simp [Registry.callAct, Registry.codeAct, pushKind, hentry, World.leave, Layer.refuse]
  | push c call pc =>
    left
    simp only [taskAct] at h
    split at h
    · cases h
      exact ⟨rfl, rfl⟩
    · cases h
      refine ⟨rfl, ?_⟩
      cases call <;> rfl
  | pollRead c buf registered =>
    left
    cases registered with
    | false =>
      simp only [taskAct] at h
      split at h
      · split at h
        · cases h
        · cases h
          exact ⟨rfl, rfl⟩
      · cases h
    | true =>
      cases h
      exact ⟨rfl, rfl⟩
  | through role work =>
    obtain ⟨⟨s₁, work'⟩, hwork, heq⟩ := Option.map_eq_some_iff.1 h
    cases (workAct_step hwork).seen with
    | waits hworld hcode hrole =>
      cases heq
      refine .inl ⟨hworld, ?_⟩
      simp only [Option.bind_some, Task.forget, hcode, hrole]
    | acts answer' hcode =>
      refine .inr ⟨_, answer', rfl, ?_⟩
      simp only [Registry.callAct, hcode, Option.map_some, Option.some.injEq]
      cases work' <;> cases heq <;> rfl

theorem begins_forget {w : Registry.State} {task : Task} (h : begins w task = true) :
    task.forget = none ∨ ∃ call, task.forget = some call ∧ Registry.callBegins w call = true := by
  cases task with
  | pushEvent kind c data message =>
    cases hcall : pushOf kind data message with
    | error error => exact .inl (by simp [Task.forget, hcall])
    | ok call =>
      exact .inr ⟨⟨.other, .pushEvent (pushKind call) c⟩, by simp [Task.forget, hcall], rfl⟩
  | push c call pc => cases h
  | pollRead c buf registered => exact .inl rfl
  | through role work =>
    cases work with
    | pollWrite | pollShutdown | registry => exact .inr ⟨_, rfl, h⟩
    | _ => cases h

theorem forget_move {p p' : Pool Layer Task} {m : Move Task Answer Str}
    (h : streams.move p m = some p') : Registry.connections.Leads (forget p) (forget p') := by
  obtain ⟨i, task, rfl, hi, hb, rfl⟩ | ⟨i, answer, task, s', task', rfl, hi, hact, rfl⟩ |
    ⟨c, s', rfl, hdrop, rfl⟩ := Object.move_cases h
  · have hfree : (forget p).tasks i = none := by simp [forget, hi]
    rw [forget_set]
    rcases begins_forget hb with hnone | ⟨call, hcall, hbegins⟩
    · rw [Option.bind_some, hnone, Pool.set, ← hfree, Function.update_eq_self]
      exact .refl
    · refine .single ⟨.begin i call, ?_⟩
      have hb' : Registry.connections.begins (forget p) call = true := hbegins
      simp only [Object.move, hfree, hb', Option.isNone_none, Bool.and_self, if_pos,
        Option.bind_some, hcall]
      rfl
  · have htask : (forget p).tasks i = task.forget := by simp [forget, hi]
    rw [forget_set]
    rcases taskAct_forget hact with ⟨hworld, hsame⟩ | ⟨call, answer', hcall, hact'⟩
    · rw [hworld, hsame, ← htask, Pool.set, Function.update_eq_self]
      exact .refl
    · refine .single ⟨.act i answer', ?_⟩
      have hact₂ : Registry.connections.act i (forget p).shared call answer' =
          some (s'.world, task'.bind Task.forget) := hact'
      simp only [Object.move, htask, hcall, hact₂, Option.map_some]
  · simp only [streams, drop] at hdrop
    split at hdrop
    · cases hdrop
    · obtain ⟨w', hw', rfl⟩ := Option.map_eq_some_iff.1 hdrop
      refine .single ⟨.env c, ?_⟩
      have henv : Registry.connections.env (forget p).shared c = some w' := hw'
      simp only [Object.move, henv, Option.map_some]
      rfl

/-- **The connections inside**: without the read states and the events, the streams are the runs of
`connections`. -/
theorem reachable_forget {p : Pool Layer Task} (h : streams.Reachable p) :
    Registry.connections.Reachable (forget p) :=
  h.map forget rfl fun _ _ _ => forget_move

def Layer.wrap (s : Layer) : Layer := { s with world := s.world.wrap }

/-- What holds of the streams holds with a counter that wraps until 2^64 ids have been taken. -/
theorem streams_of_wrapping {p : Pool Layer Task} (h : (streams.followedBy Layer.wrap).Reachable p)
    (hids : p.shared.world.registry.connIds.length < UInt64.size) : streams.Reachable p := by
  refine h.of_followedBy (B := fun s => s.world.registry.connIds.length < UInt64.size) ?_ ?_ ?_ hids
  · intro q hq hbound
    have hsame : q.shared.world.registry.wrap = q.shared.world.registry :=
      Registry.wrap_of_reachable (Registry.reachable_project (reachable_forget hq)) hbound
    rw [Layer.wrap, World.wrap, hsame]
  · intro i s task answer s' task' hact hbound
    rcases taskAct_forget hact with ⟨hworld, -⟩ | ⟨call, answer', -, hcall⟩
    · rw [← hworld]
      exact hbound
    · exact (Registry.callAct_length_connIds hcall).trans_lt hbound
  · intro s c s' hdrop hbound
    unfold streams drop at hdrop
    dsimp only at hdrop
    split at hdrop
    · cases hdrop
    · obtain ⟨w', hw', rfl⟩ := Option.map_eq_some_iff.1 hdrop
      obtain ⟨-, -, rfl⟩ := World.drop_cases hw'
      exact hbound

/-! ## One socket inside -/

/-- The call that a task has running on the socket of `c`. -/
def Work.on (c : Str) : Work → Option Call
  | .abort _ c' message pc _ _ => if c' = c then some (.push (.abort message) pc) else none
  | _ => none

@[inherit_doc Work.on]
def Task.on (c : Str) : Task → Option Call
  | .push c' call pc => if c' = c then some (.push call pc) else none
  | .pollRead c' buf true => if c' = c then some (.pollRead buf true) else none
  | .through _ work => work.on c
  | _ => none

def view (c : Str) (p : Pool Layer Task) : Pool Socket Call :=
  ⟨p.shared.sockets c, fun i => (p.tasks i).bind (Task.on c)⟩

theorem view_set (c : Str) (p : Pool Layer Task) (i : Nat) (s' : Layer) (task' : Option Task) :
    view c (p.set i s' task') = (view c p).set i (s'.sockets c) (task'.bind (Task.on c)) := by
  refine congrArg (Pool.mk (s'.sockets c)) (funext fun j => ?_)
  by_cases hj : j = i
  · rw [hj, Function.update_self]
    exact congrArg (Option.bind · _) (Function.update_self ..)
  · rw [Function.update_of_ne hj]
    exact congrArg (Option.bind · _) (Function.update_of_ne hj ..)

/-- What an action in slot `i` is for one socket: nothing, an action of the call there, or a call
that begins, at once with its first action or not. -/
inductive OnSocket (i : Nat) (s : Socket) : Option Call → Socket → Option Call → Prop
  | nothing {call : Option Call} : OnSocket i s call s call
  | acts (call : Call) : OnSocket i s (some call) (act i s call).1 (act i s call).2
  | begins {call : Call} (h : call.isFirst = true) : OnSocket i s none s (some call)
  | beginsAndActs {call : Call} (h : call.isFirst = true) :
      OnSocket i s none (act i s call).1 (act i s call).2

theorem move_begin {q : Pool Socket Call} {i : Nat} {call : Call} (hi : q.tasks i = none)
    (h : call.isFirst = true) : socket.move q (.begin i call) = some (q.set i q.shared (some call)) := by
  have hb : socket.begins q call = true := h
  simp [Object.move, hi, hb]

theorem move_act {q : Pool Socket Call} {i : Nat} {call : Call} (hi : q.tasks i = some call) :
    socket.move q (.act i ()) =
      some (q.set i (act i q.shared call).1 (act i q.shared call).2) := by
  have hact : socket.act i q.shared call () = some (act i q.shared call) := rfl
  simp [Object.move, hi, hact]

theorem OnSocket.leads {i : Nat} {q : Pool Socket Call} {s' : Socket} {call' : Option Call}
    (h : OnSocket i q.shared (q.tasks i) s' call') : socket.Leads q (q.set i s' call') := by
  generalize ht : q.tasks i = t at h
  cases h with
  | nothing =>
    rw [Pool.set, ← ht, Function.update_eq_self]
    exact .refl
  | acts => exact .single ⟨_, move_act ht⟩
  | begins hfirst => exact .single ⟨_, move_begin ht hfirst⟩
  | @beginsAndActs call hfirst =>
    have hbegun := move_begin ht hfirst
    have hacted := move_act (q := q.set i q.shared (some call)) (Pool.set_tasks_self ..)
    have hset : (q.set i q.shared (some call)).set i (act i q.shared call).1 (act i q.shared call).2 =
        q.set i (act i q.shared call).1 (act i q.shared call).2 := by
      simp [Pool.set]
    rw [Pool.set_shared, hset] at hacted
    exact .tail (.single ⟨_, hbegun⟩) ⟨_, hacted⟩

/-- A push goes on to its next stage or is over. -/
theorem pushAct_next (i : Nat) (s : Socket) (call : Push) (pc : PushPc) :
    (pushAct i s call pc).2 = (nextPc (pushAct i s call pc).2).map (.push call) := by
  cases pc with
  | check =>
    simp only [pushAct]
    split <;> rfl
  | update =>
    simp only [pushAct]
    split <;> rfl
  | wake => rfl

section OneSocket

variable {i : Nat} {s s' : Layer} {c : Str}

theorem sockets_setSocket (s : Layer) (c c' : Str) (socket : Socket) :
    (s.setSocket c' socket).sockets c = if c = c' then socket else s.sockets c :=
  Function.update_apply ..

/-- A push on one socket, seen from another or the same. -/
theorem onSocket_push {c' : Str} {call : Push} {pc : PushPc} {next : Option Call}
    (hnext : next = if c' = c then (pushAct i (s.sockets c') call pc).2 else none) :
    OnSocket i (s.sockets c) (if c' = c then some (.push call pc) else none)
      ((s.setSocket c' (pushAct i (s.sockets c') call pc).1).sockets c) next := by
  rw [sockets_setSocket]
  by_cases hc : c' = c
  · subst hc
    rw [if_pos rfl] at hnext
    rw [if_pos rfl, if_pos rfl, hnext]
    exact .acts (.push call pc)
  · rw [if_neg hc] at hnext
    rw [if_neg hc, if_neg (Ne.symm hc), hnext]
    exact .nothing

/-- A call on one socket that begins and acts, seen from another or the same. -/
theorem onSocket_begins {c' : Str} {call : Call} {next : Option Call} (hfirst : call.isFirst = true)
    (hnext : next = if c' = c then (act i (s.sockets c') call).2 else none) :
    OnSocket i (s.sockets c) none
      ((s.setSocket c' (act i (s.sockets c') call).1).sockets c) next := by
  rw [sockets_setSocket]
  by_cases hc : c' = c
  · subst hc
    rw [if_pos rfl] at hnext
    rw [if_pos rfl, hnext]
    exact .beginsAndActs hfirst
  · rw [if_neg hc] at hnext
    rw [if_neg (Ne.symm hc), hnext]
    exact .nothing

/-- The action of the registry itself is none on a socket. -/
theorem registryAct_on {s₁ : Layer} {stack : List Frame} {choice : Registry.Choice}
    {work' : Option Work} (h : registryAct s₁ stack choice = some (s', work')) :
    s'.sockets = s₁.sockets ∧ work'.bind (Work.on c) = none := by
  obtain ⟨f, rest, new, w', hin⟩ := registryAct_inside h
  rw [hin.layer, hin.work]
  refine ⟨rfl, ?_⟩
  cases Registry.running (new ++ rest) <;> rfl

theorem WorkStep.onSocket {work : Work} {work' : Option Work} (h : WorkStep i s work s' work')
    (hfresh : ∀ l, s.sockets (Registry.connId (s.world.registry.instances l).key
      s.world.registry.seq) = ⟨.new, []⟩) :
    OnSocket i (s.sockets c) (work.on c) (s'.sockets c) (work'.bind (Work.on c)) := by
  cases h with
  | writeClosed | writeBegun | writeActive | writeInactive | written | writeFoundClosed | writeFailed
  | closeActive | closeInactive | closed | closeFoundClosed | closeFailed | openSent => exact .nothing
  | shutdown hc => exact onSocket_begins rfl (by split <;> rfl)
  | closeSent | closeNotSent =>
    simp only [Work.on, Option.bind_some]
    split
    · exact .begins rfl
    · exact .nothing
  | issued h =>
    obtain ⟨hsockets, hon⟩ := registryAct_on (c := c) h
    rw [hsockets, hon, sockets_setSocket]
    split
    · next hc =>
      rw [hc, hfresh]
      exact .nothing
    · exact .nothing
  | inside h hopen hissue =>
    obtain ⟨hsockets, hon⟩ := registryAct_on (c := c) h
    rw [hsockets, hon]
    exact .nothing
  | awaited h =>
    obtain ⟨hsockets, hon⟩ := registryAct_on (c := c) h
    rw [hsockets, hon]
    exact .nothing
  | @aborting l c' message pc pc' cs rest h =>
    refine onSocket_push ?_
    rw [pushAct_next, h]
    rfl
  | aborted h hact =>
    obtain ⟨hsockets, hon⟩ := registryAct_on (c := c) hact
    rw [hsockets, hon]
    refine onSocket_push ?_
    rw [pushAct_next, h]
    split <;> rfl

/-- What an action is for the socket of `c`, on which it works only by that id. -/
theorem taskAct_onSocket {task : Task} {answer : Answer} {task' : Option Task}
    (h : taskAct i s task answer = some (s', task'))
    (hfresh : ∀ l, s.sockets (Registry.connId (s.world.registry.instances l).key
      s.world.registry.seq) = ⟨.new, []⟩) :
    OnSocket i (s.sockets c) (task.on c) (s'.sockets c) (task'.bind (Task.on c)) := by
  cases task with
  | pushEvent kind c' data message =>
    cases hcall : pushOf kind data message with
    | error error =>
      simp only [taskAct, hcall] at h
      cases h
      exact .nothing
    | ok call =>
      simp only [taskAct, hcall] at h
      split at h
      · cases h
        simp only [Option.bind_some, Task.on]
        split
        · exact .begins rfl
        · exact .nothing
      · cases h
        exact .nothing
  | push c' call pc =>
    simp only [taskAct] at h
    split at h
    · next pc' hpc =>
      cases h
      refine onSocket_push ?_
      rw [pushAct_next, hpc]
      rfl
    · next hpc =>
      cases h
      refine onSocket_push ?_
      rw [pushAct_next, hpc]
      cases call <;> simp [afterPush, Task.on, Work.on]
  | pollRead c' buf registered =>
    cases registered with
    | false =>
      simp only [taskAct] at h
      split at h
      · split at h
        · cases h
        · cases h
          exact onSocket_begins (s := s.setReading c' true) rfl rfl
      · cases h
    | true =>
      cases h
      simp only [Task.on, Option.bind_none]
      rw [sockets_setSocket]
      by_cases hc : c' = c
      · subst hc
        rw [if_pos rfl, if_pos rfl]
        exact .acts (.pollRead buf true)
      · rw [if_neg hc, if_neg (Ne.symm hc)]
        exact .nothing
  | through role work =>
    obtain ⟨⟨s₁, work'⟩, hwork, heq⟩ := Option.map_eq_some_iff.1 h
    have hon := (workAct_step hwork).onSocket (c := c) hfresh
    cases work' with
    | none => cases heq; exact hon
    | some work₂ => cases heq; exact hon

end OneSocket

/-! ### Ids before and after they are issued -/

/-- A deactivation of `l` still has to abort `c`. -/
def Aborts (l : Nat) (c : Str) : Frame → Prop
  | .deactivateListener l' (.loop cs) => l' = l ∧ c ∈ cs
  | _ => False

/-- The connections to abort come from the drain. -/
theorem aborts_of_step {w w' : Registry.State} {f : Frame} {new : List Frame}
    (h : Registry.FrameStep w f w' new) {l : Nat} {c : Str} :
    ∀ g ∈ new, Aborts l c g → Aborts l c f ∨ c ∈ w.connections l := by
  cases h with
  | drained hd =>
    intro g hg ha
    obtain rfl := List.mem_singleton.1 hg
    obtain ⟨rfl, hc⟩ := ha
    exact .inr (hd.2.1 c hc)
  | _ => simp +contextual [Aborts]

/-- A deactivation aborts connections that were attached to its listener. -/
def AbortsIssued (p : Pool Registry.State (List Frame)) : Prop :=
  ∀ f, Registry.Present p f → ∀ l c, Aborts l c f → Registry.Event.issued l c ∈ p.shared.history

theorem reachable_abortsIssued {p : Pool Registry.State (List Frame)}
    (h : Registry.registry.Reachable p) : AbortsIssued p := by
  refine h.induct ?_ ?_ ?_ ?_
  · rintro f ⟨i, stack, hstack, -⟩
    cases hstack
  · rintro p i stack hp ih hi hb f ⟨j, st, hst, hf⟩ l c ha
    rcases Pool.tasks_set_cases hst with ⟨-, hnew⟩ | ⟨-, hold⟩
    · cases hnew
      obtain ⟨g, rfl, hplain, -⟩ := Registry.begins_cases hb
      obtain rfl : f = g := List.mem_singleton.1 hf
      cases f with
      | deactivateListener l' pc =>
        cases of_decide_eq_true hplain
        exact ha.elim
      | _ => exact ha.elim
    · exact ih f ⟨j, st, hold, hf⟩ l c ha
  · intro p i choice stack w' stack' hp ih hi hact f hf l c ha
    obtain ⟨g, rest, new, rfl, hstep, rfl⟩ := Registry.act_step hact
    apply hstep.issued_mono
    rcases (Registry.replaces_set hi).old f hf with hnew | hold
    · rcases aborts_of_step hstep f hnew ha with hg | hc
      · exact ih g ⟨i, _, hi, List.mem_cons_self⟩ l c hg
      · exact (Registry.reachable_inv hp).known.attached c l hc
    · exact ih f hold l c ha
  · intro p e
    exact e.elim

def IsIssued (s : Layer) (c : Str) : Prop :=
  ∃ l, Registry.Event.issued l c ∈ s.world.registry.history

section Issued

variable {p p' : Pool Layer Task} {i : Nat} {s s' : Layer} {c : Str}

/-- The stack of a call is one of the registry. -/
theorem project_forget {role : Role} {work : Work} {stack : List Frame}
    (hi : p.tasks i = some (.through role work)) (hcode : work.code = .registry stack) :
    (Registry.project (forget p)).tasks i = some stack := by
  simp [Registry.project, forget, hi, Task.forget, hcode, Code.stack]

theorem present_of_stack {role : Role} {work : Work} {stack : List Frame} {f : Frame}
    (hi : p.tasks i = some (.through role work)) (hcode : work.code = .registry stack)
    (hf : f ∈ stack) : Registry.Present (Registry.project (forget p)) f :=
  ⟨i, stack, project_forget hi hcode, hf⟩

/-- Ids are issued before they have an entry, a socket of the proxy or a deactivation ahead. -/
structure Backed (s : Layer) (task : Task) : Prop where
  entries : ∀ c, (s.world.registry.sockets c).isSome = true → IsIssued s c
  streams : ∀ c, (s.world.streams c).isSome = true → IsIssued s c
  aborts : ∀ role stack, task = .through role (.registry stack) → ∀ f ∈ stack, ∀ l c, Aborts l c f →
    Registry.Event.issued l c ∈ s.world.registry.history

theorem backed (hp : streams.Reachable p) {task : Task} (hi : p.tasks i = some task) :
    Backed p.shared task := by
  have hforget := reachable_forget hp
  have hknown := (Registry.reachable_inv (Registry.reachable_project hforget)).known
  constructor
  · intro c hc
    obtain ⟨l, hl⟩ := Option.isSome_iff_exists.1 hc
    exact ⟨l, hknown.sockets c l hl⟩
  · intro c hc
    exact ((Registry.reachable_roles hforget).made c hc).1
  · rintro role stack rfl f hf l c ha
    exact reachable_abortsIssued (Registry.reachable_project hforget) f (present_of_stack hi rfl hf)
      l c ha

/-- Issued once, issued forever. -/
theorem taskAct_history {task : Task} {answer : Answer} {task' : Option Task}
    (h : taskAct i s task answer = some (s', task')) {l : Nat}
    (hc : Registry.Event.issued l c ∈ s.world.registry.history) :
    Registry.Event.issued l c ∈ s'.world.registry.history := by
  rcases taskAct_forget h with ⟨hworld, -⟩ | ⟨call, answer', -, hact⟩
  · rwa [hworld]
  · generalize hcall' : task'.bind Task.forget = call' at hact
    cases Registry.callAct_step hact with
    | outside _ hw => rwa [hw]
    | inside hframe hw =>
      rw [hw]
      exact (Registry.frameAct_step hframe).issued_mono hc

/-- The id that a connect gets has been issued to it. -/
theorem registryAct_issues {s₁ : Layer} {l : Nat} {rest : List Frame} {choice : Registry.Choice}
    {work' : Option Work}
    (h : registryAct s₁ (.connect l .nextConnId :: rest) choice = some (s', work')) :
    IsIssued s' (Registry.connId (s₁.world.registry.instances l).key s₁.world.registry.seq) := by
  obtain ⟨f, rest', new, w', hin⟩ := registryAct_inside h
  obtain ⟨rfl, rfl⟩ := List.cons.inj hin.stack_eq
  rw [hin.layer]
  have hstep := Registry.frameAct_step hin.frame
  cases hstep with
  | issued => exact ⟨l, List.mem_append_right _ List.mem_cons_self⟩

/-- An action changes the sockets of issued ids only, and leaves calls on these only. -/
theorem WorkStep.touches {work : Work} {work' : Option Work} {role : Role}
    (h : WorkStep i s work s' work') (hb : Backed s (.through role work))
    (hon : work.on c ≠ none → IsIssued s c)
    (ht : s'.sockets c ≠ s.sockets c ∨ work'.bind (Work.on c) ≠ none) :
    IsIssued s c ∨ IsIssued s' c := by
  have hsocket : ∀ {c' : Str} {socket : Socket}, (s.setSocket c' socket).sockets c ≠ s.sockets c →
      c = c' := by
    intro c' socket hne
    by_contra hc
    rw [sockets_setSocket, if_neg hc] at hne
    exact hne rfl
  cases h with
  | shutdown hc =>
    obtain rfl := hsocket (ht.resolve_right (by simp [Work.on]))
    exact .inl (hb.streams c (by rw [hc]; rfl))
  | @closeSent l c' cs rest =>
    obtain rfl : c' = c := by simpa [Work.on, Layer.send] using ht
    exact .inl ⟨l, hb.aborts role _ rfl _ List.mem_cons_self l c' ⟨rfl, List.mem_cons_self⟩⟩
  | @closeNotSent l c' cs rest =>
    obtain rfl : c' = c := by simpa [Work.on] using ht
    exact .inl ⟨l, hb.aborts role _ rfl _ List.mem_cons_self l c' ⟨rfl, List.mem_cons_self⟩⟩
  | issued h =>
    obtain ⟨hsockets, hwork⟩ := registryAct_on (c := c) h
    rw [hsockets, hwork] at ht
    rw [hsocket (ht.resolve_right (by simp))]
    have hissued := registryAct_issues h
    exact .inr hissued
  | inside h _ _ =>
    obtain ⟨hsockets, hwork⟩ := registryAct_on (c := c) h
    rw [hsockets, hwork] at ht
    simp at ht
  | awaited h =>
    obtain ⟨hsockets, hwork⟩ := registryAct_on (c := c) h
    rw [hsockets, hwork] at ht
    simp at ht
  | @aborting l c' message pc pc' cs rest h =>
    obtain rfl : c = c' := ht.elim hsocket fun hnone => by
      by_contra hc
      simp [Work.on, Ne.symm hc] at hnone
    exact .inl (hon (by simp [Work.on]))
  | aborted hpc hact =>
    obtain ⟨hsockets, hwork⟩ := registryAct_on (c := c) hact
    rw [hsockets, hwork] at ht
    obtain rfl := hsocket (ht.resolve_right (by simp))
    exact .inl (hon (by simp [Work.on]))
  | _ => simp [Work.on, Layer.send] at ht

theorem taskAct_touches {task : Task} {answer : Answer} {task' : Option Task}
    (h : taskAct i s task answer = some (s', task')) (hb : Backed s task)
    (hon : task.on c ≠ none → IsIssued s c)
    (ht : s'.sockets c ≠ s.sockets c ∨ task'.bind (Task.on c) ≠ none) : IsIssued s' c := by
  have hmono : IsIssued s c → IsIssued s' c := by
    rintro ⟨l, hl⟩
    exact ⟨l, taskAct_history h hl⟩
  have hsocket : ∀ {s₁ : Layer} {c' : Str} {socket : Socket}, s₁.sockets = s.sockets →
      (s₁.setSocket c' socket).sockets c ≠ s.sockets c → c = c' := by
    intro s₁ c' socket hs hne
    by_contra hc
    rw [sockets_setSocket, if_neg hc, hs] at hne
    exact hne rfl
  cases task with
  | pushEvent kind c' data message =>
    cases hcall : pushOf kind data message with
    | error error =>
      simp only [taskAct, hcall] at h
      cases h
      simp [Layer.refuse] at ht
    | ok call =>
      simp only [taskAct, hcall] at h
      split at h
      · next hentry =>
        cases h
        obtain rfl : c' = c := by simpa [Task.on] using ht
        exact hb.entries c' hentry
      · cases h
        simp [Layer.refuse] at ht
  | push c' call pc =>
    apply hmono
    apply hon
    suffices hc : c = c' by simp [Task.on, hc]
    simp only [taskAct] at h
    split at h
    · cases h
      refine ht.elim (hsocket rfl) fun hnone => ?_
      by_contra hc
      simp [Task.on, Ne.symm hc] at hnone
    · cases h
      refine ht.elim (hsocket rfl) fun hnone => ?_
      cases call <;> simp [afterPush, Task.on, Work.on] at hnone
  | pollRead c' buf registered =>
    cases registered with
    | false =>
      simp only [taskAct] at h
      split at h
      · next hc =>
        split at h
        · cases h
        · cases h
          obtain rfl : c = c' := ht.elim (hsocket rfl) fun hnone => by
            by_contra hne
            simp [Task.on, Ne.symm hne] at hnone
          exact hb.streams c (by rw [hc]; rfl)
      · cases h
    | true =>
      cases h
      obtain rfl := hsocket rfl (ht.resolve_right (by simp))
      exact hmono (hon (by simp [Task.on]))
  | through role work =>
    obtain ⟨⟨s₁, work'⟩, hwork, heq⟩ := Option.map_eq_some_iff.1 h
    have htouches := (workAct_step hwork).touches (c := c) hb hon
    cases work' with
    | none =>
      cases heq
      refine (htouches ht).elim hmono fun hissued => ?_
      rwa [IsIssued, Registry.World.registry_leave]
    | some work₂ =>
      cases heq
      exact (htouches ht).elim hmono id

/-- A call begins with nothing on a socket. -/
theorem on_of_begins {w : Registry.State} {task : Task} (h : begins w task = true) :
    task.on c = none := by
  cases task with
  | pushEvent => rfl
  | push => cases h
  | pollRead c' buf registered =>
    cases registered with
    | false => rfl
    | true => cases h
  | through role work =>
    cases work with
    | abort => cases h
    | _ => rfl

/-- The socket of an id is as new until the id is issued; only issued ids have calls on theirs. -/
structure Issued (p : Pool Layer Task) : Prop where
  fresh : ∀ c, ¬ IsIssued p.shared c → p.shared.sockets c = ⟨.new, []⟩
  running : p.All fun task => ∀ c, task.on c ≠ none → IsIssued p.shared c

theorem reachable_issued (h : streams.Reachable p) : Issued p := by
  refine h.induct ?_ ?_ ?_ ?_
  · exact ⟨fun c _ => rfl, fun i task hi => (nomatch hi)⟩
  · intro p i task hp ih hi hb
    refine ⟨ih.fresh, ih.running.set (fun _ _ _ _ => id) ?_⟩
    intro task' htask c hon
    cases htask
    exact (hon (on_of_begins hb)).elim
  · intro p i answer task s' task' hp ih hi hact
    have htouches : ∀ c, s'.sockets c ≠ p.shared.sockets c ∨ task'.bind (Task.on c) ≠ none →
        IsIssued s' c := fun c => taskAct_touches hact (backed hp hi) (ih.running i task hi c)
    have hmono : ∀ c, IsIssued p.shared c → IsIssued s' c := by
      rintro c ⟨l, hl⟩
      exact ⟨l, taskAct_history hact hl⟩
    constructor
    · intro c hc
      by_contra hne
      apply hc
      by_cases hsame : s'.sockets c = p.shared.sockets c
      · by_contra hno
        refine hne (hsame.trans (ih.fresh c fun hissued => hno (hmono c hissued)))
      · exact htouches c (.inl hsame)
    · refine ih.running.set (fun j t _ _ ht c hon => hmono c (ht c hon)) ?_
      rintro t rfl c hon
      exact htouches c (.inr hon)
  · intro p c s' hp ih hdrop
    simp only [streams, drop] at hdrop
    split at hdrop
    · cases hdrop
    · obtain ⟨w', hw', rfl⟩ := Option.map_eq_some_iff.1 hdrop
      obtain ⟨-, -, rfl⟩ := Registry.World.drop_cases hw'
      exact ⟨ih.fresh, ih.running⟩

/-- The next id is not issued, so its socket is as new. -/
theorem fresh_next (hp : streams.Reachable p) (l : Nat) :
    p.shared.sockets (Registry.connId (p.shared.world.registry.instances l).key
      p.shared.world.registry.seq) = ⟨.new, []⟩ := by
  apply (reachable_issued hp).fresh
  rintro ⟨l', hl'⟩
  have hinv := Registry.reachable_inv (Registry.reachable_project (reachable_forget hp))
  exact hinv.known.not_issued_next _ l' hl'

theorem view_move (hp : streams.Reachable p) {m : Move Task Answer Str}
    (h : streams.move p m = some p') : socket.Leads (view c p) (view c p') := by
  obtain ⟨i, task, rfl, hi, hb, rfl⟩ | ⟨i, answer, task, s', task', rfl, hi, hact, rfl⟩ |
    ⟨c', s', rfl, hdrop, rfl⟩ := Object.move_cases h
  · have hfree : (view c p).tasks i = none := by simp [view, hi]
    rw [view_set, Option.bind_some, on_of_begins hb, Pool.set, ← hfree, Function.update_eq_self]
    exact .refl
  · rw [view_set]
    apply OnSocket.leads
    have htask : (view c p).tasks i = task.on c := by simp [view, hi]
    rw [htask]
    exact taskAct_onSocket hact (fresh_next hp)
  · simp only [streams, drop] at hdrop
    split at hdrop
    · cases hdrop
    · obtain ⟨w', hw', rfl⟩ := Option.map_eq_some_iff.1 hdrop
      exact .refl

/-- **One socket inside**: what belongs to one id is a run of `socket`. -/
theorem reachable_view (h : streams.Reachable p) (c : Str) : socket.Reachable (view c p) :=
  h.simulates (view c) rfl fun _ _ _ hp => view_move hp

end Issued

/-! ### Streams do not mix -/

/-- The id that a call works on the socket of. -/
def Task.connId : Task → Option Str
  | .pushEvent _ c _ _ | .push c _ _ | .pollRead c _ _ => some c
  | .through _ (.pollShutdown c) | .through _ (.abort _ c _ _ _ _) => some c
  | .through _ _ => none

section Frame

variable {i : Nat} {s s' : Layer} {c : Str}

theorem sockets_setSocket_of_ne (s : Layer) {c c' : Str} (h : c' ≠ c) (socket : Socket) :
    (s.setSocket c' socket).sockets c = s.sockets c := by
  rw [sockets_setSocket, if_neg (Ne.symm h)]

theorem WorkStep.sockets_eq {role : Role} {work : Work} {work' : Option Work}
    (h : WorkStep i s work s' work') (hc : (Task.through role work).connId ≠ some c)
    (hfresh : ∀ l, s.sockets (Registry.connId (s.world.registry.instances l).key
      s.world.registry.seq) = ⟨.new, []⟩) : s'.sockets c = s.sockets c := by
  cases h with
  | shutdown => exact sockets_setSocket_of_ne s (fun h => hc (congrArg some h)) _
  | issued h =>
    rw [(registryAct_on (c := c) h).1, sockets_setSocket]
    split
    · next heq => rw [heq, hfresh]
    · rfl
  | inside h _ _ => rw [(registryAct_on (c := c) h).1]
  | awaited h => rw [(registryAct_on (c := c) h).1]
  | aborting => exact sockets_setSocket_of_ne s (fun h => hc (congrArg some h)) _
  | aborted _ h =>
    rw [(registryAct_on (c := c) h).1]
    exact sockets_setSocket_of_ne s (fun h => hc (congrArg some h)) _
  | _ => rfl

theorem taskAct_sockets_eq {task : Task} {answer : Answer} {task' : Option Task}
    (h : taskAct i s task answer = some (s', task')) (hc : task.connId ≠ some c)
    (hfresh : ∀ l, s.sockets (Registry.connId (s.world.registry.instances l).key
      s.world.registry.seq) = ⟨.new, []⟩) : s'.sockets c = s.sockets c := by
  cases task with
  | pushEvent kind c' data message =>
    cases hcall : pushOf kind data message with
    | error error =>
      simp only [taskAct, hcall] at h
      cases h
      rfl
    | ok call =>
      simp only [taskAct, hcall] at h
      split at h <;> cases h <;> rfl
  | push c' call pc =>
    simp only [taskAct] at h
    split at h <;> cases h <;>
      exact sockets_setSocket_of_ne s (fun h => hc (congrArg some h)) _
  | pollRead c' buf registered =>
    have hne : c' ≠ c := fun h => hc (congrArg some h)
    cases registered with
    | false =>
      simp only [taskAct] at h
      split at h
      · split at h
        · cases h
        · cases h
          exact sockets_setSocket_of_ne _ hne _
      · cases h
    | true =>
      cases h
      exact sockets_setSocket_of_ne _ hne _
  | through role work =>
    obtain ⟨⟨s₁, work'⟩, hwork, heq⟩ := Option.map_eq_some_iff.1 h
    have hsame := (workAct_step hwork).sockets_eq hc hfresh
    cases work' <;> cases heq <;> exact hsame

end Frame

/-- **The streams are queues of bytes that do not mix.** In every run, for every id: the bytes that
the reads of its socket have put into buffers, followed by what is still queued, are the payloads
accepted for this id in order; slot by slot these are the payloads of the pushes for it that have
returned `Ok`, and of one that only has to do so; and a call for another id leaves its socket
alone. -/
theorem streams_deliver_in_order {p : Pool Layer Task} (h : streams.Reachable p) (c : Str) :
    accepted (p.shared.sockets c).history =
      delivered (p.shared.sockets c).history ++ queued (p.shared.sockets c).state.read.pending ∧
    (∀ i, ofSlot i (acceptedCalls (p.shared.sockets c).history) =
      ofSlot i (okCalls (p.shared.sockets c).history) ++
        unreturned ((p.tasks i).bind (Task.on c))) ∧
    ∀ i task answer p', p.tasks i = some task → task.connId ≠ some c →
      streams.move p (.act i answer) = some p' → p'.shared.sockets c = p.shared.sockets c := by
  have hinv := reachable_inv (reachable_view h c)
  refine ⟨hinv.bytes, hinv.calls, ?_⟩
  intro i task answer p' hi hc hmove
  obtain ⟨j, t, hm, -⟩ | ⟨j, answer', t, s', task', hm, hj, hact, rfl⟩ | ⟨e, s', hm, -⟩ :=
    Object.move_cases hmove
  · cases hm
  · cases hm
    rw [hi] at hj
    cases hj
    exact taskAct_sockets_eq hact hc (fresh_next h)
  · cases hm

/-- The id of the first connect through `k`. -/
def firstId : Str := Registry.connId ['k'] 0

/-- A connect through a new listener. -/
def opening : List (Move Task Answer Str) :=
  [.begin 0 (.through .other (.registry [.registerListener ['k']])), .act 0 (.registry .go),
    .begin 0 (.through (.connect none) (.registry [.connect 0 .check]))] ++
  List.replicate 5 (.act 0 (.registry .go)) ++
  [.act 0 (.sent .ok)] ++ List.replicate 3 (.act 0 (.registry .go))

/-- Three bytes are pushed and two of them read, while a push by another id finds no socket. -/
def pushThenRead : List (Move Task Answer Str) :=
  opening ++
  [.begin 1 (.pushEvent "data".toList firstId (some [1, 2, 3]) none), .act 1 (.registry .go),
    .begin 0 (.pushEvent "data".toList ['x'] (some [7]) none), .act 0 (.registry .go)] ++
  List.replicate 3 (.act 1 (.registry .go)) ++
  [.begin 2 (.pollRead firstId ⟨[], 2, Nat.zero_le 2⟩ false), .act 2 (.registry .go),
    .act 2 (.registry .go)]

theorem streams_deliver_pushThenRead :
    ∃ p, streams.Reachable p ∧ delivered (p.shared.sockets firstId).history = [1, 2] ∧
      p.shared.refused = [(0, ['x'], "socket 'x' not found")] ∧
      accepted (p.shared.sockets firstId).history =
        [1, 2] ++ queued (p.shared.sockets firstId).state.read.pending ∧
      queued (p.shared.sockets firstId).state.read.pending = [3] := by
  obtain ⟨p, hrun, hdelivered, hrefused, hqueued⟩ : ∃ p,
      streams.run streams.start pushThenRead = some p ∧
      delivered (p.shared.sockets firstId).history = [1, 2] ∧
      p.shared.refused = [(0, ['x'], "socket 'x' not found")] ∧
      queued (p.shared.sockets firstId).state.read.pending = [3] := ⟨_, rfl, rfl, rfl, rfl⟩
  have hreach := Object.reachable_of_run hrun
  refine ⟨p, hreach, hdelivered, hrefused, ?_, hqueued⟩
  rw [← hdelivered]
  exact (streams_deliver_in_order hreach firstId).1

end Lonesome.VirtualJs.Streams
