import Lonesome.VirtualJs.Removal

/-!
# The lifetime of registry entries

`src/virtual_js/registry.rs`, `registry_api.rs` and `socket.rs` around the registry. A connect puts
its id into `sockets` and into the connections of its listener, and hands a `VirtualJsSocket` to the
proxy. The entries go when JavaScript ends the stream, when the socket is shut down, when the connect
fails or when the listener is deactivated; a socket that is just dropped, or a connect that is just
cancelled, runs none of this.

With the sockets of the proxy around it the registry makes the same moves (`reachable_project`), so
all that is known of its runs carries over. The entries never outlive their owners exactly if no
owner goes before a detach of its id is through (`entries_owned_iff`).
-/

namespace Lonesome.VirtualJs.Registry

open Lonesome.Interleaving

/-! ## The sockets of the proxy -/

/-- A poll borrows its socket, so it is neither polled again nor dropped meanwhile. -/
inductive Use
  | idle
  | polled
  | dropped
deriving DecidableEq

structure VirtualJsSocket where
  listener : Nat
  use : Use

/-- The registry, and the `VirtualJsSocket` of each id once its connect has returned it. -/
structure World where
  registry : State
  streams : Str → Option VirtualJsSocket

namespace World

def setUse (w : World) (c : Str) (change : Use → Use) : World :=
  { w with
    streams := Function.update w.streams c
      ((w.streams c).map fun s => { s with use := change s.use }) }

/-- What the last action of a connect does beside the registry: `VirtualJsSocket::new`. -/
def streamsAfter (w : World) : List Frame → Str → Option VirtualJsSocket
  | [.connect l (.socketState c)] =>
    if (w.registry.sockets c).isSome then Function.update w.streams c (some ⟨l, .idle⟩)
    else w.streams
  | _ => w.streams

/-- A socket that has not been dropped. -/
def Alive (w : World) (c : Str) : Prop := ∃ s, w.streams c = some s ∧ s.use ≠ .dropped

end World

/-- The kinds of `push_event`. -/
inductive PushKind
  | data
  | eof
  | error

/-- The status of a call of `on_event`; `closed` is what `tsfn_closed` accepts. -/
inductive Status
  | ok
  | closed
  | failed

/-- What a call has ahead: `on_write` and `on_close` before and after they have checked the listener,
and whatever runs inside the registry. -/
inductive Code
  | pushEvent (kind : PushKind) (connId : Str)
  | pollWrite (connId : Str)
  | pollShutdown (connId : Str)
  | onWrite (listener : Nat) (connId : Str) (checked : Bool)
  | onClose (listener : Nat) (connId : Str) (checked : Bool)
  | registry (stack : List Frame)

/-- What is decided elsewhere: the choices of the registry, whether a written socket has its `closed`
flag set, and how a call of `on_event` ends. -/
inductive Answer
  | registry (choice : Choice)
  | socketClosed
  | sent (status : Status)

def codeAct (w : World) : Code → Answer → Option (World × Option Code)
  | .pushEvent .data _, _ => some (w, none)
  | .pushEvent _ c, _ =>
    if (w.registry.sockets c).isSome then some (w, some (.registry [.detachSocketState c .api]))
    else some (w, none)
  | .pollWrite c, answer =>
    match w.streams c with
    | some ⟨l, .idle⟩ =>
      match answer with
      | .socketClosed => some (w, none)
      | _ => some (w.setUse c fun _ => .polled, some (.onWrite l c false))
    | _ => none
  | .pollShutdown c, _ =>
    match w.streams c with
    | some ⟨l, .idle⟩ => some (w.setUse c fun _ => .polled, some (.onClose l c false))
    | _ => none
  | .onWrite l c false, _ =>
    if w.registry.isActive l then some (w, some (.onWrite l c true)) else some (w, none)
  | .onWrite _ c true, .sent .closed => some (w, some (.registry [.deactivateSocketListener c]))
  | .onWrite _ _ true, .sent _ => some (w, none)
  | .onClose l c false, _ =>
    if w.registry.isActive l then some (w, some (.onClose l c true))
    else some (w, some (.registry [.detachSocketState c .api]))
  | .onClose _ c true, .sent .ok => some (w, some (.registry [.detachSocketState c .api]))
  | .onClose _ c true, .sent .closed => some (w, some (.registry [.deactivateSocketListener c]))
  | .onClose _ _ true, .sent .failed => some (w, none)
  | .registry stack, .registry choice =>
    (act w.registry stack choice).map fun r => (⟨r.1, w.streamsAfter stack⟩, r.2.map .registry)
  | _, _ => none

/-- Who a call is made for: a connect, with its id once it has one, or the poll of a socket. -/
inductive Role
  | connect (connId : Option Str)
  | poll (connId : Str)
  | other

/-- A connect has its id from `next_conn_id` on. -/
def Role.after (role : Role) : Code → Role
  | .registry [.connect _ (.attach c)] => .connect (some c)
  | _ => role

/-- The end of a poll gives its socket back. -/
def World.leave (w : World) : Role → World
  | .poll c => w.setUse c fun use => if use = .polled then .idle else use
  | _ => w

structure Call where
  role : Role
  code : Code

def callAct (w : World) (call : Call) (answer : Answer) : Option (World × Option Call) :=
  (codeAct w call.code answer).map fun r =>
    match r.2 with
    | none => (r.1.leave call.role, none)
    | some code => (r.1, some ⟨call.role.after code, code⟩)

/-- The calls that begin: of the JavaScript API, of the connectors of existing listeners, and polls,
which get no further than to borrow their socket. -/
def callBegins (w : State) : Call → Bool
  | ⟨.other, .registry [.registerListener _]⟩ | ⟨.other, .registry [.unregisterListener _]⟩ => true
  | ⟨.other, .pushEvent _ _⟩ => true
  | ⟨.connect none, .registry [.connect l .check]⟩ => l < w.created
  | ⟨.poll c, .pollWrite c'⟩ | ⟨.poll c, .pollShutdown c'⟩ => c = c'
  | _ => false

/-- The proxy drops the socket of an id, whatever was polled of it before. -/
def World.drop (w : World) (c : Str) : Option World :=
  match w.streams c with
  | some ⟨_, .idle⟩ => some (w.setUse c fun _ => .dropped)
  | _ => none

/-- The connections of the virtual upstreams, as the proxy and JavaScript use them. -/
def connections : Object World Call Answer Str where
  initial := ⟨.init, fun _ => none⟩
  begins p call := callBegins p.shared.registry call
  act _ := callAct
  env := World.drop

/-! ### What a call does -/

namespace World

/-- The same sockets have been made, and the same ones live. -/
structure SameStreams (w w' : World) : Prop where
  made : ∀ c, (w'.streams c).isSome = (w.streams c).isSome
  alive : ∀ c, w'.Alive c ↔ w.Alive c

theorem SameStreams.of_eq {w w' : World} (h : w'.streams = w.streams) : SameStreams w w' where
  made c := by rw [h]
  alive c := by rw [Alive, h, Alive]

theorem streams_setUse (w : World) (c c' : Str) (change : Use → Use) :
    (w.setUse c change).streams c' =
      if c' = c then (w.streams c).map fun s => { s with use := change s.use }
      else w.streams c' :=
  Function.update_apply ..

theorem isSome_setUse (w : World) (c c' : Str) (change : Use → Use) :
    ((w.setUse c change).streams c').isSome = (w.streams c').isSome := by
  rw [streams_setUse]
  split
  · next h => rw [Option.isSome_map, h]
  · rfl

theorem alive_setUse_of_ne (w : World) {c c' : Str} (h : c' ≠ c) (change : Use → Use) :
    (w.setUse c change).Alive c' ↔ w.Alive c' := by
  rw [Alive, streams_setUse, if_neg h, Alive]

/-- A change that neither drops a socket nor brings one back. -/
theorem sameStreams_setUse {w : World} {c : Str} {change : Use → Use}
    (h : ∀ s, w.streams c = some s → (change s.use = .dropped ↔ s.use = .dropped)) :
    SameStreams w (w.setUse c change) where
  made c' := isSome_setUse ..
  alive c' := by
    by_cases hc : c' = c
    · rw [hc, Alive, streams_setUse, if_pos rfl, Alive]
      cases hs : w.streams c with
      | none => simp
      | some s => simpa using not_congr (h s hs)
    · exact alive_setUse_of_ne w hc change

theorem sameStreams_leave (w : World) (role : Role) : SameStreams w (w.leave role) := by
  cases role with
  | poll c =>
    rw [leave]
    refine sameStreams_setUse fun s _ => ?_
    cases s.use <;> simp
  | connect | other => exact .of_eq rfl

theorem registry_leave (w : World) (role : Role) : (w.leave role).registry = w.registry := by
  cases role <;> rfl

end World

def Code.stack : Code → Option (List Frame)
  | .registry stack => some stack
  | _ => none

/-- Code outside of the registry returns or goes on, at most into one of two calls of it. -/
def Code.Enters (code : Code) : Prop :=
  code.stack = none ∨ ∃ c, code = .registry [.detachSocketState c .api] ∨
    code = .registry [.deactivateSocketListener c]

theorem Code.Enters.after {code : Code} (h : code.Enters) (role : Role) : role.after code = role := by
  rcases h with h | ⟨c, rfl | rfl⟩
  · cases code with
    | registry stack => cases h
    | _ => rfl
  · rfl
  · rfl

theorem codeAct_outside {w w' : World} {code : Code} {answer : Answer} {code' : Option Code}
    (hcode : code.stack = none) (h : codeAct w code answer = some (w', code')) :
    w'.registry = w.registry ∧ w.SameStreams w' ∧ ∀ code₂, code' = some code₂ → code₂.Enters := by
  have hsame : w.SameStreams w := .of_eq rfl
  have hpolled : ∀ c l, w.streams c = some ⟨l, .idle⟩ →
      w.SameStreams (w.setUse c fun _ => .polled) := by
    intro c l hc
    refine World.sameStreams_setUse fun s hs => ?_
    rw [hc, Option.some.injEq] at hs
    simp [← hs]
  cases code with
  | registry stack => cases hcode
  | pushEvent kind c =>
    cases kind with
    | data =>
      cases h
      exact ⟨rfl, hsame, by simp⟩
    | eof | error =>
      simp only [codeAct] at h
      split at h <;> cases h
      · exact ⟨rfl, hsame, by simp [Code.Enters]⟩
      · exact ⟨rfl, hsame, by simp⟩
  | pollWrite c =>
    simp only [codeAct] at h
    split at h
    · next l hc =>
      split at h <;> cases h
      · exact ⟨rfl, hsame, by simp⟩
      · exact ⟨rfl, hpolled c l hc, by simp [Code.Enters, Code.stack]⟩
    · cases h
  | pollShutdown c =>
    simp only [codeAct] at h
    split at h
    · next l hc =>
      cases h
      exact ⟨rfl, hpolled c l hc, by simp [Code.Enters, Code.stack]⟩
    · cases h
  | onWrite l c checked =>
    cases checked with
    | false =>
      simp only [codeAct] at h
      split at h <;> cases h
      · exact ⟨rfl, hsame, by simp [Code.Enters, Code.stack]⟩
      · exact ⟨rfl, hsame, by simp⟩
    | true =>
      cases answer with
      | sent status =>
        cases status <;> cases h <;> exact ⟨rfl, hsame, by simp [Code.Enters]⟩
      | _ => cases h
  | onClose l c checked =>
    cases checked with
    | false =>
      simp only [codeAct] at h
      split at h <;> cases h <;> exact ⟨rfl, hsame, by simp [Code.Enters, Code.stack]⟩
    | true =>
      cases answer with
      | sent status =>
        cases status <;> cases h <;> exact ⟨rfl, hsame, by simp [Code.Enters]⟩
      | _ => cases h

/-- A call with `stack` ahead inside the registry. -/
def Call.ofStack (role : Role) (stack : List Frame) : Option Call :=
  (running stack).map fun st => ⟨role.after (.registry st), .registry st⟩

theorem Call.ofStack_eq_some {role : Role} {stack : List Frame} {call : Call}
    (h : Call.ofStack role stack = some call) :
    stack ≠ [] ∧ call = ⟨role.after (.registry stack), .registry stack⟩ := by
  obtain ⟨st, hst, rfl⟩ := Option.map_eq_some_iff.1 h
  obtain rfl := running_eq_some hst
  refine ⟨?_, rfl⟩
  rintro rfl
  cases hst

theorem Call.ofStack_of_ne (role : Role) {stack : List Frame} (h : stack ≠ []) :
    Call.ofStack role stack = some ⟨role.after (.registry stack), .registry stack⟩ := by
  cases stack with
  | nil => exact (h rfl).elim
  | cons f rest => rfl

theorem Call.stack_ofStack (role : Role) (stack : List Frame) :
    (Call.ofStack role stack).bind (·.code.stack) = running stack := by
  cases stack <;> rfl

/-- One action of a call: outside of the registry, or an action of its top frame there. -/
inductive CallStep (w : World) : Call → Answer → World → Option Call → Prop
  | outside {call : Call} {answer : Answer} {w' : World} {call' : Option Call}
      (hcode : call.code.stack = none) (hw : w'.registry = w.registry) (hs : w.SameStreams w')
      (hnew : ∀ call₂, call' = some call₂ → call₂.role = call.role ∧ call₂.code.Enters) :
      CallStep w call answer w' call'
  | inside {role : Role} {f : Frame} {rest new : List Frame} {choice : Choice} {s' : State}
      {w' : World} (h : frameAct w.registry f choice = some (s', new)) (hw : w'.registry = s')
      (hs : (World.mk s' (w.streamsAfter (f :: rest))).SameStreams w') :
      CallStep w ⟨role, .registry (f :: rest)⟩ (.registry choice) w' (Call.ofStack role (new ++ rest))

theorem callAct_step {w w' : World} {call : Call} {answer : Answer} {call' : Option Call}
    (h : callAct w call answer = some (w', call')) : CallStep w call answer w' call' := by
  obtain ⟨⟨w₁, code'⟩, hcode, heq⟩ := Option.map_eq_some_iff.1 h
  obtain ⟨role, code⟩ := call
  cases hstack : code.stack with
  | none =>
    obtain ⟨hw, hs, henters⟩ := codeAct_outside hstack hcode
    cases code' with
    | none =>
      cases heq
      have hleave := w₁.sameStreams_leave role
      refine .outside hstack ((w₁.registry_leave role).trans hw) ⟨fun c => ?_, fun c => ?_⟩ (by simp)
      · rw [hleave.made, hs.made]
      · rw [hleave.alive, hs.alive]
    | some code₂ =>
      cases heq
      have hrole := (henters code₂ rfl).after role
      refine .outside hstack hw hs fun call₂ hcall => ?_
      cases hcall
      exact ⟨hrole, henters code₂ rfl⟩
  | some stack =>
    cases code with
    | registry stack =>
      cases answer with
      | registry choice =>
        obtain ⟨⟨s', stack'⟩, hact, hr⟩ := Option.map_eq_some_iff.1 hcode
        cases hr
        obtain ⟨f, rest, new, rfl, hframe, rfl⟩ := act_frameAct hact
        cases hrun : running (new ++ rest) with
        | none =>
          rw [hrun] at heq
          cases heq
          have hinside : CallStep w ⟨role, .registry (f :: rest)⟩ (.registry choice) _ _ :=
            .inside hframe (World.registry_leave ⟨s', _⟩ role) (World.sameStreams_leave _ role)
          rwa [Call.ofStack, hrun] at hinside
        | some st =>
          rw [hrun] at heq
          cases heq
          have hinside : CallStep w ⟨role, .registry (f :: rest)⟩ (.registry choice) ⟨s', _⟩ _ :=
            .inside hframe rfl (.of_eq rfl)
          rwa [Call.ofStack, hrun] at hinside
      | _ => cases hcode
    | _ => cases hstack

theorem World.drop_cases {w w' : World} {c : Str} (h : w.drop c = some w') :
    ∃ l, w.streams c = some ⟨l, .idle⟩ ∧ w' = w.setUse c fun _ => .dropped := by
  unfold World.drop at h
  split at h
  · next l hc =>
    cases h
    exact ⟨l, hc, rfl⟩
  · cases h

/-! ### The registry inside -/

/-- The registry and the calls inside it. -/
def project (p : Pool World Call) : Pool State (List Frame) :=
  ⟨p.shared.registry, fun i => (p.tasks i).bind (·.code.stack)⟩

theorem project_set (p : Pool World Call) (i : Nat) (w' : World) (call' : Option Call) :
    project (p.set i w' call') =
      (project p).set i w'.registry (call'.bind (·.code.stack)) := by
  refine congrArg (Pool.mk w'.registry) (funext fun j => ?_)
  by_cases hj : j = i
  · rw [hj, Function.update_self]
    exact congrArg (Option.bind · _) (Function.update_self ..)
  · rw [Function.update_of_ne hj]
    exact congrArg (Option.bind · _) (Function.update_of_ne hj ..)

/-- Nothing happens inside when a call without a frame there gets none. -/
theorem project_set_none {p : Pool World Call} {i : Nat} {w' : World} {call' : Option Call}
    (hi : (project p).tasks i = none) (hw : w'.registry = p.shared.registry)
    (hcall : call'.bind (·.code.stack) = none) : project (p.set i w' call') = project p := by
  rw [project_set, hcall, hw, Pool.set, ← hi, Function.update_eq_self]
  rfl

theorem callBegins_cases {w : State} {call : Call} (h : callBegins w call = true) :
    (call.code.stack = none ∧ ∀ id, call.role ≠ .connect id) ∨
    (∃ stack, call = ⟨.other, .registry stack⟩ ∧ begins w stack = true ∧
      ∀ c, ¬ HasId c stack) ∨
    ∃ l, call = ⟨.connect none, .registry [.connect l .check]⟩ ∧ l < w.created := by
  unfold callBegins at h
  split at h
  · exact .inr (.inl ⟨_, rfl, rfl, by simp [HasId, Frame.connId]⟩)
  · exact .inr (.inl ⟨_, rfl, rfl, by simp [HasId, Frame.connId]⟩)
  · exact .inl ⟨rfl, by simp⟩
  · exact .inr (.inr ⟨_, rfl, of_decide_eq_true h⟩)
  · exact .inl ⟨rfl, by simp⟩
  · exact .inl ⟨rfl, by simp⟩
  · cases h

theorem project_begin {p : Pool World Call} {i : Nat} {stack : List Frame} {w' : World}
    {call : Call} (hi : (project p).tasks i = none) (hw : w'.registry = p.shared.registry)
    (hstack : call.code.stack = some stack) (hb : begins p.shared.registry stack = true) :
    registry.Leads (project p) (project (p.set i w' (some call))) := by
  refine .single ⟨.begin i stack, ?_⟩
  rw [project_set, hw]
  have hbegins : registry.begins (project p) stack = true := hb
  simp only [Object.move, hi, hbegins, Option.isNone_none, Bool.and_self, if_pos, Option.bind_some,
    hstack]
  rfl

theorem project_move {p p' : Pool World Call} {m : Move Call Answer Str}
    (h : connections.move p m = some p') : registry.Leads (project p) (project p') := by
  have hfree : ∀ {i}, p.tasks i = none → (project p).tasks i = none := by
    intro i hi
    simp [project, hi]
  obtain ⟨i, call, rfl, hi, hb, rfl⟩ | ⟨i, answer, call, w', call', rfl, hi, hact, rfl⟩ |
    ⟨c, w', rfl, hdrop, rfl⟩ := Object.move_cases h
  · rcases callBegins_cases hb with ⟨hcode, -⟩ | ⟨stack, rfl, hbegins, -⟩ | ⟨l, rfl, hl⟩
    · rw [project_set_none (hfree hi) rfl (by simpa using hcode)]
      exact .refl
    · exact project_begin (hfree hi) rfl rfl hbegins
    · exact project_begin (hfree hi) rfl rfl (decide_eq_true hl)
  · cases callAct_step hact with
    | outside hcode hw hs hnew =>
      have hout : (project p).tasks i = none := by simp [project, hi, hcode]
      cases call' with
      | none =>
        rw [project_set_none hout hw rfl]
        exact .refl
      | some call₂ =>
        rcases (hnew call₂ rfl).2 with hstack | ⟨c, hcode | hcode⟩
        · rw [project_set_none hout hw (by simpa using hstack)]
          exact .refl
        · exact project_begin hout hw (by rw [hcode]; rfl) rfl
        · exact project_begin hout hw (by rw [hcode]; rfl) rfl
    | @inside role f rest new choice s' _ hframe hw hs =>
      have hin : (project p).tasks i = some (f :: rest) := by simp [project, hi, Code.stack]
      rw [project_set, hw, Call.stack_ofStack]
      exact leads_act hin choice hframe
  · obtain ⟨-, -, rfl⟩ := World.drop_cases hdrop
    exact .refl

theorem reachable_project {p : Pool World Call} (h : connections.Reachable p) :
    registry.Reachable (project p) :=
  h.map project rfl fun _ _ _ => project_move

/-! ### The counter of the source -/

def World.wrap (w : World) : World := { w with registry := w.registry.wrap }

theorem callAct_length_connIds {w w' : World} {call : Call} {answer : Answer} {call' : Option Call}
    (h : callAct w call answer = some (w', call')) :
    w.registry.connIds.length ≤ w'.registry.connIds.length := by
  cases callAct_step h with
  | outside _ hw => rw [hw]
  | inside hframe hw =>
    rw [hw]
    exact (frameAct_step hframe).length_connIds

/-- What holds of the connections holds with a counter that wraps until 2^64 ids have been taken. -/
theorem connections_of_wrapping {p : Pool World Call} (h : (connections.followedBy World.wrap).Reachable p)
    (hids : p.shared.registry.connIds.length < UInt64.size) : connections.Reachable p := by
  refine h.of_followedBy (B := fun w => w.registry.connIds.length < UInt64.size) ?_ ?_ ?_ hids
  · intro q hq hbound
    have hsame : q.shared.registry.wrap = q.shared.registry :=
      wrap_of_reachable (reachable_project hq) hbound
    rw [World.wrap, hsame]
  · exact fun i w call answer w' call' hact hbound => (callAct_length_connIds hact).trans_lt hbound
  · intro w c w' hdrop hbound
    obtain ⟨-, -, rfl⟩ := World.drop_cases hdrop
    exact hbound

/-! ## The owner of an id -/

def Connect.isFresh : Connect → Bool
  | .check | .nextConnId => true
  | _ => false

/-- A running connect of an id. -/
def Call.Connects (c : Str) (call : Call) : Prop := call.role = .connect (some c)

/-- A call works on an id only as its connect, which is at the bottom of the stack; ids of connects
and of sockets have been issued, and an id has one connect and then a socket. -/
structure Roles (p : Pool World Call) : Prop where
  named : p.All fun call => ∀ stack, call.code.stack = some stack → ∀ c, HasId c stack →
    call.Connects c
  bottom : p.All fun call => ∀ id, call.role = .connect id →
    ∃ stack l pc, call.code = .registry stack ∧ stack.getLast? = some (.connect l pc) ∧
      pc.isFresh = id.isNone
  issued : p.All fun call => ∀ c, call.Connects c →
    ∃ l, Event.issued l c ∈ p.shared.registry.history
  once : ∀ c, p.AtMostOne (Call.Connects c)
  made : ∀ c, (p.shared.streams c).isSome = true →
    (∃ l, Event.issued l c ∈ p.shared.registry.history) ∧ ¬ p.Any (Call.Connects c)

/-- A step issues an id, or works on the one its frame had, if any. -/
theorem FrameStep.issues {w w' : State} {f : Frame} {new : List Frame} (h : FrameStep w f w' new) :
    (∃ l c, f = .connect l .nextConnId ∧ new = [.connect l (.attach c)] ∧
      c = Registry.connId (w.instances l).key w.seq ∧ Event.issued l c ∈ w'.history) ∨
    (∀ l c, new ≠ [.connect l (.attach c)]) ∧ ∀ c, HasId c new → f.connId = some c := by
  cases h with
  | @issued l => exact .inl ⟨l, _, rfl, rfl, rfl, List.mem_append_right _ List.mem_cons_self⟩
  | _ => exact .inr ⟨by simp, by simp [HasId, Frame.connId, Connect.connId]⟩

/-- A connect stays at the bottom of its stack. -/
theorem FrameStep.getLast? {w w' : State} {l : Nat} {pc : Connect} {new : List Frame}
    (h : FrameStep w (.connect l pc) w' new) (hpc : ∀ c, new ≠ [.connect l (.attach c)]) :
    new = [] ∨ ∃ pc', new.getLast? = some (.connect l pc') ∧ pc'.isFresh = pc.isFresh := by
  cases h with
  | issued => exact (hpc _ rfl).elim
  | checkRefused | attachRefused | cancelled | connected | notFound | failed => exact .inl rfl
  | _ => exact .inr ⟨_, rfl, rfl⟩

theorem FrameStep.socketState_returns {w w' : State} {l : Nat} {c : Str} {new : List Frame}
    (h : FrameStep w (.connect l (.socketState c)) w' new) : new = [] := by
  cases h <;> rfl

theorem FrameStep.issued_mono {w w' : State} {f : Frame} {new : List Frame}
    (h : FrameStep w f w' new) {l : Nat} {c : Str} (hc : Event.issued l c ∈ w.history) :
    Event.issued l c ∈ w'.history := by
  obtain ⟨events, hevents, -⟩ := h.logs
  rw [hevents]
  exact List.mem_append_left _ hc

/-- A socket is made as its connect returns with the entry at hand. -/
theorem World.streamsAfter_cases (w : World) (stack : List Frame) (c : Str) :
    w.streamsAfter stack c = w.streams c ∨
      ∃ l, stack = [.connect l (.socketState c)] ∧ w.registry.sockets c ≠ none ∧
        w.streamsAfter stack c = some ⟨l, .idle⟩ := by
  unfold World.streamsAfter
  split
  · next l c' =>
    split
    · next hs =>
      by_cases hc : c = c'
      · rw [← hc] at hs ⊢
        exact .inr ⟨l, rfl, Option.isSome_iff_ne_none.1 hs, Function.update_self ..⟩
      · exact .inl (Function.update_of_ne hc ..)
    · exact .inl rfl
  · exact .inl rfl

/-- A call that works on no id: its connect, if it is one, has only begun. -/
structure Call.Nameless (call : Call) : Prop where
  ids : ∀ stack, call.code.stack = some stack → ∀ c, ¬ HasId c stack
  fresh : ∀ id, call.role = .connect id → id = none ∧ ∃ l, call.code = .registry [.connect l .check]

theorem Call.Nameless.not_connects {call : Call} (h : call.Nameless) (c : Str) :
    ¬ call.Connects c := by
  intro hc
  cases (h.fresh _ hc).1

theorem nameless_of_begins {w : State} {call : Call} (h : callBegins w call = true) :
    call.Nameless := by
  rcases callBegins_cases h with ⟨hcode, hrole⟩ | ⟨stack, rfl, -, hno⟩ | ⟨l, rfl, -⟩
  · exact ⟨by simp [hcode], fun id hid => (hrole id hid).elim⟩
  · refine ⟨fun st hst => ?_, fun id hid => (nomatch hid)⟩
    cases hst
    exact hno
  · refine ⟨fun st hst => ?_, fun id hid => ?_⟩
    · cases hst
      simp [HasId, Frame.connId, Connect.connId]
    · cases hid
      exact ⟨rfl, l, rfl⟩

theorem Code.Enters.not_hasId {code : Code} (h : code.Enters) {stack : List Frame}
    (hstack : code.stack = some stack) (c : Str) : ¬ HasId c stack := by
  rcases h with hnone | ⟨c', rfl | rfl⟩
  · rw [hnone] at hstack
    cases hstack
  · cases hstack
    simp [HasId, Frame.connId]
  · cases hstack
    simp [HasId, Frame.connId]

namespace Roles

variable {p : Pool World Call} {i : Nat}

/-- A call goes on without an id, or ends that way. -/
theorem nameless (hp : Roles p) {w' : World} {call' : Option Call}
    (hw : w'.registry = p.shared.registry)
    (hs : ∀ c, (w'.streams c).isSome = (p.shared.streams c).isSome)
    (hnew : ∀ call₂, call' = some call₂ → call₂.Nameless) : Roles (p.set i w' call') := by
  constructor
  · refine hp.named.set (fun _ _ _ _ h => h) fun call₂ hcall stack hstack c hc => ?_
    exact ((hnew call₂ hcall).ids stack hstack c hc).elim
  · refine hp.bottom.set (fun _ _ _ _ h => h) fun call₂ hcall id hid => ?_
    obtain ⟨rfl, l, hcode⟩ := (hnew call₂ hcall).fresh id hid
    exact ⟨_, l, .check, hcode, rfl, rfl⟩
  · rw [Pool.set_shared, hw]
    refine hp.issued.set (fun _ _ _ _ h => h) fun call₂ hcall c hc => ?_
    exact ((hnew call₂ hcall).not_connects c hc).elim
  · intro c
    exact (hp.once c).set fun call₂ hcall hc => ((hnew call₂ hcall).not_connects c hc).elim
  · intro c hc
    rw [Pool.set_shared, hs] at hc
    rw [Pool.set_shared, hw]
    refine ⟨(hp.made c hc).1, fun hany => (hp.made c hc).2 (hany.of_set fun call₂ hcall hc => ?_)⟩
    exact ((hnew call₂ hcall).not_connects c hc).elim

/-- Only calls inside the registry are connects. -/
theorem role_ne (hp : Roles p) {call : Call} (h : p.tasks i = some call)
    (hcode : call.code.stack = none) (id : Option Str) : call.role ≠ .connect id := by
  intro hid
  obtain ⟨stack, l, pc, heq, -⟩ := hp.bottom i call h id hid
  rw [heq] at hcode
  cases hcode

theorem outside (hp : Roles p) {call : Call} {w' : World} {call' : Option Call}
    (h : p.tasks i = some call) (hcode : call.code.stack = none)
    (hw : w'.registry = p.shared.registry) (hs : p.shared.SameStreams w')
    (hnew : ∀ call₂, call' = some call₂ → call₂.role = call.role ∧ call₂.code.Enters) :
    Roles (p.set i w' call') := by
  refine hp.nameless hw hs.made fun call₂ hcall => ?_
  obtain ⟨hrole, henters⟩ := hnew call₂ hcall
  refine ⟨fun stack hstack => henters.not_hasId hstack, fun id hid => ?_⟩
  exact (hp.role_ne h hcode id (hrole.symm.trans hid)).elim

theorem issue (hp : Roles p) (hknown : Known p.shared.registry (Present (project p))) {l : Nat}
    {c key : Str} {w' : World} (hc : c = connId key p.shared.registry.seq)
    (hmono : ∀ l' c', Event.issued l' c' ∈ p.shared.registry.history →
      Event.issued l' c' ∈ w'.registry.history)
    (hissued : Event.issued l c ∈ w'.registry.history)
    (hs : ∀ c', (w'.streams c').isSome = (p.shared.streams c').isSome) :
    Roles (p.set i w' (some ⟨.connect (some c), .registry [.connect l (.attach c)]⟩)) := by
  have hfresh : ∀ l', Event.issued l' c ∉ p.shared.registry.history := by
    rw [hc]
    exact hknown.not_issued_next key
  have hno : ¬ p.Any (Call.Connects c) := by
    rintro ⟨j, call, hcall, hconnects⟩
    obtain ⟨l', hl'⟩ := hp.issued j call hcall c hconnects
    exact hfresh l' hl'
  constructor
  · refine hp.named.set (fun _ _ _ _ h => h) fun call₂ hcall stack hstack c' hc' => ?_
    cases hcall
    cases hstack
    simp only [HasId, List.mem_singleton, exists_eq_left, Frame.connId, Connect.connId,
      Option.some.injEq] at hc'
    rw [← hc']
    rfl
  · refine hp.bottom.set (fun _ _ _ _ h => h) fun call₂ hcall id hid => ?_
    cases hcall
    cases hid
    exact ⟨_, l, _, rfl, rfl, rfl⟩
  · refine hp.issued.set (fun _ _ _ _ h c' hc' => ?_) fun call₂ hcall c' hc' => ?_
    · obtain ⟨l', hl'⟩ := h c' hc'
      exact ⟨l', hmono l' c' hl'⟩
    · cases hcall
      cases hc'
      exact ⟨l, hissued⟩
  · intro c'
    by_cases heq : c' = c
    · rw [heq]
      exact Pool.atMostOne_set_of_not_any hno
    · refine (hp.once c').set fun call₂ hcall hc' => ?_
      cases hcall
      cases hc'
      exact (heq rfl).elim
  · intro c' hc'
    rw [Pool.set_shared, hs] at hc'
    obtain ⟨⟨l', hl'⟩, hnone⟩ := hp.made c' hc'
    refine ⟨⟨l', hmono l' c' hl'⟩, fun hany => hnone (hany.of_set fun call₂ hcall hc₂ => ?_)⟩
    cases hcall
    cases hc₂
    exact (hfresh l' hl').elim

/-- The role of a call changes with an id only. -/
theorem after_eq (hp : Roles p) {role : Role} {f : Frame} {rest new : List Frame}
    (h : p.tasks i = some ⟨role, .registry (f :: rest)⟩)
    (hnew : ∀ l c, new ≠ [.connect l (.attach c)]) :
    role.after (.registry (new ++ rest)) = role := by
  unfold Role.after
  split
  · next l c heq =>
    rw [Code.registry.injEq] at heq
    rcases List.append_eq_singleton_iff.1 heq with ⟨rfl, hrest⟩ | ⟨hsingle, -⟩
    · have hid : HasId c (f :: rest) := by
        rw [hrest]
        exact ⟨_, List.mem_cons_of_mem f List.mem_cons_self, rfl⟩
      exact (hp.named i _ h _ rfl c hid).symm
    · exact (hnew l c hsingle).elim
  · rfl

theorem bottom_work (hp : Roles p) {role : Role} {f : Frame} {rest new : List Frame} {s' : State}
    (h : p.tasks i = some ⟨role, .registry (f :: rest)⟩)
    (hstep : FrameStep p.shared.registry f s' new)
    (hnew : ∀ l c, new ≠ [.connect l (.attach c)]) {id : Option Str} (hid : role = .connect id) :
    new ++ rest = [] ∨
      ∃ l pc, (new ++ rest).getLast? = some (.connect l pc) ∧ pc.isFresh = id.isNone := by
  obtain ⟨stack, l, pc, hstack, hlast, hfresh⟩ := hp.bottom i _ h id hid
  cases hstack
  cases rest with
  | nil =>
    cases hlast
    rw [List.append_nil]
    refine (hstep.getLast? (hnew l)).imp_right ?_
    rintro ⟨pc', hlast, hpc'⟩
    exact ⟨l, pc', hlast, hpc'.trans hfresh⟩
  | cons g rest =>
    refine .inr ⟨l, pc, ?_, hfresh⟩
    rw [List.getLast?_append_cons, ← hlast, List.getLast?_cons_cons]

theorem work (hp : Roles p) (hinv : Inv (project p)) {role : Role} {f : Frame}
    {rest new : List Frame} {w' : World} (h : p.tasks i = some ⟨role, .registry (f :: rest)⟩)
    (hstep : FrameStep p.shared.registry f w'.registry new)
    (hnew : ∀ l c, new ≠ [.connect l (.attach c)]) (hids : ∀ c, HasId c new → f.connId = some c)
    (hs : ∀ c, (w'.streams c).isSome = (p.shared.streamsAfter (f :: rest) c).isSome) :
    Roles (p.set i w' (Call.ofStack role (new ++ rest))) := by
  have hcall : ∀ call₂, Call.ofStack role (new ++ rest) = some call₂ →
      new ++ rest ≠ [] ∧ call₂ = ⟨role, .registry (new ++ rest)⟩ := by
    intro call₂ heq
    rw [← hp.after_eq h hnew]
    exact Call.ofStack_eq_some heq
  have hconnects : ∀ c call₂, Call.ofStack role (new ++ rest) = some call₂ → call₂.Connects c →
      ∃ call₁, p.tasks i = some call₁ ∧ call₁.Connects c := by
    intro c call₂ heq hc
    rw [(hcall call₂ heq).2] at hc
    exact ⟨_, h, hc⟩
  constructor
  · refine hp.named.set (fun _ _ _ _ h => h) fun call₂ heq stack hstack c hc => ?_
    rw [(hcall call₂ heq).2] at hstack ⊢
    cases hstack
    have hold : HasId c (f :: rest) := by
      obtain ⟨g, hg, hgc⟩ := hc
      rcases List.mem_append.1 hg with hg | hg
      · exact ⟨f, List.mem_cons_self, hids c ⟨g, hg, hgc⟩⟩
      · exact ⟨g, List.mem_cons_of_mem f hg, hgc⟩
    exact hp.named i _ h _ rfl c hold
  · refine hp.bottom.set (fun _ _ _ _ h => h) fun call₂ heq id hid => ?_
    obtain ⟨hne, rfl⟩ := hcall call₂ heq
    obtain ⟨l, pc, hlast, hfresh⟩ := (hp.bottom_work h hstep hnew hid).resolve_left hne
    exact ⟨_, l, pc, rfl, hlast, hfresh⟩
  · refine hp.issued.set (fun _ _ _ _ h c hc => ?_) fun call₂ heq c hc => ?_
    · obtain ⟨l, hl⟩ := h c hc
      exact ⟨l, hstep.issued_mono hl⟩
    · obtain ⟨call₁, hcall₁, hc₁⟩ := hconnects c call₂ heq hc
      obtain ⟨l, hl⟩ := hp.issued i call₁ hcall₁ c hc₁
      exact ⟨l, hstep.issued_mono hl⟩
  · intro c
    exact (hp.once c).set (hconnects c)
  · intro c hc
    rw [Pool.set_shared, hs] at hc
    rcases p.shared.streamsAfter_cases (f :: rest) c with hold | ⟨l, hstack, hsome, -⟩
    · rw [hold] at hc
      obtain ⟨⟨l, hl⟩, hnone⟩ := hp.made c hc
      exact ⟨⟨l, hstep.issued_mono hl⟩, fun hany => hnone (hany.of_set (hconnects c))⟩
    · -- the connect returns, and it was the only one of its id
      cases hstack
      have hpresent : Present (project p) (.connect l (.socketState c)) :=
        ⟨i, [.connect l (.socketState c)], by simp [project, h, Code.stack], List.mem_cons_self⟩
      have hissued := hinv.known.named _ hpresent l c ⟨rfl, rfl⟩
      refine ⟨⟨l, hstep.issued_mono hissued⟩, ?_⟩
      refine (hp.once c).not_any_set h ?_ fun call₂ heq => ?_
      · exact hp.named i _ h _ rfl c ⟨_, List.mem_cons_self, rfl⟩
      · exact ((hcall call₂ heq).1 (by rw [hstep.socketState_returns, List.append_nil])).elim

theorem drop (hp : Roles p) (c : Str) (change : Use → Use) :
    Roles { p with shared := p.shared.setUse c change } where
  named := hp.named
  bottom := hp.bottom
  issued := hp.issued
  once := hp.once
  made c' hc' := hp.made c' (by rwa [World.isSome_setUse] at hc')

end Roles

theorem reachable_roles {p : Pool World Call} (h : connections.Reachable p) : Roles p := by
  refine h.induct ?_ ?_ ?_ ?_
  · refine ⟨?_, ?_, ?_, ?_, ?_⟩ <;>
      simp [Object.start, connections, Pool.All, Pool.AtMostOne]
  · intro p i call _ hroles _ hb
    refine hroles.nameless rfl (fun _ => rfl) fun call₂ hcall => ?_
    cases hcall
    exact nameless_of_begins hb
  · intro p i answer call w' call' hp hroles hi hact
    have hinv := reachable_inv (reachable_project hp)
    cases callAct_step hact with
    | outside hcode hw hs hnew => exact hroles.outside hi hcode hw hs hnew
    | @inside role f rest new choice s' _ hframe hw hs =>
      have hstep := frameAct_step hframe
      rw [← hw] at hstep hs
      rcases hstep.issues with ⟨l, c, rfl, rfl, hc, hissued⟩ | ⟨hnew, hids⟩
      · have hin : (project p).tasks i = some (.connect l .nextConnId :: rest) := by
          simp [project, hi, Code.stack]
        rw [hinv.rest_eq_nil hin rfl] at hs ⊢
        exact hroles.issue hinv.known hc (fun _ _ => hstep.issued_mono) hissued hs.made
      · exact hroles.work hinv hi hstep hnew hids hs.made
  · intro p c w' _ hroles hdrop
    obtain ⟨l, -, rfl⟩ := World.drop_cases hdrop
    exact hroles.drop c _

/-! ## Entries and their owners -/

/-- A key of `sockets` or of the connections of an active listener. -/
def Keyed (w : State) (c : Str) : Prop :=
  w.sockets c ≠ none ∨ ∃ l, w.isActive l = true ∧ c ∈ w.connections l

/-- The id belongs to a connect in progress or to a socket that has not been dropped. -/
def Owned (p : Pool World Call) (c : Str) : Prop :=
  p.Any (Call.Connects c) ∨ p.shared.Alive c

/-- Registry entries do not outlive their sockets. -/
def EntriesOwned (p : Pool World Call) : Prop :=
  ∀ c, Keyed p.shared.registry c → Owned p c

/-- A detach of the id is through: `sockets` has no entry, and no call that has removed one still has
to take the id from an active listener. -/
def Released (p : Pool State (List Frame)) (c : Str) : Prop :=
  p.shared.sockets c = none ∧
    ∀ l, p.shared.isActive l = true → ¬ Present p (.detachConnection l c)

/-- The owner of the id goes: its socket is dropped, or its connect is cancelled at the `open` event,
finds no entry at the end, or fails. -/
inductive Ends (p : Pool World Call) : Move Call Answer Str → Str → Prop
  | dropped {c : Str} : Ends p (.env c) c
  | cancelled {i l : Nat} {c : Str}
      (h : p.tasks i = some ⟨.connect (some c), .registry [.connect l (.openEvent c)]⟩) :
      Ends p (.act i (.registry .cancel)) c
  | notFound {i l : Nat} {c : Str} {choice : Choice}
      (h : p.tasks i = some ⟨.connect (some c), .registry [.connect l (.socketState c)]⟩)
      (hs : p.shared.registry.sockets c = none) : Ends p (.act i (.registry choice)) c
  | failed {i l : Nat} {c : Str} {choice : Choice}
      (h : p.tasks i = some ⟨.connect (some c), .registry [.connect l .fail]⟩) :
      Ends p (.act i (.registry choice)) c

/-- An owner goes before a detach of its id is through. -/
def Abandons (p : Pool World Call) (m : Move Call Answer Str) : Prop :=
  ∃ c, Ends p m c ∧ ¬ Released (project p) c

/-- An id that is not just being inserted is a key until a detach of it is through. -/
theorem keyed_iff_not_released {p : Pool State (List Frame)} (hp : Removals p) {c : Str}
    (hinsert : ∀ l, ¬ Present p (.connect l (.insert c))) :
    Keyed p.shared c ↔ ¬ Released p c := by
  constructor
  · rintro (hs | ⟨l, hl, hc⟩) ⟨hnone, hno⟩
    · exact hs hnone
    · rcases hp.keys.accounted l c hl hc with hs | hg | hg
      · rw [hnone] at hs
        cases hs
      · exact hinsert l hg
      · exact hno l hl hg
  · intro hrel
    by_cases hs : p.shared.sockets c = none
    · by_contra hkeyed
      refine hrel ⟨hs, fun l hl hd => hkeyed (.inr ⟨l, hl, ?_⟩)⟩
      exact hp.keys.detaching l c hl hd
    · exact .inl hs

/-- An id becomes a key only as its connect goes on. -/
theorem KeyStep.keyed {w w' : State} {f : Frame} {new : List Frame} (h : KeyStep w f w' new)
    {c : Str} (hc : Keyed w' c) : Keyed w c ∨ (f.connId = some c ∧ new ≠ []) := by
  cases h with
  | @attached l c' =>
    rcases hc with hs | ⟨l', hl', hc⟩
    · exact .inl (.inl hs)
    · rw [State.isActive_attachConnection] at hl'
      rcases State.mem_connections_attachConnection.1 hc with ⟨-, rfl⟩ | hold
      · exact .inr ⟨rfl, by simp⟩
      · exact .inl (.inr ⟨l', hl', hold⟩)
  | @inserted l c' =>
    rcases hc with hs | hactive
    · rw [State.sockets_setSocket] at hs
      split at hs
      · next heq => exact .inr ⟨by rw [heq]; rfl, by simp⟩
      · exact .inl (.inl hs)
    · exact .inl (.inr hactive)
  | @detached c' caller l history hsome =>
    rcases hc with hs | hactive
    · change (w.setSocket c' none).sockets c ≠ none at hs
      rw [State.sockets_setSocket] at hs
      split at hs
      · exact (hs rfl).elim
      · exact .inl (.inl hs)
    · exact .inl (.inr hactive)
  | @connectionDetached l c' =>
    rcases hc with hs | ⟨l', hl', hc⟩
    · exact .inl (.inl hs)
    · rw [State.isActive_detachConnection] at hl'
      exact .inl (.inr ⟨l', hl', (State.mem_connections_detachConnection.1 hc).1⟩)
  | other hw _ _ =>
    rcases hc with hs | ⟨l, hl, hc⟩
    · exact .inl (.inl (hw.sockets ▸ hs))
    · exact .inl (.inr ⟨l, hw.active l hl, hw.connections l hl ▸ hc⟩)

/-! ### An owner goes -/

section Ends

variable {p p' : Pool World Call} {m : Move Call Answer Str} {c : Str}

theorem Ends.cases (h : Ends p m c) :
    m = .env c ∨ ∃ i choice l pc e, m = .act i (.registry choice) ∧
      p.tasks i = some ⟨.connect (some c), .registry [.connect l pc]⟩ ∧
      frameAct p.shared.registry (.connect l pc) choice = some (p.shared.registry.log e, []) ∧
      pc ≠ .insert c ∧ p.shared.streamsAfter [.connect l pc] = p.shared.streams := by
  cases h with
  | dropped => exact .inl rfl
  | cancelled h => exact .inr ⟨_, _, _, _, _, rfl, h, rfl, by simp, rfl⟩
  | @notFound i l _ choice h hs =>
    refine .inr ⟨_, _, _, _, .failed l, rfl, h, ?_, by simp, ?_⟩
    · simp [frameAct, connectAct, hs]
    · simp [World.streamsAfter, hs]
  | failed h => exact .inr ⟨_, _, _, _, _, rfl, h, rfl, by simp, rfl⟩

/-- The pool that the last action of a connect leaves. -/
theorem Ends.move_eq {i l : Nat} {choice : Choice} {pc : Connect} {e : Event}
    (hi : p.tasks i = some ⟨.connect (some c), .registry [.connect l pc]⟩)
    (hframe : frameAct p.shared.registry (.connect l pc) choice =
      some (p.shared.registry.log e, []))
    (hs : p.shared.streamsAfter [.connect l pc] = p.shared.streams)
    (h : connections.move p (.act i (.registry choice)) = some p') :
    p' = p.set i ⟨p.shared.registry.log e, p.shared.streams⟩ none := by
  have hact : connections.act i p.shared ⟨.connect (some c), .registry [.connect l pc]⟩
      (.registry choice) = some (⟨p.shared.registry.log e, p.shared.streams⟩, none) := by
    simp [connections, callAct, codeAct, act, hframe, hs, running, World.leave]
  simp only [Object.move, hi, hact, Option.map_some, Option.some.injEq] at h
  exact h.symm

theorem Ends.not_owned (hp : Roles p) (h : Ends p m c) (hmove : connections.move p m = some p') :
    ¬ Owned p' c := by
  rcases h.cases with rfl | ⟨i, choice, l, pc, e, rfl, hi, hframe, -, hs⟩
  · obtain ⟨w', hdrop, rfl⟩ := Option.map_eq_some_iff.1 hmove
    obtain ⟨l, hstream, rfl⟩ := World.drop_cases hdrop
    rintro (hany | ⟨s, hs, huse⟩)
    · exact (hp.made c (by rw [hstream]; rfl)).2 hany
    · change (p.shared.setUse c fun _ => .dropped).streams c = some s at hs
      rw [World.streams_setUse, if_pos rfl, hstream] at hs
      cases hs
      exact huse rfl
  · rw [Ends.move_eq hi hframe hs hmove]
    rintro (hany | ⟨s, hs, -⟩)
    · exact (hp.once c).not_any_set hi rfl (by simp) hany
    · refine (hp.made c ?_).2 ⟨i, _, hi, rfl⟩
      rw [show p.shared.streams c = some s from hs]
      rfl

theorem Ends.keyed (h : Ends p m c) (hmove : connections.move p m = some p')
    (hc : Keyed p.shared.registry c) : Keyed p'.shared.registry c := by
  rcases h.cases with rfl | ⟨i, choice, l, pc, e, rfl, hi, hframe, -, hs⟩
  · obtain ⟨w', hdrop, rfl⟩ := Option.map_eq_some_iff.1 hmove
    obtain ⟨l, -, rfl⟩ := World.drop_cases hdrop
    exact hc
  · rw [Ends.move_eq hi hframe hs hmove]
    exact hc

theorem Roles.connects_of_present (hp : Roles p) {f : Frame} (h : Present (project p) f)
    (hc : f.connId = some c) :
    ∃ i call stack, p.tasks i = some call ∧ call.code.stack = some stack ∧ f ∈ stack ∧
      call.Connects c := by
  obtain ⟨i, stack, hi, hf⟩ := h
  obtain ⟨call, hcall, hstack⟩ := Option.bind_eq_some_iff.1 hi
  exact ⟨i, call, stack, hcall, hstack, hf, hp.named i call hcall stack hstack c ⟨f, hf, hc⟩⟩

theorem Ends.not_inserting (hp : Roles p) (h : Ends p m c)
    (hmove : connections.move p m = some p') (l : Nat) :
    ¬ Present (project p) (.connect l (.insert c)) := by
  intro hpresent
  obtain ⟨j, call, stack, hj, hstack, hf, hconnects⟩ := hp.connects_of_present hpresent rfl
  rcases h.cases with rfl | ⟨i, choice, l', pc, e, rfl, hi, -, hpc, -⟩
  · obtain ⟨w', hdrop, -⟩ := Option.map_eq_some_iff.1 hmove
    obtain ⟨l', hstream, -⟩ := World.drop_cases hdrop
    exact (hp.made c (by rw [hstream]; rfl)).2 ⟨j, call, hj, hconnects⟩
  · have hij := hp.once c j i _ _ hj hi hconnects rfl
    rw [hij, hi, Option.some.injEq] at hj
    rw [← hj] at hstack
    cases hstack
    rw [List.mem_singleton, Frame.connect.injEq] at hf
    exact hpc hf.2.symm

end Ends

/-! ### An owner stays -/

section Stays

variable {p p' : Pool World Call} {m : Move Call Answer Str} {c : Str}

theorem project_tasks {i : Nat} {role : Role} {stack : List Frame}
    (h : p.tasks i = some ⟨role, .registry stack⟩) : (project p).tasks i = some stack := by
  simp [project, h, Code.stack]

/-- A connect that has just been issued an id does not own one of its own yet. -/
theorem Roles.not_fresh (hp : Roles p) {i l : Nat} {role : Role} {pc : Connect}
    (h : p.tasks i = some ⟨role, .registry [.connect l pc]⟩) (hpc : pc.isFresh = true) :
    role ≠ .connect (some c) := by
  intro hrole
  obtain ⟨stack, l', pc', hstack, hlast, hfresh⟩ := hp.bottom i _ h _ hrole
  cases hstack
  cases hlast
  rw [hpc] at hfresh
  cases hfresh

/-- A connect that returns has a socket, or has never had an entry, or its owner goes. -/
theorem connect_returns (hinv : Inv (project p)) (hp : Roles p) {i : Nat} {f : Frame}
    {choice : Choice} {s' : State}
    (hi : p.tasks i = some ⟨.connect (some c), .registry [f]⟩)
    (hframe : frameAct p.shared.registry f choice = some (s', [])) :
    (∃ l, f = .connect l (.socketState c) ∧ p.shared.registry.sockets c ≠ none) ∨
      ¬ Keyed p.shared.registry c ∨ Ends p (.act i (.registry choice)) c := by
  obtain ⟨stack, l, pc, hstack, hlast, hfresh⟩ := hp.bottom i _ hi _ rfl
  cases hstack
  cases hlast
  have hnamed : ∀ c', (Frame.connect l pc).connId = some c' → c' = c := by
    intro c' hc'
    have hconnects := hp.named i _ hi _ rfl c' ⟨_, List.mem_cons_self, hc'⟩
    cases hconnects
    rfl
  generalize hnew : ([] : List Frame) = new at hframe
  cases frameAct_step hframe with
  | checkRefused => cases hfresh
  | @attachRefused _ c' h =>
    cases hnamed c' rfl
    have hpresent : Present (project p) (.connect l (.attach c)) :=
      ⟨i, _, project_tasks hi, List.mem_cons_self⟩
    refine .inr (.inl ?_)
    rintro (hs | ⟨l', hl', hc⟩)
    · exact hs (hinv.flow.early l _ c hpresent rfl).1
    · -- the id is attached to no listener but its own
      have hl := hinv.known.owner l' l c (hinv.known.attached c l' hc)
        (hinv.known.named _ hpresent l c ⟨rfl, rfl⟩)
      rw [hl, h] at hl'
      cases hl'
  | @cancelled _ c' =>
    cases hnamed c' rfl
    refine .inr (.inr ?_)
    cases choice with
    | cancel => exact .cancelled hi
    | go => simp [frameAct, connectAct] at hframe
    | openFails closed => cases closed <;> simp [frameAct, connectAct] at hframe
    | drained cs => cases hframe
  | @connected _ l' c' h =>
    cases hnamed c' rfl
    exact .inl ⟨l, rfl, by simp [h]⟩
  | @notFound _ c' h =>
    cases hnamed c' rfl
    exact .inr (.inr (.notFound hi h))
  | failed => exact .inr (.inr (.failed hi))
  | _ => cases hnew

/-- A connect that has not returned keeps its id. -/
theorem Roles.goes_on (hp : Roles p) (hinv : Inv (project p)) {i : Nat} {f : Frame}
    {rest new : List Frame} {s' : State} {w' : World}
    (hi : p.tasks i = some ⟨.connect (some c), .registry (f :: rest)⟩)
    (hstep : FrameStep p.shared.registry f s' new) (hne : new ++ rest ≠ []) :
    (p.set i w' (Call.ofStack (.connect (some c)) (new ++ rest))).Any (Call.Connects c) := by
  rcases hstep.issues with ⟨l, c', rfl, -⟩ | ⟨hnew, -⟩
  · rw [hinv.rest_eq_nil (project_tasks hi) rfl] at hi
    exact (hp.not_fresh hi rfl rfl).elim
  · rw [Call.ofStack_of_ne _ hne]
    exact Pool.any_set_self (hp.after_eq hi hnew)

theorem alive_streamsAfter {w w' : World} {s' : State} {stack : List Frame}
    (hs : (World.mk s' (w.streamsAfter stack)).SameStreams w') (h : w.Alive c) : w'.Alive c := by
  rw [hs.alive]
  obtain ⟨s, hstream, huse⟩ := h
  rcases w.streamsAfter_cases stack c with hold | ⟨l, -, -, hmade⟩
  · exact ⟨s, hold.trans hstream, huse⟩
  · exact ⟨_, hmade, by simp⟩

theorem owned_inside (hinv : Inv (project p)) (hp : Roles p) {i : Nat} {role : Role} {f : Frame}
    {rest new : List Frame} {choice : Choice} {s' : State} {w' : World}
    (hi : p.tasks i = some ⟨role, .registry (f :: rest)⟩)
    (hframe : frameAct p.shared.registry f choice = some (s', new))
    (hs : (World.mk s' (p.shared.streamsAfter (f :: rest))).SameStreams w')
    (hkeyed : Keyed p.shared.registry c) (h : Owned p c) :
    Owned (p.set i w' (Call.ofStack role (new ++ rest))) c ∨ Ends p (.act i (.registry choice)) c := by
  rcases h with ⟨j, call, hj, hconnects⟩ | halive
  · by_cases hij : j = i
    · subst hij
      rw [hi, Option.some.injEq] at hj
      subst hj
      obtain rfl : role = .connect (some c) := hconnects
      by_cases hdone : new ++ rest = []
      · -- the connect returns
        obtain ⟨rfl, rfl⟩ := List.append_eq_nil_iff.1 hdone
        rcases connect_returns hinv hp hi hframe with ⟨l, rfl, hsome⟩ | hno | hends
        · refine .inl (.inr ((hs.alive c).2 ⟨⟨l, .idle⟩, ?_, by simp⟩))
          simp [World.streamsAfter, Option.isSome_iff_ne_none.2 hsome]
        · exact (hno hkeyed).elim
        · exact .inr hends
      · exact .inl (.inl (hp.goes_on hinv hi (frameAct_step hframe) hdone))
    · exact .inl (.inl ⟨j, call, by rwa [Pool.set_tasks_of_ne p hij], hconnects⟩)
  · exact .inl (.inr (alive_streamsAfter hs halive))

theorem keyed_inside (hinv : Inv (project p)) (hp : Roles p) {i : Nat} {role : Role} {f : Frame}
    {rest new : List Frame} {s' : State} {w' : World}
    (hi : p.tasks i = some ⟨role, .registry (f :: rest)⟩)
    (hstep : FrameStep p.shared.registry f s' new) (h : Keyed s' c) :
    Keyed p.shared.registry c ∨ Owned (p.set i w' (Call.ofStack role (new ++ rest))) c := by
  have ht : Present (project p) f := ⟨i, _, project_tasks hi, List.mem_cons_self⟩
  refine ((hstep.keyStep hinv.known hinv.flow ht).keyed h).imp_right ?_
  rintro ⟨hid, hne⟩
  obtain rfl : role = .connect (some c) := hp.named i _ hi _ rfl c ⟨f, List.mem_cons_self, hid⟩
  exact .inl (hp.goes_on hinv hi hstep (by simp [hne]))

/-- One move: a key was one before or has its owner, and an owner stays or goes. -/
theorem owned_move (hreach : connections.Reachable p) (hmove : connections.move p m = some p') :
    (Keyed p'.shared.registry c → Keyed p.shared.registry c ∨ Owned p' c) ∧
    (Keyed p.shared.registry c → Owned p c → Owned p' c ∨ Ends p m c) := by
  have hinv := reachable_inv (reachable_project hreach)
  have hp := reachable_roles hreach
  obtain ⟨i, call, rfl, hi, hb, rfl⟩ | ⟨i, answer, call, w', call', rfl, hi, hact, rfl⟩ |
    ⟨c', w', rfl, hdrop, rfl⟩ := Object.move_cases hmove
  · refine ⟨.inl, fun _ h => .inl (h.imp_left fun hany => hany.set fun t ht => ?_)⟩
    rw [hi] at ht
    cases ht
  · cases callAct_step hact with
    | outside hcode hw hs hnew =>
      rw [Pool.set_shared, hw]
      refine ⟨.inl, fun _ h => .inl (h.imp ?_ (hs.alive c).2)⟩
      refine fun hany => hany.set fun t ht hconnects => ?_
      rw [hi, Option.some.injEq] at ht
      exact (hp.role_ne hi hcode _ (ht ▸ hconnects)).elim
    | inside hframe hw hs =>
      rw [Pool.set_shared, hw]
      exact ⟨keyed_inside hinv hp hi (frameAct_step hframe),
        owned_inside hinv hp hi hframe hs⟩
  · obtain ⟨l, hstream, rfl⟩ := World.drop_cases hdrop
    refine ⟨.inl, fun _ h => ?_⟩
    by_cases hc : c = c'
    · rw [hc]
      exact .inr .dropped
    · exact .inl (h.imp_right (World.alive_setUse_of_ne p.shared hc fun _ => .dropped).2)

end Stays

/-! ## All runs -/

theorem entriesOwned_move_iff {p p' : Pool World Call} {m : Move Call Answer Str}
    (hreach : connections.Reachable p) (howned : EntriesOwned p)
    (hmove : connections.move p m = some p') : EntriesOwned p' ↔ ¬ Abandons p m := by
  have hp := reachable_roles hreach
  have hrem := reachable_removals (reachable_project hreach)
  constructor
  · rintro howned' ⟨c, hends, hrel⟩
    have hkeyed := (keyed_iff_not_released hrem (hends.not_inserting hp hmove)).2 hrel
    exact hends.not_owned hp hmove (howned' c (hends.keyed hmove hkeyed))
  · intro hno c hc
    obtain ⟨hkeyed, hstays⟩ := owned_move (c := c) hreach hmove
    rcases hkeyed hc with hold | hnew
    · refine (hstays hold (howned c hold)).resolve_right fun hends => hno ⟨c, hends, ?_⟩
      exact (keyed_iff_not_released hrem (hends.not_inserting hp hmove)).1 hold
    · exact hnew

/-- **Registry entries do not outlive their sockets**, all along a run of connects, pushes, polls,
drops and unregistrations in any interleaving, exactly if no socket is dropped and no connect ends
without one before a detach of its id is through. -/
theorem entries_owned_iff {schedule : List (Move Call Answer Str)} {p : Pool World Call}
    (h : connections.run connections.start schedule = some p) :
    connections.Always EntriesOwned connections.start schedule ↔
      ¬ connections.Occurs Abandons connections.start schedule := by
  refine Object.always_iff (fun p m p' hp ho hm => entriesOwned_move_iff hp ho hm) .start ?_
    schedule h
  rintro c (hs | ⟨l, -, hc⟩)
  · exact (hs rfl).elim
  · simp [Object.start, connections, State.init, State.connections, Listener.new] at hc

/-- A connect through a new listener, up to its `open` event. -/
def opening : List (Move Call Answer Str) :=
  [.begin 0 ⟨.other, .registry [.registerListener ['k']]⟩, .act 0 (.registry .go),
    .begin 0 ⟨.connect none, .registry [.connect 0 .check]⟩] ++
  List.replicate 5 (.act 0 (.registry .go))

/-- The connect returns a socket, which the proxy drops without a shutdown. -/
def droppedOpen : List (Move Call Answer Str) :=
  opening ++ List.replicate 3 (.act 0 (.registry .go)) ++ [.env (connId ['k'] 0)]

/-- The connect is cancelled while JavaScript has its `open` event. -/
def cancelledOpening : List (Move Call Answer Str) :=
  opening ++ [.act 0 (.registry .cancel)]

/-- An entry without an owner: no call is running, and the socket, if any, has been dropped. -/
theorem not_entriesOwned {schedule : List (Move Call Answer Str)} {p : Pool World Call} {c : Str}
    (h : connections.run connections.start schedule = some p) (hfree : p.tasks 0 = none)
    (hbegin : ∀ i t, .begin i t ∈ schedule → i = 0) (hc : p.shared.registry.sockets c ≠ none)
    (hstream : ∀ s, p.shared.streams c = some s → s.use = .dropped) : ¬ EntriesOwned p := by
  intro howned
  rcases howned c (.inl hc) with ⟨j, call, hj, -⟩ | ⟨s, hs, huse⟩
  · have hnone : p.tasks j = none := by
      by_cases h0 : j = 0
      · rw [h0, hfree]
      · refine Object.tasks_eq_none_of_run schedule h rfl fun i t hmem => ?_
        rw [hbegin i t hmem]
        exact Ne.symm h0
    rw [hnone] at hj
    cases hj
  · exact huse (hstream s hs)

/-- Neither a socket that is just dropped nor a connect that is cancelled gives its entry back. -/
theorem dropped_and_cancelled_leave_entries :
    (∃ p, connections.run connections.start droppedOpen = some p ∧ ¬ EntriesOwned p) ∧
      ∃ p, connections.run connections.start cancelledOpening = some p ∧ ¬ EntriesOwned p := by
  constructor
  · obtain ⟨p, hrun, hfree, hs, hstream⟩ : ∃ p,
        connections.run connections.start droppedOpen = some p ∧ p.tasks 0 = none ∧
          p.shared.registry.sockets (connId ['k'] 0) = some 0 ∧
          p.shared.streams (connId ['k'] 0) = some ⟨0, .dropped⟩ := ⟨_, rfl, rfl, rfl, rfl⟩
    refine ⟨p, hrun, not_entriesOwned hrun hfree ?_ (by rw [hs]; simp) (by simp [hstream])⟩
    intro i t hmem
    simp [droppedOpen, opening] at hmem
    omega
  · obtain ⟨p, hrun, hfree, hs, hstream⟩ : ∃ p,
        connections.run connections.start cancelledOpening = some p ∧ p.tasks 0 = none ∧
          p.shared.registry.sockets (connId ['k'] 0) = some 0 ∧
          p.shared.streams (connId ['k'] 0) = none := ⟨_, rfl, rfl, rfl, rfl⟩
    refine ⟨p, hrun, not_entriesOwned hrun hfree ?_ (by rw [hs]; simp) (by simp [hstream])⟩
    intro i t hmem
    simp [cancelledOpening, opening] at hmem
    omega

theorem entries_owned_droppedOpen :
    (∃ p, connections.run connections.start droppedOpen = some p) ∧
      connections.Occurs Abandons connections.start droppedOpen ∧
      ¬ connections.Always EntriesOwned connections.start droppedOpen := by
  obtain ⟨p, hrun⟩ : ∃ p, connections.run connections.start droppedOpen = some p := ⟨_, rfl⟩
  have hoccurs : connections.Occurs Abandons connections.start droppedOpen := by
    refine ⟨droppedOpen.dropLast, .env (connId ['k'] 0), [], _, rfl, rfl, _, .dropped, ?_⟩
    rintro ⟨hnone, -⟩
    cases hnone
  refine ⟨⟨p, hrun⟩, hoccurs, fun halways => ?_⟩
  exact (entries_owned_iff hrun).1 halways hoccurs

end Lonesome.VirtualJs.Registry
