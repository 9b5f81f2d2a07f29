import Lonesome.Lib.Interleaving
import Mathlib.Data.List.Basic

/-!
# The server's lifecycle

`src/bindings/server.rs` (`start`, `stop`, `status` of `LonesomeServer`) over `LonesomeRuntime` of
`src/server/server.rs`, as calls interleaved on one server. `start` and `status` hold the runtime
lock throughout and are single actions. `stop` takes the runtime and sets the flag under the lock,
sends the signal, joins the thread and clears the flag in actions of their own. A server thread may
drop its end of the shutdown channel, and exit, at any time.

`Inv` says who holds an unjoined thread: the server, or one stop, never both. From it a thread is
only spawned when all earlier ones are joined (`server_single_runtime`). The flag is not restored
on every path of `stop`: the runs in which it is are `Orderly` (`stop_leaves_stopping`).
-/

namespace Lonesome.Server

open Lonesome.Interleaving

/-! ## The model -/

/-- A spawned server thread: whether it runs, whether the receiver of the shutdown channel exists,
and whether its handle has been joined. -/
structure ServerThread where
  alive : Bool
  receiver : Bool
  joined : Bool
deriving DecidableEq

/-- The ends a runtime holds: the sender to a thread and the thread's handle, by the index of the
thread. -/
structure LonesomeRuntime where
  shutdownTx : Option Nat
  handle : Option Nat
deriving DecidableEq

def LonesomeRuntime.isRunning (rt : LonesomeRuntime) : Bool := rt.handle.isSome

inductive ServerState
  | idle | running | stopping | stopped
deriving DecidableEq

/-- Why `start` fails: the startup options do not convert, the server holds a runtime, it is
stopping, or `LonesomeRuntime::start` fails. -/
inductive StartError
  | startup (message : String)
  | alreadyStarted
  | isStopping
  | runtime (message : String)
deriving DecidableEq

def StartError.message : StartError → String
  | .startup message => message
  | .alreadyStarted => "lonesome server already started"
  | .isStopping => "lonesome server is stopping"
  | .runtime message => message

/-- What has been returned to the callers. -/
inductive Event
  | start (result : Except StartError Unit)
  | status (state : ServerState)
  | stop (result : Except String Unit)

/-- The fields of `LonesomeServer` that the lifecycle uses, all threads spawned so far, and the
results returned so far. -/
structure LonesomeServer where
  runtime : Option LonesomeRuntime
  started : Bool
  stopping : Bool
  threads : List ServerThread
  returned : List Event

namespace LonesomeServer

def new : LonesomeServer := ⟨none, false, false, [], []⟩

/-- What decides `start` besides the server: the conversion of the options, and the checks and the
spawn of `LonesomeRuntime::start`. -/
inductive Startup
  | invalid (message : String)
  | fails (message : String)
  | spawns

def start (s : LonesomeServer) : Startup → LonesomeServer × Except StartError Unit
  | .invalid message => (s, .error (.startup message))
  | .fails message =>
    if s.runtime.isSome then (s, .error .alreadyStarted)
    else if s.stopping then (s, .error .isStopping)
    else (s, .error (.runtime message))
  | .spawns =>
    if s.runtime.isSome then (s, .error .alreadyStarted)
    else if s.stopping then (s, .error .isStopping)
    else
      ({ s with
          runtime := some ⟨some s.threads.length, some s.threads.length⟩
          threads := s.threads ++ [⟨true, true, false⟩]
          started := true }, .ok ())

def status (s : LonesomeServer) : ServerState :=
  let running := s.runtime.any LonesomeRuntime.isRunning
  if !s.started then .idle
  else if s.stopping then .stopping
  else if running then .running
  else .stopped

def log (s : LonesomeServer) (e : Event) : LonesomeServer :=
  { s with returned := s.returned ++ [e] }

def receiverOpen (s : LonesomeServer) (t : Nat) : Bool :=
  (s.threads[t]?).any (·.receiver)

/-- `handle.join()`: returns once the thread has exited. -/
def join (s : LonesomeServer) (t : Nat) : Option LonesomeServer :=
  if (s.threads[t]?).any (fun th => !th.alive) then
    some { s with threads := s.threads.modify t fun th => { th with joined := true } }
  else none

end LonesomeServer

/-- Where a `stop` is. -/
inductive Stop
  | lock
  | detachShutdown (rt : LonesomeRuntime)
  | dropRuntime (rt : LonesomeRuntime)
  | join (handle : Nat)
  | clear
deriving DecidableEq

inductive Call
  | start
  | status
  | stop (pc : Stop)
deriving DecidableEq

open LonesomeServer in
def stopAct (s : LonesomeServer) : Stop → Option (LonesomeServer × Option Call)
  | .lock =>
    match s.runtime with
    | none => some (s.log (.stop (.ok ())), none)
    | some rt => some ({ s with runtime := none, stopping := true }, some (.stop (.detachShutdown rt)))
  | .detachShutdown rt =>
    match rt.shutdownTx with
    | some t =>
      if s.receiverOpen t then rt.handle.map fun handle => (s, some (.stop (.join handle)))
      -- the early return drops the runtime, whose sender is taken already
      else some (s, some (.stop (.dropRuntime { rt with shutdownTx := none })))
    | none => rt.handle.map fun handle => (s, some (.stop (.join handle)))
  | .dropRuntime rt =>
    match rt.handle with
    | some handle => (s.join handle).map fun s' => (s'.log sendFailed, none)
    | none => some (s.log sendFailed, none)
  | .join handle => (s.join handle).map fun s' => (s', some (.stop .clear))
  | .clear => some ({ s with stopping := false }.log (.stop (.ok ())), none)
where
  sendFailed : Event :=
    .stop (.error "failed to send shutdown signal: sending on a closed channel")

def act (s : LonesomeServer) : Call → LonesomeServer.Startup → Option (LonesomeServer × Option Call)
  | .start, startup =>
    let (s', result) := s.start startup
    some (s'.log (.start result), none)
  | .status, _ => some (s.log (.status s.status), none)
  | .stop pc, _ => stopAct s pc

/-- What a server thread does by itself. -/
inductive ThreadEvent
  | dropReceiver (t : Nat)
  | exit (t : Nat)

def threadEvent (s : LonesomeServer) : ThreadEvent → LonesomeServer
  | .dropReceiver t =>
    { s with threads := s.threads.modify t fun th => { th with receiver := false } }
  | .exit t =>
    { s with threads := s.threads.modify t fun th => { th with alive := false, receiver := false } }

/-- Calls begin in their first action. -/
def Call.isFirst : Call → Bool
  | .start | .status | .stop .lock => true
  | _ => false

def server : Object LonesomeServer Call LonesomeServer.Startup ThreadEvent where
  initial := .new
  begins _ call := call.isFirst
  act _ := act
  env s e := some (threadEvent s e)

/-! ## What an action does -/

/-- What `start` does: it is refused and changes nothing, or it spawns. -/
theorem start_cases (s : LonesomeServer) (startup : LonesomeServer.Startup) :
    (∃ e, s.start startup = (s, .error e)) ∨
    (startup = .spawns ∧ s.runtime = none ∧ s.stopping = false ∧
      ∃ s', s.start startup = (s', .ok ())) := by
  cases startup with
  | invalid message => exact .inl ⟨_, rfl⟩
  | fails message =>
    refine .inl ?_
    simp only [LonesomeServer.start]
    split
    · exact ⟨_, rfl⟩
    · split <;> exact ⟨_, rfl⟩
  | spawns =>
    simp only [LonesomeServer.start]
    split
    · exact .inl ⟨_, rfl⟩
    · next hrt =>
      split
      · exact .inl ⟨_, rfl⟩
      · next hstop =>
        have hrt : s.runtime = none := by simpa using hrt
        exact .inr ⟨trivial, hrt, by simpa using hstop, _, rfl⟩

/-- `join` only marks the thread. -/
theorem join_cases {s s' : LonesomeServer} {t : Nat} (h : s.join t = some s') :
    (s.threads[t]?).any (fun th => !th.alive) = true ∧
      s' = { s with threads := s.threads.modify t fun th => { th with joined := true } } := by
  unfold LonesomeServer.join at h
  rw [Option.ite_none_right_eq_some, Option.some.injEq] at h
  exact ⟨h.1, h.2.symm⟩

theorem join_length {s s' : LonesomeServer} {t : Nat} (h : s.join t = some s') :
    s'.threads.length = s.threads.length := by
  obtain ⟨-, rfl⟩ := join_cases h
  simp

theorem join_stopping {s s' : LonesomeServer} {t : Nat} (h : s.join t = some s') :
    s'.stopping = s.stopping := by
  obtain ⟨-, rfl⟩ := join_cases h
  rfl

/-- What an action of `stop` does, case by case. -/
inductive StopStep (s : LonesomeServer) : Stop → LonesomeServer → Option Call → Prop
  | notRunning (h : s.runtime = none) : StopStep s .lock (s.log (.stop (.ok ()))) none
  | takes {rt : LonesomeRuntime} (h : s.runtime = some rt) :
      StopStep s .lock { s with runtime := none, stopping := true } (some (.stop (.detachShutdown rt)))
  | sent {rt : LonesomeRuntime} {handle : Nat} (h : rt.handle = some handle) :
      StopStep s (.detachShutdown rt) s (some (.stop (.join handle)))
  | notSent {rt : LonesomeRuntime} {t : Nat} (h : rt.shutdownTx = some t)
      (hclosed : s.receiverOpen t = false) :
      StopStep s (.detachShutdown rt) s (some (.stop (.dropRuntime { rt with shutdownTx := none })))
  | dropped {rt : LonesomeRuntime} {handle : Nat} {s' : LonesomeServer} (h : rt.handle = some handle)
      (hjoin : s.join handle = some s') :
      StopStep s (.dropRuntime rt) (s'.log stopAct.sendFailed) none
  | droppedEmpty {rt : LonesomeRuntime} (h : rt.handle = none) :
      StopStep s (.dropRuntime rt) (s.log stopAct.sendFailed) none
  | joined {handle : Nat} {s' : LonesomeServer} (hjoin : s.join handle = some s') :
      StopStep s (.join handle) s' (some (.stop .clear))
  | cleared : StopStep s .clear ({ s with stopping := false }.log (.stop (.ok ()))) none

theorem stopAct_step {s s' : LonesomeServer} {pc : Stop} {call' : Option Call}
    (h : stopAct s pc = some (s', call')) : StopStep s pc s' call' := by
  cases pc with
  | lock =>
    simp only [stopAct] at h
    split at h
    · next hrt => cases h; exact .notRunning hrt
    · next rt hrt => cases h; exact .takes hrt
  | detachShutdown rt =>
    simp only [stopAct] at h
    split at h
    · next t htx =>
      split at h
      · obtain ⟨handle, hh, heq⟩ := Option.map_eq_some_iff.1 h
        cases heq
        exact .sent hh
      · next hclosed =>
        cases h
        exact .notSent htx (Bool.eq_false_iff.2 hclosed)
    · obtain ⟨handle, hh, heq⟩ := Option.map_eq_some_iff.1 h
      cases heq
      exact .sent hh
  | dropRuntime rt =>
    simp only [stopAct] at h
    split at h
    · next handle hh =>
      obtain ⟨s₁, hjoin, heq⟩ := Option.map_eq_some_iff.1 h
      cases heq
      exact .dropped hh hjoin
    · next hh => cases h; exact .droppedEmpty hh
  | join handle =>
    simp only [stopAct] at h
    obtain ⟨s₁, hjoin, heq⟩ := Option.map_eq_some_iff.1 h
    cases heq
    exact .joined hjoin
  | clear =>
    simp only [stopAct] at h
    cases h
    exact .cleared

/-! ## Who holds a thread -/

/-- A stop that has taken the runtime and not returned. -/
def Call.inProgress : Call → Bool
  | .stop .lock => false
  | .stop _ => true
  | _ => false

theorem Call.inProgress_of_isFirst {call : Call} (h : call.isFirst = true) :
    call.inProgress = false := by
  revert h
  unfold isFirst inProgress
  split <;> simp

/-- The call has the handle of thread `k`. -/
def Call.Holds (k : Nat) : Call → Prop
  | .stop (.detachShutdown rt) => rt.handle = some k
  | .stop (.dropRuntime rt) => rt.handle = some k
  | .stop (.join handle) => handle = k
  | _ => False

theorem Call.Holds.inProgress {k : Nat} {call : Call} (h : call.Holds k) :
    call.inProgress = true := by
  unfold Holds at h
  split at h
  · rfl
  · rfl
  · rfl
  · exact h.elim

/-- The invariant of all runs: a joined thread is dead; an unjoined one is the last one spawned,
and its handle is with the runtime or with the one stop in progress; while a stop is in progress
the flag is set and the server has no runtime. -/
structure Inv (p : Pool LonesomeServer Call) : Prop where
  joined_dead : ∀ th ∈ p.shared.threads, th.joined = true → th.alive = false
  runtime_last : ∀ rt, p.shared.runtime = some rt →
    ∀ k, rt.handle = some k → k + 1 = p.shared.threads.length
  holder_last : p.All fun call => ∀ k, call.Holds k → k + 1 = p.shared.threads.length
  unjoined : ∀ (k : Nat) (th : ServerThread), p.shared.threads[k]? = some th → th.joined = false →
    (∃ rt, p.shared.runtime = some rt ∧ rt.handle = some k) ∨ p.Any (Call.Holds k)
  busy : p.Any (·.inProgress = true) → p.shared.stopping = true ∧ p.shared.runtime = none
  single : p.AtMostOne (·.inProgress = true)
  started_iff : p.shared.started = true ↔ Event.start (.ok ()) ∈ p.shared.returned

namespace Inv

variable {p : Pool LonesomeServer Call} {i : Nat} {call : Call}

theorem init : Inv server.start where
  joined_dead := by simp [Object.start, server, LonesomeServer.new]
  runtime_last := by simp [Object.start, server, LonesomeServer.new]
  holder_last := by intro i t ht; cases ht
  unjoined := by simp [Object.start, server, LonesomeServer.new]
  busy := by rintro ⟨i, t, ht, _⟩; cases ht
  single := by intro i j a b ha; cases ha
  started_iff := by simp [Object.start, server, LonesomeServer.new]

/-- A server that would let `start` through has joined every thread. -/
theorem all_joined (hp : Inv p) (hrt : p.shared.runtime = none)
    (hstop : p.shared.stopping = false) : ∀ th ∈ p.shared.threads, th.joined = true := by
  intro th hth
  obtain ⟨k, hk⟩ := List.mem_iff_getElem?.1 hth
  by_contra hj
  rcases hp.unjoined k th hk (Bool.eq_false_iff.2 hj) with ⟨rt, h, -⟩ | ⟨j, call, hcall, hholds⟩
  · rw [hrt] at h
    cases h
  · have hflag := (hp.busy ⟨j, call, hcall, hholds.inProgress⟩).1
    rw [hstop] at hflag
    cases hflag

/-- A call moves on, with the shared state unchanged: it keeps the handle it had, takes no other,
and is in progress only if it was. -/
theorem set (hp : Inv p) {call' : Option Call}
    (hholds : ∀ c', call' = some c' → ∀ k, c'.Holds k → k + 1 = p.shared.threads.length)
    (hkeeps : ∀ c, p.tasks i = some c → ∀ k, c.Holds k → ∃ c', call' = some c' ∧ c'.Holds k)
    (hbusy : ∀ c', call' = some c' → c'.inProgress = true →
      ∃ c, p.tasks i = some c ∧ c.inProgress = true) :
    Inv (p.set i p.shared call') := by
  constructor
  · exact hp.joined_dead
  · exact hp.runtime_last
  · exact hp.holder_last.set (fun _ _ _ _ h => h) hholds
  · intro k th hk hj
    refine (hp.unjoined k th hk hj).imp_right fun h => h.set ?_
    intro c hc hh
    exact hkeeps c hc k hh
  · exact fun h => hp.busy (h.of_set hbusy)
  · exact hp.single.set hbusy
  · exact hp.started_iff

/-- A call that is not in progress returns. -/
theorem done (hp : Inv p) (hcall : p.tasks i = some call) (hidle : call.inProgress = false) :
    Inv (p.set i p.shared none) := by
  refine hp.set (by simp) ?_ (by simp)
  intro c hc k hh
  rw [hcall, Option.some.injEq] at hc
  rw [hc, hh.inProgress] at hidle
  cases hidle

/-- A call in progress moves on with the handle it has. -/
theorem handsOn (hp : Inv p) (hcall : p.tasks i = some call) (hprog : call.inProgress = true)
    {call' : Call} (hsame : ∀ k, call'.Holds k ↔ call.Holds k) :
    Inv (p.set i p.shared (some call')) := by
  refine hp.set ?_ ?_ fun _ _ _ => ⟨call, hcall, hprog⟩
  · intro c' hc' k hh
    cases hc'
    exact hp.holder_last i call hcall k ((hsame k).1 hh)
  · intro c hc k hh
    rw [hcall, Option.some.injEq] at hc
    exact ⟨call', rfl, (hsame k).2 (hc ▸ hh)⟩

/-- A result other than a successful start is returned. -/
theorem log (hp : Inv p) {e : Event} (he : e ≠ .start (.ok ())) :
    Inv { p with shared := p.shared.log e } where
  joined_dead := hp.joined_dead
  runtime_last := hp.runtime_last
  holder_last := hp.holder_last
  unjoined := hp.unjoined
  busy := hp.busy
  single := hp.single
  started_iff := by
    rw [LonesomeServer.log]
    simpa [Ne.symm he] using hp.started_iff

/-- A thread changes otherwise than by being joined or revived. -/
theorem modifyThread (hp : Inv p) (t : Nat) (f : ServerThread → ServerThread)
    (hjoined : ∀ th, (f th).joined = th.joined) (halive : ∀ th, th.alive = false → (f th).alive = false) :
    Inv { p with shared := { p.shared with threads := p.shared.threads.modify t f } } := by
  have hget : ∀ (k : Nat) (th' : ServerThread), (p.shared.threads.modify t f)[k]? = some th' →
      ∃ th, p.shared.threads[k]? = some th ∧ th'.joined = th.joined ∧
        (th.alive = false → th'.alive = false) := by
    intro k th' hk
    rw [List.getElem?_modify] at hk
    obtain ⟨th, hth, rfl⟩ := Option.map_eq_some_iff.1 hk
    refine ⟨th, hth, ?_⟩
    split
    · exact ⟨hjoined th, halive th⟩
    · exact ⟨rfl, id⟩
  constructor
  · intro th' hth' hj
    obtain ⟨k, hk⟩ := List.mem_iff_getElem?.1 hth'
    obtain ⟨th, hth, hsame, hdead⟩ := hget k th' hk
    exact hdead (hp.joined_dead th (List.mem_of_getElem? hth) (hsame ▸ hj))
  · simpa using hp.runtime_last
  · intro j c hc k hh
    simpa using hp.holder_last j c hc k hh
  · intro k th' hk hj
    obtain ⟨th, hth, hsame, -⟩ := hget k th' hk
    exact hp.unjoined k th hth (hsame ▸ hj)
  · exact hp.busy
  · exact hp.single
  · exact hp.started_iff

/-- An unjoined thread is the last one spawned. -/
theorem unjoined_last (hp : Inv p) {k : Nat} {th : ServerThread}
    (hk : p.shared.threads[k]? = some th) (hj : th.joined = false) :
    k + 1 = p.shared.threads.length := by
  rcases hp.unjoined k th hk hj with ⟨rt, hrt, hh⟩ | ⟨j, c, hc, hh⟩
  · exact hp.runtime_last rt hrt k hh
  · exact hp.holder_last j c hc k hh

/-- The call that holds the handle of `t` joins it and moves on without it. -/
theorem join (hp : Inv p) {t : Nat} {s' : LonesomeServer} {call' : Option Call}
    (hcall : p.tasks i = some call) (hholds : call.Holds t) (hjoin : p.shared.join t = some s')
    (hnone : ∀ c', call' = some c' → ∀ k, ¬ c'.Holds k) :
    Inv (p.set i s' call') := by
  have hlast := hp.holder_last i call hcall t hholds
  have hbusy := hp.busy ⟨i, call, hcall, hholds.inProgress⟩
  obtain ⟨hdead, rfl⟩ := join_cases hjoin
  constructor
  · intro th' hth' hj
    obtain ⟨k, hk⟩ := List.mem_iff_getElem?.1 hth'
    rw [Pool.set_shared, List.getElem?_modify] at hk
    obtain ⟨th, hth, rfl⟩ := Option.map_eq_some_iff.1 hk
    by_cases htk : t = k
    · subst htk
      simpa [hth] using hdead
    · rw [if_neg htk] at hj ⊢
      exact hp.joined_dead th (List.mem_of_getElem? hth) hj
  · intro rt hrt
    rw [Pool.set_shared, hbusy.2] at hrt
    cases hrt
  · refine hp.holder_last.set (fun j c _ _ h => by simpa using h) ?_
    exact fun c' hc' k hh => (hnone c' hc' k hh).elim
  · -- the joined thread was the last, so no other was unjoined
    intro k th' hk hj
    rw [Pool.set_shared, List.getElem?_modify] at hk
    obtain ⟨th, hth, rfl⟩ := Option.map_eq_some_iff.1 hk
    by_cases htk : t = k
    · rw [if_pos htk] at hj
      cases hj
    · rw [if_neg htk] at hj
      have := hp.unjoined_last hth hj
      omega
  · exact fun _ => hbusy
  · exact hp.single.set fun _ _ _ => ⟨call, hcall, hholds.inProgress⟩
  · exact hp.started_iff

/-- A stop takes the runtime. -/
theorem takes (hp : Inv p) {rt : LonesomeRuntime} (hrt : p.shared.runtime = some rt) :
    Inv (p.set i { p.shared with runtime := none, stopping := true }
      (some (.stop (.detachShutdown rt)))) := by
  have hfree : ¬ p.Any (·.inProgress = true) := fun h => by
    rw [(hp.busy h).2] at hrt
    cases hrt
  constructor
  · exact hp.joined_dead
  · intro rt' h
    cases h
  · refine hp.holder_last.set (fun _ _ _ _ h => h) ?_
    intro c hc k hh
    cases hc
    exact hp.runtime_last rt hrt k hh
  · intro k th hk hj
    refine .inr ?_
    rcases hp.unjoined k th hk hj with ⟨rt', hrt', hh⟩ | hany
    · rw [hrt, Option.some.injEq] at hrt'
      exact Pool.any_set_self (hrt' ▸ hh)
    · obtain ⟨j, c, hc, hh⟩ := hany
      exact (hfree ⟨j, c, hc, hh.inProgress⟩).elim
  · exact fun _ => ⟨rfl, rfl⟩
  · exact Pool.atMostOne_set_of_not_any hfree
  · exact hp.started_iff

/-- A start spawns a thread. -/
theorem spawns (hp : Inv p) (hrt : p.shared.runtime = none) (hstop : p.shared.stopping = false)
    {s' : LonesomeServer} (hs' : p.shared.start .spawns = (s', .ok ())) :
    Inv (p.set i (s'.log (.start (.ok ()))) none) := by
  have hfree : ¬ p.Any (·.inProgress = true) := fun h => by
    rw [(hp.busy h).1] at hstop
    cases hstop
  have hjoined := hp.all_joined hrt hstop
  simp only [LonesomeServer.start, hrt, hstop, Option.isSome_none, Bool.false_eq_true, if_false,
    Prod.mk.injEq, and_true] at hs'
  subst hs'
  constructor
  · intro th hth hj
    rcases List.mem_append.1 hth with h | h
    · exact hp.joined_dead th h hj
    · rw [List.mem_singleton.1 h] at hj
      cases hj
  · intro rt h k hk
    cases h
    cases hk
    simp [LonesomeServer.log]
  · intro j c hc k hh
    rcases Pool.tasks_set_cases hc with ⟨-, h⟩ | ⟨-, h⟩
    · cases h
    · exact (hfree ⟨j, c, h, hh.inProgress⟩).elim
  · intro k th hk hj
    have hlt := (List.getElem?_eq_some_iff.1 hk).1
    have hge : ¬ k < p.shared.threads.length := by
      intro h
      have hold : p.shared.threads[k]? = some th := by
        rw [← List.getElem?_append_left h]
        exact hk
      rw [hjoined th (List.mem_of_getElem? hold)] at hj
      cases hj
    have hk : k = p.shared.threads.length := by
      simp [LonesomeServer.log] at hlt
      omega
    exact .inl ⟨_, rfl, by rw [hk]⟩
  · intro h
    exact (hfree (h.of_set (by simp))).elim
  · exact Pool.atMostOne_set_of_not_any hfree
  · simp [LonesomeServer.log]

/-- The stop in progress clears the flag and returns. -/
theorem clears (hp : Inv p) (hcall : p.tasks i = some (.stop .clear)) :
    Inv (p.set i { p.shared with stopping := false } none) := by
  have hbusy := hp.busy ⟨i, _, hcall, rfl⟩
  have hlast : ¬ (p.set i { p.shared with stopping := false } none).Any (·.inProgress = true) :=
    hp.single.not_any_set hcall rfl (by simp)
  constructor
  · exact hp.joined_dead
  · exact hp.runtime_last
  · exact hp.holder_last.set (fun _ _ _ _ h => h) (by simp)
  · intro k th hk hj
    refine (hp.unjoined k th hk hj).imp_right fun h => h.set ?_
    intro c hc hh
    rw [hcall] at hc
    cases hc
    exact hh.elim
  · exact fun h => (hlast h).elim
  · exact hp.single.set (by simp)
  · exact hp.started_iff

end Inv

/-! ## All runs -/

theorem inv_begin {p : Pool LonesomeServer Call} {i : Nat} {call : Call} (hp : Inv p)
    (hfree : p.tasks i = none) (hfirst : call.isFirst = true) :
    Inv (p.set i p.shared (some call)) := by
  have hidle := Call.inProgress_of_isFirst hfirst
  have hnot : ∀ c', some call = some c' → c'.inProgress ≠ true := by
    intro c' hc'
    cases hc'
    simp [hidle]
  refine hp.set (fun c' hc' k hh => (hnot c' hc' hh.inProgress).elim) ?_
    (fun c' hc' hprog => (hnot c' hc' hprog).elim)
  intro c hc
  rw [hfree] at hc
  cases hc

theorem inv_stop {p : Pool LonesomeServer Call} {i : Nat} {pc : Stop} {s' : LonesomeServer}
    {call' : Option Call} (hp : Inv p) (hcall : p.tasks i = some (.stop pc))
    (hstep : StopStep p.shared pc s' call') : Inv (p.set i s' call') := by
  cases hstep with
  | notRunning h => exact (hp.done hcall rfl).log (by simp)
  | takes hrt => exact hp.takes hrt
  | sent hh =>
    refine hp.handsOn hcall rfl fun k => ?_
    simp [Call.Holds, hh]
  | notSent htx hclosed => exact hp.handsOn hcall rfl fun k => Iff.rfl
  | dropped hh hjoin =>
    exact (hp.join hcall hh hjoin (by simp)).log (by simp [stopAct.sendFailed])
  | @droppedEmpty rt hh =>
    have hkept : Inv (p.set i p.shared none) := by
      refine hp.set (by simp) ?_ (by simp)
      intro c hc k hk
      rw [hcall, Option.some.injEq] at hc
      subst hc
      simp [Call.Holds, hh] at hk
    exact hkept.log (by simp [stopAct.sendFailed])
  | joined hjoin =>
    refine hp.join hcall rfl hjoin ?_
    intro c' hc' k hh
    cases hc'
    exact hh.elim
  | cleared => exact (hp.clears hcall).log (by simp)

theorem inv_act {p : Pool LonesomeServer Call} {i : Nat} {call : Call}
    {startup : LonesomeServer.Startup} {s' : LonesomeServer} {call' : Option Call} (hp : Inv p)
    (hcall : p.tasks i = some call) (hact : act p.shared call startup = some (s', call')) :
    Inv (p.set i s' call') := by
  cases call with
  | start =>
    rcases start_cases p.shared startup with ⟨e, hs⟩ | ⟨rfl, hrt, hstop, s₁, hs⟩
    · simp only [act, hs, Option.some.injEq, Prod.mk.injEq] at hact
      obtain ⟨rfl, rfl⟩ := hact
      exact (hp.done hcall rfl).log (by simp)
    · simp only [act, hs, Option.some.injEq, Prod.mk.injEq] at hact
      obtain ⟨rfl, rfl⟩ := hact
      exact hp.spawns hrt hstop hs
  | status =>
    simp only [act, Option.some.injEq, Prod.mk.injEq] at hact
    obtain ⟨rfl, rfl⟩ := hact
    exact (hp.done hcall rfl).log (by simp)
  | stop pc => exact inv_stop hp hcall (stopAct_step hact)

theorem inv_threadEvent {p : Pool LonesomeServer Call} (hp : Inv p) (e : ThreadEvent) :
    Inv { p with shared := threadEvent p.shared e } := by
  cases e with
  | dropReceiver t => exact hp.modifyThread t _ (fun _ => rfl) fun _ h => h
  | exit t => exact hp.modifyThread t _ (fun _ => rfl) fun _ _ => rfl

theorem reachable_inv {p : Pool LonesomeServer Call} (h : server.Reachable p) : Inv p := by
  refine h.invariant Inv.init ?_ ?_ ?_
  · intro p i call hp _ hfree hfirst
    exact inv_begin hp hfree hfirst
  · intro p i startup call s' call' hp _ hcall hact
    exact inv_act hp hcall hact
  · intro p e s' hp _ henv
    cases henv
    exact inv_threadEvent hp e

theorem status_eq_idle_iff (s : LonesomeServer) : s.status = .idle ↔ s.started = false := by
  unfold LonesomeServer.status
  cases s.started <;> simp
  split
  · simp
  · split <;> simp

theorem status_running {s : LonesomeServer} (h : s.status = .running) :
    s.runtime.isSome = true ∧ s.stopping = false := by
  unfold LonesomeServer.status at h
  cases hrt : s.runtime <;> cases hstop : s.stopping <;> cases hst : s.started <;>
    simp [hrt, hstop, hst] at h ⊢

theorem StopStep.length {s s' : LonesomeServer} {pc : Stop} {call' : Option Call}
    (h : StopStep s pc s' call') : s'.threads.length = s.threads.length := by
  cases h with
  | notRunning | takes | sent | notSent | droppedEmpty | cleared => rfl
  | dropped hh hjoin =>
    have hlen := join_length hjoin
    exact hlen
  | joined hjoin => exact join_length hjoin

/-- A move that adds a thread is a successful `start`. -/
theorem spawn_cases {p p' : Pool LonesomeServer Call}
    {m : Move Call LonesomeServer.Startup ThreadEvent} (hmove : server.move p m = some p')
    (hgrow : p.shared.threads.length < p'.shared.threads.length) :
    (∃ i, m = .act i .spawns ∧ p.tasks i = some .start) ∧
      p.shared.runtime = none ∧ p.shared.stopping = false := by
  obtain ⟨i, call, rfl, hfree, hb, rfl⟩ | ⟨i, startup, call, s', call', rfl, hcall, hact, rfl⟩ |
    ⟨e, s', rfl, henv, rfl⟩ := Object.move_cases hmove
  · exact (Nat.lt_irrefl _ hgrow).elim
  · cases call with
    | start =>
      rcases start_cases p.shared startup with ⟨e, hs⟩ | ⟨rfl, hrt, hstop, -⟩
      · simp only [server, act, hs] at hact
        cases hact
        exact (Nat.lt_irrefl _ hgrow).elim
      · exact ⟨⟨i, rfl, hcall⟩, hrt, hstop⟩
    | status =>
      cases hact
      exact (Nat.lt_irrefl _ hgrow).elim
    | stop pc =>
      have hlen := (stopAct_step hact).length
      rw [Pool.set_shared] at hgrow
      omega
  · cases henv
    cases e <;> simp [threadEvent] at hgrow

/-- **One runtime.** In every run: at most one server thread is alive; a thread is only spawned, by
a `start`, when all earlier ones are joined; the status is `idle` exactly until a start succeeds,
and `running` only while a runtime is held and no stop is in progress. -/
theorem server_single_runtime {p : Pool LonesomeServer Call} (h : server.Reachable p) :
    (∀ (k k' : Nat) (th th' : ServerThread), p.shared.threads[k]? = some th →
      p.shared.threads[k']? = some th' → th.alive = true → th'.alive = true → k = k') ∧
    (∀ m p', server.move p m = some p' → p.shared.threads.length < p'.shared.threads.length →
      (∃ i startup, m = .act i startup ∧ p.tasks i = some .start) ∧
        ∀ th ∈ p.shared.threads, th.joined = true ∧ th.alive = false) ∧
    (p.shared.status = .idle ↔ Event.start (.ok ()) ∉ p.shared.returned) ∧
    (p.shared.status = .running →
      p.shared.runtime.isSome = true ∧ p.shared.stopping = false ∧
        ¬ p.Any (·.inProgress = true)) := by
  have hp := reachable_inv h
  have hlast : ∀ (k : Nat) (th : ServerThread), p.shared.threads[k]? = some th →
      th.alive = true → k + 1 = p.shared.threads.length := by
    intro k th hk halive
    refine hp.unjoined_last hk (Bool.eq_false_iff.2 fun hj => ?_)
    rw [hp.joined_dead th (List.mem_of_getElem? hk) hj] at halive
    cases halive
  refine ⟨?_, ?_, ?_, ?_⟩
  · intro k k' th th' hk hk' halive halive'
    have h₁ := hlast k th hk halive
    have h₂ := hlast k' th' hk' halive'
    omega
  · intro m p' hmove hgrow
    obtain ⟨⟨i, hm, hi⟩, hrt, hstop⟩ := spawn_cases hmove hgrow
    refine ⟨⟨i, _, hm, hi⟩, fun th hth => ?_⟩
    have hj := hp.all_joined hrt hstop th hth
    exact ⟨hj, hp.joined_dead th hth hj⟩
  · rw [status_eq_idle_iff, ← hp.started_iff, Bool.not_eq_true]
  · intro hrun
    obtain ⟨hrt, hstop⟩ := status_running hrun
    refine ⟨hrt, hstop, fun hany => ?_⟩
    rw [(hp.busy hany).1] at hstop
    cases hstop

/-- A server that has been started once. -/
theorem server_single_runtime_started :
    ∃ p, server.Reachable p ∧ p.shared.threads.length = 1 ∧ p.shared.status = .running ∧
      p.shared.runtime.isSome = true ∧ p.shared.stopping = false ∧ ¬ p.Any (·.inProgress = true) := by
  have hreach := Object.Reachable.leads (O := server) .start
    (Object.leads_of_run [.begin 0 .start, .act 0 .spawns] rfl)
  exact ⟨_, hreach, rfl, rfl, (server_single_runtime hreach).2.2.2 rfl⟩

/-! ## Leaving the stopping state -/

/-- The moves of an orderly run: no stop takes the lock while another is in progress, and a stop
that sends the signal finds the receiver open. -/
def Orderly (p : Pool LonesomeServer Call) : Move Call LonesomeServer.Startup ThreadEvent → Prop
  | .act i _ =>
    match p.tasks i with
    | some (.stop .lock) => ¬ p.Any (·.inProgress = true)
    | some (.stop (.detachShutdown rt)) =>
      ∀ t, rt.shutdownTx = some t → p.shared.receiverOpen t = true
    | _ => True
  | _ => True

/-- In an orderly run the flag is set only while a stop is in progress, and no stop drops its
runtime. -/
structure OrderlyInv (p : Pool LonesomeServer Call) : Prop where
  flag : p.shared.stopping = true → p.Any (·.inProgress = true)
  noDrop : p.All fun call => ∀ rt, call ≠ .stop (.dropRuntime rt)

namespace OrderlyInv

variable {p : Pool LonesomeServer Call} {i : Nat}

/-- A call that is not in progress begins, moves on or returns. -/
theorem set_idle (hp : OrderlyInv p) {s' : LonesomeServer} {call' : Option Call}
    (hstop : s'.stopping = p.shared.stopping)
    (hidle : ∀ c, p.tasks i = some c → c.inProgress = false)
    (hnew : ∀ c', call' = some c' → c'.inProgress = false) : OrderlyInv (p.set i s' call') where
  flag h := by
    refine (hp.flag (hstop ▸ h)).set fun c hc hprog => ?_
    rw [hidle c hc] at hprog
    cases hprog
  noDrop := by
    refine hp.noDrop.set (fun _ _ _ _ h => h) fun c' hc' rt heq => ?_
    have := hnew c' hc'
    rw [heq] at this
    cases this

/-- A stop in progress that does not drop its runtime. -/
theorem set_busy (hp : OrderlyInv p) {s' : LonesomeServer} {call' : Call}
    (hprog : call'.inProgress = true) (hdrop : ∀ rt, call' ≠ .stop (.dropRuntime rt)) :
    OrderlyInv (p.set i s' (some call')) where
  flag _ := Pool.any_set_self hprog
  noDrop := hp.noDrop.set (fun _ _ _ _ h => h) fun c' hc' => by cases hc'; exact hdrop

end OrderlyInv

theorem start_stopping (s : LonesomeServer) (startup : LonesomeServer.Startup) :
    (s.start startup).1.stopping = s.stopping := by
  rcases start_cases s startup with ⟨e, hs⟩ | ⟨rfl, hrt, hstop, s', hs⟩
  · rw [hs]
  · simp [LonesomeServer.start, hrt, hstop]

theorem orderlyInv_act {p : Pool LonesomeServer Call} {i : Nat} {call : Call}
    {startup : LonesomeServer.Startup} {s' : LonesomeServer} {call' : Option Call}
    (hp : OrderlyInv p) (hord : Orderly p (.act i startup)) (hcall : p.tasks i = some call)
    (hact : act p.shared call startup = some (s', call')) : OrderlyInv (p.set i s' call') := by
  have hidle : call.inProgress = false → ∀ c, p.tasks i = some c → c.inProgress = false := by
    intro h c hc
    rw [hcall, Option.some.injEq] at hc
    exact hc ▸ h
  simp only [Orderly, hcall] at hord
  cases call with
  | start =>
    cases hact
    exact hp.set_idle (start_stopping p.shared startup) (hidle rfl) (by simp)
  | status =>
    cases hact
    exact hp.set_idle rfl (hidle rfl) (by simp)
  | stop pc =>
    cases stopAct_step hact with
    | notRunning h => exact hp.set_idle rfl (hidle rfl) (by simp)
    | takes hrt => exact hp.set_busy rfl (by simp)
    | sent hh => exact hp.set_busy rfl (by simp)
    | notSent htx hclosed =>
      rw [hord _ htx] at hclosed
      cases hclosed
    | dropped hh hjoin => exact (hp.noDrop i _ hcall _ rfl).elim
    | droppedEmpty hh => exact (hp.noDrop i _ hcall _ rfl).elim
    | joined hjoin => exact hp.set_busy rfl (by simp)
    | cleared =>
      constructor
      · intro h
        cases h
      · exact hp.noDrop.set (fun _ _ _ _ h => h) (by simp)

theorem orderly_inv {p : Pool LonesomeServer Call} (h : server.ReachableVia Orderly p) :
    OrderlyInv p := by
  refine h.invariant ?_ ?_ ?_ ?_
  · constructor
    · intro h
      cases h
    · intro i call hcall
      cases hcall
  · intro p i call hp _ hfree hfirst
    refine hp.set_idle rfl (by simp [hfree]) fun c' hc' => ?_
    cases hc'
    exact Call.inProgress_of_isFirst hfirst
  · intro p i startup call s' call' hp hord hcall hact
    exact orderlyInv_act hp hord hcall hact
  · intro p e s' hp _ henv
    cases henv
    exact ⟨fun h => hp.flag (by cases e <;> exact h), hp.noDrop⟩

/-- The server is not in the stopping state: the flag is clear, the status is another one, and a
start is not refused for it. -/
def NotStopping (s : LonesomeServer) : Prop :=
  s.stopping = false ∧ s.status ≠ .stopping ∧
    ∀ startup, (s.start startup).2 ≠ .error .isStopping

theorem notStopping_iff (s : LonesomeServer) : NotStopping s ↔ s.stopping = false := by
  refine ⟨And.left, fun h => ⟨h, ?_, fun startup => ?_⟩⟩
  · unfold LonesomeServer.status
    cases s.started <;> simp [h]
    split <;> simp
  · cases startup with
    | invalid message => simp [LonesomeServer.start]
    | fails message => simp only [LonesomeServer.start, h]; split <;> simp
    | spawns => simp only [LonesomeServer.start, h]; split <;> simp

/-- A move of a `stop` is one of its steps. -/
theorem stop_move {p p' : Pool LonesomeServer Call} {i : Nat} {pc : Stop}
    {startup : LonesomeServer.Startup} (hcall : p.tasks i = some (.stop pc))
    (hmove : server.move p (.act i startup) = some p') :
    ∃ s' call', StopStep p.shared pc s' call' ∧ p' = p.set i s' call' := by
  obtain ⟨_, _, hm, _⟩ | ⟨j, _, call, s', call', hm, hcall', hact, rfl⟩ | ⟨_, _, hm, _⟩ :=
    Object.move_cases hmove
  · cases hm
  · cases hm
    rw [hcall, Option.some.injEq] at hcall'
    subst hcall'
    exact ⟨s', call', stopAct_step hact, rfl⟩
  · cases hm

/-- **A stop leaves the stopping state in every orderly run**: whenever a `stop` returns, with `Ok`
or with `Err`, the server is not stopping. -/
theorem stop_leaves_stopping {p p' : Pool LonesomeServer Call} {i : Nat} {pc : Stop}
    {startup : LonesomeServer.Startup} (h : server.ReachableVia Orderly p)
    (hord : Orderly p (.act i startup)) (hcall : p.tasks i = some (.stop pc))
    (hmove : server.move p (.act i startup) = some p') (hret : p'.tasks i = none) :
    NotStopping p'.shared := by
  rw [notStopping_iff]
  have hp := orderly_inv h
  obtain ⟨s', call', hstep, rfl⟩ := stop_move hcall hmove
  simp only [Orderly, hcall] at hord
  rw [Pool.set_tasks_self] at hret
  subst hret
  cases hstep with
  | notRunning hrt => exact Bool.eq_false_iff.2 fun hflag => hord (hp.flag hflag)
  | dropped hh hjoin => exact (hp.noDrop i _ hcall _ rfl).elim
  | droppedEmpty hh => exact (hp.noDrop i _ hcall _ rfl).elim
  | cleared => rfl

/-- A start, and a stop that joins the thread once it has exited. -/
theorem stop_leaves_stopping_clean :
    ∃ p p', server.ReachableVia Orderly p ∧ p.tasks 0 = some (.stop .clear) ∧
      server.move p (.act 0 .spawns) = some p' ∧ NotStopping p'.shared := by
  have hfirst : ∀ {p : Pool LonesomeServer Call} {s' : LonesomeServer} {call' : Option Call},
      ¬ p.Any (·.inProgress = true) → (∀ c, call' = some c → c.inProgress ≠ true) →
        ¬ (p.set 0 s' call').Any (·.inProgress = true) :=
    fun hp hc h => hp (h.of_set fun c hc' hprog => (hc c hc' hprog).elim)
  have hnone : ¬ server.start.Any (·.inProgress = true) := by
    rintro ⟨j, c, hc, -⟩
    cases hc
  have h₁ := Object.ReachableVia.move (O := server) (P := Orderly) (m := .begin 0 .start) .start
    trivial rfl
  have h₂ := h₁.move (m := .act 0 .spawns) trivial rfl
  have h₃ := h₂.move (m := .begin 0 (.stop .lock)) trivial rfl
  have h₄ := h₃.move (m := .act 0 .spawns)
    (hfirst (hfirst (hfirst hnone (by simp [Call.inProgress])) (by simp)) (by simp [Call.inProgress]))
    rfl
  have h₅ := h₄.move (m := .act 0 .spawns) (fun t ht => by cases ht; rfl) rfl
  have h₆ := h₅.move (m := .env (.exit 0)) trivial rfl
  have h₇ := h₆.move (m := .act 0 .spawns) trivial rfl
  exact ⟨_, _, h₇, rfl, rfl,
    stop_leaves_stopping h₇ (show Orderly _ (.act 0 .spawns) from trivial) rfl rfl rfl⟩

/-- The other returns leave the server stopping: of a stop that takes the lock while another is in
progress, and of one that failed to send the signal. -/
theorem disorderly_stop_stays_stopping {p p' : Pool LonesomeServer Call} {i : Nat} {pc : Stop}
    {startup : LonesomeServer.Startup} (h : server.Reachable p)
    (hcall : p.tasks i = some (.stop pc))
    (hdis : (pc = .lock ∧ p.Any (·.inProgress = true)) ∨ ∃ rt, pc = .dropRuntime rt)
    (hmove : server.move p (.act i startup) = some p') :
    p'.tasks i = none ∧ p'.shared.stopping = true := by
  have hp := reachable_inv h
  obtain ⟨s', call', hstep, rfl⟩ := stop_move hcall hmove
  rw [Pool.set_tasks_self, Pool.set_shared]
  rcases hdis with ⟨rfl, hany⟩ | ⟨rt, rfl⟩
  · have hbusy := hp.busy hany
    cases hstep with
    | notRunning hrt => exact ⟨rfl, hbusy.1⟩
    | takes hrt =>
      rw [hbusy.2] at hrt
      cases hrt
  · have hbusy := hp.busy ⟨i, _, hcall, rfl⟩
    cases hstep with
    | dropped hh hjoin => exact ⟨rfl, (join_stopping hjoin).trans hbusy.1⟩
    | droppedEmpty hh => exact ⟨rfl, hbusy.1⟩

/-- A server thread that died before `stop`: the send fails, the call returns `Err`, and the server
stays in the stopping state. -/
theorem stop_after_exit_stays_stopping :
    ∃ p p', server.Reachable p ∧ (∃ rt, p.tasks 0 = some (.stop (.dropRuntime rt))) ∧
      server.move p (.act 0 .spawns) = some p' ∧ p'.tasks 0 = none ∧
      p'.shared.returned = [.start (.ok ()),
        .stop (.error "failed to send shutdown signal: sending on a closed channel")] ∧
      p'.shared.stopping = true ∧ p'.shared.status = .stopping ∧
      (p'.shared.start .spawns).2 = .error .isStopping := by
  have hreach := Object.Reachable.leads (O := server) .start
    (Object.leads_of_run [.begin 0 .start, .act 0 .spawns, .env (.exit 0), .begin 0 (.stop .lock),
      .act 0 .spawns, .act 0 .spawns] rfl)
  exact ⟨_, _, hreach, ⟨_, rfl⟩, rfl, rfl, rfl, rfl, rfl, rfl⟩

end Lonesome.Server
