import Lonesome.Lib.Interleaving
import Lonesome.Text

/-!
# The access log sinks

`AccessLogSink::send_line`, `access_log_writer` and `sink_for` of `src/middlewares/access_log/mod.rs`.
The sinks are process-wide, one for a path, and a sink gets its channel with the first line that is
sent to it. The receiver goes to a writer task on the runtime that this line was sent from, and is
dropped with that runtime; the sender stays in the sink.

A server start makes a new runtime and a server stop drops one. So a line that is sent after the
runtime of its sink's first line was stopped has no writer (`Orphans`), and every other line is
accepted for a writer, or finds the queue full or the file failed: `lines_kept_iff`.
-/

namespace Lonesome.AccessLog

open Lonesome.Interleaving

/-! ## The model -/

/-- Why a receiver is gone: the writer could not open or write its file, or the runtime stopped. -/
inductive Dropped
  | fileError
  | runtimeStopped
  deriving DecidableEq

/-- Where the receiver of a channel is: with the thread that made the channel, in the writer task on
a runtime, which has opened its file or not, or nowhere. -/
inductive Receiver
  | held
  | writer (runtime : Nat) (opened : Bool)
  | dropped (cause : Dropped)
  deriving DecidableEq

/-- A channel, with the runtime of the thread that made it and the path of its writer. -/
structure Channel where
  owner : Nat
  path : Str
  queue : List Str
  receiver : Receiver

/-- `mpsc::channel(1024)` -/
def capacity : Nat := 1024

structure AccessLogSink where
  path : Str
  tx : Option Nat

/-- The end of a `send_line`: the channel took the line, and its receiver is on a running runtime or
not; the queue was full; the receiver is gone; or the line was appended without a channel, or
could not be. -/
inductive Outcome
  | accepted (alive : Bool)
  | full
  | closed (cause : Dropped)
  | appended
  | notAppended
  deriving DecidableEq

inductive Event
  | sink (path : Str) (result : Except String Nat)
  | sent (sink : Nat) (line : Str) (outcome : Outcome)

/-- Runtimes, sinks and channels are numbered as they are made. `running` has the runtimes that are
not stopped, `sinkMap` is the static map of sinks, `files` what was appended to each path. -/
structure State where
  running : Nat → Bool
  started : Nat
  sinks : Nat → AccessLogSink
  sinkCount : Nat
  sinkMap : Str → Option Nat
  channels : Nat → Channel
  channelCount : Nat
  files : Str → List Str
  history : List Event

namespace State

def init : State where
  running _ := false
  started := 0
  sinks _ := ⟨[], none⟩
  sinkCount := 0
  sinkMap _ := none
  channels _ := ⟨0, [], [], .held⟩
  channelCount := 0
  files _ := []
  history := []

def log (w : State) (e : Event) : State := { w with history := w.history ++ [e] }

def setChannel (w : State) (c : Nat) (channel : Channel) : State :=
  { w with channels := Function.update w.channels c channel }

def appendLine (w : State) (path line : Str) : State :=
  { w with files := Function.update w.files path (w.files path ++ [line]) }

/-- The receiver of the channel is with a writer, or about to be, on a running runtime. -/
def alive (w : State) (c : Nat) : Bool :=
  match (w.channels c).receiver with
  | .dropped _ => false
  | _ => w.running (w.channels c).owner

/-- `Sender::try_send` -/
def trySend (w : State) (c : Nat) (line : Str) : State × Outcome :=
  match (w.channels c).receiver with
  | .dropped cause => (w, .closed cause)
  | _ =>
    if (w.channels c).queue.length < capacity then
      (w.setChannel c { w.channels c with queue := (w.channels c).queue ++ [line] },
        .accepted (w.alive c))
    else (w, .full)

end State

inductive SinkFor
  | openFile
  | lookup
  | insert
  deriving DecidableEq

inductive SendLine
  | get
  | set
  | spawn (channel : Nat)
  | trySend
  deriving DecidableEq

/-- Where a call is. The runtime of a `send_line` is that of `Handle::try_current()`. -/
inductive Call
  | sinkFor (path : Str) (pc : SinkFor)
  | sendLine (runtime : Option Nat) (sink : Nat) (line : Str) (pc : SendLine)
  deriving DecidableEq

/-- What a call does not decide: whether it can open a file. -/
inductive Choice
  | go
  | openFails (error : String)

def sinkForAct (w : State) (path : Str) : SinkFor → Choice → Option (State × Option Call)
  | .openFile, .openFails e =>
    some (w.log (.sink path (.error s!"failed to open access log file '{String.ofList path}': {e}")),
      none)
  | .openFile, .go => some (w, some (.sinkFor path .lookup))
  | .lookup, .go =>
    match w.sinkMap path with
    | some sink => some (w.log (.sink path (.ok sink)), none)
    | none => some (w, some (.sinkFor path .insert))
  | .insert, .go =>
    some ({ w with
      sinks := Function.update w.sinks w.sinkCount ⟨path, none⟩
      sinkMap := Function.update w.sinkMap path (some w.sinkCount)
      sinkCount := w.sinkCount + 1 }.log (.sink path (.ok w.sinkCount)), none)
  | _, _ => none

/-- `self.tx.set(tx)` with a new channel: the first thread to get here makes the channel of the
sink. -/
def setChannelOf (w : State) (runtime sink : Nat) : State × Option Nat :=
  match (w.sinks sink).tx with
  | some _ => (w, none)
  | none =>
    ({ w with
      sinks := Function.update w.sinks sink { w.sinks sink with tx := some w.channelCount }
      channels := Function.update w.channels w.channelCount ⟨runtime, (w.sinks sink).path, [], .held⟩
      channelCount := w.channelCount + 1 }, some w.channelCount)

/-- `handle.spawn(access_log_writer(path, rx))`: on a stopped runtime the task is dropped at once. -/
def spawnWriter (w : State) (runtime c : Nat) : State :=
  w.setChannel c { w.channels c with
    receiver := if w.running runtime then .writer runtime false else .dropped .runtimeStopped
    queue := if w.running runtime then (w.channels c).queue else [] }

def sendLineAct (w : State) (runtime : Option Nat) (sink : Nat) (line : Str) :
    SendLine → Choice → Option (State × Option Call)
  | .get, choice =>
    match (w.sinks sink).tx, runtime, choice with
    | some _, _, .go => some (w, some (.sendLine runtime sink line .trySend))
    | none, some _, .go => some (w, some (.sendLine runtime sink line .set))
    | none, none, .go =>
      some ((w.appendLine (w.sinks sink).path line).log (.sent sink line .appended), none)
    | none, none, .openFails _ => some (w.log (.sent sink line .notAppended), none)
    | _, _, _ => none
  | .set, .go =>
    match runtime with
    | none => none
    | some r =>
      match setChannelOf w r sink with
      | (w', some c) => some (w', some (.sendLine runtime sink line (.spawn c)))
      | (w', none) => some (w', some (.sendLine runtime sink line .trySend))
  | .spawn c, .go =>
    match runtime with
    | none => none
    | some r => some (spawnWriter w r c, some (.sendLine runtime sink line .trySend))
  | .trySend, .go =>
    match (w.sinks sink).tx with
    | none => none
    | some c =>
      let (w', outcome) := w.trySend c line
      some (w'.log (.sent sink line outcome), none)
  | _, _ => none

def act (w : State) : Call → Choice → Option (State × Option Call)
  | .sinkFor path pc, choice => sinkForAct w path pc choice
  | .sendLine runtime sink line pc, choice => sendLineAct w runtime sink line pc choice

/-- A line is sent to a sink that some `sink_for` returned, by a request on a running runtime, or
outside of any. -/
def begins (w : State) : Call → Bool
  | .sinkFor _ .openFile => true
  | .sendLine runtime sink _ .get => runtime.all w.running && sink < w.sinkCount
  | _ => false

/-- What happens besides the calls: a server starts or stops, a writer opens its file or writes the
next line, and either can fail. -/
inductive Env
  | start
  | stop (runtime : Nat)
  | opens (channel : Nat) (ok : Bool)
  | writes (channel : Nat) (ok : Bool)

/-- A channel after the runtime has dropped its tasks. -/
def Channel.afterStop (channel : Channel) (runtime : Nat) : Channel :=
  match channel.receiver with
  | .writer r _ =>
    if r = runtime then { channel with receiver := .dropped .runtimeStopped, queue := [] }
    else channel
  | _ => channel

/-- A channel whose writer has returned. -/
def Channel.failed (channel : Channel) : Channel :=
  { channel with receiver := .dropped .fileError, queue := [] }

def envAct (w : State) : Env → Option State
  | .start =>
    some { w with running := Function.update w.running w.started true, started := w.started + 1 }
  | .stop runtime =>
    if w.running runtime then
      some { w with
        running := Function.update w.running runtime false
        channels := fun c => (w.channels c).afterStop runtime }
    else none
  | .opens c ok =>
    match (w.channels c).receiver with
    | .writer r false =>
      some (w.setChannel c
        (if ok then { w.channels c with receiver := .writer r true } else (w.channels c).failed))
    | _ => none
  | .writes c ok =>
    match (w.channels c).receiver, (w.channels c).queue with
    | .writer _ true, line :: rest =>
      if ok then
        some ((w.setChannel c { w.channels c with queue := rest }).appendLine (w.channels c).path line)
      else some (w.setChannel c (w.channels c).failed)
    | _, _ => none

def accessLog : Object State Call Choice Env where
  initial := .init
  begins p call := begins p.shared call
  act _ := act
  env := envAct

/-! ## What a call does -/

/-- The line was not taken, or taken by a channel without a writer, and neither the queue nor the
file is the reason. -/
def Outcome.isLost : Outcome → Bool
  | .accepted alive => !alive
  | .closed cause => cause == .runtimeStopped
  | _ => false

/-- The step leaves runtimes and channels as they are, and sends no line to a channel. -/
structure Quiet (w w' : State) : Prop where
  running : w'.running = w.running
  started : w'.started = w.started
  channels : w'.channels = w.channels
  channelCount : w'.channelCount = w.channelCount
  history : w'.history = w.history ∨ (∃ path result, w'.history = w.history ++ [.sink path result]) ∨
    ∃ sink line outcome, outcome.isLost = false ∧ w'.history = w.history ++ [.sent sink line outcome]

theorem sinkForAct_quiet {w w' : State} {path : Str} {pc : SinkFor} {choice : Choice}
    {call' : Option Call} (h : sinkForAct w path pc choice = some (w', call')) :
    Quiet w w' ∧ ∀ runtime sink line pc', call' ≠ some (.sendLine runtime sink line pc') := by
  cases pc with
  | openFile =>
    cases choice with
    | go =>
      cases h
      exact ⟨⟨rfl, rfl, rfl, rfl, .inl rfl⟩, fun _ _ _ _ heq => nomatch heq⟩
    | openFails e =>
      cases h
      exact ⟨⟨rfl, rfl, rfl, rfl, .inr (.inl ⟨_, _, rfl⟩)⟩, fun _ _ _ _ heq => nomatch heq⟩
  | lookup =>
    cases choice with
    | go =>
      simp only [sinkForAct] at h
      split at h
      · cases h
        exact ⟨⟨rfl, rfl, rfl, rfl, .inr (.inl ⟨_, _, rfl⟩)⟩, fun _ _ _ _ heq => nomatch heq⟩
      · cases h
        exact ⟨⟨rfl, rfl, rfl, rfl, .inl rfl⟩, fun _ _ _ _ heq => nomatch heq⟩
    | openFails e => cases h
  | insert =>
    cases choice with
    | go =>
      cases h
      exact ⟨⟨rfl, rfl, rfl, rfl, .inr (.inl ⟨_, _, rfl⟩)⟩, fun _ _ _ _ heq => nomatch heq⟩
    | openFails e => cases h

/-- One action of a `send_line`, case by case. -/
inductive SendStep (w : State) (runtime : Option Nat) (sink : Nat) (line : Str) :
    SendLine → State → Option Call → Prop
  | quiet {pc : SendLine} {w' : State} {call' : Option Call} (h : Quiet w w') (hpc : pc ≠ .trySend)
      (hcall : ∀ call, call' = some call →
        ∃ pc', call = .sendLine runtime sink line pc' ∧ ∀ c, pc' ≠ .spawn c) :
      SendStep w runtime sink line pc w' call'
  | made {r : Nat} (hr : runtime = some r) :
      SendStep w runtime sink line .set
        { w with
          sinks := Function.update w.sinks sink { w.sinks sink with tx := some w.channelCount }
          channels := Function.update w.channels w.channelCount ⟨r, (w.sinks sink).path, [], .held⟩
          channelCount := w.channelCount + 1 }
        (some (.sendLine runtime sink line (.spawn w.channelCount)))
  | spawned {r c : Nat} (hr : runtime = some r) :
      SendStep w runtime sink line (.spawn c) (spawnWriter w r c)
        (some (.sendLine runtime sink line .trySend))
  | sent {c : Nat} (hc : (w.sinks sink).tx = some c) :
      SendStep w runtime sink line .trySend
        ((w.trySend c line).1.log (.sent sink line (w.trySend c line).2)) none

theorem sendLineAct_step {w w' : State} {runtime : Option Nat} {sink : Nat} {line : Str}
    {pc : SendLine} {choice : Choice} {call' : Option Call}
    (h : sendLineAct w runtime sink line pc choice = some (w', call')) :
    SendStep w runtime sink line pc w' call' := by
  have hsame : Quiet w w := ⟨rfl, rfl, rfl, rfl, .inl rfl⟩
  have hnext (pc' : SendLine) (hpc' : ∀ c, pc' ≠ .spawn c) :
      ∀ call, some (Call.sendLine runtime sink line pc') = some call →
        ∃ pc', call = .sendLine runtime sink line pc' ∧ ∀ c, pc' ≠ .spawn c := by
    intro call heq
    cases heq
    exact ⟨pc', rfl, hpc'⟩
  cases pc with
  | get =>
    simp only [sendLineAct] at h
    split at h
    · cases h
      exact .quiet hsame (by decide) (hnext _ fun _ => SendLine.noConfusion)
    · cases h
      exact .quiet hsame (by decide) (hnext _ fun _ => SendLine.noConfusion)
    · cases h
      exact .quiet ⟨rfl, rfl, rfl, rfl, .inr (.inr ⟨_, _, _, rfl, rfl⟩)⟩ (by decide)
        fun _ heq => nomatch heq
    · cases h
      exact .quiet ⟨rfl, rfl, rfl, rfl, .inr (.inr ⟨_, _, _, rfl, rfl⟩)⟩ (by decide)
        fun _ heq => nomatch heq
    · cases h
  | set =>
    cases choice with
    | openFails e => cases h
    | go =>
      simp only [sendLineAct] at h
      cases hr : runtime with
      | none => simp [hr] at h
      | some r =>
        cases htx : (w.sinks sink).tx with
        | some c =>
          simp only [hr, setChannelOf, htx, Option.some.injEq, Prod.mk.injEq] at h
          obtain ⟨rfl, rfl⟩ := h
          rw [← hr]
          exact .quiet hsame (by decide) (hnext _ fun _ => SendLine.noConfusion)
        | none =>
          simp only [hr, setChannelOf, htx, Option.some.injEq, Prod.mk.injEq] at h
          obtain ⟨rfl, rfl⟩ := h
          exact .made rfl
  | spawn c =>
    cases choice with
    | openFails e => cases h
    | go =>
      simp only [sendLineAct] at h
      split at h
      · cases h
      · cases h
        exact .spawned rfl
  | trySend =>
    cases choice with
    | openFails e => cases h
    | go =>
      simp only [sendLineAct] at h
      split at h
      · cases h
      · next c hc =>
        cases h
        exact .sent hc

/-! ## Receivers and runtimes -/

/-- A writer is on the runtime of the thread that made its channel, and a receiver that went with a
runtime went with that one. -/
structure Channel.Sound (running : Nat → Bool) (started : Nat) (channel : Channel) : Prop where
  writer : ∀ r opened, channel.receiver = .writer r opened → r = channel.owner ∧ r < started
  stopped : channel.receiver = .dropped .runtimeStopped →
    running channel.owner = false ∧ channel.owner < started ∧ channel.queue = []

/-- A `send_line` runs on a runtime that was started, and spawns the writer of the channel that it
made. -/
def Call.Sound (w : State) : Call → Prop
  | .sendLine (some r) _ _ pc =>
    r < w.started ∧ ∀ c, pc = .spawn c → c < w.channelCount ∧ (w.channels c).owner = r
  | _ => True

structure State.Sound (w : State) : Prop where
  runningLt : ∀ r, w.running r = true → r < w.started
  channels : ∀ c, (w.channels c).Sound w.running w.started

structure Inv (p : Pool State Call) : Prop where
  state : p.shared.Sound
  calls : p.All (Call.Sound p.shared)

/-- What a step keeps for the calls that are under way. -/
structure Grows (w w' : State) : Prop where
  started : w.started ≤ w'.started
  channelCount : w.channelCount ≤ w'.channelCount
  owner : ∀ c < w.channelCount, (w'.channels c).owner = (w.channels c).owner

theorem Grows.call {w w' : State} (h : Grows w w') {call : Call} (hcall : call.Sound w) :
    call.Sound w' := by
  cases call with
  | sinkFor path pc => trivial
  | sendLine runtime sink line pc =>
    cases runtime with
    | none => trivial
    | some r =>
      refine ⟨hcall.1.trans_le h.started, fun c hc => ?_⟩
      obtain ⟨hlt, howner⟩ := hcall.2 c hc
      exact ⟨hlt.trans_le h.channelCount, (h.owner c hlt).trans howner⟩

theorem Quiet.grows {w w' : State} (h : Quiet w w') : Grows w w' :=
  ⟨h.started.ge, h.channelCount.ge, fun c _ => by rw [h.channels]⟩

/-- Writing to a channel leaves its owner. -/
theorem grows_setChannel (w : State) {c : Nat} {channel : Channel}
    (h : channel.owner = (w.channels c).owner) : Grows w (w.setChannel c channel) := by
  refine ⟨le_rfl, le_rfl, fun c' _ => ?_⟩
  show (Function.update w.channels c channel c').owner = _
  rw [Function.update_apply]
  split
  · next heq => rw [h, heq]
  · rfl

theorem sound_setChannel {w : State} {c : Nat} {channel : Channel}
    (h : ∀ c, (w.channels c).Sound w.running w.started) (hnew : channel.Sound w.running w.started) :
    ∀ c', ((w.setChannel c channel).channels c').Sound w.running w.started := by
  intro c'
  show (Function.update w.channels c channel c').Sound _ _
  rw [Function.update_apply]
  split
  · exact hnew
  · exact h c'

/-- A channel whose receiver is not gone takes a line, or a writer takes one from it. -/
theorem Channel.Sound.setQueue {running : Nat → Bool} {started : Nat} {channel : Channel}
    (h : channel.Sound running started) (hdropped : ∀ cause, channel.receiver ≠ .dropped cause)
    (queue : List Str) : Channel.Sound running started { channel with queue } :=
  ⟨h.writer, fun hstopped => (hdropped _ hstopped).elim⟩

theorem Channel.sound_failed (running : Nat → Bool) (started : Nat) (channel : Channel) :
    channel.failed.Sound running started :=
  ⟨fun _ _ heq => Receiver.noConfusion heq, fun heq => by cases heq⟩

theorem trySend_of_dropped {w : State} {c : Nat} {cause : Dropped}
    (h : (w.channels c).receiver = .dropped cause) (line : Str) :
    w.trySend c line = (w, .closed cause) := by
  simp [State.trySend, h]

theorem trySend_of_not_dropped {w : State} {c : Nat}
    (h : ∀ cause, (w.channels c).receiver ≠ .dropped cause) (line : Str) :
    w.trySend c line = if (w.channels c).queue.length < capacity then
      (w.setChannel c { w.channels c with queue := (w.channels c).queue ++ [line] },
        .accepted (w.running (w.channels c).owner)) else (w, .full) := by
  cases hr : (w.channels c).receiver with
  | dropped cause => exact (h cause hr).elim
  | held => simp [State.trySend, State.alive, hr]
  | writer r opened => simp [State.trySend, State.alive, hr]

/-- What `try_send` leaves as it is, and what it writes. -/
theorem trySend_sound {w : State} (c : Nat) (line : Str)
    (h : ∀ c, (w.channels c).Sound w.running w.started) :
    (w.trySend c line).1.running = w.running ∧ (w.trySend c line).1.started = w.started ∧
      (w.trySend c line).1.history = w.history ∧ Grows w (w.trySend c line).1 ∧
      ∀ c', ((w.trySend c line).1.channels c').Sound w.running w.started := by
  have hsame : Grows w w := ⟨le_rfl, le_rfl, fun _ _ => rfl⟩
  by_cases hdropped : ∃ cause, (w.channels c).receiver = .dropped cause
  · obtain ⟨cause, hcause⟩ := hdropped
    rw [trySend_of_dropped hcause]
    exact ⟨rfl, rfl, rfl, hsame, h⟩
  · have hnot : ∀ cause, (w.channels c).receiver ≠ .dropped cause := fun cause hcause =>
      hdropped ⟨cause, hcause⟩
    rw [trySend_of_not_dropped hnot]
    split
    · exact ⟨rfl, rfl, rfl, grows_setChannel w rfl, sound_setChannel h ((h c).setQueue hnot _)⟩
    · exact ⟨rfl, rfl, rfl, hsame, h⟩

/-- A line is lost exactly when the runtime of its channel has stopped, and neither the queue nor the
file is in the way. -/
theorem isLost_trySend_iff {w : State} {c : Nat} (h : (w.channels c).Sound w.running w.started)
    (line : Str) :
    (w.trySend c line).2.isLost = true ↔ w.running (w.channels c).owner = false ∧
      (w.channels c).queue.length < capacity ∧ (w.channels c).receiver ≠ .dropped .fileError := by
  by_cases hdropped : ∃ cause, (w.channels c).receiver = .dropped cause
  · obtain ⟨cause, hcause⟩ := hdropped
    rw [trySend_of_dropped hcause, hcause]
    cases cause with
    | fileError => simp [Outcome.isLost]
    | runtimeStopped =>
      obtain ⟨hrunning, -, hqueue⟩ := h.stopped hcause
      simp [Outcome.isLost, hrunning, hqueue, capacity]
  · have hnot : ∀ cause, (w.channels c).receiver ≠ .dropped cause := fun cause hcause =>
      hdropped ⟨cause, hcause⟩
    rw [trySend_of_not_dropped hnot]
    split
    · next hlen => simp [Outcome.isLost, hnot, hlen]
    · next hlen => simp [Outcome.isLost, hlen]

/-! ## Steps -/

theorem Quiet.sound {w w' : State} (h : Quiet w w') (hw : w.Sound) : w'.Sound := by
  constructor
  · rw [h.running, h.started]
    exact hw.runningLt
  · rw [h.running, h.started, h.channels]
    exact hw.channels

theorem sound_spawnWriter {w : State} (hw : w.Sound) {r c : Nat} (hr : r < w.started)
    (howner : (w.channels c).owner = r) : (spawnWriter w r c).Sound := by
  refine ⟨hw.runningLt, sound_setChannel hw.channels ⟨?_, ?_⟩⟩
  · intro r' opened heq
    dsimp only at heq ⊢
    split at heq
    · cases heq
      exact ⟨howner.symm, hr⟩
    · cases heq
  · intro heq
    dsimp only at heq ⊢
    split at heq
    · cases heq
    · next hstopped =>
      rw [howner]
      exact ⟨Bool.eq_false_iff.2 hstopped, hr, by simp [hstopped]⟩

/-- What an action of a `send_line` does to what the invariant is about. -/
theorem SendStep.sound {w w' : State} {runtime : Option Nat} {sink : Nat} {line : Str}
    {pc : SendLine} {call' : Option Call} (h : SendStep w runtime sink line pc w' call')
    (hw : w.Sound) (hcall : (Call.sendLine runtime sink line pc).Sound w) :
    w'.Sound ∧ Grows w w' ∧ ∀ call, call' = some call → call.Sound w' := by
  have hsame (w'' : State) (hgrows : Grows w w'') (pc' : SendLine) (hpc' : ∀ c, pc' ≠ .spawn c) :
      (Call.sendLine runtime sink line pc').Sound w'' := by
    cases runtime with
    | none => trivial
    | some r => exact ⟨hcall.1.trans_le hgrows.started, fun c hc => (hpc' c hc).elim⟩
  cases h with
  | quiet hquiet _ hnext =>
    refine ⟨hquiet.sound hw, hquiet.grows, fun call heq => ?_⟩
    obtain ⟨pc', rfl, hpc'⟩ := hnext call heq
    exact hsame w' hquiet.grows pc' hpc'
  | @made r hr =>
    subst hr
    have hnew : Channel.Sound w.running w.started ⟨r, (w.sinks sink).path, [], .held⟩ :=
      ⟨fun _ _ heq => Receiver.noConfusion heq, fun heq => by cases heq⟩
    refine ⟨⟨hw.runningLt, sound_setChannel hw.channels hnew⟩, ⟨le_rfl, Nat.le_succ _, ?_⟩, ?_⟩
    · intro c hc
      exact congrArg Channel.owner (Function.update_of_ne hc.ne ..)
    · intro call heq
      cases heq
      refine ⟨hcall.1, fun c hc => ?_⟩
      cases hc
      refine ⟨Nat.lt_succ_self _, ?_⟩
      dsimp only
      rw [Function.update_self]
  | @spawned r c hr =>
    subst hr
    obtain ⟨-, howner⟩ := hcall.2 c rfl
    have hgrows : Grows w (spawnWriter w r c) := grows_setChannel w rfl
    refine ⟨sound_spawnWriter hw hcall.1 howner, hgrows, fun call heq => ?_⟩
    cases heq
    exact hsame _ hgrows .trySend fun _ => SendLine.noConfusion
  | @sent c hc =>
    obtain ⟨hrunning, hstarted, -, hgrows, hchannels⟩ := trySend_sound c line hw.channels
    refine ⟨⟨?_, ?_⟩, ⟨hgrows.started, hgrows.channelCount, hgrows.owner⟩, fun _ heq => nomatch heq⟩
    · show ∀ r, (w.trySend c line).1.running r = true → r < (w.trySend c line).1.started
      rw [hrunning, hstarted]
      exact hw.runningLt
    · show ∀ c', ((w.trySend c line).1.channels c').Sound (w.trySend c line).1.running
        (w.trySend c line).1.started
      rw [hrunning, hstarted]
      exact hchannels

theorem Channel.Sound.afterStop {running : Nat → Bool} {started : Nat} {channel : Channel}
    (h : channel.Sound running started) (r : Nat) :
    (channel.afterStop r).Sound (Function.update running r false) started := by
  have hkept : ∀ channel : Channel, channel.Sound running started →
      channel.Sound (Function.update running r false) started := by
    intro channel h
    refine ⟨h.writer, fun hstopped => ?_⟩
    obtain ⟨hrunning, hrest⟩ := h.stopped hstopped
    refine ⟨?_, hrest⟩
    rw [Function.update_apply]
    split
    · rfl
    · exact hrunning
  unfold Channel.afterStop
  split
  · next r' opened hwriter =>
    split
    · next heq =>
      obtain ⟨howner, hlt⟩ := h.writer r' opened hwriter
      refine ⟨fun _ _ heq => Receiver.noConfusion heq, fun _ => ⟨?_, ?_, rfl⟩⟩
      · show Function.update running r false channel.owner = false
        rw [← howner, heq, Function.update_self]
      · show channel.owner < started
        rwa [← howner]
    · exact hkept channel h
  · exact hkept channel h

theorem envAct_sound {w w' : State} {e : Env} (h : envAct w e = some w') (hw : w.Sound) :
    w'.Sound ∧ Grows w w' ∧ w'.history = w.history := by
  cases e with
  | start =>
    cases h
    refine ⟨⟨?_, fun c => ⟨?_, ?_⟩⟩, ⟨Nat.le_succ _, le_rfl, fun _ _ => rfl⟩, rfl⟩
    · intro r hr
      dsimp only at hr ⊢
      rw [Function.update_apply] at hr
      split at hr
      · omega
      · exact (hw.runningLt r hr).trans (Nat.lt_succ_self _)
    · intro r opened hr
      obtain ⟨howner, hlt⟩ := (hw.channels c).writer r opened hr
      exact ⟨howner, hlt.trans (Nat.lt_succ_self _)⟩
    · intro hstopped
      obtain ⟨hrunning, hlt, hqueue⟩ := (hw.channels c).stopped hstopped
      exact ⟨(Function.update_of_ne hlt.ne ..).trans hrunning, hlt.trans (Nat.lt_succ_self _), hqueue⟩
  | stop r =>
    simp only [envAct, Option.ite_none_right_eq_some, Option.some.injEq] at h
    obtain ⟨hr, rfl⟩ := h
    refine ⟨⟨?_, fun c => (hw.channels c).afterStop r⟩, ⟨le_rfl, le_rfl, ?_⟩, rfl⟩
    · intro r' hr'
      dsimp only at hr'
      rw [Function.update_apply] at hr'
      split at hr'
      · cases hr'
      · exact hw.runningLt r' hr'
    · intro c _
      dsimp only
      unfold Channel.afterStop
      split
      · split <;> rfl
      · rfl
  | opens c ok =>
    simp only [envAct] at h
    split at h
    · next r hwriter =>
      cases h
      cases ok with
      | true =>
        refine ⟨⟨hw.runningLt, sound_setChannel hw.channels ⟨?_, fun heq => by cases heq⟩⟩,
          grows_setChannel w rfl, rfl⟩
        intro r' opened heq
        cases heq
        exact (hw.channels c).writer r false hwriter
      | false =>
        exact ⟨⟨hw.runningLt, sound_setChannel hw.channels (Channel.sound_failed ..)⟩,
          grows_setChannel w rfl, rfl⟩
    · cases h
  | writes c ok =>
    simp only [envAct] at h
    split at h
    · next r line rest hwriter hqueue =>
      split at h
      · cases h
        have hnot : ∀ cause, (w.channels c).receiver ≠ .dropped cause := by simp [hwriter]
        have hgrows : Grows w (w.setChannel c { w.channels c with queue := rest }) :=
          grows_setChannel w rfl
        exact ⟨⟨hw.runningLt, sound_setChannel hw.channels ((hw.channels c).setQueue hnot rest)⟩,
          ⟨hgrows.started, hgrows.channelCount, hgrows.owner⟩, rfl⟩
      · cases h
        exact ⟨⟨hw.runningLt, sound_setChannel hw.channels (Channel.sound_failed ..)⟩,
          grows_setChannel w rfl, rfl⟩
    · cases h

theorem reachable_inv {p : Pool State Call} (h : accessLog.Reachable p) : Inv p := by
  refine h.induct ?_ ?_ ?_ ?_
  · refine ⟨⟨fun _ hr => (nomatch hr), fun _ => ⟨?_, ?_⟩⟩, fun _ _ ht => (nomatch ht)⟩
    · exact fun _ _ heq => Receiver.noConfusion heq
    · exact fun heq => by cases heq
  · intro p i call _ hp _ hbegins
    refine ⟨hp.state, hp.calls.set (fun _ _ _ _ hold => hold) ?_⟩
    rintro _ ⟨rfl⟩
    match call, hbegins with
    | .sinkFor _ .openFile, _ => trivial
    | .sendLine none _ _ .get, _ => trivial
    | .sendLine (some r) _ _ .get, hbegins =>
      have hr : p.shared.running r = true := by
        have hand := Bool.and_eq_true_iff.1 hbegins
        simpa using hand.1
      exact ⟨hp.state.runningLt r hr, fun c hc => nomatch hc⟩
  · intro p i choice call w' call' _ hp hi hact
    have hsound : w'.Sound ∧ Grows p.shared w' ∧ ∀ call, call' = some call → call.Sound w' := by
      cases call with
      | sinkFor path pc =>
        obtain ⟨hquiet, hnext⟩ := sinkForAct_quiet hact
        refine ⟨hquiet.sound hp.state, hquiet.grows, fun call heq => ?_⟩
        cases call with
        | sinkFor _ _ => trivial
        | sendLine runtime sink line pc' => exact (hnext runtime sink line pc' heq).elim
      | sendLine runtime sink line pc =>
        exact (sendLineAct_step hact).sound hp.state (hp.calls i _ hi)
    obtain ⟨hw', hgrows, hnew⟩ := hsound
    exact ⟨hw', hp.calls.set (fun _ _ _ _ hold => hgrows.call hold) hnew⟩
  · intro p e w' _ hp henv
    obtain ⟨hw', hgrows, -⟩ := envAct_sound henv hp.state
    exact ⟨hw', fun i call hi => hgrows.call (hp.calls i call hi)⟩

/-! ## Runs -/

/-- No line has been lost. -/
def LinesKept (w : State) : Prop :=
  ∀ sink line outcome, .sent sink line outcome ∈ w.history → outcome.isLost = false

/-- A line is about to be handed to a channel whose runtime, that of the first line of its sink, has
stopped; the queue is not full and the writer did not fail on its file. -/
def Orphans (p : Pool State Call) (m : Move Call Choice Env) : Prop :=
  ∃ i choice runtime sink line c, m = .act i choice ∧
    p.tasks i = some (.sendLine runtime sink line .trySend) ∧ (p.shared.sinks sink).tx = some c ∧
    p.shared.running (p.shared.channels c).owner = false ∧
    (p.shared.channels c).queue.length < capacity ∧
    (p.shared.channels c).receiver ≠ .dropped .fileError

theorem Quiet.linesKept {w w' : State} (h : Quiet w w') (hw : LinesKept w) : LinesKept w' := by
  intro sink line outcome hmem
  rcases h.history with heq | ⟨path, result, heq⟩ | ⟨sink', line', outcome', hlost, heq⟩
  · rw [heq] at hmem
    exact hw sink line outcome hmem
  · rw [heq, List.mem_append, List.mem_singleton] at hmem
    rcases hmem with hold | hnew
    · exact hw sink line outcome hold
    · cases hnew
  · rw [heq, List.mem_append, List.mem_singleton] at hmem
    rcases hmem with hold | hnew
    · exact hw sink line outcome hold
    · cases hnew
      exact hlost

theorem linesKept_log_iff {w w' : State} (hw : LinesKept w) (hhistory : w'.history = w.history)
    (sink : Nat) (line : Str) (outcome : Outcome) :
    LinesKept (w'.log (.sent sink line outcome)) ↔ outcome.isLost = false := by
  constructor
  · intro h
    exact h sink line outcome (List.mem_append_right _ List.mem_cons_self)
  · intro hlost sink' line' outcome' hmem
    rw [State.log, hhistory, List.mem_append, List.mem_singleton] at hmem
    rcases hmem with hold | hnew
    · exact hw sink' line' outcome' hold
    · cases hnew
      exact hlost

theorem linesKept_move_iff {p p' : Pool State Call} {m : Move Call Choice Env}
    (hp : accessLog.Reachable p) (hw : LinesKept p.shared) (hm : accessLog.move p m = some p') :
    LinesKept p'.shared ↔ ¬ Orphans p m := by
  have hinv := reachable_inv hp
  obtain ⟨i, call, rfl, -, -, rfl⟩ | ⟨i, choice, call, w', call', rfl, hi, hact, rfl⟩ |
    ⟨e, w', rfl, henv, rfl⟩ := Object.move_cases hm
  · refine iff_of_true hw ?_
    rintro ⟨_, _, _, _, _, _, heq, -⟩
    cases heq
  · have hother (hcall : ∀ runtime sink line, call ≠ .sendLine runtime sink line .trySend) :
        ¬ Orphans p (.act i choice) := by
      rintro ⟨i', _, runtime, sink, line, _, heq, hi', -⟩
      cases heq
      rw [hi] at hi'
      exact hcall runtime sink line (Option.some.inj hi')
    rw [Pool.set_shared]
    cases call with
    | sinkFor path pc =>
      exact iff_of_true ((sinkForAct_quiet hact).1.linesKept hw) (hother fun _ _ _ => Call.noConfusion)
    | sendLine runtime sink line pc =>
      cases sendLineAct_step hact with
      | quiet hquiet hpc _ =>
        refine iff_of_true (hquiet.linesKept hw) (hother fun _ _ _ heq => hpc ?_)
        cases heq
        rfl
      | made _ => exact iff_of_true hw (hother fun _ _ _ heq => by cases heq)
      | spawned _ => exact iff_of_true hw (hother fun _ _ _ heq => by cases heq)
      | @sent c hc =>
        have hhistory := (trySend_sound c line hinv.state.channels).2.2.1
        rw [linesKept_log_iff hw hhistory, ← Bool.not_eq_true,
          isLost_trySend_iff (hinv.state.channels c) line, not_iff_not]
        constructor
        · rintro ⟨hrunning, hlen, hfile⟩
          exact ⟨i, choice, runtime, sink, line, c, rfl, hi, hc, hrunning, hlen, hfile⟩
        · rintro ⟨i', _, _, sink', _, c', heq, hi', hc', hrest⟩
          cases heq
          rw [hi] at hi'
          cases hi'
          rw [hc] at hc'
          cases hc'
          exact hrest
  · refine iff_of_true ?_ ?_
    · intro sink line outcome hmem
      have hhistory := (envAct_sound henv hinv.state).2.2
      rw [hhistory] at hmem
      exact hw sink line outcome hmem
    · rintro ⟨_, _, _, _, _, _, heq, -⟩
      cases heq

/-- **When every line has a writer**: in a run of server starts and stops and of lines sent from any
threads, every line is accepted by a channel with a writer, or meets a full queue or a failed file,
exactly when no line is sent to a sink after the runtime of the sink's first line has stopped. -/
theorem lines_kept_iff (schedule : List (Move Call Choice Env)) {p : Pool State Call}
    (h : accessLog.run accessLog.start schedule = some p) :
    accessLog.Always (fun p => LinesKept p.shared) accessLog.start schedule ↔
      ¬ accessLog.Occurs Orphans accessLog.start schedule := by
  refine Object.always_iff (fun p m p' hp hw hm => linesKept_move_iff hp hw hm) .start ?_ schedule h
  intro sink line outcome hmem
  cases hmem

/-! A server starts, logs a line, stops and starts again, and logs another line to the same path. -/

def restarted : List (Move Call Choice Env) :=
  [.begin 0 (.sinkFor "access.log".toList .openFile), .act 0 .go, .act 0 .go, .act 0 .go,
    .env .start,
    .begin 0 (.sendLine (some 0) 0 "first".toList .get), .act 0 .go, .act 0 .go, .act 0 .go, .act 0 .go,
    .env (.opens 0 true), .env (.writes 0 true), .env (.stop 0), .env .start,
    .begin 0 (.sendLine (some 1) 0 "second".toList .get), .act 0 .go, .act 0 .go]

theorem restarted_loses_line :
    ∃ p, accessLog.run accessLog.start restarted = some p ∧
      p.shared.history = [.sink "access.log".toList (.ok 0), .sent 0 "first".toList (.accepted true),
        .sent 0 "second".toList (.closed .runtimeStopped)] ∧
      p.shared.files "access.log".toList = ["first".toList] ∧ ¬ LinesKept p.shared := by
  refine ⟨_, rfl, rfl, rfl, fun h => ?_⟩
  have hlost := h 0 "second".toList (.closed .runtimeStopped)
    (List.mem_of_getElem? (i := 2) rfl)
  cases hlost

theorem lines_kept_restarted :
    ∃ p, accessLog.run accessLog.start restarted = some p ∧
      (accessLog.Always (fun p => LinesKept p.shared) accessLog.start restarted ↔
        ¬ accessLog.Occurs Orphans accessLog.start restarted) :=
  ⟨_, rfl, lines_kept_iff restarted rfl⟩

end Lonesome.AccessLog
