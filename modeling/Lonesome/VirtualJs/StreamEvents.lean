import Lonesome.VirtualJs.Streams

/-!
# What the callbacks of the listeners are told

The events of one connection go to one listener, which is told of the connection at most once and of
nothing written before that (`events_in_order`).

What a call has to know of the events already sent is said about its frames: a connect that has its
`finalCheck` ahead has sent its `open` (`Past`), one that has its `openEvent` ahead has not
(`Before`), and a socket of the proxy was made by a connect that has.
-/

namespace Lonesome.VirtualJs.Streams

open Lonesome.Interleaving
open Registry (World Frame Role Code Answer Status)

/-! ## The events that a call sends -/

/-- The event that an action of a call may send. -/
inductive Sends : Work → ListenerEventCall → Prop
  | write {l : Nat} {c : Str} {data : Bytes} :
      Sends (.onWrite l c data true) ⟨l, .write, c, data⟩
  | close {l : Nat} {c : Str} : Sends (.onClose l c true) ⟨l, .close, c, []⟩
  | opened {l : Nat} {c : Str} {rest : List Frame} :
      Sends (.registry (.connect l (.openEvent c) :: rest)) ⟨l, .opened, c, []⟩
  | deactivated {l : Nat} {c : Str} {cs : List Str} {rest : List Frame} :
      Sends (.registry (.deactivateListener l (.loop (c :: cs)) :: rest)) ⟨l, .close, c, []⟩

section Steps

variable {i : Nat} {s s' : Layer} {work : Work} {work' : Option Work} {l : Nat} {c : Str}

theorem registryAct_events {stack : List Frame} {choice : Registry.Choice}
    (h : registryAct s stack choice = some (s', work')) : s'.events = s.events := by
  obtain ⟨f, rest, new, w', hin⟩ := registryAct_inside h
  rw [hin.layer]

theorem WorkStep.events (h : WorkStep i s work s' work') :
    s'.events = s.events ∨
      ∃ e, Sends work e ∧ s'.events = s.events ++ [e] ∧ s'.world = s.world := by
  cases h with
  | written => exact .inr ⟨_, .write, rfl, rfl⟩
  | closed => exact .inr ⟨_, .close, rfl, rfl⟩
  | openSent => exact .inr ⟨_, .opened, rfl, rfl⟩
  | closeSent => exact .inr ⟨_, .deactivated, rfl, rfl⟩
  | issued h | awaited h =>
    have hevents := registryAct_events h
    exact .inl hevents
  | inside h _ _ => exact .inl (registryAct_events h)
  | aborted _ h =>
    have hevents := registryAct_events h
    exact .inl hevents
  | _ => exact .inl rfl

/-! ## Before and after the `open` -/

/-- A connect for which the `open` has returned. -/
def IsPast (l : Nat) (c : Str) : Frame → Prop
  | .connect l' (.finalCheck c') | .connect l' (.socketState c') => l' = l ∧ c' = c
  | _ => False

/-- The id of a connect with its `open` ahead. -/
def unopened : Frame → Option Str
  | .connect _ (.attach c) | .connect _ (.insert c) | .connect _ (.recheck c)
  | .connect _ (.openEvent c) => some c
  | _ => none

/-- The frames of a call, without one that waits: a connect that has sent its `open`, or the loop of a
deactivation. -/
def Work.frames : Work → List Frame
  | .registry stack | .awaitOpen _ _ stack | .abort _ _ _ _ _ stack => stack
  | _ => []

theorem Work.code_of_mem_frames (work : Work) {f : Frame} (h : f ∈ work.frames) :
    ∃ stack, work.code = .registry stack ∧ f ∈ stack := by
  cases work with
  | registry stack => exact ⟨stack, rfl, h⟩
  | awaitOpen l c rest => exact ⟨_, rfl, List.mem_cons_of_mem _ h⟩
  | abort l c message pc cs rest => exact ⟨_, rfl, List.mem_cons_of_mem _ h⟩
  | _ => cases h

/-- The call comes after the `open` of `c`. -/
inductive Work.Past (l : Nat) (c : Str) : Work → Prop
  | onWrite {data : Bytes} {checked : Bool} : Past l c (.onWrite l c data checked)
  | onClose {checked : Bool} : Past l c (.onClose l c checked)
  | awaits {rest : List Frame} : Past l c (.awaitOpen l c rest)
  | frame {work : Work} {f : Frame} (hf : f ∈ work.frames) (h : IsPast l c f) : Past l c work

/-- The call has the `open` of `c` ahead. -/
def Work.Before (c : Str) (work : Work) : Prop := ∃ f ∈ work.frames, unopened f = some c

theorem isPast_of_step {w w' : Registry.State} {f : Frame} {new : List Frame}
    (h : Registry.FrameStep w f w' new) :
    ∀ g ∈ new, IsPast l c g → IsPast l c f ∨ f = .connect l (.openEvent c) := by
  cases h <;> simp +contextual [IsPast]

/-- Only an `open` that has returned leads past it. -/
theorem isPast_of_frameAct {w w' : Registry.State} {f : Frame} {choice : Registry.Choice}
    {new : List Frame} (h : Registry.frameAct w f choice = some (w', new)) {g : Frame}
    (hg : g ∈ new) (hpast : IsPast l c g) :
    IsPast l c f ∨ (f = .connect l (.openEvent c) ∧ ∀ closed, choice ≠ .openFails closed) := by
  refine (isPast_of_step (Registry.frameAct_step h) g hg hpast).imp_right fun hf => ⟨hf, ?_⟩
  rintro closed rfl
  subst hf
  cases closed <;> cases h <;> simp at hg <;> rcases hg with rfl | rfl <;> exact hpast

theorem unopened_of_step {w w' : Registry.State} {f : Frame} {new : List Frame}
    (h : Registry.FrameStep w f w' new) :
    ∀ g ∈ new, unopened g = some c → unopened f = some c ∨
      ∃ l, f = .connect l .nextConnId ∧ c = Registry.connId (w.instances l).key w.seq := by
  cases h <;> simp +contextual [unopened, eq_comm]

theorem registryAct_frames {stack : List Frame} {choice : Registry.Choice}
    (h : registryAct s stack choice = some (s', work')) {work₂ : Work} (hwork : work' = some work₂) :
    ∃ f rest new w', stack = f :: rest ∧
      Registry.frameAct s.world.registry f choice = some (w', new) ∧
      work₂ = .registry (new ++ rest) := by
  obtain ⟨f, rest, new, w', hin⟩ := registryAct_inside h
  refine ⟨f, rest, new, w', hin.stack_eq, hin.frame, ?_⟩
  rw [hin.work] at hwork
  obtain ⟨stack', hstack, rfl⟩ := Option.map_eq_some_iff.1 hwork
  rw [Registry.running_eq_some hstack]

theorem registryAct_past {stack : List Frame} {choice : Registry.Choice}
    (h : registryAct s stack choice = some (s', work')) {work₂ : Work} (hwork : work' = some work₂)
    (hpast : work₂.Past l c) :
    (∃ f ∈ stack, IsPast l c f) ∨
      ∃ rest, stack = .connect l (.openEvent c) :: rest ∧ ∀ closed, choice ≠ .openFails closed := by
  obtain ⟨f, rest, new, w', rfl, hframe, rfl⟩ := registryAct_frames h hwork
  cases hpast with
  | @frame _ g hg hpast =>
    rcases List.mem_append.1 hg with hg | hg
    · rcases isPast_of_frameAct hframe hg hpast with hf | ⟨rfl, hchoice⟩
      · exact .inl ⟨f, List.mem_cons_self, hf⟩
      · exact .inr ⟨rest, rfl, hchoice⟩
    · exact .inl ⟨g, List.mem_cons_of_mem f hg, hpast⟩

theorem registryAct_before {stack : List Frame} {choice : Registry.Choice}
    (h : registryAct s stack choice = some (s', work')) {work₂ : Work} (hwork : work' = some work₂)
    (hbefore : work₂.Before c) :
    (∃ f ∈ stack, unopened f = some c) ∨
      ∃ l, .connect l .nextConnId ∈ stack ∧
        c = Registry.connId (s.world.registry.instances l).key s.world.registry.seq := by
  obtain ⟨f, rest, new, w', rfl, hframe, rfl⟩ := registryAct_frames h hwork
  obtain ⟨g, hg, hc⟩ := hbefore
  rcases List.mem_append.1 hg with hg | hg
  · rcases unopened_of_step (Registry.frameAct_step hframe) g hg hc with hf | ⟨l, rfl, hl⟩
    · exact .inl ⟨f, List.mem_cons_self, hf⟩
    · exact .inr ⟨l, List.mem_cons_self, hl⟩
  · exact .inl ⟨g, List.mem_cons_of_mem f hg, hc⟩

def Opened (s : Layer) (l : Nat) (c : Str) : Prop := ⟨l, .opened, c, []⟩ ∈ s.events

/-- A call comes to be past an `open` as it borrows a socket, as its own `open` is sent, and when it
was so before. -/
theorem WorkStep.past (h : WorkStep i s work s' work') {work₂ : Work} (hwork : work' = some work₂)
    (hpast : work₂.Past l c) :
    work.Past l c ∨ (∃ use, s.world.streams c = some ⟨l, use⟩) ∨ Opened s' l c := by
  cases h with
  | writeBegun hc =>
    cases hwork
    cases hpast with
    | onWrite => exact .inr (.inl ⟨_, hc⟩)
    | frame hf => cases hf
  | shutdown hc =>
    cases hwork
    cases hpast with
    | onClose => exact .inr (.inl ⟨_, hc⟩)
    | frame hf => cases hf
  | writeActive =>
    cases hwork
    cases hpast with
    | onWrite => exact .inl .onWrite
    | frame hf => cases hf
  | closeActive =>
    cases hwork
    cases hpast with
    | onClose => exact .inl .onClose
    | frame hf => cases hf
  | writeFoundClosed | closeInactive | closed | closeFoundClosed =>
    cases hwork
    cases hpast with
    | frame hf h =>
      rw [List.mem_singleton.1 hf] at h
      exact h.elim
  | openSent =>
    cases hwork
    cases hpast with
    | awaits => exact .inr (.inr (List.mem_append_right _ List.mem_cons_self))
    | frame hf h => exact .inl (.frame (List.mem_cons_of_mem _ hf) h)
  | closeSent | closeNotSent =>
    cases hwork
    cases hpast with
    | frame hf h => exact .inl (.frame (List.mem_cons_of_mem _ hf) h)
  | aborting =>
    cases hwork
    cases hpast with
    | frame hf h => exact .inl (.frame hf h)
  | issued h =>
    rcases registryAct_past h hwork hpast with ⟨f, hf, hpast⟩ | ⟨rest, heq, -⟩
    · exact .inl (.frame hf hpast)
    · cases heq
  | inside h hopen _ =>
    rcases registryAct_past h hwork hpast with ⟨f, hf, hpast⟩ | ⟨rest, heq, hchoice⟩
    · exact .inl (.frame hf hpast)
    · obtain ⟨closed, hclosed⟩ := hopen l c rest heq
      exact (hchoice closed hclosed).elim
  | awaited h =>
    rcases registryAct_past h hwork hpast with ⟨f, hf, hpast⟩ | ⟨rest, heq, -⟩
    · rcases List.mem_cons.1 hf with rfl | hf
      · exact hpast.elim
      · exact .inl (.frame hf hpast)
    · cases heq
      exact .inl .awaits
  | aborted _ h =>
    rcases registryAct_past h hwork hpast with ⟨f, hf, hpast⟩ | ⟨rest, heq, -⟩
    · rcases List.mem_cons.1 hf with rfl | hf
      · exact hpast.elim
      · exact .inl (.frame hf hpast)
    · cases heq
  | _ => cases hwork

/-- A call comes to have an `open` ahead as it gets its id. -/
theorem WorkStep.before (h : WorkStep i s work s' work') {work₂ : Work} (hwork : work' = some work₂)
    (hbefore : work₂.Before c) :
    work.Before c ∨
      ∃ l, c = Registry.connId (s.world.registry.instances l).key s.world.registry.seq := by
  cases h with
  | writeBegun | shutdown | writeActive | closeActive =>
    cases hwork
    obtain ⟨f, hf, -⟩ := hbefore
    cases hf
  | writeFoundClosed | closeInactive | closed | closeFoundClosed =>
    cases hwork
    obtain ⟨f, hf, hc⟩ := hbefore
    rw [List.mem_singleton.1 hf] at hc
    cases hc
  | openSent | closeSent | closeNotSent =>
    cases hwork
    obtain ⟨f, hf, hc⟩ := hbefore
    exact .inl ⟨f, List.mem_cons_of_mem _ hf, hc⟩
  | aborting =>
    cases hwork
    exact .inl hbefore
  | issued h =>
    rcases registryAct_before h hwork hbefore with hf | ⟨l, -, hl⟩
    · exact .inl hf
    · exact .inr ⟨l, hl⟩
  | inside h _ _ =>
    rcases registryAct_before h hwork hbefore with hf | ⟨l, -, hl⟩
    · exact .inl hf
    · exact .inr ⟨l, hl⟩
  | awaited h =>
    -- the connect itself has sent its `open`, whatever it goes on with
    obtain ⟨f, rest, new, w', heq, hframe, rfl⟩ := registryAct_frames h hwork
    cases heq
    obtain ⟨g, hg, hc⟩ := hbefore
    rcases List.mem_append.1 hg with hg | hg
    · have hstep := Registry.frameAct_step hframe
      cases hstep <;> simp at hg
      · rw [hg] at hc
        cases hc
      · rcases hg with rfl | rfl <;> cases hc
      · rcases hg with rfl | rfl <;> cases hc
    · exact .inl ⟨g, hg, hc⟩
  | aborted _ h =>
    rcases registryAct_before h hwork hbefore with ⟨f, hf, hc⟩ | ⟨l, -, hl⟩
    · rcases List.mem_cons.1 hf with rfl | hf
      · cases hc
      · exact .inl ⟨f, hf, hc⟩
    · exact .inr ⟨l, hl⟩
  | _ => cases hwork

/-! ## The sockets of the proxy -/

theorem streams_setUse_listener (w : World) (c' : Str) (change : Registry.Use → Registry.Use)
    {use : Registry.Use} (h : (w.setUse c' change).streams c = some ⟨l, use⟩) :
    ∃ use', w.streams c = some ⟨l, use'⟩ := by
  rw [Registry.World.streams_setUse] at h
  split at h
  · next hc =>
    obtain ⟨v, hv, heq⟩ := Option.map_eq_some_iff.1 h
    cases heq
    exact ⟨v.use, by rw [hc, hv]⟩
  · exact ⟨use, h⟩

theorem streams_leave_listener {w : World} {role : Role} {use : Registry.Use}
    (h : (w.leave role).streams c = some ⟨l, use⟩) : ∃ use', w.streams c = some ⟨l, use'⟩ := by
  cases role with
  | poll c' =>
    rw [Registry.World.leave] at h
    exact streams_setUse_listener w c' _ h
  | connect | other => exact ⟨use, h⟩

theorem registryAct_streams {stack : List Frame} {choice : Registry.Choice}
    (h : registryAct s stack choice = some (s', work')) {use : Registry.Use}
    (hc : s'.world.streams c = some ⟨l, use⟩) :
    s.world.streams c = some ⟨l, use⟩ ∨ stack = [.connect l (.socketState c)] := by
  obtain ⟨f, rest, new, w', hin⟩ := registryAct_inside h
  rw [hin.layer] at hc
  rcases s.world.streamsAfter_cases stack c with hsame | ⟨l', hstack, -, hnew⟩
  · exact .inl (hsame.symm.trans hc)
  · have hl := hnew.symm.trans hc
    simp only [Option.some.injEq, Registry.VirtualJsSocket.mk.injEq] at hl
    rw [hl.1] at hstack
    exact .inr hstack

/-- A socket is made by a connect past its `open`. -/
theorem WorkStep.streams (h : WorkStep i s work s' work') {use : Registry.Use}
    (hc : s'.world.streams c = some ⟨l, use⟩) :
    (∃ use', s.world.streams c = some ⟨l, use'⟩) ∨ work.Past l c := by
  cases h with
  | @writeBegun c' | @shutdown c' =>
    have hc' : (s.world.setUse c' fun _ => .polled).streams c = some ⟨l, use⟩ := hc
    exact .inl (streams_setUse_listener s.world c' _ hc')
  | issued h | awaited h =>
    rcases registryAct_streams h hc with hsame | hstack
    · exact .inl ⟨use, hsame⟩
    · cases hstack
  | aborted _ h =>
    rcases registryAct_streams h hc with hsame | hstack
    · exact .inl ⟨use, hsame⟩
    · cases hstack
  | inside h _ _ =>
    rcases registryAct_streams h hc with hsame | rfl
    · exact .inl ⟨use, hsame⟩
    · exact .inr (.frame List.mem_cons_self ⟨rfl, rfl⟩)
  | _ => exact .inl ⟨use, hc⟩

end Steps

/-! ## The invariant -/

/-- Is `e` the `open` of `c`? -/
def ListenerEventCall.opens (c : Str) (e : ListenerEventCall) : Bool := e.kind = .opened ∧ e.connId = c

def Task.Past (l : Nat) (c : Str) : Task → Prop
  | .through _ work => work.Past l c
  | _ => False

def Task.Before (c : Str) : Task → Prop
  | .through _ work => work.Before c
  | _ => False

/-- Events are about ids of their listener; one `open` for each; nothing is written before it; and
where the calls and the sockets are with respect to it. -/
structure Told (p : Pool Layer Task) : Prop where
  issued : ∀ e ∈ p.shared.events,
    Registry.Event.issued e.listener e.connId ∈ p.shared.world.registry.history
  once : ∀ c, (p.shared.events.filter (·.opens c)).length ≤ 1
  writes : ∀ before e after, p.shared.events = before ++ e :: after → e.kind = .write →
    ⟨e.listener, .opened, e.connId, []⟩ ∈ before
  streams : ∀ c l use, p.shared.world.streams c = some ⟨l, use⟩ → Opened p.shared l c
  past : p.All fun task => ∀ l c, task.Past l c → Opened p.shared l c
  before : p.All fun task => ∀ c, task.Before c → p.shared.events.filter (·.opens c) = []

theorem Opened.append {s s' : Layer} {l : Nat} {c : Str} (h : Opened s l c)
    {events : List ListenerEventCall} (he : s'.events = s.events ++ events) : Opened s' l c := by
  rw [Opened, he]
  exact List.mem_append_left _ h

/-- A write after its `open` keeps the order. -/
theorem writes_append {events : List ListenerEventCall} {e : ListenerEventCall}
    (h : ∀ before e after, events = before ++ e :: after → e.kind = .write →
      ⟨e.listener, .opened, e.connId, []⟩ ∈ before)
    (he : e.kind = .write → ⟨e.listener, .opened, e.connId, []⟩ ∈ events) :
    ∀ before e' after, events ++ [e] = before ++ e' :: after → e'.kind = .write →
      ⟨e'.listener, .opened, e'.connId, []⟩ ∈ before := by
  intro before e' after heq hkind
  rcases List.eq_nil_or_concat after with rfl | ⟨after', last, rfl⟩
  · obtain ⟨rfl, hlast⟩ := List.append_inj' heq rfl
    cases hlast
    exact he hkind
  · rw [List.concat_eq_append, ← List.cons_append, ← List.append_assoc] at heq
    obtain ⟨hevents, -⟩ := List.append_inj' heq rfl
    exact h before e' after' hevents hkind

section Invariant

variable {p : Pool Layer Task} {i : Nat} {s' : Layer} {task' : Option Task}

/-- What an action in slot `i` may send: an event of an id of its listener, a write only after its
`open`, and an `open` only once and by the one call that has it ahead. -/
structure MaySend (p : Pool Layer Task) (i : Nat) (e : ListenerEventCall) : Prop where
  issued : Registry.Event.issued e.listener e.connId ∈ p.shared.world.registry.history
  write : e.kind = .write → Opened p.shared e.listener e.connId
  opens : ∀ c, e.opens c = true → p.shared.events.filter (·.opens c) = [] ∧
    ∀ j task, j ≠ i → p.tasks j = some task → ¬ task.Before c

namespace Told

theorem quiet (hp : Told p)
    (hmono : ∀ l c, Registry.Event.issued l c ∈ p.shared.world.registry.history →
      Registry.Event.issued l c ∈ s'.world.registry.history)
    (hevents : s'.events = p.shared.events)
    (hstreams : ∀ c l use, s'.world.streams c = some ⟨l, use⟩ → Opened s' l c)
    (hpast : ∀ task, task' = some task → ∀ l c, task.Past l c → Opened s' l c)
    (hbefore : ∀ task, task' = some task → ∀ c, task.Before c →
      p.shared.events.filter (·.opens c) = []) : Told (p.set i s' task') where
  issued e he := by
    rw [Pool.set_shared, hevents] at he
    exact hmono _ _ (hp.issued e he)
  once c := by
    rw [Pool.set_shared, hevents]
    exact hp.once c
  writes := by
    rw [Pool.set_shared, hevents]
    exact hp.writes
  streams := hstreams
  past := by
    refine hp.past.set (fun j task _ _ hpast l c h => ?_) hpast
    exact (hpast l c h).append (hevents.trans (List.append_nil _).symm)
  before := by
    refine hp.before.set (fun j task _ _ hbefore c h => ?_) fun task htask c h => ?_
    · rw [Pool.set_shared, hevents]
      exact hbefore c h
    · rw [Pool.set_shared, hevents]
      exact hbefore task htask c h

theorem sends (hp : Told p) {e : ListenerEventCall} (he : MaySend p i e)
    (hhistory : s'.world.registry.history = p.shared.world.registry.history)
    (hevents : s'.events = p.shared.events ++ [e])
    (hstreams : ∀ c l use, s'.world.streams c = some ⟨l, use⟩ → Opened p.shared l c)
    (hpast : ∀ task, task' = some task → ∀ l c, task.Past l c → Opened s' l c)
    (hbefore : ∀ task, task' = some task → ∀ c, task.Before c → e.opens c = false ∧
      p.shared.events.filter (·.opens c) = []) : Told (p.set i s' task') where
  issued e' he' := by
    rw [Pool.set_shared, hhistory]
    rw [Pool.set_shared, hevents, List.mem_append, List.mem_singleton] at he'
    rcases he' with he' | rfl
    · exact hp.issued e' he'
    · exact he.issued
  once c := by
    rw [Pool.set_shared, hevents, List.filter_append, List.length_append]
    cases hopens : e.opens c with
    | false =>
      rw [List.filter_cons_of_neg (by simp [hopens]), List.filter_nil]
      exact hp.once c
    | true =>
      rw [(he.opens c hopens).1, List.filter_cons_of_pos hopens]
      exact Nat.le_refl 1
  writes := by
    rw [Pool.set_shared, hevents]
    exact writes_append hp.writes he.write
  streams c l use h := (hstreams c l use h).append hevents
  past := hp.past.set (fun j task _ _ hpast l c h => (hpast l c h).append hevents) hpast
  before := by
    have hnone : ∀ c, e.opens c = false → p.shared.events.filter (·.opens c) = [] →
        s'.events.filter (·.opens c) = [] := by
      intro c hopens hc
      rw [hevents, List.filter_append, hc, List.filter_cons_of_neg (by simp [hopens]),
        List.filter_nil, List.append_nil]
    refine hp.before.set (fun j task hj htask hbefore c h => ?_) fun task htask c h => ?_
    · cases hopens : e.opens c with
      | false => exact hnone c hopens (hbefore c h)
      | true => exact ((he.opens c hopens).2 j task hj htask h).elim
    · exact hnone c (hbefore task htask c h).1 (hbefore task htask c h).2

end Told

/-- A connect that is about to send its `open` is the only frame of its call. -/
theorem openEvent_alone (hp : streams.Reachable p) {role : Role} {l : Nat} {c : Str}
    {rest : List Frame}
    (hi : p.tasks i = some (.through role (.registry (.connect l (.openEvent c) :: rest)))) :
    rest = [] := by
  have hinv := Registry.reachable_inv (Registry.reachable_project (reachable_forget hp))
  have hstack := project_forget hi rfl
  cases rest with
  | nil => rfl
  | cons f rest => cases hinv.bottom i _ hstack (.connect l (.openEvent c)) List.mem_cons_self

/-- The `open` of an id is ahead of one call only. -/
theorem before_unique (hp : streams.Reachable p) {j : Nat} {c : Str} {task task₂ : Task}
    (hi : p.tasks i = some task) (hj : p.tasks j = some task₂) (hb : task.Before c)
    (hb₂ : task₂.Before c) : j = i := by
  have hinv := Registry.reachable_inv (Registry.reachable_project (reachable_forget hp))
  have hid : ∀ {k : Nat} {t : Task}, p.tasks k = some t → t.Before c → ∃ stack,
      (Registry.project (forget p)).tasks k = some stack ∧ Registry.HasId c stack := by
    intro k t hk hbefore
    cases t with
    | through role work =>
      obtain ⟨f, hf, hc⟩ := hbefore
      have hconn : f.connId = some c := by
        unfold unopened at hc
        split at hc <;> first | exact hc | cases hc
      obtain ⟨stack, hcode, hmem⟩ := work.code_of_mem_frames hf
      exact ⟨stack, project_forget hk hcode, f, hmem, hconn⟩
    | _ => exact hbefore.elim
  obtain ⟨stack, hstack, hid₁⟩ := hid hi hb
  obtain ⟨stack₂, hstack₂, hid₂⟩ := hid hj hb₂
  exact hinv.ids c j i stack₂ stack hstack₂ hstack hid₂ hid₁

theorem maySend_of_sends (ht : Told p) (hp : streams.Reachable p) {role : Role} {work : Work}
    (hi : p.tasks i = some (.through role work)) {e : ListenerEventCall} (h : Sends work e) :
    MaySend p i e := by
  have hreg := Registry.reachable_project (reachable_forget hp)
  have hknown := (Registry.reachable_inv hreg).known
  cases h with
  | write =>
    have hopened := ht.past i _ hi _ _ .onWrite
    have hissued := ht.issued _ hopened
    exact ⟨hissued, fun _ => hopened, by simp [ListenerEventCall.opens]⟩
  | close =>
    have hopened := ht.past i _ hi _ _ .onClose
    have hissued := ht.issued _ hopened
    exact ⟨hissued, by simp, by simp [ListenerEventCall.opens]⟩
  | @opened l c rest =>
    have hbefore : (Task.through role (.registry (.connect l (.openEvent c) :: rest))).Before c :=
      ⟨_, List.mem_cons_self, rfl⟩
    refine ⟨?_, by simp, fun c' hc' => ?_⟩
    · exact hknown.named _ (present_of_stack hi rfl List.mem_cons_self) l c ⟨rfl, rfl⟩
    · obtain rfl : c = c' := by simpa [ListenerEventCall.opens] using hc'
      refine ⟨ht.before i _ hi c hbefore, fun j task hj htask hb => ?_⟩
      exact hj (before_unique hp hi htask hbefore hb)
  | @deactivated l c cs rest =>
    refine ⟨?_, by simp, by simp [ListenerEventCall.opens]⟩
    exact reachable_abortsIssued hreg _ (present_of_stack hi rfl List.mem_cons_self) l c
      ⟨rfl, List.mem_cons_self⟩

/-- An action of a call that goes through a listener or the registry. -/
theorem told_work (ht : Told p) (hp : streams.Reachable p) {role : Role} (role' : Role)
    {work : Work} {s₁ : Layer} {work' : Option Work} (hi : p.tasks i = some (.through role work))
    (h : WorkStep i p.shared work s₁ work') (hevents : s'.events = s₁.events)
    (hregistry : s'.world.registry = s₁.world.registry)
    (hmono : ∀ l c, Registry.Event.issued l c ∈ p.shared.world.registry.history →
      Registry.Event.issued l c ∈ s'.world.registry.history)
    (hstreams : ∀ c l use, s'.world.streams c = some ⟨l, use⟩ →
      ∃ use', s₁.world.streams c = some ⟨l, use'⟩) :
    Told (p.set i s' (work'.map (.through role'))) := by
  have hmade : ∀ c l use, s'.world.streams c = some ⟨l, use⟩ → Opened p.shared l c := by
    intro c l use hc
    obtain ⟨use₁, hc₁⟩ := hstreams c l use hc
    rcases h.streams hc₁ with ⟨use₂, hc₂⟩ | hpast
    · exact ht.streams c l use₂ hc₂
    · exact ht.past i _ hi l c hpast
  have hopened : ∀ {l c}, Opened p.shared l c → Opened s' l c := by
    intro l c ho
    rcases h.events with hsame | ⟨e, -, hsent, -⟩
    · exact ho.append ((hevents.trans hsame).trans (List.append_nil _).symm)
    · exact ho.append (hevents.trans hsent)
  have hpast : ∀ task, work'.map (Task.through role') = some task → ∀ l c, task.Past l c →
      Opened s' l c := by
    intro task htask l c hpast
    obtain ⟨work₂, hwork, rfl⟩ := Option.map_eq_some_iff.1 htask
    rcases h.past hwork hpast with hold | ⟨use, hc⟩ | hnew
    · exact hopened (ht.past i _ hi l c hold)
    · exact hopened (ht.streams c l use hc)
    · rwa [Opened, hevents]
  have hbefore : ∀ work₂, work' = some work₂ → ∀ c, work₂.Before c →
      p.shared.events.filter (·.opens c) = [] := by
    intro work₂ hwork c hb
    rcases h.before hwork hb with hold | ⟨l, rfl⟩
    · exact ht.before i _ hi c hold
    · -- the next id is not issued, so no event is about it
      have hknown := (Registry.reachable_inv (Registry.reachable_project (reachable_forget hp))).known
      refine List.filter_eq_nil_iff.2 fun e he hopens => ?_
      have hid : e.connId = _ := (of_decide_eq_true hopens).2
      have hissued := ht.issued e he
      rw [hid] at hissued
      exact hknown.not_issued_next _ _ hissued
  rcases h.events with hsame | ⟨e, hsends, hsent, hworld⟩
  · refine ht.quiet hmono (hevents.trans hsame) (fun c l use hc => hopened (hmade c l use hc)) hpast ?_
    intro task htask c hb
    obtain ⟨work₂, hwork, rfl⟩ := Option.map_eq_some_iff.1 htask
    exact hbefore work₂ hwork c hb
  · refine ht.sends (maySend_of_sends ht hp hi hsends) (by rw [hregistry, hworld])
      (hevents.trans hsent) hmade hpast ?_
    intro task htask c hb
    obtain ⟨work₂, hwork, rfl⟩ := Option.map_eq_some_iff.1 htask
    refine ⟨?_, hbefore work₂ hwork c hb⟩
    cases hsends with
    | write | close | deactivated => simp [ListenerEventCall.opens]
    | opened =>
      -- a connect that sends its `open` has no other frame in its call
      obtain rfl := openEvent_alone hp hi
      obtain ⟨f, hf, hc⟩ := hb
      cases h with
      | openSent =>
        cases hwork
        cases hf
      | inside hact _ _ =>
        rw [registryAct_events hact] at hsent
        simp at hsent

/-- A frame that works on no id has no `open` ahead or behind. -/
theorem not_told_singleton {role : Role} {f : Frame} (h : f.connId = none) (l : Nat) (c : Str) :
    ¬ (Task.through role (.registry [f])).Past l c ∧
      ¬ (Task.through role (.registry [f])).Before c := by
  constructor
  · intro hpast
    cases hpast with
    | frame hf hpast =>
      rw [List.mem_singleton.1 hf] at hpast
      unfold IsPast at hpast
      split at hpast <;> first | exact hpast | cases h
  · rintro ⟨g, hg, hc⟩
    rw [List.mem_singleton.1 hg] at hc
    unfold unopened at hc
    split at hc <;> first | cases h | cases hc

theorem not_told_of_begins {w : Registry.State} {task : Task} (h : begins w task = true) (l : Nat)
    (c : Str) : ¬ task.Past l c ∧ ¬ task.Before c := by
  cases task with
  | through role work =>
    cases work with
    | pollWrite | pollShutdown =>
      constructor
      · intro hpast
        cases hpast with
        | frame hf => cases hf
      · rintro ⟨f, hf, -⟩
        cases hf
    | registry stack =>
      rcases Registry.callBegins_cases h with ⟨hcode, -⟩ | ⟨stack', heq, hb, -⟩ | ⟨l', heq, -⟩
      · cases hcode
      · cases heq
        obtain ⟨g, rfl, -, hid, -⟩ := Registry.begins_cases hb
        exact not_told_singleton hid l c
      · cases heq
        exact not_told_singleton rfl l c
    | _ => cases h
  | _ => exact ⟨id, id⟩

/-- A call that works on a socket, with the detach that may follow. -/
def Task.IsSocketCall : Task → Prop
  | .through role work => role = .other ∧ ∃ c, work = .registry [.detachSocketState c .api]
  | _ => True

theorem Task.IsSocketCall.not_told {task : Task} (h : task.IsSocketCall) (l : Nat) (c : Str) :
    ¬ task.Past l c ∧ ¬ task.Before c := by
  cases task with
  | through role work =>
    obtain ⟨-, c', rfl⟩ := h
    exact not_told_singleton rfl l c
  | _ => exact ⟨id, id⟩

/-- A push and a read send nothing, and leave the registry to a detach. -/
theorem taskAct_quiet {s : Layer} {task : Task} {answer : Answer}
    (h : taskAct i s task answer = some (s', task')) (htask : ∀ role work, task ≠ .through role work) :
    s'.events = s.events ∧ s'.world = s.world ∧
      ∀ task₂, task' = some task₂ → task₂.IsSocketCall := by
  have hafter : ∀ {c' : Str} {call : Push} {task₂ : Task}, afterPush c' call = some task₂ →
      task₂.IsSocketCall := by
    intro c' call task₂ hafter
    cases call <;> cases hafter <;> exact ⟨rfl, c', rfl⟩
  cases task with
  | pushEvent kind c data message =>
    cases hcall : pushOf kind data message with
    | error error =>
      simp only [taskAct, hcall] at h
      cases h
      exact ⟨rfl, rfl, by simp⟩
    | ok call =>
      simp only [taskAct, hcall] at h
      split at h
      · cases h
        exact ⟨rfl, rfl, by simp [Task.IsSocketCall]⟩
      · cases h
        exact ⟨rfl, rfl, by simp⟩
  | push c call pc =>
    simp only [taskAct] at h
    split at h
    · cases h
      exact ⟨rfl, rfl, by simp [Task.IsSocketCall]⟩
    · cases h
      exact ⟨rfl, rfl, fun task₂ htask₂ => hafter htask₂⟩
  | pollRead c buf registered =>
    cases registered with
    | false =>
      simp only [taskAct] at h
      split at h
      · split at h
        · cases h
        · cases h
          exact ⟨rfl, rfl, by simp [Task.IsSocketCall]⟩
      · cases h
    | true =>
      cases h
      exact ⟨rfl, rfl, by simp⟩
  | through role work => exact (htask role work rfl).elim

theorem reachable_told (h : streams.Reachable p) : Told p := by
  refine h.induct ?_ ?_ ?_ ?_
  · constructor
    · intro e he
      cases he
    · intro c
      exact Nat.zero_le 1
    · intro before e after heq
      cases before <;> cases heq
    · intro c l use hc
      cases hc
    · intro i task hi
      cases hi
    · intro i task hi
      cases hi
  · intro p i task hp ih hi hb
    refine ih.quiet (fun _ _ => id) rfl ih.streams ?_ ?_
    · intro task₂ htask l c hpast
      cases htask
      exact ((not_told_of_begins hb l c).1 hpast).elim
    · intro task₂ htask c hbefore
      cases htask
      exact ((not_told_of_begins hb 0 c).2 hbefore).elim
  · intro p i answer task s' task' hp ih hi hact
    have hmono : ∀ l c, Registry.Event.issued l c ∈ p.shared.world.registry.history →
        Registry.Event.issued l c ∈ s'.world.registry.history :=
      fun l c hc => taskAct_history hact hc
    by_cases hthrough : ∃ role work, task = .through role work
    · obtain ⟨role, work, rfl⟩ := hthrough
      obtain ⟨⟨s₁, work'⟩, hwork, heq⟩ := Option.map_eq_some_iff.1 hact
      have hstep := workAct_step hwork
      cases work' with
      | none =>
        cases heq
        exact told_work ih hp role hi hstep rfl (Registry.World.registry_leave ..) hmono
          fun c l use => streams_leave_listener
      | some work₂ =>
        cases heq
        exact told_work ih hp _ hi hstep rfl rfl hmono fun c l use hc => ⟨use, hc⟩
    · obtain ⟨hevents, hworld, hcall⟩ := taskAct_quiet hact fun role work h =>
        hthrough ⟨role, work, h⟩
      refine ih.quiet hmono hevents ?_ ?_ ?_
      · intro c l use hc
        rw [hworld] at hc
        exact (ih.streams c l use hc).append (hevents.trans (List.append_nil _).symm)
      · intro task₂ htask l c hpast
        exact (((hcall task₂ htask).not_told l c).1 hpast).elim
      · intro task₂ htask c hbefore
        exact (((hcall task₂ htask).not_told 0 c).2 hbefore).elim
  · intro p c s' hp ih hdrop
    simp only [streams, drop] at hdrop
    split at hdrop
    · cases hdrop
    · obtain ⟨w', hw', rfl⟩ := Option.map_eq_some_iff.1 hdrop
      obtain ⟨l, hl, rfl⟩ := Registry.World.drop_cases hw'
      refine ⟨ih.issued, ih.once, ih.writes, ?_, ih.past, ih.before⟩
      intro c' l' use hc'
      obtain ⟨use', hc⟩ := streams_setUse_listener p.shared.world c (fun _ => .dropped) hc'
      exact ih.streams c' l' use' hc

end Invariant

/-- **The events of a connection are in order.** In every run: all events of an id go to one
listener, it is told of the id at most once, and nothing is written before that. -/
theorem events_in_order {p : Pool Layer Task} (h : streams.Reachable p) :
    (∀ e ∈ p.shared.events, ∀ e' ∈ p.shared.events, e.connId = e'.connId →
      e.listener = e'.listener) ∧
    (∀ c, (p.shared.events.filter (·.opens c)).length ≤ 1) ∧
    ∀ before e after, p.shared.events = before ++ e :: after → e.kind = .write →
      ⟨e.listener, .opened, e.connId, []⟩ ∈ before := by
  have htold := reachable_told h
  have hknown := (Registry.reachable_inv (Registry.reachable_project (reachable_forget h))).known
  refine ⟨fun e he e' he' hid => ?_, htold.once, htold.writes⟩
  have hissued := htold.issued e he
  rw [hid] at hissued
  exact hknown.owner _ _ _ hissued (htold.issued e' he')

/-- The proxy writes two bytes and begins to shut the socket down. -/
def writeThenShutdown : List (Move Task Answer Str) :=
  opening ++
  [.begin 1 (.through (.poll firstId) (.pollWrite firstId [5, 6])), .act 1 (.registry .go),
    .act 1 (.registry .go), .act 1 (.sent .ok),
    .begin 1 (.through (.poll firstId) (.pollShutdown firstId)), .act 1 (.registry .go)]

theorem events_in_order_writeThenShutdown :
    ∃ p, streams.Reachable p ∧
      p.shared.events = [⟨0, .opened, firstId, []⟩] ++ ⟨0, .write, firstId, [5, 6]⟩ :: [] ∧
      ⟨0, .opened, firstId, []⟩ ∈ [(⟨0, .opened, firstId, []⟩ : ListenerEventCall)] := by
  obtain ⟨p, hrun, hevents⟩ : ∃ p, streams.run streams.start writeThenShutdown = some p ∧
      p.shared.events = [⟨0, .opened, firstId, []⟩] ++ ⟨0, .write, firstId, [5, 6]⟩ :: [] :=
    ⟨_, rfl, rfl⟩
  have hreach := Object.reachable_of_run hrun
  exact ⟨p, hreach, hevents, (events_in_order hreach).2.2 _ _ _ hevents rfl⟩

end Lonesome.VirtualJs.Streams
