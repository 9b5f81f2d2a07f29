import Lonesome.VirtualJs.StreamEvents

/-!
# The end of a stream

A poll borrows its socket, so a socket is in one poll at a time (`Borrows`). Once `closed` is stored
and no write is under way, nothing is written any more, and a shut down socket is in that state; a
socket that `is_reusable` refuses is refused forever (`end_is_final`).
-/

namespace Lonesome.VirtualJs.Streams

open Lonesome.Interleaving
open Registry (World Frame Role Code Answer Status)

/-! ## One poll at a time -/

/-- The socket that a poll is about to borrow. -/
def Work.first : Work → Option Str
  | .pollWrite c _ | .pollShutdown c => some c
  | _ => none

/-- The socket that a poll works on by its id. -/
def Work.polls : Work → Option Str
  | .pollWrite c _ | .onWrite _ c _ _ | .pollShutdown c | .onClose _ c _ => some c
  | _ => none

/-- The call has borrowed the socket of `c`. -/
def Task.Holds (c : Str) : Task → Prop
  | .through role work => role = .poll c ∧ work.first = none
  | _ => False

section Steps

variable {i : Nat} {s s' : Layer} {work : Work} {work' : Option Work} {c : Str}

/-- What an action does to the socket of `c`: nothing, or it borrows it, or it makes it. -/
inductive Uses (s s' : Layer) (work : Work) (work' : Option Work) (c : Str) : Prop
  | same (h : s'.world.streams c = s.world.streams c)
  | borrowed {l : Nat} (hfirst : work.first = some c) (hwork : ∃ work₂, work' = some work₂)
      (hidle : s.world.streams c = some ⟨l, .idle⟩)
      (hpolled : s'.world.streams c = some ⟨l, .polled⟩)
  | made {l : Nat} (hwork : work = .registry [.connect l (.socketState c)])

theorem uses_setUse {c' : Str} {l : Nat} (hfirst : work.first = some c')
    (hwork : ∃ work₂, work' = some work₂) (hidle : s.world.streams c' = some ⟨l, .idle⟩)
    (hworld : s'.world = s.world.setUse c' fun _ => .polled) : Uses s s' work work' c := by
  have hc := s.world.streams_setUse c' c fun _ => .polled
  rw [← hworld] at hc
  split at hc
  · next heq =>
    rw [← heq] at hfirst hidle hc
    rw [hidle] at hc
    exact .borrowed hfirst hwork hidle hc
  · exact .same hc

theorem registryAct_uses (s₁ : Layer) {stack : List Frame} {choice : Registry.Choice}
    (hworld : s₁.world = s.world) (h : registryAct s₁ stack choice = some (s', work'))
    (hmade : ∀ l, stack = [.connect l (.socketState c)] → work = .registry stack) :
    Uses s s' work work' c := by
  obtain ⟨f, rest, new, w', hin⟩ := registryAct_inside h
  rcases s₁.world.streamsAfter_cases stack c with hsame | ⟨l, hstack, -, -⟩
  · refine .same ?_
    rw [hin.layer, ← hworld]
    exact hsame
  · rw [hstack] at hmade
    exact .made (hmade l rfl)

theorem WorkStep.uses (h : WorkStep i s work s' work') : Uses s s' work work' c := by
  cases h with
  | writeBegun hc => exact uses_setUse rfl ⟨_, rfl⟩ hc rfl
  | shutdown hc => exact uses_setUse rfl ⟨_, rfl⟩ hc rfl
  | issued h => exact registryAct_uses (s.setSocket _ _) rfl h fun l heq => nomatch heq
  | inside h _ _ => exact registryAct_uses s rfl h fun _ _ => rfl
  | awaited h => exact registryAct_uses s rfl h fun l heq => nomatch heq
  | aborted _ h => exact registryAct_uses (s.setSocket _ _) rfl h fun l heq => nomatch heq
  | _ => exact .same rfl

theorem streams_setUse_self {w : World} {l : Nat} {use : Registry.Use}
    (h : w.streams c = some ⟨l, use⟩) (change : Registry.Use → Registry.Use) :
    (w.setUse c change).streams c = some ⟨l, change use⟩ := by
  rw [Registry.World.streams_setUse, if_pos rfl, h]
  rfl

/-- A poll begins on an idle socket, which it has borrowed if it goes on. -/
theorem WorkStep.borrows (h : WorkStep i s work s' work') (hfirst : work.first = some c) :
    ∃ l, s.world.streams c = some ⟨l, .idle⟩ ∧
      ∀ work₂, work' = some work₂ → s'.world.streams c = some ⟨l, .polled⟩ := by
  cases h with
  | writeClosed hc =>
    cases hfirst
    exact ⟨_, hc, fun work₂ hwork => nomatch hwork⟩
  | writeBegun hc =>
    cases hfirst
    exact ⟨_, hc, fun _ _ => streams_setUse_self hc fun _ => .polled⟩
  | shutdown hc =>
    cases hfirst
    exact ⟨_, hc, fun _ _ => streams_setUse_self hc fun _ => .polled⟩
  | _ => cases hfirst

theorem streams_leave_of_ne {w : World} {role : Role} (h : role ≠ .poll c) :
    (w.leave role).streams c = w.streams c := by
  cases role with
  | poll c' =>
    have hne : c ≠ c' := by
      rintro rfl
      exact h rfl
    rw [Registry.World.leave, Registry.World.streams_setUse, if_neg hne]
  | connect | other => rfl

/-- A poll that goes on is past its borrow, by the same id. -/
theorem WorkStep.goes_on (h : WorkStep i s work s' work') {work₂ : Work} (hwork : work' = some work₂) :
    work₂.first = none ∧ (∀ c, work₂.polls = some c → work.polls = some c) := by
  cases h with
  | issued h =>
    obtain ⟨f, rest, new, w', -, -, rfl⟩ := registryAct_frames h hwork
    exact ⟨rfl, fun c hc => nomatch hc⟩
  | inside h _ _ =>
    obtain ⟨f, rest, new, w', -, -, rfl⟩ := registryAct_frames h hwork
    exact ⟨rfl, fun c hc => nomatch hc⟩
  | awaited h =>
    obtain ⟨f, rest, new, w', -, -, rfl⟩ := registryAct_frames h hwork
    exact ⟨rfl, fun c hc => nomatch hc⟩
  | aborted _ h =>
    obtain ⟨f, rest, new, w', -, -, rfl⟩ := registryAct_frames h hwork
    exact ⟨rfl, fun c hc => nomatch hc⟩
  | writeClosed | writeInactive | written | writeFailed | closeFailed => cases hwork
  | _ =>
    cases hwork
    exact ⟨rfl, fun c hc => by first | exact hc | cases hc⟩

end Steps

theorem after_poll {role : Role} {code : Code} {c : Str} (h : role.after code = .poll c) :
    role = .poll c := by
  unfold Role.after at h
  split at h
  · cases h
  · exact h

/-- Polls have their role; who holds a socket has it polled, alone. -/
structure Borrows (p : Pool Layer Task) : Prop where
  roles : p.All fun task => ∀ role work c, task = .through role work → work.polls = some c →
    role = .poll c
  polled : p.All fun task => ∀ c, task.Holds c → ∃ l, p.shared.world.streams c = some ⟨l, .polled⟩
  once : ∀ c, p.AtMostOne (Task.Holds c)

section Borrows

variable {p : Pool Layer Task} {i : Nat} {s' : Layer} {task' : Option Task}

namespace Borrows

/-- What leaves the sockets alone and holds none. -/
theorem quiet (hb : Borrows p) (hworld : s'.world = p.shared.world)
    (hroles : ∀ task, task' = some task → ∀ role work c, task = .through role work →
      work.polls = some c → role = .poll c)
    (hholds : ∀ task, task' = some task → ∀ c, ¬ task.Holds c) : Borrows (p.set i s' task') where
  roles := hb.roles.set (fun _ _ _ _ h => h) hroles
  polled := by
    refine hb.polled.set (fun j task _ _ h c hc => ?_) fun task htask c hc => ?_
    · rw [Pool.set_shared, hworld]
      exact h c hc
    · exact (hholds task htask c hc).elim
  once c := (hb.once c).set fun task htask hc => (hholds task htask c hc).elim

end Borrows

/-- The socket of a connect that is about to make it is not there. -/
theorem streams_of_connecting (hp : streams.Reachable p) {role : Role} {l : Nat} {c : Str}
    (hi : p.tasks i = some (.through role (.registry [.connect l (.socketState c)]))) :
    p.shared.world.streams c = none := by
  have hroles := Registry.reachable_roles (reachable_forget hp)
  have htask : (forget p).tasks i = some ⟨role, .registry [.connect l (.socketState c)]⟩ := by
    simp [forget, hi, Task.forget, Work.code]
  have hconnects := hroles.named i _ htask _ rfl c ⟨_, List.mem_cons_self, rfl⟩
  by_contra hne
  have hmade := hroles.made c (Option.isSome_iff_ne_none.2 hne)
  exact hmade.2 ⟨i, _, htask, hconnects⟩

/-- A call with the role of a poll holds its socket, or is about to borrow it. -/
theorem holds_or_first (hb : Borrows p) {role : Role} {work : Work} {c : Str}
    (hi : p.tasks i = some (.through role work)) (hrole : role = .poll c) :
    (Task.through role work).Holds c ∨ work.first = some c := by
  cases hfirst : work.first with
  | none => exact .inl ⟨hrole, hfirst⟩
  | some c' =>
    have hpolls : work.polls = some c' := by
      cases work <;> first | exact hfirst | cases hfirst
    have hrole' := hb.roles i _ hi role work c' rfl hpolls
    rw [hrole, Role.poll.injEq] at hrole'
    rw [hrole']
    exact .inr rfl

/-- An action of a call with the role of a poll finds nobody else holding the socket. -/
theorem not_holds_of_poll (hb : Borrows p) {role : Role} {work : Work} {s₁ : Layer}
    {work' : Option Work} {c : Str} (hi : p.tasks i = some (.through role work))
    (h : WorkStep i p.shared work s₁ work') (hrole : role = .poll c) {j : Nat} {task : Task}
    (hj : j ≠ i) (htask : p.tasks j = some task) : ¬ task.Holds c := by
  intro hholds
  rcases holds_or_first hb hi hrole with hself | hfirst
  · exact hj (hb.once c j i _ _ htask hi hholds hself)
  · obtain ⟨l, hidle, -⟩ := h.borrows hfirst
    obtain ⟨l', hl'⟩ := hb.polled j task htask c hholds
    rw [hidle] at hl'
    cases hl'

/-- A polled socket stays so through an action of any call but the last one of its poll. -/
theorem polled_of_step (hp : streams.Reachable p) {role : Role} {work : Work} {s₁ : Layer}
    {work' : Option Work} {c : Str} {l : Nat} (hi : p.tasks i = some (.through role work))
    (h : WorkStep i p.shared work s₁ work')
    (hl : p.shared.world.streams c = some ⟨l, .polled⟩) :
    s₁.world.streams c = some ⟨l, .polled⟩ := by
  cases h.uses (c := c) with
  | same hsame => exact hsame.trans hl
  | borrowed _ _ hidle _ =>
    rw [hl] at hidle
    cases hidle
  | made hwork =>
    rw [hwork] at hi
    rw [streams_of_connecting hp hi] at hl
    cases hl

theorem borrows_of_begins {w : Registry.State} {task : Task} (h : begins w task = true) :
    (∀ role work c, task = .through role work → work.polls = some c → role = .poll c) ∧
      ∀ c, ¬ task.Holds c := by
  constructor
  · rintro role work c rfl hpolls
    cases work with
    | pollWrite c' data | pollShutdown c' =>
      cases hpolls
      simp only [begins, Registry.callBegins] at h
      split at h <;> simp_all
    | registry => cases hpolls
    | _ => cases h
  · intro c hholds
    cases task with
    | through role work =>
      obtain ⟨rfl, hfirst⟩ := hholds
      cases work with
      | registry stack =>
        have hcall : Registry.callBegins w ⟨.poll c, .registry stack⟩ = true := h
        rcases Registry.callBegins_cases hcall with ⟨hcode, -⟩ | ⟨stack', heq, -⟩ | ⟨l', heq, -⟩
        · cases hcode
        · cases heq
        · cases heq
      | pollWrite | pollShutdown => cases hfirst
      | _ => cases h
    | _ => exact hholds

theorem reachable_borrows (h : streams.Reachable p) : Borrows p := by
  refine h.induct ?_ ?_ ?_ ?_
  · constructor
    · intro i task hi
      cases hi
    · intro i task hi
      cases hi
    · intro c i j a b ha
      cases ha
  · intro p i task hp ih hi hb
    obtain ⟨hroles, hholds⟩ := borrows_of_begins hb
    refine ih.quiet rfl (fun task₂ htask => ?_) fun task₂ htask => ?_
    · cases htask
      exact hroles
    · cases htask
      exact hholds
  · intro p i answer task s' task' hp ih hi hact
    by_cases hthrough : ∃ role work, task = .through role work
    · obtain ⟨role, work, rfl⟩ := hthrough
      obtain ⟨⟨s₁, work'⟩, hwork, heq⟩ := Option.map_eq_some_iff.1 hact
      have hstep := workAct_step hwork
      have hothers : ∀ j task, j ≠ i → p.tasks j = some task → ∀ c, task.Holds c →
          ∃ l, s₁.world.streams c = some ⟨l, .polled⟩ := by
        intro j task _ htask c hholds
        obtain ⟨l, hl⟩ := ih.polled j task htask c hholds
        exact ⟨l, polled_of_step hp hi hstep hl⟩
      cases work' with
      | none =>
        cases heq
        refine ⟨ih.roles.set (fun _ _ _ _ h => h) (by simp), ?_, fun c => (ih.once c).set (by simp)⟩
        refine ih.polled.set (fun j task hj htask _ c hholds => ?_) (by simp)
        -- another call holds the socket, so it is not given back
        have hne : role ≠ .poll c := fun hrole =>
          not_holds_of_poll ih hi hstep hrole hj htask hholds
        obtain ⟨l, hl⟩ := hothers j task hj htask c hholds
        exact ⟨l, (streams_leave_of_ne hne).trans hl⟩
      | some work₂ =>
        cases heq
        obtain ⟨hfirst, hpolls⟩ := hstep.goes_on rfl
        refine ⟨?_, ?_, fun c => ?_⟩
        · refine ih.roles.set (fun _ _ _ _ h => h) ?_
          rintro task htask role' work₃ c rfl hc
          cases htask
          rw [ih.roles i _ hi role work c rfl (hpolls c hc)]
          cases work₂ <;> first | rfl | cases hc
        · refine ih.polled.set (fun j task hj htask _ c => hothers j task hj htask c) ?_
          rintro task htask c hholds
          cases htask
          rcases holds_or_first ih hi (after_poll hholds.1) with hself | hfirst'
          · obtain ⟨l, hl⟩ := ih.polled i _ hi c hself
            exact ⟨l, polled_of_step hp hi hstep hl⟩
          · obtain ⟨l, -, hpolled⟩ := hstep.borrows hfirst'
            exact ⟨l, hpolled work₂ rfl⟩
        · intro j k a b ha hb hja hkb
          rcases Pool.tasks_set_cases ha with ⟨rfl, hnew⟩ | ⟨hj, hold⟩
          · cases hnew
            rcases Pool.tasks_set_cases hb with ⟨rfl, -⟩ | ⟨hk, hold⟩
            · rfl
            · exact (not_holds_of_poll ih hi hstep (after_poll hja.1) hk hold hkb).elim
          · rcases Pool.tasks_set_cases hb with ⟨rfl, hnew⟩ | ⟨hk, hold'⟩
            · cases hnew
              exact (not_holds_of_poll ih hi hstep (after_poll hkb.1) hj hold hja).elim
            · exact ih.once c j k a b hold hold' hja hkb
    · obtain ⟨-, hworld, hcall⟩ := taskAct_quiet hact fun role work h =>
        hthrough ⟨role, work, h⟩
      refine ih.quiet hworld (fun task₂ htask role work c heq hpolls => ?_)
        fun task₂ htask c hholds => ?_
      · subst heq
        obtain ⟨-, c', rfl⟩ := hcall _ htask
        cases hpolls
      · cases task₂ with
        | through role work =>
          obtain ⟨rfl, -⟩ := hcall _ htask
          cases hholds.1
        | _ => exact hholds
  · intro p c s' hp ih hdrop
    simp only [streams, drop] at hdrop
    split at hdrop
    · cases hdrop
    · obtain ⟨w', hw', rfl⟩ := Option.map_eq_some_iff.1 hdrop
      obtain ⟨l, hidle, rfl⟩ := Registry.World.drop_cases hw'
      refine ⟨ih.roles, ?_, ih.once⟩
      intro i task hi c' hholds
      obtain ⟨l', hl'⟩ := ih.polled i task hi c' hholds
      refine ⟨l', ?_⟩
      have hne : c' ≠ c := by
        rintro rfl
        rw [hidle] at hl'
        cases hl'
      rw [Registry.World.streams_setUse, if_neg hne]
      exact hl'

end Borrows

/-! ## What does not come back -/

theorem examine_closed {s : VirtualJsSocketState} (h : s.closed = true) (buf : ReadBuf) :
    (s.examine buf).1.closed = true := by
  unfold VirtualJsSocketState.examine
  split
  · rfl
  · dsimp only
    split
    · split
      · rfl
      · exact h
    · exact h

theorem act_closed (i : Nat) {s : Socket} (h : s.state.closed = true) (call : Call) :
    (act i s call).1.state.closed = true := by
  cases call with
  | push call pc =>
    cases pc with
    | check =>
      simp only [act, pushAct]
      split
      · exact h
      · next closed hclosed =>
        rw [h] at hclosed
        cases call <;> cases hclosed
        rfl
    | update =>
      simp only [act, pushAct]
      split <;> exact h
    | wake => exact h
  | pollRead buf registered =>
    cases registered with
    | false => exact h
    | true => exact examine_closed h buf
  | pollShutdown => rfl

section Final

variable {p p' : Pool Layer Task} {i : Nat} {c : Str} {m : Move Task Answer Str}

theorem closed_of_leads {q q' : Pool Socket Call} (h : socket.Leads q q')
    (hc : q.shared.state.closed = true) : q'.shared.state.closed = true := by
  induction h with
  | refl => exact hc
  | tail _ hstep ih =>
    obtain ⟨m, hm⟩ := hstep
    obtain ⟨i, call, rfl, -, -, rfl⟩ | ⟨i, _, call, s', call', rfl, -, hact, rfl⟩ | ⟨e, -⟩ :=
      Object.move_cases hm
    · exact ih
    · have hclosed := act_closed i ih call
      rwa [show act i _ call = (s', call') from Option.some.inj hact] at hclosed
    · exact e.elim

/-- `closed` is never taken back. -/
theorem closed_of_move (hp : streams.Reachable p) (h : streams.move p m = some p')
    (hc : (p.shared.sockets c).state.closed = true) : (p'.shared.sockets c).state.closed = true :=
  closed_of_leads (view_move hp h) hc

/-- A write of the socket of `c` is past its look at `closed`. -/
def Task.Writes (c : Str) (task : Task) : Prop :=
  ∃ role l data checked, task = .through role (.onWrite l c data checked)

def Task.Shuts (c : Str) (task : Task) : Prop :=
  ∃ role l checked, task = .through role (.onClose l c checked)

/-- Writes and shutdowns come to this point as they borrow their socket. -/
theorem WorkStep.polling {s s' : Layer} {work : Work} {work' : Option Work}
    (h : WorkStep i s work s' work') :
    (∀ l data checked, work' = some (.onWrite l c data checked) →
      (∃ checked', work = .onWrite l c data checked') ∨ (s.sockets c).state.closed = false) ∧
    ∀ l checked, work' = some (.onClose l c checked) →
      (∃ checked', work = .onClose l c checked') ∨ (s'.sockets c).state.closed = true := by
  have hregistry : ∀ {s₁ : Layer} {stack : List Frame} {choice : Registry.Choice},
      registryAct s₁ stack choice = some (s', work') → ∀ work₂, work' = some work₂ →
        ∃ stack', work₂ = .registry stack' := by
    intro s₁ stack choice hact work₂ hwork
    obtain ⟨f, rest, new, w', -, -, rfl⟩ := registryAct_frames hact hwork
    exact ⟨_, rfl⟩
  constructor
  · intro l data checked hwork
    cases h with
    | writeBegun _ hclosed => cases hwork; exact .inr hclosed
    | writeActive => cases hwork; exact .inl ⟨false, rfl⟩
    | issued h => obtain ⟨stack', heq⟩ := hregistry h _ hwork; cases heq
    | inside h _ _ => obtain ⟨stack', heq⟩ := hregistry h _ hwork; cases heq
    | awaited h => obtain ⟨stack', heq⟩ := hregistry h _ hwork; cases heq
    | aborted _ h => obtain ⟨stack', heq⟩ := hregistry h _ hwork; cases heq
    | _ => cases hwork
  · intro l checked hwork
    cases h with
    | shutdown =>
      cases hwork
      refine .inr ?_
      change ((s.setSocket c _).sockets c).state.closed = true
      rw [sockets_setSocket, if_pos rfl]
      rfl
    | closeActive => cases hwork; exact .inl ⟨false, rfl⟩
    | issued h => obtain ⟨stack', heq⟩ := hregistry h _ hwork; cases heq
    | inside h _ _ => obtain ⟨stack', heq⟩ := hregistry h _ hwork; cases heq
    | awaited h => obtain ⟨stack', heq⟩ := hregistry h _ hwork; cases heq
    | aborted _ h => obtain ⟨stack', heq⟩ := hregistry h _ hwork; cases heq
    | _ => cases hwork

/-- An action of a call other than a push or a read of a socket. -/
theorem act_through {role : Role} {work : Work} {answer : Answer} {s' : Layer} {task' : Option Task}
    (h : taskAct i p.shared (.through role work) answer = some (s', task')) :
    ∃ s₁ work', WorkStep i p.shared work s₁ work' ∧ s'.sockets = s₁.sockets ∧
      s'.events = s₁.events ∧ ∀ task, task' = some task → ∃ role' work₂, work' = some work₂ ∧
        task = .through role' work₂ := by
  obtain ⟨⟨s₁, work'⟩, hwork, heq⟩ := Option.map_eq_some_iff.1 h
  refine ⟨s₁, work', workAct_step hwork, ?_⟩
  cases work' with
  | none =>
    cases heq
    exact ⟨rfl, rfl, by simp⟩
  | some work₂ =>
    cases heq
    refine ⟨rfl, rfl, fun task htask => ?_⟩
    cases htask
    exact ⟨_, work₂, rfl, rfl⟩

/-- A shutdown has stored `closed`. -/
def Shut (p : Pool Layer Task) : Prop :=
  p.All fun task => ∀ c, task.Shuts c → (p.shared.sockets c).state.closed = true

theorem reachable_shut (h : streams.Reachable p) : Shut p := by
  refine h.induct ?_ ?_ ?_ ?_
  · intro i task hi
    cases hi
  · intro p i task hp ih hi hb
    refine ih.set (fun _ _ _ _ h => h) ?_
    rintro task₂ htask c ⟨role, l, checked, rfl⟩
    cases htask
    cases hb
  · intro p i answer task s' task' hp ih hi hact
    have hmove : streams.move p (.act i answer) = some (p.set i s' task') := by
      have hact' : streams.act i p.shared task answer = some (s', task') := hact
      simp [Object.move, hi, hact']
    refine ih.set (fun j t _ _ ht c hshuts => closed_of_move hp hmove (ht c hshuts)) ?_
    rintro task₂ htask₂ c ⟨role', l, checked, rfl⟩
    by_cases hthrough : ∃ role work, task = .through role work
    · obtain ⟨role, work, rfl⟩ := hthrough
      obtain ⟨s₁, work', hstep, hsockets, -, htask⟩ := act_through hact
      obtain ⟨_, _, rfl, heq⟩ := htask _ htask₂
      cases heq
      rcases (hstep.polling (c := c)).2 l checked rfl with ⟨checked', rfl⟩ | hclosed
      · exact closed_of_move hp hmove (ih i _ hi c ⟨role, l, checked', rfl⟩)
      · rw [Pool.set_shared, hsockets]
        exact hclosed
    · obtain ⟨-, -, hcall⟩ := taskAct_quiet hact fun role work h => hthrough ⟨role, work, h⟩
      obtain ⟨-, c', heq⟩ := hcall _ htask₂
      cases heq
  · intro p c s' hp ih hdrop
    simp only [streams, drop] at hdrop
    split at hdrop
    · cases hdrop
    · obtain ⟨w', hw', rfl⟩ := Option.map_eq_some_iff.1 hdrop
      exact ih

/-- The socket is closed and no write of it is under way. -/
structure Ended (c : Str) (p : Pool Layer Task) : Prop where
  closed : (p.shared.sockets c).state.closed = true
  writes : ¬ p.Any (Task.Writes c)

def writesOf (c : Str) (events : List ListenerEventCall) : List ListenerEventCall :=
  events.filter fun e => e.kind = .write ∧ e.connId = c

/-- No action starts a write of a closed socket, and no other one writes. -/
theorem act_ended (he : Ended c p) {task : Task} {answer : Answer} {s' : Layer}
    {task' : Option Task} (hi : p.tasks i = some task)
    (hact : taskAct i p.shared task answer = some (s', task')) :
    (∀ task₂, task' = some task₂ → ¬ task₂.Writes c) ∧
      writesOf c s'.events = writesOf c p.shared.events := by
  by_cases hthrough : ∃ role work, task = .through role work
  · obtain ⟨role, work, rfl⟩ := hthrough
    obtain ⟨s₁, work', hstep, -, hevents, htask⟩ := act_through hact
    constructor
    · rintro task₂ htask₂ ⟨role', l, data, checked, rfl⟩
      obtain ⟨_, _, rfl, heq⟩ := htask _ htask₂
      cases heq
      rcases (hstep.polling (c := c)).1 l data checked rfl with ⟨checked', rfl⟩ | hopen
      · exact he.writes ⟨i, _, hi, role, l, data, checked', rfl⟩
      · rw [he.closed] at hopen
        cases hopen
    · rw [hevents]
      rcases hstep.events with hsame | ⟨e, hsends, hsent, -⟩
      · rw [hsame]
      · rw [hsent, writesOf, List.filter_append, List.filter_cons_of_neg, List.filter_nil,
          List.append_nil]
        · rfl
        · intro hwrite
          obtain ⟨hkind, hid⟩ := of_decide_eq_true hwrite
          cases hsends with
          | @write l c' data =>
            subst hid
            exact he.writes ⟨i, _, hi, role, l, data, true, rfl⟩
          | close | opened | deactivated => cases hkind
  · obtain ⟨hevents, -, hcall⟩ := taskAct_quiet hact fun role work h => hthrough ⟨role, work, h⟩
    constructor
    · rintro task₂ htask₂ ⟨role', l, data, checked, rfl⟩
      obtain ⟨-, c', heq⟩ := hcall _ htask₂
      cases heq
    · rw [hevents]

theorem ended_move (hp : streams.Reachable p) (he : Ended c p) (h : streams.move p m = some p') :
    Ended c p' ∧ writesOf c p'.shared.events = writesOf c p.shared.events := by
  have hclosed := closed_of_move hp h he.closed
  obtain ⟨i, task, rfl, hi, hb, rfl⟩ | ⟨i, answer, task, s', task', rfl, hi, hact, rfl⟩ |
    ⟨c', s', rfl, hdrop, rfl⟩ := Object.move_cases h
  · refine ⟨⟨hclosed, fun hany => he.writes (hany.of_set fun task₂ htask hw => ?_)⟩, rfl⟩
    cases htask
    obtain ⟨role, l, data, checked, rfl⟩ := hw
    cases hb
  · obtain ⟨hwrites, hevents⟩ := act_ended he hi hact
    refine ⟨⟨hclosed, fun hany => he.writes (hany.of_set fun task₂ htask hw => ?_)⟩, hevents⟩
    exact (hwrites task₂ htask hw).elim
  · refine ⟨⟨hclosed, he.writes⟩, ?_⟩
    simp only [streams, drop] at hdrop
    split at hdrop
    · cases hdrop
    · obtain ⟨w', hw', rfl⟩ := Option.map_eq_some_iff.1 hdrop
      rfl

theorem ended_leads (hp : streams.Reachable p) (he : Ended c p) (h : streams.Leads p p') :
    Ended c p' ∧ writesOf c p'.shared.events = writesOf c p.shared.events := by
  induction h with
  | refl => exact ⟨he, rfl⟩
  | tail hleads hstep ih =>
    obtain ⟨m, hm⟩ := hstep
    obtain ⟨he', hevents⟩ := ended_move (hp.leads hleads) ih.1 hm
    exact ⟨he', hevents.trans ih.2⟩

/-- While a socket is being shut down nobody writes to it. -/
theorem ended_of_shuts (hp : streams.Reachable p) {task : Task} (hi : p.tasks i = some task)
    (hshuts : task.Shuts c) : Ended c p := by
  have hb := reachable_borrows hp
  refine ⟨reachable_shut hp i task hi c hshuts, ?_⟩
  rintro ⟨j, task₂, hj, role₂, l₂, data, checked₂, rfl⟩
  obtain ⟨role, l, checked, rfl⟩ := hshuts
  have hrole := hb.roles i _ hi _ _ c rfl rfl
  have hrole₂ := hb.roles j _ hj _ _ c rfl rfl
  obtain rfl := hb.once c i j _ _ hi hj ⟨hrole, rfl⟩ ⟨hrole₂, rfl⟩
  rw [hi] at hj
  cases hj

/-! ## Reuse -/

/-- `VirtualSocket::is_reusable` -/
def isReusable (s : Layer) (c : Str) : Bool :=
  (s.world.streams c).any fun socket =>
    s.world.registry.isActive socket.listener && !(s.sockets c).state.closed

/-- A socket stays the one it is, for its listener. -/
theorem streams_of_move (hp : streams.Reachable p) (h : streams.move p m = some p') {l : Nat}
    {use : Registry.Use} (hc : p.shared.world.streams c = some ⟨l, use⟩) :
    ∃ use', p'.shared.world.streams c = some ⟨l, use'⟩ := by
  have hsetUse : ∀ {w : World} {use : Registry.Use} (c' : Str) (change : Registry.Use → Registry.Use),
      w.streams c = some ⟨l, use⟩ → ∃ use', (w.setUse c' change).streams c = some ⟨l, use'⟩ := by
    intro w use c' change hw
    rw [Registry.World.streams_setUse]
    split
    · next heq =>
      rw [← heq, hw]
      exact ⟨_, rfl⟩
    · exact ⟨use, hw⟩
  obtain ⟨i, task, rfl, hi, hb, rfl⟩ | ⟨i, answer, task, s', task', rfl, hi, hact, rfl⟩ |
    ⟨c', s', rfl, hdrop, rfl⟩ := Object.move_cases h
  · exact ⟨use, hc⟩
  · by_cases hthrough : ∃ role work, task = .through role work
    · obtain ⟨role, work, rfl⟩ := hthrough
      obtain ⟨⟨s₁, work'⟩, hwork, heq⟩ := Option.map_eq_some_iff.1 hact
      have hkept : ∃ use', s₁.world.streams c = some ⟨l, use'⟩ := by
        cases (workAct_step hwork).uses (c := c) with
        | same hsame => exact ⟨use, hsame.trans hc⟩
        | borrowed _ _ hidle hpolled =>
          rw [hc] at hidle
          cases hidle
          exact ⟨_, hpolled⟩
        | made hmade =>
          rw [hmade] at hi
          rw [streams_of_connecting hp hi] at hc
          cases hc
      obtain ⟨use₁, hc₁⟩ := hkept
      cases work' with
      | none =>
        cases heq
        cases role with
        | poll c' => exact hsetUse c' (fun use => if use = .polled then .idle else use) hc₁
        | connect | other => exact ⟨use₁, hc₁⟩
      | some work₂ =>
        cases heq
        exact ⟨use₁, hc₁⟩
    · obtain ⟨-, hworld, -⟩ := taskAct_quiet hact fun role work h => hthrough ⟨role, work, h⟩
      exact ⟨use, by rw [Pool.set_shared, hworld]; exact hc⟩
  · simp only [streams, drop] at hdrop
    split at hdrop
    · cases hdrop
    · obtain ⟨w', hw', rfl⟩ := Option.map_eq_some_iff.1 hdrop
      obtain ⟨l', -, rfl⟩ := Registry.World.drop_cases hw'
      exact hsetUse c' (fun _ => .dropped) hc

theorem inactive_of_move (hp : streams.Reachable p) (h : streams.move p m = some p') {l : Nat}
    (hl : p.shared.world.registry.isActive l = false) :
    p'.shared.world.registry.isActive l = false := by
  have hknown := (Registry.reachable_inv (Registry.reachable_project (reachable_forget hp))).known
  obtain ⟨i, task, rfl, hi, hb, rfl⟩ | ⟨i, answer, task, s', task', rfl, hi, hact, rfl⟩ |
    ⟨c', s', rfl, hdrop, rfl⟩ := Object.move_cases h
  · exact hl
  · rcases taskAct_forget hact with ⟨hworld, -⟩ | ⟨call, answer', -, hcall⟩
    · rw [Pool.set_shared, hworld]
      exact hl
    · generalize hcall' : task'.bind Task.forget = call' at hcall
      rw [Pool.set_shared]
      cases Registry.callAct_step hcall with
      | outside _ hw =>
        rw [hw]
        exact hl
      | inside hframe hw =>
        rw [hw]
        exact (Registry.frameAct_step hframe).isActive hknown hl
  · simp only [streams, drop] at hdrop
    split at hdrop
    · cases hdrop
    · obtain ⟨w', hw', rfl⟩ := Option.map_eq_some_iff.1 hdrop
      obtain ⟨l', -, rfl⟩ := Registry.World.drop_cases hw'
      exact hl

/-- A socket whose listener is inactive or which is closed. -/
def Unusable (c : Str) (p : Pool Layer Task) : Prop :=
  ∃ l use, p.shared.world.streams c = some ⟨l, use⟩ ∧
    (p.shared.world.registry.isActive l = false ∨ (p.shared.sockets c).state.closed = true)

theorem unusable_leads (hp : streams.Reachable p) (hu : Unusable c p) (h : streams.Leads p p') :
    Unusable c p' := by
  induction h with
  | refl => exact hu
  | tail hleads hstep ih =>
    obtain ⟨m, hm⟩ := hstep
    have hreach := hp.leads hleads
    obtain ⟨l, use, hc, hend⟩ := ih
    obtain ⟨use', hc'⟩ := streams_of_move hreach hm hc
    exact ⟨l, use', hc', hend.imp (inactive_of_move hreach hm) (closed_of_move hreach hm)⟩

theorem unusable_iff (s : Pool Layer Task) :
    Unusable c s ↔ s.shared.world.streams c ≠ none ∧ isReusable s.shared c = false := by
  unfold Unusable isReusable
  cases hc : s.shared.world.streams c with
  | none => simp
  | some socket =>
    obtain ⟨l, use⟩ := socket
    cases ha : s.shared.world.registry.isActive l <;>
      cases hclosed : (s.shared.sockets c).state.closed <;> simp_all

end Final

/-- **The end of a stream is final.** In every run: once a `poll_shutdown` of a socket has begun,
nothing is written to its listener any more; the same once it is `closed`, by an abort or by a read
that told the end, and no write is under way; and a socket that the connection pool may not reuse is
never offered to it again. -/
theorem end_is_final {p p' : Pool Layer Task} (h : streams.Reachable p) (hrun : streams.Leads p p')
    (c : Str) :
    (p.Any (Task.Shuts c) → writesOf c p'.shared.events = writesOf c p.shared.events) ∧
    ((p.shared.sockets c).state.closed = true → ¬ p.Any (Task.Writes c) →
      writesOf c p'.shared.events = writesOf c p.shared.events) ∧
    (p.shared.world.streams c ≠ none → isReusable p.shared c = false →
      isReusable p'.shared c = false) := by
  refine ⟨?_, fun hclosed hwrites => ?_, fun hsome hreuse => ?_⟩
  · rintro ⟨i, task, hi, hshuts⟩
    exact (ended_leads h (ended_of_shuts h hi hshuts) hrun).2
  · exact (ended_leads h ⟨hclosed, hwrites⟩ hrun).2
  · exact ((unusable_iff p').1 (unusable_leads h ((unusable_iff p).2 ⟨hsome, hreuse⟩) hrun)).2

/-- After a shutdown the listener is told of the close, and has got what was written before. -/
theorem end_is_final_writeThenShutdown :
    ∃ p p', streams.Reachable p ∧ streams.Leads p p' ∧ p.Any (Task.Shuts firstId) ∧
      p'.shared.events ≠ p.shared.events ∧
      writesOf firstId p'.shared.events = writesOf firstId p.shared.events := by
  obtain ⟨p, p', hrun, hrun', hi, hevents⟩ : ∃ p p',
      streams.run streams.start writeThenShutdown = some p ∧
      streams.run p [.act 1 (.registry .go), .act 1 (.sent .ok)] = some p' ∧
      p.tasks 1 = some (.through (.poll firstId) (.onClose 0 firstId false)) ∧
      p'.shared.events = p.shared.events ++ [⟨0, .close, firstId, []⟩] := ⟨_, _, rfl, rfl, rfl, rfl⟩
  have hreach := Object.reachable_of_run hrun
  have hleads := Object.leads_of_run _ hrun'
  have hshuts : p.Any (Task.Shuts firstId) := ⟨1, _, hi, _, 0, false, rfl⟩
  refine ⟨p, p', hreach, hleads, hshuts, ?_, (end_is_final hreach hleads firstId).1 hshuts⟩
  rw [hevents]
  simp

end Lonesome.VirtualJs.Streams
