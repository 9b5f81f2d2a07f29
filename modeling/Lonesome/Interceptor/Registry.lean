import Lonesome.Http
import Lonesome.Lib.History
import Lonesome.Lib.Interleaving

/-!
# The interceptor registry

`src/interceptor/registry.rs`: the handlers that JavaScript registers under keys. The map is read
without a lock and written under one, so a read and a locked write are one action each.
`run_interceptor` holds the handler that it found across the call of the handler; when the call says
that the handler's function is closed, the key is unregistered.

That last step goes by the key and not by the handler, unlike `deactivate_listener_instance` of the
virtual listeners. A handler that was registered in the meantime is removed with it
(`StaleRemoval`), and in every other run a handler stays until the user unregisters its key or a
call of its own fails so: `interceptors_last_iff`.
-/

namespace Lonesome.Interceptors

open Lonesome.Interleaving
open Lonesome.Lib

/-! ## The model -/

/-- A handler, with its threadsafe function as a number: functions are numbered as they are built. -/
structure Interceptor where
  key : Str
  onIntercept : Nat
  deriving DecidableEq

/-- What a handler is called with. -/
structure InterceptorCall where
  key : Str
  method : Str
  path : Str
  deriving DecidableEq

/-- `napi::Status`, as far as the program tells the statuses apart. -/
inductive Status
  | closing
  | cancelled
  | other
  deriving DecidableEq

def tsfnClosed (status : Status) : Bool :=
  status == .closing || status == .cancelled

variable {ν : Type}

/-- What has happened: the writes by the user, the calls of handlers and those among them that failed
for a closed function, and the results of `run_interceptor`; `refused` is an error that
`register_interceptor` or `unregister_interceptor` returns. -/
inductive Event (ν : Type)
  | registered (interceptor : Interceptor)
  | unregistered (key : Str) (removed : Bool)
  | refused (error : String)
  | called (interceptor : Interceptor) (call : InterceptorCall)
  | closed (interceptor : Interceptor)
  | returned (result : Except ProxyError (Option ν))

structure State (ν : Type) where
  interceptors : Str → Option Interceptor
  built : Nat
  history : List (Event ν)

namespace State

def init : State ν where
  interceptors _ := none
  built := 0
  history := []

def log (w : State ν) (e : Event ν) : State ν := { w with history := w.history ++ [e] }

def setInterceptor (w : State ν) (key : Str) (entry : Option Interceptor) : State ν :=
  { w with interceptors := Function.update w.interceptors key entry }

end State

/-- Where a call is. A `run_interceptor` finds the handler, awaits its call, then the promise that
the call gives or the lock to unregister the key of the handler. -/
inductive Call
  | register (key : Str)
  | unregister (key : Str)
  | lookup (call : InterceptorCall)
  | calling (interceptor : Interceptor)
  | removing (interceptor : Interceptor)
  | promised
  deriving DecidableEq

/-- What the registry does not decide: the errors of `napi`, what JavaScript answers, and whether a
`run_interceptor` is dropped while it waits. -/
inductive Choice (ν : Type)
  | go
  | buildFails (error : String)
  | callFails (status : Status) (error : String)
  | rejects (error : String)
  | resolves (value : Option ν)
  | cancel

/-- An error of a call of the handler. -/
def callError (context cause : String) : ProxyError :=
  .because (.other "ConnectError") context cause

/-- `register_interceptor`: the function is built before the lock is taken. -/
def registerAct (w : State ν) (key : Str) : Choice ν → Option (State ν)
  | .go =>
    if (Str.trim key).isEmpty then some (w.log (.refused "interceptor key cannot be empty"))
    else
      let next : State ν := { w with built := w.built + 1 }
      match w.interceptors key with
      | some _ => some (next.log (.refused s!"interceptor '{String.ofList key}' already exists"))
      | none =>
        some ((next.setInterceptor key (some ⟨key, w.built⟩)).log (.registered ⟨key, w.built⟩))
  | .buildFails error =>
    if (Str.trim key).isEmpty then none
    else some (w.log (.refused s!"failed to build interceptor tsfn: {error}"))
  | _ => none

/-- `unregister_interceptor` -/
def unregisterAct (w : State ν) (key : Str) : State ν :=
  if (Str.trim key).isEmpty then w.log (.refused "interceptor key cannot be empty")
  else (w.setInterceptor key none).log (.unregistered key (w.interceptors key).isSome)

def act (w : State ν) : Call → Choice ν → Option (State ν × Option Call)
  | .register key, choice => (registerAct w key choice).map (·, none)
  | .unregister key, .go => some (unregisterAct w key, none)
  | .lookup call, .go =>
    match w.interceptors call.key with
    | none => some (w.log (.returned (.ok none)), none)
    | some i => some (w.log (.called i call), some (.calling i))
  | .calling _, .go => some (w, some .promised)
  | .calling i, .callFails status error =>
    if tsfnClosed status then some (w.log (.closed i), some (.removing i))
    else some (w.log (.returned (.error (callError "interceptor call failed" error))), none)
  | .removing i, .go =>
    some ((w.setInterceptor i.key none).log (.returned (.ok none)), none)
  | .promised, .resolves value => some (w.log (.returned (.ok value)), none)
  | .promised, .rejects error =>
    some (w.log (.returned (.error (callError "interceptor rejected" error))), none)
  | .calling _, .cancel | .promised, .cancel => some (w, none)
  | _, _ => none

/-- The calls that begin: the two exported functions, and `run_interceptor`. -/
def begins : Call → Bool
  | .register _ | .unregister _ | .lookup _ => true
  | _ => false

def registry (ν : Type) : Object (State ν) Call (Choice ν) Empty where
  initial := .init
  begins _ call := begins call
  act _ := act
  env _ e := e.elim

/-! ## What a call does -/

/-- What an event is to a handler: its registration, or an unregistration of its key by the user. -/
def Event.effectOn (i : Interceptor) : Event ν → Option (Unit × Option Unit)
  | registered j => if j = i then some ((), some ()) else none
  | unregistered key _ => if key = i.key then some ((), none) else none
  | _ => none

/-- The handler was registered at time `t`, and the user has not unregistered its key since. -/
abbrev RegisteredAt (w : State ν) (t : Nat) (i : Interceptor) : Prop :=
  SetLast (Event.effectOn i) w.history t () ()

/-- The state after the registration of a new handler. -/
def State.registerNew (w : State ν) (key : Str) : State ν :=
  ({ w with built := w.built + 1 }.setInterceptor key (some ⟨key, w.built⟩)).log
    (.registered ⟨key, w.built⟩)

/-- The state after a `run_interceptor` has unregistered the key of its handler. -/
def State.removeKey (w : State ν) (key : Str) : State ν :=
  (w.setInterceptor key none).log (.returned (.ok none))

/-- One action of a call, case by case. -/
inductive CallStep (w : State ν) : Call → State ν → Option Call → Prop
  | refused {call : Call} {built : Nat} {error : String} (h : ∀ i, call ≠ .removing i) :
      CallStep w call ({ w with built }.log (.refused error)) none
  | registered {key : Str} (h : w.interceptors key = none) :
      CallStep w (.register key) (w.registerNew key) none
  | unregistered {key : Str} :
      CallStep w (.unregister key)
        ((w.setInterceptor key none).log (.unregistered key (w.interceptors key).isSome)) none
  | found {call : InterceptorCall} {i : Interceptor} (h : w.interceptors call.key = some i) :
      CallStep w (.lookup call) (w.log (.called i call)) (some (.calling i))
  | accepted {i : Interceptor} : CallStep w (.calling i) w (some .promised)
  | closed {i : Interceptor} : CallStep w (.calling i) (w.log (.closed i)) (some (.removing i))
  | removed {i : Interceptor} :
      CallStep w (.removing i) (w.removeKey i.key) none
  | returned {call : Call} {result : Except ProxyError (Option ν)} (h : ∀ i, call ≠ .removing i) :
      CallStep w call (w.log (.returned result)) none
  | cancelled {call : Call} (h : ∀ i, call ≠ .removing i) : CallStep w call w none

theorem registerAct_step {w w' : State ν} {key : Str} {choice : Choice ν}
    (h : registerAct w key choice = some w') : CallStep w (.register key) w' none := by
  cases choice with
  | go =>
    simp only [registerAct] at h
    split at h
    · cases h
      exact .refused fun _ => Call.noConfusion
    · split at h
      · cases h
        exact .refused fun _ => Call.noConfusion
      · next hkey =>
        cases h
        exact .registered hkey
  | buildFails error =>
    simp only [registerAct] at h
    split at h
    · cases h
    · cases h
      exact .refused fun _ => Call.noConfusion
  | _ => cases h

theorem act_step {w w' : State ν} {call : Call} {choice : Choice ν} {call' : Option Call}
    (h : act w call choice = some (w', call')) : CallStep w call w' call' := by
  cases call with
  | register key =>
    obtain ⟨w'', hreg, heq⟩ := Option.map_eq_some_iff.1 h
    cases heq
    exact registerAct_step hreg
  | unregister key =>
    cases choice with
    | go =>
      simp only [act, Option.some.injEq, Prod.mk.injEq] at h
      obtain ⟨rfl, rfl⟩ := h
      unfold unregisterAct
      split
      · exact .refused fun _ => Call.noConfusion
      · exact .unregistered
    | _ => cases h
  | lookup call =>
    cases choice with
    | go =>
      simp only [act] at h
      split at h
      · cases h
        exact .returned fun _ => Call.noConfusion
      · next i hi =>
        cases h
        exact .found hi
    | _ => cases h
  | calling i =>
    cases choice with
    | go =>
      cases h
      exact .accepted
    | callFails status error =>
      simp only [act] at h
      split at h
      · cases h
        exact .closed
      · cases h
        exact .returned fun _ => Call.noConfusion
    | cancel =>
      cases h
      exact .cancelled fun _ => Call.noConfusion
    | _ => cases h
  | removing i =>
    cases choice with
    | go =>
      cases h
      exact .removed
    | _ => cases h
  | promised =>
    cases choice with
    | resolves value =>
      cases h
      exact .returned fun _ => Call.noConfusion
    | rejects error =>
      cases h
      exact .returned fun _ => Call.noConfusion
    | cancel =>
      cases h
      exact .cancelled fun _ => Call.noConfusion
    | _ => cases h

/-- The step writes no entry, and what it logs is neither a registration nor the user's. -/
structure Quiet (w w' : State ν) : Prop where
  interceptors : w'.interceptors = w.interceptors
  history : ∃ events, (∀ e ∈ events, ∀ i, e.effectOn i = none) ∧ w'.history = w.history ++ events

/-- Of the steps of a call, three write entries. -/
theorem CallStep.cases {w w' : State ν} {call : Call} {call' : Option Call}
    (h : CallStep w call w' call') :
    (Quiet w w' ∧ (∀ i, call ≠ .removing i) ∧
      ∀ i, call' = some (.removing i) → .closed i ∈ w'.history) ∨
    (∃ key, call = .register key ∧ w.interceptors key = none ∧ call' = none ∧
      w' = w.registerNew key) ∨
    (∃ key removed, call = .unregister key ∧ call' = none ∧
      w' = (w.setInterceptor key none).log (.unregistered key removed)) ∨
    (∃ i, call = .removing i ∧ call' = none ∧ w' = w.removeKey i.key) := by
  have hone (e : Event ν) (he : ∀ i, e.effectOn i = none) : ∀ e' ∈ [e], ∀ i, e'.effectOn i = none := by
    intro e' he'
    rw [List.mem_singleton.1 he']
    exact he
  cases h with
  | refused hcall =>
    exact .inl ⟨⟨rfl, [_], hone _ fun _ => rfl, rfl⟩, hcall, fun _ hi => nomatch hi⟩
  | registered hkey => exact .inr (.inl ⟨_, rfl, hkey, rfl, rfl⟩)
  | unregistered => exact .inr (.inr (.inl ⟨_, _, rfl, rfl, rfl⟩))
  | found _ =>
    refine .inl ⟨⟨rfl, [_], hone _ fun _ => rfl, rfl⟩, fun _ => Call.noConfusion, ?_⟩
    exact fun _ hi => nomatch hi
  | accepted =>
    refine .inl ⟨⟨rfl, [], by simp, (List.append_nil _).symm⟩, fun _ => Call.noConfusion, ?_⟩
    exact fun _ hi => nomatch hi
  | closed =>
    refine .inl ⟨⟨rfl, [_], hone _ fun _ => rfl, rfl⟩, fun _ => Call.noConfusion, ?_⟩
    intro j hj
    cases hj
    exact List.mem_append_right _ List.mem_cons_self
  | removed => exact .inr (.inr (.inr ⟨_, rfl, rfl, rfl⟩))
  | returned hcall =>
    exact .inl ⟨⟨rfl, [_], hone _ fun _ => rfl, rfl⟩, hcall, fun _ hi => nomatch hi⟩
  | cancelled hcall =>
    exact .inl ⟨⟨rfl, [], by simp, (List.append_nil _).symm⟩, hcall, fun _ hi => nomatch hi⟩

/-- Nothing is forgotten. -/
theorem CallStep.mem_history {w w' : State ν} {call : Call} {call' : Option Call}
    (h : CallStep w call w' call') {e : Event ν} (he : e ∈ w.history) : e ∈ w'.history := by
  cases h <;> first | exact he | exact List.mem_append_left _ he

/-! ## What is known of entries -/

/-- Each entry is a handler of its key, which the user has not unregistered since. -/
def Recorded (w : State ν) : Prop :=
  ∀ key i, w.interceptors key = some i → i.key = key ∧ ∃ t, RegisteredAt w t i

/-- A handler that was registered is still the entry of its key, unless the user has unregistered the
key since or a call of the handler failed for its closed function. -/
def Lasting (w : State ν) : Prop :=
  ∀ t i, RegisteredAt w t i → w.interceptors i.key = some i ∨ .closed i ∈ w.history

variable {w w' : State ν}

namespace Quiet

variable (h : Quiet w w')
include h

theorem registeredAt_iff {t : Nat} {i : Interceptor} : RegisteredAt w' t i ↔ RegisteredAt w t i := by
  obtain ⟨events, hquiet, heq⟩ := h.history
  rw [RegisteredAt, heq]
  exact setLast_append fun e he => hquiet e he i

theorem mem_history {e : Event ν} (he : e ∈ w.history) : e ∈ w'.history := by
  obtain ⟨events, -, heq⟩ := h.history
  rw [heq]
  exact List.mem_append_left _ he

theorem recorded (hr : Recorded w) : Recorded w' := by
  intro key i hi
  rw [h.interceptors] at hi
  obtain ⟨hkey, t, ht⟩ := hr key i hi
  exact ⟨hkey, t, h.registeredAt_iff.2 ht⟩

theorem lasting (hl : Lasting w) : Lasting w' := by
  intro t i ht
  rw [h.interceptors]
  exact (hl t i (h.registeredAt_iff.1 ht)).imp_right h.mem_history

end Quiet

/-! ### Registering -/

theorem registeredAt_registerNew {key : Str} {t : Nat} {i : Interceptor} :
    RegisteredAt (w.registerNew key) t i ↔
      (t = w.history.length ∧ i = ⟨key, w.built⟩) ∨ (RegisteredAt w t i ∧ i ≠ ⟨key, w.built⟩) := by
  rw [RegisteredAt, State.registerNew, State.log, setLast_concat]
  simp only [Event.effectOn]
  by_cases hi : i = ⟨key, w.built⟩
  · simp [hi, State.setInterceptor]
  · simp [hi, Ne.symm hi, State.setInterceptor]

theorem interceptors_registerNew {key k : Str} :
    (w.registerNew key).interceptors k =
      if k = key then some ⟨key, w.built⟩ else w.interceptors k :=
  Function.update_apply ..

theorem recorded_registerNew (hr : Recorded w) (key : Str) : Recorded (w.registerNew key) := by
  intro k i hi
  rw [interceptors_registerNew] at hi
  split at hi
  · next hk =>
    cases hi
    exact ⟨hk.symm, w.history.length, registeredAt_registerNew.2 (.inl ⟨rfl, rfl⟩)⟩
  · next hk =>
    obtain ⟨hkey, t, ht⟩ := hr k i hi
    refine ⟨hkey, t, registeredAt_registerNew.2 (.inr ⟨ht, ?_⟩)⟩
    rintro rfl
    exact hk hkey.symm

theorem lasting_registerNew {key : Str} (hkey : w.interceptors key = none) (hl : Lasting w) :
    Lasting (w.registerNew key) := by
  intro t i ht
  rw [interceptors_registerNew]
  rcases registeredAt_registerNew.1 ht with ⟨-, rfl⟩ | ⟨hold, -⟩
  · exact .inl (if_pos rfl)
  · rcases hl t i hold with hi | hclosed
    · have hne : i.key ≠ key := by
        intro heq
        rw [heq, hkey] at hi
        cases hi
      rw [if_neg hne]
      exact .inl hi
    · exact .inr (List.mem_append_left _ hclosed)

/-! ### Unregistering -/

theorem interceptors_setInterceptor_none {key k : Str} {i : Interceptor} :
    (w.setInterceptor key none).interceptors k = some i ↔ k ≠ key ∧ w.interceptors k = some i := by
  show Function.update w.interceptors key none k = some i ↔ _
  rw [Function.update_apply]
  split
  · next hk => simp [hk]
  · next hk => simp [hk]

theorem registeredAt_unregistered {key : Str} {removed : Bool} {t : Nat} {i : Interceptor} :
    RegisteredAt ((w.setInterceptor key none).log (.unregistered key removed)) t i ↔
      RegisteredAt w t i ∧ key ≠ i.key := by
  rw [RegisteredAt, State.log, setLast_concat]
  simp only [Event.effectOn]
  by_cases hk : key = i.key <;> simp [hk, State.setInterceptor]

theorem recorded_unregistered (hr : Recorded w) (key : Str) (removed : Bool) :
    Recorded ((w.setInterceptor key none).log (.unregistered key removed)) := by
  intro k i hi
  obtain ⟨hk, hi⟩ := interceptors_setInterceptor_none.1 hi
  obtain ⟨hkey, t, ht⟩ := hr k i hi
  exact ⟨hkey, t, registeredAt_unregistered.2 ⟨ht, fun heq => hk (hkey.symm.trans heq.symm)⟩⟩

theorem lasting_unregistered (hl : Lasting w) (key : Str) (removed : Bool) :
    Lasting ((w.setInterceptor key none).log (.unregistered key removed)) := by
  intro t i ht
  obtain ⟨hold, hk⟩ := registeredAt_unregistered.1 ht
  rcases hl t i hold with hi | hclosed
  · exact .inl (interceptors_setInterceptor_none.2 ⟨hk.symm, hi⟩)
  · exact .inr (List.mem_append_left _ hclosed)

/-! ### Removing the key of a closed handler -/

theorem registeredAt_removeKey {key : Str} {t : Nat} {i : Interceptor} :
    RegisteredAt (w.removeKey key) t i ↔ RegisteredAt w t i :=
  setLast_append (by simp [Event.effectOn])

theorem recorded_removeKey (hr : Recorded w) (key : Str) : Recorded (w.removeKey key) := by
  intro k i hi
  obtain ⟨-, hi⟩ := interceptors_setInterceptor_none.1 hi
  obtain ⟨hkey, t, ht⟩ := hr k i hi
  exact ⟨hkey, t, registeredAt_removeKey.2 ht⟩

/-- Removing a key keeps the property exactly when the function of the handler under it, if there is
one, is known to be closed. -/
theorem lasting_removeKey_iff (hr : Recorded w) (hl : Lasting w) (key : Str) :
    Lasting (w.removeKey key) ↔ ∀ i, w.interceptors key = some i → .closed i ∈ w.history := by
  have hmem {i : Interceptor} : .closed i ∈ (w.removeKey key).history ↔ .closed i ∈ w.history := by
    show .closed i ∈ w.history ++ [.returned (.ok none)] ↔ _
    simp
  constructor
  · intro hlast i hi
    obtain ⟨rfl, t, ht⟩ := hr key i hi
    rcases hlast t i (registeredAt_removeKey.2 ht) with hsome | hclosed
    · exact ((interceptors_setInterceptor_none.1 hsome).1 rfl).elim
    · exact hmem.1 hclosed
  · intro hclosed t i ht
    rw [hmem]
    rcases hl t i (registeredAt_removeKey.1 ht) with hi | hc
    · by_cases hk : i.key = key
      · rw [hk] at hi
        exact .inr (hclosed i hi)
      · exact .inl (interceptors_setInterceptor_none.2 ⟨hk, hi⟩)
    · exact .inr hc

/-! ## Runs -/

/-- A `run_interceptor` is about to unregister the key of its closed handler, and another handler is
registered under the key, one whose function no call has found closed. -/
def StaleRemoval (p : Pool (State ν) Call) (m : Move Call (Choice ν) Empty) : Prop :=
  ∃ n choice i j, m = .act n choice ∧ p.tasks n = some (.removing i) ∧
    p.shared.interceptors i.key = some j ∧ j ≠ i ∧ .closed j ∉ p.shared.history

/-- A call that is about to unregister a key has found the function of its handler closed. -/
theorem reachable_closed {p : Pool (State ν) Call} (h : (registry ν).Reachable p) :
    p.All fun call => ∀ i, call = .removing i → .closed i ∈ p.shared.history := by
  refine h.induct (I := fun p => p.All fun call => ∀ i, call = .removing i →
    .closed i ∈ p.shared.history) (fun _ _ ht => nomatch ht) ?_ ?_ fun p e => e.elim
  · intro p n call _ hclosed _ hbegins
    refine hclosed.set (fun _ _ _ _ hold => hold) ?_
    rintro _ heq i rfl
    cases heq
    cases hbegins
  · intro p n choice call w' call' _ hclosed hn hact
    have hstep := act_step hact
    refine hclosed.set (fun _ _ _ _ hold i hi => hstep.mem_history (hold i hi)) ?_
    rintro _ rfl i rfl
    rcases hstep.cases with ⟨-, -, hnew⟩ | ⟨_, -, -, heq, -⟩ | ⟨_, _, -, heq, -⟩ | ⟨_, -, heq, -⟩
    · exact hnew i rfl
    · cases heq
    · cases heq
    · cases heq

theorem reachable_recorded {p : Pool (State ν) Call} (h : (registry ν).Reachable p) :
    Recorded p.shared := by
  refine h.induct (I := fun p => Recorded p.shared) ?_ ?_ ?_ fun p e => e.elim
  · rintro key i hi
    cases hi
  · exact fun p n call _ hr _ _ => hr
  · intro p n choice call w' call' _ hr _ hact
    rw [Pool.set_shared]
    rcases (act_step hact).cases with ⟨hquiet, -, -⟩ | ⟨key, -, -, -, rfl⟩ | ⟨key, removed, -, -, rfl⟩ |
      ⟨i, -, -, rfl⟩
    · exact hquiet.recorded hr
    · exact recorded_registerNew hr key
    · exact recorded_unregistered hr key removed
    · exact recorded_removeKey hr i.key

theorem lasting_move_iff {p p' : Pool (State ν) Call} {m : Move Call (Choice ν) Empty}
    (hp : (registry ν).Reachable p) (hl : Lasting p.shared) (hm : (registry ν).move p m = some p') :
    Lasting p'.shared ↔ ¬ StaleRemoval p m := by
  obtain ⟨n, call, rfl, -, -, rfl⟩ | ⟨n, choice, call, w', call', rfl, hn, hact, rfl⟩ | ⟨e, -⟩ :=
    Object.move_cases hm
  · refine iff_of_true hl ?_
    rintro ⟨_, _, _, _, heq, -⟩
    cases heq
  · have hother (hcall : ∀ i, call ≠ .removing i) : ¬ StaleRemoval p (.act n choice) := by
      rintro ⟨n', _, i, _, heq, hn', -⟩
      cases heq
      rw [hn] at hn'
      exact hcall i (Option.some.inj hn')
    rw [Pool.set_shared]
    rcases (act_step hact).cases with ⟨hquiet, hcall, -⟩ | ⟨key, rfl, hkey, -, rfl⟩ |
      ⟨key, removed, rfl, -, rfl⟩ | ⟨i, rfl, -, rfl⟩
    · exact iff_of_true (hquiet.lasting hl) (hother hcall)
    · exact iff_of_true (lasting_registerNew hkey hl) (hother fun _ => Call.noConfusion)
    · exact iff_of_true (lasting_unregistered hl key removed) (hother fun _ => Call.noConfusion)
    · rw [lasting_removeKey_iff (reachable_recorded hp) hl]
      constructor
      · rintro hclosed ⟨n', _, i', j, heq, hn', hj, -, hopen⟩
        cases heq
        rw [hn] at hn'
        cases hn'
        exact hopen (hclosed j hj)
      · intro hno j hj
        by_contra hopen
        have hne : j ≠ i := by
          rintro rfl
          exact hopen (reachable_closed hp n _ hn j rfl)
        exact hno ⟨n, choice, i, j, rfl, hn, hj, hne, hopen⟩
  · exact e.elim

/-- **When handlers last**: in a run, every handler stays registered until the user unregisters its
key or a call of it fails for its closed function, exactly when no `run_interceptor` unregisters the
key of its closed handler while another handler, not found closed, is registered under it. -/
theorem interceptors_last_iff (schedule : List (Move Call (Choice ν) Empty))
    {p : Pool (State ν) Call} (h : (registry ν).run (registry ν).start schedule = some p) :
    (registry ν).Always (fun p => Lasting p.shared) (registry ν).start schedule ↔
      ¬ (registry ν).Occurs StaleRemoval (registry ν).start schedule := by
  refine Object.always_iff (fun p m p' hp hl hm => lasting_move_iff hp hl hm) .start ?_ schedule h
  intro t i ht
  exact absurd ht not_setLast_nil

/-! A handler is found; the user unregisters it and registers another one; then the call of the
first handler fails for its closed function. -/

def replacedWhileCalled : List (Move Call (Choice Unit) Empty) :=
  [.begin 0 (.register "gate".toList), .act 0 .go,
    .begin 1 (.lookup ⟨"gate".toList, "GET".toList, "/".toList⟩), .act 1 .go,
    .begin 0 (.unregister "gate".toList), .act 0 .go,
    .begin 0 (.register "gate".toList), .act 0 .go,
    .act 1 (.callFails .closing "closing"), .act 1 .go]

/-- What happens in it. -/
def replacedHistory : List (Event Unit) :=
  [.registered ⟨"gate".toList, 0⟩,
    .called ⟨"gate".toList, 0⟩ ⟨"gate".toList, "GET".toList, "/".toList⟩,
    .unregistered "gate".toList true, .registered ⟨"gate".toList, 1⟩,
    .closed ⟨"gate".toList, 0⟩, .returned (.ok none)]

theorem not_lasting_replaced {w : State Unit} (hw : w.history = replacedHistory)
    (hnone : w.interceptors "gate".toList = none) : ¬ Lasting w := by
  have hsince : ∀ t, 3 < t → ∀ v,
      replacedHistory[t]?.bind (Event.effectOn ⟨"gate".toList, 1⟩) ≠ some ((), v) := by
    intro t ht v
    match t, ht with
    | 4, _ | 5, _ => exact fun h => nomatch h
    | t + 6, _ => exact fun h => nomatch h
  intro hlast
  have hat : RegisteredAt w 3 ⟨"gate".toList, 1⟩ := by
    rw [RegisteredAt, hw]
    exact ⟨rfl, hsince⟩
  rcases hlast 3 ⟨"gate".toList, 1⟩ hat with h | h
  · rw [hnone] at h
    cases h
  · simp [hw, replacedHistory] at h

theorem replacedWhileCalled_removes_new :
    ∃ p, (registry Unit).run (registry Unit).start replacedWhileCalled = some p ∧
      p.shared.history = replacedHistory ∧ p.shared.interceptors "gate".toList = none ∧
      ¬ Lasting p.shared :=
  ⟨_, rfl, rfl, rfl, not_lasting_replaced rfl rfl⟩

theorem interceptors_last_replaced :
    ∃ p, (registry Unit).run (registry Unit).start (replacedWhileCalled.take 8) = some p ∧
      ((registry Unit).Always (fun p => Lasting p.shared) (registry Unit).start
          (replacedWhileCalled.take 8) ↔
        ¬ (registry Unit).Occurs StaleRemoval (registry Unit).start (replacedWhileCalled.take 8)) :=
  ⟨_, rfl, interceptors_last_iff (replacedWhileCalled.take 8) rfl⟩

end Lonesome.Interceptors
