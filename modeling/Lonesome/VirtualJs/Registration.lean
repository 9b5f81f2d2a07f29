import Lonesome.VirtualJs.NoOrphans

/-!
# No stale removal of a listener

A key is used by one instance of a listener after another, while failures of old instances are
reported late. A registered instance is active, has the key it is registered under, and no
deactivation of it has begun (`Registered`); so only an `unregister_listener` of the key or a
`deactivate_listener_instance` of that very instance removes it. The latter is called for an
instance because a call through it failed as closed (`FailureOf`), and the id of the connection tells
which instance that was.
-/

namespace Lonesome.VirtualJs.Registry

open Lonesome.Interleaving

/-! ## Registrations -/

/-- `register_listener`, under the write lock. -/
def State.registerListener (w : State) (key : Str) : State × Except Str Unit :=
  match w.listeners key with
  | some _ => (w, .error ("virtual listener '".toList ++ key ++ "' already exists".toList))
  | none =>
    ({ (w.setListener w.created (.new key)).setRegistered key (some w.created) with
        created := w.created + 1 }, .ok ())

theorem frameAct_registerListener (w : State) (key : Str) (choice : Choice) :
    frameAct w (.registerListener key) choice = some ((w.registerListener key).1, []) := by
  cases h : w.listeners key with
  | none => simp only [frameAct, State.registerListener, h]
  | some l => simp only [frameAct, State.registerListener, h]

theorem State.registerListener_error_iff (w : State) (key : Str) :
    (∃ message, (w.registerListener key).2 = .error message) ↔ ∃ l, w.listeners key = some l := by
  unfold State.registerListener
  cases w.listeners key <;> simp

/-- What is registered is active, under its own key, and not being deactivated. -/
structure Registered (w : State) (P : Frame → Prop) : Prop where
  key : ∀ key l, w.listeners key = some l → (w.instances l).key = key
  active : ∀ key l, w.listeners key = some l → w.isActive l = true
  kept : ∀ key l, w.listeners key = some l → ∀ pc, ¬ P (.deactivateListener l pc)

namespace Registered

variable {w : State} {P P' : Frame → Prop} {f : Frame} {new : List Frame}

theorem frames (hg : Registered w P) (hr : Replaces P P' f new)
    (hnew : ∀ key l, w.listeners key = some l → ∀ pc, .deactivateListener l pc ∉ new) :
    Registered w P' where
  key := hg.key
  active := hg.active
  kept key l h pc hpc :=
    (hr.old _ hpc).elim (hnew key l h pc) (hg.kept key l h pc)

/-- Nothing is pushed that deactivates a listener, unless the frame did so before. -/
theorem inherits (hg : Registered w P) (ht : P f) (hr : Replaces P P' f new)
    (hnew : ∀ l pc, .deactivateListener l pc ∈ new → ∃ pc', f = .deactivateListener l pc') :
    Registered w P' := by
  refine hg.frames hr ?_
  intro key l h pc hpc
  obtain ⟨pc', rfl⟩ := hnew l pc hpc
  exact hg.kept key l h pc' ht

/-- Instances may change in everything but their keys, and those registered stay active. -/
theorem of_eq {w' : State} (hg : Registered w P) (hlisteners : w'.listeners = w.listeners)
    (hkey : ∀ l, (w'.instances l).key = (w.instances l).key)
    (hactive : ∀ key l, w.listeners key = some l → w'.isActive l = w.isActive l) :
    Registered w' P where
  key key l h := by
    rw [hlisteners] at h
    rw [hkey]
    exact hg.key key l h
  active key l h := by
    rw [hlisteners] at h
    rw [hactive key l h]
    exact hg.active key l h
  kept key l h := by
    rw [hlisteners] at h
    exact hg.kept key l h

theorem setConnections (hg : Registered w P) (l : Nat) (cs : Finset Str) :
    Registered (w.setListener l { w.instances l with connections := cs }) P := by
  refine hg.of_eq rfl ?_ ?_
  · intro l'
    rw [State.instances_setListener]
    split
    · next h => rw [h]
    · rfl
  · intro key l' h
    exact State.isActive_setConnections ..

theorem unregister (hg : Registered w P) (key : Str) : Registered (w.setRegistered key none) P := by
  have hold : ∀ key' l, (w.setRegistered key none).listeners key' = some l →
      w.listeners key' = some l := by
    intro key' l h
    rw [State.listeners_setRegistered] at h
    split at h
    · cases h
    · exact h
  constructor
  · exact fun key' l h => hg.key key' l (hold key' l h)
  · exact fun key' l h => hg.active key' l (hold key' l h)
  · exact fun key' l h => hg.kept key' l (hold key' l h)

/-- The listener that is taken out of the map may be deactivated. -/
theorem remove (hg : Registered w P) {key : Str} {l : Nat} (hl : w.listeners key = some l)
    (hr : Replaces P P' f [.deactivateListener l .store]) :
    Registered (w.setRegistered key none) P' := by
  refine (hg.unregister key).frames hr ?_
  intro key' l' h pc hpc
  rw [State.listeners_setRegistered] at h
  split at h
  · cases h
  · next hne =>
    simp only [List.mem_singleton, Frame.deactivateListener.injEq] at hpc
    apply hne
    rw [← hg.key key' l' h, hpc.1, hg.key key l hl]

theorem create (hk : Known w P) (hg : Registered w P) (key : Str) :
    Registered { (w.setListener w.created (.new key)).setRegistered key (some w.created) with
      created := w.created + 1 } P := by
  have hcases : ∀ key' l,
      ((w.setListener w.created (.new key)).setRegistered key (some w.created)).listeners key' =
        some l → (key' = key ∧ l = w.created) ∨ (l ≠ w.created ∧ w.listeners key' = some l) := by
    intro key' l h
    rw [State.listeners_setRegistered] at h
    split at h
    · next heq => exact .inl ⟨heq, (Option.some.inj h).symm⟩
    · exact .inr ⟨Nat.ne_of_lt (hk.listeners key' l h), h⟩
  constructor
  · intro key' l h
    simp only [State.setRegistered, State.instances_setListener]
    rcases hcases key' l h with ⟨rfl, rfl⟩ | ⟨hne, hold⟩
    · rw [if_pos rfl]
      rfl
    · rw [if_neg hne]
      exact hg.key key' l hold
  · intro key' l h
    simp only [State.isActive, State.setRegistered, State.instances_setListener]
    rcases hcases key' l h with ⟨rfl, rfl⟩ | ⟨hne, hold⟩
    · rw [if_pos rfl]
      rfl
    · rw [if_neg hne]
      exact hg.active key' l hold
  · intro key' l h pc hpc
    rcases hcases key' l h with ⟨rfl, rfl⟩ | ⟨-, hold⟩
    · exact Nat.lt_irrefl _ (hk.created _ hpc _ rfl)
    · exact hg.kept key' l hold pc hpc

end Registered

theorem registered_step {w w' : State} {P P' : Frame → Prop} {f : Frame} {new : List Frame}
    (hk : Known w P) (hg : Registered w P) (hstep : FrameStep w f w' new) (ht : P f)
    (hr : Replaces P P' f new) : Registered w' P' := by
  cases hstep with
  | registerRefused | notRegistered | detachAbsent | listenerAbsent | loopDone | checked
  | rechecked | recheckFailed | opened | openClosed | openFailed | deactivated | finalChecked
  | finalCheckFailed | listenerFound =>
    exact hg.inherits ht hr (by simp)
  | checkRefused | attachRefused | cancelled | connected | notFound | failed | issued | inserted
  | detached | loopNext =>
    exact (hg.inherits ht hr (by simp)).of_eq rfl (fun _ => rfl) fun _ _ _ => rfl
  | registered h => exact (hg.create hk _).frames hr (by simp)
  | unregistered h => exact hg.remove h hr
  | attached | connectionDetached | drained =>
    exact (hg.inherits ht hr (by simp)).setConnections ..
  | instanceRemoved h => exact hg.remove h hr
  | @instanceReplaced l h =>
    -- an instance that is registered under any key is so under its own
    refine hg.frames hr ?_
    intro key l' hl' pc hpc
    simp only [List.mem_singleton, Frame.deactivateListener.injEq] at hpc
    rw [hpc.1] at hl'
    rw [hg.key key l hl'] at h
    exact h hl'
  | @stored l =>
    refine (hg.inherits ht hr (by simp)).of_eq rfl ?_ ?_
    · intro l'
      rw [State.storeInactive, State.instances_setListener]
      split
      · next h => rw [h]
      · rfl
    · intro key l' h
      rw [State.isActive_storeInactive, if_neg]
      rintro rfl
      exact hg.kept key l' h .store ht

theorem registered_begin {p : Pool State (List Frame)} {i : Nat} {stack : List Frame}
    (hg : Registered p.shared (Present p)) (hb : begins p.shared stack = true) :
    Registered p.shared (Present (p.set i p.shared (some stack))) where
  key := hg.key
  active := hg.active
  kept key l h pc := by
    rintro ⟨j, st, hst, hmem⟩
    rcases Pool.tasks_set_cases hst with ⟨-, hnew⟩ | ⟨-, hold⟩
    · cases hnew
      obtain ⟨g, rfl, -⟩ := begins_cases hb
      rw [← List.mem_singleton.1 hmem] at hb
      cases hb
    · exact hg.kept key l h pc ⟨j, st, hold, hmem⟩

theorem reachable_registered {p : Pool State (List Frame)} (h : registry.Reachable p) :
    Registered p.shared (Present p) := by
  refine h.induct (I := fun p => Registered p.shared (Present p)) ?_ ?_ ?_ ?_
  · constructor <;> simp [Object.start, registry, State.init]
  · intro p i stack _ hg hfree hb
    exact registered_begin hg hb
  · intro p i choice stack w' stack' hp hg hstack hact
    obtain ⟨f, rest, new, rfl, hstep, rfl⟩ := act_step hact
    exact registered_step (reachable_inv hp).known hg hstep ⟨i, _, hstack, List.mem_cons_self⟩
      (replaces_set hstack)
  · intro p e
    exact e.elim

/-! ## What removes a registered listener -/

/-- A call of `unregister_listener` takes effect. -/
def Unregisters (key : Str) (p : Pool State (List Frame)) :
    Move (List Frame) Choice Empty → Prop
  | .act i _ => ∃ rest, p.tasks i = some (.unregisterListener key :: rest)
  | _ => False

/-- A failure of the instance is reported: by its handle, by a connect whose `open` event failed as
closed, or by the id of a connection through it, when a `write` or `close` event did. -/
def FailureOf (l : Nat) (p : Pool State (List Frame)) : Move (List Frame) Choice Empty → Prop
  | .begin _ stack => stack = [.deactivateListenerInstance l]
  | .act i choice =>
    (∃ c rest, p.tasks i = some (.connect l (.openEvent c) :: rest) ∧ choice = .openFails true) ∨
    ∃ c rest, p.tasks i = some (.deactivateSocketListener c :: rest) ∧
      Event.issued l c ∈ p.shared.history
  | .env _ => False

/-- One action keeps a registration, unless it is one of the two that remove it. -/
theorem FrameStep.listeners {w w' : State} {f : Frame} {new : List Frame}
    (h : FrameStep w f w' new) {key : Str} {l : Nat} (hl : w.listeners key = some l)
    (hunregister : f ≠ .unregisterListener key) (hinstance : f ≠ .deactivateListenerInstance l) :
    w'.listeners key = some l := by
  cases h with
  | @registered key' hnone =>
    have hne : key ≠ key' := by
      rintro rfl
      rw [hnone] at hl
      cases hl
    exact (State.listeners_setRegistered ..).trans ((if_neg hne).trans hl)
  | @unregistered key' l' hl' =>
    have hne : key ≠ key' := by
      rintro rfl
      exact hunregister rfl
    rw [State.listeners_setRegistered, if_neg hne, hl]
  | @instanceRemoved l' hl' =>
    have hne : key ≠ (w.instances l').key := by
      rintro rfl
      rw [hl', Option.some.injEq] at hl
      exact hinstance (by rw [hl])
    rw [State.listeners_setRegistered, if_neg hne, hl]
  | _ => exact hl

/-- A deactivation of an instance is only pushed as its failure is reported. -/
theorem frameAct_failure {w w' : State} {P : Frame → Prop} {f : Frame} {choice : Choice}
    {new : List Frame} (hk : Known w P) (h : frameAct w f choice = some (w', new)) {l : Nat}
    (hl : .deactivateListenerInstance l ∈ new) :
    (∃ c, f = .connect l (.openEvent c) ∧ choice = .openFails true) ∨
      ∃ c, f = .deactivateSocketListener c ∧ Event.issued l c ∈ w.history := by
  cases frameAct_step h with
  | @openClosed l' c =>
    simp only [List.mem_cons, Frame.deactivateListenerInstance.injEq, reduceCtorEq, List.not_mem_nil,
      or_false] at hl
    rw [hl]
    refine .inl ⟨c, rfl, ?_⟩
    simp only [frameAct, connectAct] at h
    split at h <;> simp_all
  | @listenerFound c l' hs =>
    simp only [List.mem_singleton, Frame.deactivateListenerInstance.injEq] at hl
    exact .inr ⟨c, rfl, hl ▸ hk.sockets c l' hs⟩
  | _ => simp at hl

theorem failureOf_unique {p : Pool State (List Frame)} (hp : Inv p) {l l' : Nat}
    {m : Move (List Frame) Choice Empty} (h : FailureOf l p m) (h' : FailureOf l' p m) : l = l' := by
  cases m with
  | begin i stack =>
    have heq := h.symm.trans h'
    simpa using heq
  | act i choice =>
    rcases h with ⟨c, rest, ht, -⟩ | ⟨c, rest, ht, hc⟩ <;>
      rcases h' with ⟨c', rest', ht', -⟩ | ⟨c', rest', ht', hc'⟩ <;>
      rw [ht, Option.some.injEq, List.cons.injEq] at ht'
    · exact (Frame.connect.inj ht'.1).1
    · cases ht'.1
    · cases ht'.1
    · rw [Frame.deactivateSocketListener.injEq] at ht'
      rw [← ht'.1] at hc'
      exact hp.known.owner l l' c hc hc'
  | env e => exact e.elim

section Moves

variable {p p' : Pool State (List Frame)} {m : Move (List Frame) Choice Empty} {l : Nat}

theorem not_deactivating_step (h : registry.Reachable p)
    (hno : ¬ Present p (.deactivateListenerInstance l)) (hfail : ¬ FailureOf l p m)
    (hmove : registry.move p m = some p') : ¬ Present p' (.deactivateListenerInstance l) := by
  have hp := reachable_inv h
  obtain ⟨i, stack, rfl, -, hb, rfl⟩ | ⟨i, choice, stack, w', stack', rfl, hi, hact, rfl⟩ |
    ⟨e, -⟩ := Object.move_cases hmove
  · rintro ⟨j, st, hst, hmem⟩
    rcases Pool.tasks_set_cases hst with ⟨-, hnew⟩ | ⟨-, hold⟩
    · cases hnew
      obtain ⟨g, rfl, -⟩ := begins_cases hb
      exact hfail (by rw [← List.mem_singleton.1 hmem]; rfl)
    · exact hno ⟨j, st, hold, hmem⟩
  · obtain ⟨f, rest, new, rfl, hframe, rfl⟩ := act_frameAct hact
    intro hpresent
    have hreplaces : Replaces (Present _) (Present (Pool.set _ i w' (running (new ++ rest)))) f new :=
      replaces_set hi
    rcases hreplaces.old _ hpresent with hmem | hold
    · rcases frameAct_failure hp.known hframe hmem with ⟨c, rfl, hc⟩ | ⟨c, rfl, hc⟩
      · exact hfail (.inl ⟨c, rest, hi, hc⟩)
      · exact hfail (.inr ⟨c, rest, hi, hc⟩)
    · exact hno hold
  · exact e.elim

theorem listeners_step {key : Str} (hl : p.shared.listeners key = some l)
    (hno : ¬ Present p (.deactivateListenerInstance l)) (hunregister : ¬ Unregisters key p m)
    (hmove : registry.move p m = some p') : p'.shared.listeners key = some l := by
  obtain ⟨i, stack, rfl, -, -, rfl⟩ | ⟨i, choice, stack, w', stack', rfl, hi, hact, rfl⟩ |
    ⟨e, -⟩ := Object.move_cases hmove
  · exact hl
  · obtain ⟨f, rest, new, rfl, hstep, rfl⟩ := act_step hact
    refine hstep.listeners hl ?_ ?_
    · rintro rfl
      exact hunregister ⟨rest, hi⟩
    · rintro rfl
      exact hno ⟨i, _, hi, List.mem_cons_self⟩
  · exact e.elim

end Moves

/-! ## Ids are never reused -/

theorem Known.not_mem_connIds {w : State} {P : Frame → Prop} (hk : Known w P) (key : Str) :
    connId key w.seq ∉ w.connIds := by
  intro h
  obtain ⟨e, he, hid⟩ := List.mem_filterMap.1 h
  cases e with
  | issued l c => exact hk.not_issued_next key l (Option.some.inj hid ▸ he)
  | _ => cases hid

theorem reachable_connIds {p : Pool State (List Frame)} (h : registry.Reachable p) :
    p.shared.connIds.Nodup := by
  refine h.induct (I := fun p => p.shared.connIds.Nodup) List.nodup_nil ?_ ?_ ?_
  · intro p i stack _ hids _ _
    exact hids
  · intro p i choice stack w' stack' hp hids _ hact
    obtain ⟨f, rest, new, -, hstep, -⟩ := act_step hact
    rw [Pool.set_shared]
    rcases hstep.connIds with ⟨heq, -⟩ | ⟨key, heq, -⟩
    · rwa [heq]
    · rw [heq, ← List.concat_eq_append]
      exact hids.concat ((reachable_inv hp).known.not_mem_connIds key)
  · intro p e
    exact e.elim

/-! ## The main result -/

/-- A registration lasts until a call of `unregister_listener` or a failure of the instance. -/
theorem registered_until {before after : List (Move (List Frame) Choice Empty)}
    {p p' : Pool State (List Frame)} (hp : registry.run registry.start before = some p)
    (hp' : registry.run p after = some p') {key : Str} {l : Nat}
    (hl : p.shared.listeners key = some l) :
    p'.shared.listeners key = some l ∨ registry.Occurs (Unregisters key) p after ∨
      registry.Occurs (FailureOf l) registry.start (before ++ after) := by
  have hstep : ∀ q m q', registry.Reachable q ∧ ¬ Present q (.deactivateListenerInstance l) →
      ¬ FailureOf l q m → registry.move q m = some q' →
      registry.Reachable q' ∧ ¬ Present q' (.deactivateListenerInstance l) := by
    intro q m q' ⟨hq, hno⟩ hfail hmove
    exact ⟨hq.step hmove, not_deactivating_step hq hno hfail hmove⟩
  have hstart : ¬ Present registry.start (.deactivateListenerInstance l) := by
    rintro ⟨i, st, hst, -⟩
    cases hst
  rcases Object.run_until hstep before hp ⟨.start, hstart⟩ with hI | hfailed
  · have hstep' : ∀ q m q', (registry.Reachable q ∧ ¬ Present q (.deactivateListenerInstance l)) ∧
        q.shared.listeners key = some l → ¬ (Unregisters key q m ∨ FailureOf l q m) →
        registry.move q m = some q' →
        (registry.Reachable q' ∧ ¬ Present q' (.deactivateListenerInstance l)) ∧
          q'.shared.listeners key = some l := by
      intro q m q' ⟨hq, hql⟩ hno hmove
      obtain ⟨hunregister, hfail⟩ := not_or.1 hno
      exact ⟨hstep q m q' hq hfail hmove, listeners_step hql hq.2 hunregister hmove⟩
    rcases Object.run_until hstep' after hp' ⟨hI, hl⟩ with hI' | ⟨first, m, last, q, heq, hq, hP⟩
    · exact .inl hI'.2
    · rcases hP with hunregisters | hfails
      · exact .inr (.inl ⟨first, m, last, q, heq, hq, hunregisters⟩)
      · exact .inr (.inr (.of_after hp ⟨first, m, last, q, heq, hq, hfails⟩))
  · exact .inr (.inr (hfailed.of_before after))

/-- **No stale removal.** In every run, of what is registered after the part `before` of it: an
instance stays registered under its key, and active, to the end of the rest, unless a call of
`unregister_listener` takes effect in it or a failure of that very instance has been reported. A
report is about one instance, which the id of its connection determines; so one about an older
instance that had the key is none about the newer. A `register_listener` fails if and only if the
key is registered when it takes effect, and no connection id is produced twice, by a counter that wraps
as long as fewer than 2^64 are. -/
theorem no_stale_removal {before after : List (Move (List Frame) Choice Empty)}
    {p p' : Pool State (List Frame)} (hp : registry.run registry.start before = some p)
    (hp' : registry.run p after = some p') :
    (∀ key l, p.shared.listeners key = some l →
      (p'.shared.listeners key = some l ∧ p'.shared.isActive l = true) ∨
        registry.Occurs (Unregisters key) p after ∨
        registry.Occurs (FailureOf l) registry.start (before ++ after)) ∧
    (∀ l l' m, FailureOf l p m → FailureOf l' p m → l = l') ∧
    (∀ i key rest choice, p.tasks i = some (.registerListener key :: rest) →
      registry.move p (.act i choice) =
          some (p.set i (p.shared.registerListener key).1 (running rest)) ∧
        ((∃ message, (p.shared.registerListener key).2 = .error message) ↔
          ∃ l, p.shared.listeners key = some l)) ∧
    p'.shared.connIds.Nodup ∧
    ∀ q, wrapping.Reachable q → q.shared.connIds.length < UInt64.size → q.shared.connIds.Nodup := by
  have hreach := Object.reachable_of_run hp
  have hreach' := hreach.leads (Object.leads_of_run after hp')
  refine ⟨?_, ?_, ?_, reachable_connIds hreach',
    fun q hq hids => reachable_connIds (reachable_of_wrapping hq hids)⟩
  · intro key l hl
    refine (registered_until hp hp' hl).imp_left fun hl' => ⟨hl', ?_⟩
    exact (reachable_registered hreach').active key l hl'
  · intro l l' m h h'
    exact failureOf_unique (reachable_inv hreach) h h'
  · intro i key rest choice hi
    refine ⟨?_, State.registerListener_error_iff ..⟩
    simp only [Object.move, hi, registry, act, frameAct_registerListener, Option.map_some,
      List.nil_append]

/-- A key is registered again after its worker has gone, and then the old instance is reported. -/
def registeredAgain : List (Move (List Frame) Choice Empty) :=
  [.begin 0 [.registerListener ['k']], .act 0 .go, .begin 0 [.unregisterListener ['k']], .act 0 .go,
    .begin 1 [.registerListener ['k']], .act 1 .go]

def lateFailure : List (Move (List Frame) Choice Empty) :=
  [.begin 1 [.deactivateListenerInstance 0], .act 1 .go, .act 1 .go, .begin 2 [.registerListener ['k']]]

theorem no_stale_removal_lateFailure :
    ∃ p p', registry.run registry.start registeredAgain = some p ∧
      registry.run p lateFailure = some p' ∧ p.shared.listeners ['k'] = some 1 ∧
      ((p'.shared.listeners ['k'] = some 1 ∧ p'.shared.isActive 1 = true) ∨
        registry.Occurs (Unregisters ['k']) p lateFailure ∨
        registry.Occurs (FailureOf 1) registry.start (registeredAgain ++ lateFailure)) ∧
      p'.shared.listeners ['k'] = some 1 ∧ p'.shared.isActive 0 = false := by
  obtain ⟨p, hp, hl⟩ : ∃ p, registry.run registry.start registeredAgain = some p ∧
      p.shared.listeners ['k'] = some 1 := ⟨_, rfl, rfl⟩
  obtain ⟨p', hp', hl', hold⟩ : ∃ p', registry.run p lateFailure = some p' ∧
      p'.shared.listeners ['k'] = some 1 ∧ p'.shared.isActive 0 = false := by
    cases hp
    exact ⟨_, rfl, rfl, rfl⟩
  exact ⟨p, p', hp, hp', hl, (no_stale_removal hp hp').1 ['k'] 1 hl, hl', hold⟩

end Lonesome.VirtualJs.Registry
