import Lonesome.VirtualJs.ConnectionFlow

/-!
# No orphaned connection

A deactivation of a listener closes every connection made through it, however its steps interleave
with those of connects and detaches. In every run the frames ahead in the running calls (`Present`)
keep `Known` and `Flow`. When no deactivation and no connect for an inactive listener is left,
nobody is there to hold a socket entry, so there is none; and a connect that is still in flight does
not find one, so it fails (`no_orphaned_connection`).
-/

namespace Lonesome.VirtualJs.Registry

open Lonesome.Interleaving

/-! ## Frames ahead in a pool -/

/-- A running call has the frame on its stack. -/
def Present (p : Pool State (List Frame)) (f : Frame) : Prop := p.Any (f ∈ ·)

theorem running_eq_some {stack st : List Frame} (h : running stack = some st) : st = stack := by
  cases stack with
  | nil => cases h
  | cons f stack => exact (Option.some.inj h).symm

theorem present_of_mem {p : Pool State (List Frame)} {i : Nat} {w' : State} {stack : List Frame}
    {g : Frame} (h : g ∈ stack) : Present (p.set i w' (running stack)) g := by
  cases stack with
  | nil => cases h
  | cons f stack => exact Pool.any_set_self (t := f :: stack) h

theorem replaces_set {p : Pool State (List Frame)} {i : Nat} {f : Frame} {rest new : List Frame}
    {w' : State} (h : p.tasks i = some (f :: rest)) :
    Replaces (Present p) (Present (p.set i w' (running (new ++ rest)))) f new where
  old := by
    rintro g ⟨j, st, hst, hg⟩
    rcases Pool.tasks_set_cases hst with ⟨-, hnew⟩ | ⟨-, hold⟩
    · rw [running_eq_some hnew, List.mem_append] at hg
      refine hg.imp_right fun hrest => ?_
      exact ⟨i, _, h, List.mem_cons_of_mem f hrest⟩
    · exact .inr ⟨j, st, hold, hg⟩
  kept := by
    rintro g ⟨j, st, hst, hg⟩
    by_cases hj : j = i
    · rw [hj, h, Option.some.injEq] at hst
      rw [← hst] at hg
      refine (List.mem_cons.1 hg).imp_right fun hrest => ?_
      exact present_of_mem (List.mem_append_right new hrest)
    · exact .inr ⟨j, st, by rwa [Pool.set_tasks_of_ne p hj], hg⟩
  pushed := fun g hg => present_of_mem (List.mem_append_left rest hg)

/-! ## All runs -/

def Frame.isConnect : Frame → Bool
  | .connect .. => true
  | _ => false

/-- The id that a connect works on, also through the detach it has called. -/
def Frame.connId : Frame → Option Str
  | .connect _ pc => pc.connId
  | .detachSocketState c (.connect _) => some c
  | _ => none

def HasId (c : Str) (stack : List Frame) : Prop := ∃ f ∈ stack, f.connId = some c

/-- The invariant of all runs: the two of connections; a connect is at the bottom of its stack, and
fails after a detach it has called; an id is worked on by one connect. -/
structure Inv (p : Pool State (List Frame)) : Prop where
  known : Known p.shared (Present p)
  flow : Flow p.shared (Present p)
  bottom : p.All fun stack => ∀ f ∈ stack.dropLast, f.isConnect = false
  failing : p.All fun stack => ∀ c l, .detachSocketState c (.connect l) ∈ stack →
    .connect l .fail ∈ stack
  ids : ∀ c, p.AtMostOne (HasId c)

/-- Only a connect makes a connect, below whatever it calls. -/
theorem FrameStep.dropLast {w w' : State} {f : Frame} {new : List Frame}
    (h : FrameStep w f w' new) : ∀ g ∈ new.dropLast, g.isConnect = false := by
  cases h <;> simp [Frame.isConnect]

theorem FrameStep.not_isConnect {w w' : State} {f : Frame} {new : List Frame}
    (h : FrameStep w f w' new) (hf : f.isConnect = false) : ∀ g ∈ new, g.isConnect = false := by
  cases h with
  | checked | checkRefused | issued | attached | attachRefused | inserted | rechecked
  | recheckFailed | opened | openClosed | openFailed | cancelled | deactivated | finalChecked
  | finalCheckFailed | connected | notFound | failed => cases hf
  | _ => simp [Frame.isConnect]

theorem FrameStep.failing {w w' : State} {f : Frame} {new : List Frame} (h : FrameStep w f w' new)
    {c : Str} {l : Nat} (hc : .detachSocketState c (.connect l) ∈ new) :
    .connect l .fail ∈ new := by
  cases h <;> simp_all

/-- An id worked on after a step was so before it or has just been issued. -/
theorem FrameStep.connId {w w' : State} {f : Frame} {new : List Frame} (h : FrameStep w f w' new)
    {c : Str} (hc : HasId c new) : f.connId = some c ∨ ∃ key, c = Registry.connId key w.seq := by
  unfold HasId at hc
  cases h with
  | issued =>
    simp only [List.mem_singleton, exists_eq_left, Frame.connId, Connect.connId,
      Option.some.injEq] at hc
    exact .inr ⟨_, hc.symm⟩
  | attached | inserted | rechecked | recheckFailed | opened | openClosed | openFailed
  | deactivated | finalChecked | finalCheckFailed =>
    exact .inl (by simpa [Frame.connId, Connect.connId] using hc)
  | _ => simp [Frame.connId, Connect.connId] at hc

theorem begins_cases {w : State} {stack : List Frame} (h : begins w stack = true) :
    ∃ g, stack = [g] ∧ g.isPlain = true ∧ g.connId = none ∧
      (∀ l, g.listener = some l → l < w.created) ∧ ∀ l c, ¬ g.Names l c := by
  unfold begins at h
  split at h
  · exact ⟨_, rfl, rfl, rfl, by simp [Frame.listener], by simp [Frame.Names]⟩
  · exact ⟨_, rfl, rfl, rfl, by simp [Frame.listener], by simp [Frame.Names]⟩
  · exact ⟨_, rfl, rfl, rfl, by simp [Frame.listener], by simp [Frame.Names]⟩
  · exact ⟨_, rfl, rfl, rfl, by simp [Frame.listener], by simp [Frame.Names]⟩
  · next l =>
    have hl := of_decide_eq_true h
    exact ⟨_, rfl, rfl, rfl, by simpa [Frame.listener] using hl,
      by simp [Frame.Names, Connect.connId]⟩
  · next l =>
    have hl := of_decide_eq_true h
    exact ⟨_, rfl, rfl, rfl, by simpa [Frame.listener] using hl, by simp [Frame.Names]⟩
  · cases h

theorem Connect.connId_of_early {pc : Connect} {c : Str} (h : pc.early = some c) :
    pc.connId = some c := by
  cases pc with
  | attach c' => exact h
  | insert c' => exact h
  | _ => cases h

namespace Inv

variable {p : Pool State (List Frame)} {i : Nat} {f : Frame} {rest : List Frame}

theorem not_hasId_next (hp : Inv p) (key : Str) : ¬ p.Any (HasId (connId key p.shared.seq)) := by
  rintro ⟨j, st, hst, g, hg, hid⟩
  have hnext := hp.known.not_issued_next key
  have hnamed := hp.known.named g ⟨j, st, hst, hg⟩
  cases g with
  | connect l pc => exact hnext l (hnamed l _ ⟨rfl, hid⟩)
  | detachSocketState c caller =>
    cases caller with
    | connect l => exact hnext l (hnamed l _ ⟨rfl, Option.some.inj hid⟩)
    | api => cases hid
    | deactivate => cases hid
  | _ => cases hid

/-- A connect on top of its stack is alone. -/
theorem rest_eq_nil (hp : Inv p) (h : p.tasks i = some (f :: rest)) (hf : f.isConnect = true) :
    rest = [] := by
  cases rest with
  | nil => rfl
  | cons g rest =>
    have hno := hp.bottom i _ h f (by simp)
    rw [hf] at hno
    cases hno

theorem bottom_act (hp : Inv p) {w' : State} {new : List Frame} (h : p.tasks i = some (f :: rest))
    (hstep : FrameStep p.shared f w' new) :
    ∀ g ∈ (new ++ rest).dropLast, g.isConnect = false := by
  cases rest with
  | nil =>
    rw [List.append_nil]
    exact hstep.dropLast
  | cons r rest =>
    have hold := hp.bottom i _ h
    rw [List.dropLast_append_of_ne_nil (by simp)]
    intro g hg
    rcases List.mem_append.1 hg with hnew | hrest
    · exact hstep.not_isConnect (hold f (by simp)) g hnew
    · exact hold g (List.mem_cons_of_mem f hrest)

theorem failing_act (hp : Inv p) {w' : State} {new : List Frame}
    (h : p.tasks i = some (f :: rest)) (hstep : FrameStep p.shared f w' new) {c : Str} {l : Nat}
    (hc : .detachSocketState c (.connect l) ∈ new ++ rest) : .connect l .fail ∈ new ++ rest := by
  rcases List.mem_append.1 hc with hnew | hrest
  · exact List.mem_append_left _ (hstep.failing hnew)
  · rcases List.mem_cons.1 (hp.failing i _ h c l (List.mem_cons_of_mem f hrest)) with hf | hmem
    · rw [hp.rest_eq_nil h (hf ▸ rfl)] at hrest
      cases hrest
    · exact List.mem_append_right _ hmem

theorem ids_act (hp : Inv p) {w' : State} {new : List Frame} (h : p.tasks i = some (f :: rest))
    (hstep : FrameStep p.shared f w' new) (c : Str) :
    (p.set i w' (running (new ++ rest))).AtMostOne (HasId c) := by
  by_cases hc : ∃ key, c = connId key p.shared.seq
  · obtain ⟨key, rfl⟩ := hc
    exact Pool.atMostOne_set_of_not_any (hp.not_hasId_next key)
  · refine (hp.ids c).set fun st hst hid => ⟨_, h, ?_⟩
    rw [running_eq_some hst] at hid
    obtain ⟨g, hg, hgc⟩ := hid
    rcases List.mem_append.1 hg with hnew | hrest
    · exact ⟨f, List.mem_cons_self, (hstep.connId ⟨g, hnew, hgc⟩).resolve_right hc⟩
    · exact ⟨g, List.mem_cons_of_mem f hrest, hgc⟩

/-- A connect is at the bottom of its stack. -/
theorem stack_eq (hp : Inv p) {stack : List Frame} (h : p.tasks i = some stack) {g : Frame}
    (hg : g ∈ stack) (hc : g.isConnect = true) : stack = stack.dropLast ++ [g] := by
  have hsplit := List.dropLast_append_getLast (List.ne_nil_of_mem hg)
  rw [← hsplit, List.mem_append] at hg
  rcases hg with hg | hg
  · rw [hp.bottom i stack h g hg] at hc
    cases hc
  · rw [List.mem_singleton.1 hg, hsplit]

theorem connect_eq (hp : Inv p) {stack : List Frame} (h : p.tasks i = some stack) {g g' : Frame}
    (hg : g ∈ stack) (hg' : g' ∈ stack) (hc : g.isConnect = true) (hc' : g'.isConnect = true) :
    g = g' := by
  have hsplit := (hp.stack_eq h hg hc).symm.trans (hp.stack_eq h hg' hc')
  exact List.singleton_inj.1 (List.append_cancel_left hsplit)

/-- Two connects of one id are the same. -/
theorem connect_unique (hp : Inv p) {l l' : Nat} {pc pc' : Connect} {c : Str}
    (h : Present p (.connect l pc)) (h' : Present p (.connect l' pc')) (hc : pc.connId = some c)
    (hc' : pc'.connId = some c) : pc = pc' := by
  obtain ⟨j, st, hst, hmem⟩ := h
  obtain ⟨j', st', hst', hmem'⟩ := h'
  have hj := hp.ids c j j' st st' hst hst' ⟨_, hmem, hc⟩ ⟨_, hmem', hc'⟩
  rw [← hj, hst, Option.some.injEq] at hst'
  have heq := hp.connect_eq hst hmem (hst' ▸ hmem') rfl rfl
  exact (Frame.connect.inj heq).2

/-- Once a connect has inserted its id, no other one is about to. -/
theorem not_early_inserted (hp : Inv p) {w' : State} {new : List Frame} {l : Nat} {c : Str}
    (h : p.tasks i = some (.connect l (.insert c) :: rest))
    (hstep : FrameStep p.shared (.connect l (.insert c)) w' new) (l' : Nat) (pc : Connect)
    (hpc : Present (p.set i w' (running (new ++ rest))) (.connect l' pc)) : pc.early ≠ some c := by
  intro hearly
  obtain ⟨j, st, hst, hmem⟩ := hpc
  rcases Pool.tasks_set_cases hst with ⟨-, hnew⟩ | ⟨hj, hold⟩
  · rw [hp.rest_eq_nil h rfl, List.append_nil] at hnew
    rw [running_eq_some hnew] at hmem
    cases hstep
    rw [List.mem_singleton, Frame.connect.injEq] at hmem
    rw [hmem.2] at hearly
    cases hearly
  · refine hj (hp.ids c j i _ _ hold h ⟨_, hmem, Connect.connId_of_early hearly⟩ ?_)
    exact ⟨_, List.mem_cons_self, rfl⟩

theorem act (hp : Inv p) {w' : State} {new : List Frame} (h : p.tasks i = some (f :: rest))
    (hstep : FrameStep p.shared f w' new) : Inv (p.set i w' (running (new ++ rest))) := by
  have hr : Replaces (Present p) (Present (p.set i w' (running (new ++ rest)))) f new :=
    replaces_set h
  have ht : Present p f := ⟨i, _, h, List.mem_cons_self⟩
  refine ⟨known_step hp.known hstep ht hr, flow_step hp.known hp.flow hstep ht hr ?_, ?_, ?_,
    hp.ids_act h hstep⟩
  · rintro l c rfl l' pc hpc
    exact hp.not_early_inserted h hstep l' pc hpc
  · refine hp.bottom.set (fun _ _ _ _ h => h) fun st hst => ?_
    rw [running_eq_some hst]
    exact hp.bottom_act h hstep
  · refine hp.failing.set (fun _ _ _ _ h => h) fun st hst c l hc => ?_
    rw [running_eq_some hst] at hc ⊢
    exact hp.failing_act h hstep hc

/-- A call begins: its one frame is plain and at most names an instance that exists. -/
theorem begin (hp : Inv p) {stack : List Frame} (h : p.tasks i = none)
    (hb : begins p.shared stack = true) : Inv (p.set i p.shared (some stack)) := by
  obtain ⟨g, rfl, hplain, hid, hcreated, hnamed⟩ := begins_cases hb
  -- nothing is replaced, least of all a registration
  have hr : Replaces (Present p) (Present (p.set i p.shared (some [g]))) (.registerListener []) [g] := by
    constructor
    · rintro g' ⟨j, st, hst, hg'⟩
      rcases Pool.tasks_set_cases hst with ⟨-, hnew⟩ | ⟨-, hold⟩
      · cases hnew
        exact .inl hg'
      · exact .inr ⟨j, st, hold, hg'⟩
    · intro g' hg'
      refine .inr (hg'.set fun st hst => ?_)
      rw [h] at hst
      cases hst
    · intro g' hg'
      exact Pool.any_set_self (t := [g]) hg'
  refine ⟨hp.known.frames hr ?_ ?_, ?_, ?_, ?_, ?_⟩
  · simpa using hcreated
  · intro g' hg' l c hn
    exact (hnamed l c (List.mem_singleton.1 hg' ▸ hn)).elim
  · exact hp.flow.plain hr (by simp) (by simp [Frame.Releases]) (by simpa using hplain)
  · refine hp.bottom.set (fun _ _ _ _ h => h) fun st hst => ?_
    cases hst
    simp
  · refine hp.failing.set (fun _ _ _ _ h => h) fun st hst c l hc => ?_
    cases hst
    rw [← List.mem_singleton.1 hc] at hid
    cases hid
  · intro c
    refine (hp.ids c).set fun st hst hst' => ?_
    cases hst
    obtain ⟨g', hg', hc⟩ := hst'
    rw [List.mem_singleton.1 hg', hid] at hc
    cases hc

end Inv

theorem init_inv : Inv registry.start where
  known := by
    constructor <;> simp [Object.start, registry, State.init, State.connections, State.isActive,
      Listener.new, Present, Pool.Any]
  flow := by
    constructor <;> simp [Object.start, registry, State.init, State.isActive, Listener.new, Present,
      Pool.Any]
  bottom := by intro i st h; cases h
  failing := by intro i st h; cases h
  ids := by intro c i j a b h; cases h

theorem reachable_inv {p : Pool State (List Frame)} (h : registry.Reachable p) : Inv p := by
  refine h.invariant init_inv ?_ ?_ ?_
  · intro p i stack hp _ hfree hb
    exact hp.begin hfree hb
  · intro p i choice stack w' stack' hp _ hstack hact
    obtain ⟨f, rest, new, rfl, hstep, rfl⟩ := act_step hact
    exact hp.act hstack hstep
  · intro p e
    exact e.elim

/-! ## After a deactivation -/

/-- Frames of a deactivation of `l`, with the detach it has called. -/
def Frame.Deactivates (l : Nat) : Frame → Prop
  | .deactivateListenerInstance l' | .deactivateListener l' _ => l' = l
  | .detachSocketState _ (.deactivate l') => l' = l
  | _ => False

/-- Frames of a connect for `l`, with the detach it has called. -/
def Frame.Connects (l : Nat) : Frame → Prop
  | .connect l' _ => l' = l
  | .detachSocketState _ (.connect l') => l' = l
  | _ => False

/-- A deactivation of `l` is running. -/
def Deactivating (p : Pool State (List Frame)) (l : Nat) : Prop :=
  p.Any fun stack => ∃ f ∈ stack, f.Deactivates l

/-- A connect for `l` is in flight. -/
def Connecting (p : Pool State (List Frame)) (l : Nat) : Prop :=
  p.Any fun stack => ∃ f ∈ stack, f.Connects l

section Deactivated

variable {p : Pool State (List Frame)} {l : Nat}

theorem connections_eq_empty (hp : Inv p) (hl : p.shared.isActive l = false)
    (hd : ¬ Deactivating p l) : p.shared.connections l = ∅ := by
  rw [Finset.eq_empty_iff_forall_notMem]
  intro c hc
  obtain ⟨i, st, hst, hmem⟩ := hp.flow.draining l c hl hc
  exact hd ⟨i, st, hst, _, hmem, rfl⟩

/-- Only a connect of `c` itself still holds an entry of a deactivated listener. -/
theorem held_by_connect (hp : Inv p) (hl : p.shared.isActive l = false) (hd : ¬ Deactivating p l)
    {c : Str} (hs : p.shared.sockets c = some l) :
    Present p (.detachSocketState c (.connect l)) ∨ Present p (.connect l (.recheck c)) := by
  rcases hp.flow.held l c hs with hc | ⟨g, ⟨i, st, hst, hmem⟩, hrel⟩
  · rw [connections_eq_empty hp hl hd] at hc
    simp at hc
  · unfold Frame.Releases at hrel
    split at hrel
    · exact (hd ⟨i, st, hst, _, hmem, hrel.1⟩).elim
    · exact (hd ⟨i, st, hst, _, hmem, hrel.2⟩).elim
    · rw [hrel.1, hrel.2] at hmem
      exact .inl ⟨i, st, hst, hmem⟩
    · rw [hrel.1, hrel.2.1] at hmem
      exact .inr ⟨i, st, hst, hmem⟩
    · exact hrel.elim

theorem sockets_ne (hp : Inv p) (hl : p.shared.isActive l = false) (hd : ¬ Deactivating p l)
    (hc : ¬ Connecting p l) (c : Str) : p.shared.sockets c ≠ some l := by
  intro hs
  rcases held_by_connect hp hl hd hs with ⟨i, st, hst, hmem⟩ | ⟨i, st, hst, hmem⟩
  · exact hc ⟨i, st, hst, _, hmem, rfl⟩
  · exact hc ⟨i, st, hst, _, hmem, rfl⟩

/-- The listener is inactive, and a connect past its last check finds no entry. -/
structure Settled (p : Pool State (List Frame)) (l : Nat) : Prop where
  inactive : p.shared.isActive l = false
  absent : ∀ c, Present p (.connect l (.socketState c)) → p.shared.sockets c = none

theorem settled_of_deactivated (hp : Inv p) (hl : p.shared.isActive l = false)
    (hd : ¬ Deactivating p l) : Settled p l := by
  refine ⟨hl, fun c hc => ?_⟩
  cases hs : p.shared.sockets c with
  | none => rfl
  | some l' =>
    -- the entry belongs to the connect, which is neither detaching it nor about to check it
    have hown := hp.known.owner l' l c (hp.known.sockets c l' hs) (hp.known.named _ hc l c ⟨rfl, rfl⟩)
    rw [hown] at hs
    rcases held_by_connect hp hl hd hs with ⟨i, st, hst, hmem⟩ | hcheck
    · obtain ⟨j, st', hst', hmem'⟩ := hc
      have hij := hp.ids c i j st st' hst hst' ⟨_, hmem, rfl⟩ ⟨_, hmem', rfl⟩
      rw [← hij, hst, Option.some.injEq] at hst'
      have heq := hp.connect_eq hst (hst' ▸ hmem') (hp.failing i st hst c l hmem) rfl rfl
      cases heq
    · cases hp.connect_unique hc hcheck rfl rfl

end Deactivated

/-! ## Connects in flight -/

theorem FrameStep.isActive {w w' : State} {P : Frame → Prop} {f : Frame} {new : List Frame}
    (h : FrameStep w f w' new) (hk : Known w P) {l : Nat} (hl : w.isActive l = false) :
    w'.isActive l = false := by
  cases h with
  | registered =>
    have hne := Nat.ne_of_lt (hk.inactive l hl)
    rw [State.isActive, State.setRegistered, State.instances_setListener, if_neg hne]
    exact hl
  | attached => rw [State.isActive_attachConnection]; exact hl
  | connectionDetached => rw [State.isActive_detachConnection]; exact hl
  | drained => rw [State.isActive_drain]; exact hl
  | stored =>
    rw [State.isActive_storeInactive]
    split
    · rfl
    · exact hl
  | _ => exact hl

/-- An entry appears in `sockets` only as its connect inserts it. -/
theorem FrameStep.sockets_eq_none {w w' : State} {f : Frame} {new : List Frame}
    (h : FrameStep w f w' new) {c : Str} (hc : w.sockets c = none) :
    w'.sockets c = none ∨ ∃ l, f = .connect l (.insert c) := by
  cases h with
  | @inserted l c' =>
    rw [State.sockets_setSocket]
    split
    · next heq => exact .inr ⟨l, by rw [heq]⟩
    · exact .inl hc
  | @detached c' =>
    refine .inl ?_
    rw [State.sockets_setSocket]
    split
    · rfl
    · exact hc
  | _ => exact .inl hc

theorem FrameStep.not_socketState {w w' : State} {f : Frame} {new : List Frame}
    (h : FrameStep w f w' new) {l : Nat} (hl : w.isActive l = false) (c : Str) :
    .connect l (.socketState c) ∉ new := by
  cases h with
  | finalChecked ha =>
    intro hmem
    rw [List.mem_singleton, Frame.connect.injEq] at hmem
    rw [← hmem.1, hl] at ha
    cases ha
  | _ => simp

/-- The history grows, and a connect returns `Ok` only from its lookup, with an entry. -/
theorem FrameStep.logs {w w' : State} {f : Frame} {new : List Frame} (h : FrameStep w f w' new) :
    ∃ events, w'.history = w.history ++ events ∧ ∀ l c, .connected l c ∈ events →
      f = .connect l (.socketState c) ∧ w.sockets c ≠ none := by
  cases h with
  | checkRefused | issued | attachRefused | cancelled | notFound | failed | loopNext =>
    exact ⟨_, rfl, by simp⟩
  | @detached c caller l h =>
    refine ⟨_, rfl, ?_⟩
    cases caller <;> simp [Caller.logsDetached]
  | @connected l l' c h =>
    refine ⟨_, rfl, ?_⟩
    intro l₂ c₂ hmem
    rw [List.mem_singleton, Event.connected.injEq] at hmem
    rw [hmem.1, hmem.2, h]
    exact ⟨rfl, by simp⟩
  | _ => exact ⟨[], (List.append_nil _).symm, by simp⟩

theorem settled_step {p p' : Pool State (List Frame)} {l : Nat} (hp : Inv p) (hs : Settled p l)
    (hstep : registry.Step p p') :
    Settled p' l ∧ ∃ events, p'.shared.history = p.shared.history ++ events ∧
      ∀ c, Event.connected l c ∉ events := by
  obtain ⟨m, hmove⟩ := hstep
  obtain ⟨i, stack, rfl, hfree, hb, rfl⟩ | ⟨i, choice, stack, w', stack', rfl, hstack, hact, rfl⟩ |
    ⟨e, s', rfl, henv, rfl⟩ := Object.move_cases hmove
  · refine ⟨⟨hs.inactive, ?_⟩, [], (List.append_nil _).symm, by simp⟩
    rintro c ⟨j, st, hst, hmem⟩
    rcases Pool.tasks_set_cases hst with ⟨-, hnew⟩ | ⟨-, hold⟩
    · obtain ⟨g, rfl, -, hid, -⟩ := begins_cases hb
      cases hnew
      rw [← List.mem_singleton.1 hmem] at hid
      cases hid
    · exact hs.absent c ⟨j, st, hold, hmem⟩
  · obtain ⟨f, rest, new, rfl, hstep, rfl⟩ := act_step hact
    have hr : Replaces (Present p) (Present (p.set i w' (running (new ++ rest)))) f new :=
      replaces_set hstack
    have ht : Present p f := ⟨i, _, hstack, List.mem_cons_self⟩
    refine ⟨⟨hstep.isActive hp.known hs.inactive, fun c hc => ?_⟩, ?_⟩
    · have hold := (hr.old _ hc).resolve_left (hstep.not_socketState hs.inactive c)
      refine (hstep.sockets_eq_none (hs.absent c hold)).resolve_right ?_
      rintro ⟨l', rfl⟩
      cases hp.connect_unique hold ht rfl rfl
    · obtain ⟨events, hevents, hconn⟩ := hstep.logs
      refine ⟨events, hevents, fun c hc => ?_⟩
      obtain ⟨rfl, hsome⟩ := hconn l c hc
      exact hsome (hs.absent c ht)
  · exact e.elim

theorem settled_leads {p p' : Pool State (List Frame)} {l : Nat} (h : registry.Reachable p)
    (hs : Settled p l) (hleads : registry.Leads p p') :
    Settled p' l ∧ ∃ events, p'.shared.history = p.shared.history ++ events ∧
      ∀ c, Event.connected l c ∉ events := by
  induction hleads with
  | refl => exact ⟨hs, [], (List.append_nil _).symm, by simp⟩
  | tail hleads hstep ih =>
    obtain ⟨hs', events, hevents, hno⟩ := ih
    obtain ⟨hs'', events', hevents', hno'⟩ := settled_step (reachable_inv (h.leads hleads)) hs' hstep
    refine ⟨hs'', events ++ events', ?_, fun c hc => ?_⟩
    · rw [hevents', hevents, List.append_assoc]
    · exact (List.mem_append.1 hc).elim (hno c) (hno' c)

/-! ### They can run to their end -/

section Returns

variable {i : Nat} {rest : List Frame}

theorem leads_act {p : Pool State (List Frame)} {f : Frame} (h : p.tasks i = some (f :: rest))
    (choice : Choice) {w' : State} {new : List Frame}
    (hact : frameAct p.shared f choice = some (w', new)) :
    registry.Leads p (p.set i w' (running (new ++ rest))) := by
  refine Relation.ReflTransGen.single ⟨.act i choice, ?_⟩
  simp [Object.move, h, registry, act, hact]

/-- The call in slot `i` can return from its top frame. -/
def Returns (i : Nat) (p : Pool State (List Frame)) (rest : List Frame) : Prop :=
  ∃ p', registry.Leads p p' ∧ p'.tasks i = running rest

theorem Returns.trans {p : Pool State (List Frame)} {stack stack' : List Frame}
    (h : Returns i p stack) (h' : ∀ p', p'.tasks i = running stack → Returns i p' stack') :
    Returns i p stack' := by
  obtain ⟨p₁, hleads, hp₁⟩ := h
  obtain ⟨p₂, hleads', hp₂⟩ := h' p₁ hp₁
  exact ⟨p₂, hleads.trans hleads', hp₂⟩

theorem returns_act {p : Pool State (List Frame)} {f : Frame} (h : p.tasks i = some (f :: rest))
    (choice : Choice) (new : List Frame)
    (hact : ∃ w', frameAct p.shared f choice = some (w', new)) : Returns i p (new ++ rest) := by
  obtain ⟨w', hact⟩ := hact
  exact ⟨_, leads_act h choice hact, Pool.set_tasks_self ..⟩

theorem returns_detachConnection {p : Pool State (List Frame)} {l : Nat} {c : Str}
    (h : p.tasks i = some (.detachConnection l c :: rest)) : Returns i p rest :=
  returns_act h .go [] ⟨_, rfl⟩

theorem returns_detachSocketState {p : Pool State (List Frame)} {c : Str} {caller : Caller}
    (h : p.tasks i = some (.detachSocketState c caller :: rest)) : Returns i p rest := by
  cases hs : p.shared.sockets c with
  | none => exact returns_act h .go [] (by simp [frameAct, hs])
  | some l =>
    have hact := returns_act h .go [.detachConnection l c] (by simp [frameAct, hs])
    exact hact.trans fun p' hp' => returns_detachConnection hp'

theorem returns_loop {p : Pool State (List Frame)} {l : Nat} (cs : List Str)
    (h : p.tasks i = some (.deactivateListener l (.loop cs) :: rest)) : Returns i p rest := by
  induction cs generalizing p with
  | nil => exact returns_act h .go [] ⟨_, rfl⟩
  | cons c cs ih =>
    have hact := returns_act h .go
      [.detachSocketState c (.deactivate l), .deactivateListener l (.loop cs)] ⟨_, rfl⟩
    refine hact.trans fun p₁ hp₁ => ?_
    exact (returns_detachSocketState hp₁).trans fun p₂ hp₂ => ih hp₂

theorem returns_deactivateListener {p : Pool State (List Frame)} {l : Nat} {pc : Deactivate}
    (h : p.tasks i = some (.deactivateListener l pc :: rest)) : Returns i p rest := by
  have hdrain : ∀ p : Pool State (List Frame),
      p.tasks i = some (.deactivateListener l .drain :: rest) → Returns i p rest := by
    intro p h
    have hcs : p.shared.Drains l (p.shared.connections l).toList :=
      ⟨Finset.nodup_toList _, by simp, fun c hc _ => Finset.mem_toList.2 hc⟩
    have hact := returns_act h (.drained (p.shared.connections l).toList)
      [.deactivateListener l (.loop (p.shared.connections l).toList)]
      (by simp [frameAct, deactivateAct, hcs])
    exact hact.trans fun p' hp' => returns_loop _ hp'
  cases pc with
  | store =>
    have hact := returns_act h .go [.deactivateListener l .drain] ⟨_, rfl⟩
    exact hact.trans fun p' hp' => hdrain p' hp'
  | drain => exact hdrain p h
  | loop cs => exact returns_loop cs h

theorem returns_deactivateListenerInstance {p : Pool State (List Frame)} {l : Nat}
    (h : p.tasks i = some (.deactivateListenerInstance l :: rest)) : Returns i p rest := by
  have hact := returns_act h .go [.deactivateListener l .store] (by
    by_cases hl : p.shared.listeners (p.shared.instances l).key = some l <;> simp [frameAct, hl])
  exact hact.trans fun p' hp' => returns_deactivateListener hp'

/-- Every frame but a connect can return. -/
theorem returns_of_not_isConnect {p : Pool State (List Frame)} {f : Frame}
    (hf : f.isConnect = false) (h : p.tasks i = some (f :: rest)) : Returns i p rest := by
  cases f with
  | connect l pc => cases hf
  | detachSocketState c caller => exact returns_detachSocketState h
  | detachConnection l c => exact returns_detachConnection h
  | deactivateListenerInstance l => exact returns_deactivateListenerInstance h
  | deactivateListener l pc => exact returns_deactivateListener h
  | registerListener key =>
    cases hl : p.shared.listeners key with
    | none => exact returns_act h .go [] (by simp [frameAct, hl])
    | some l => exact returns_act h .go [] (by simp [frameAct, hl])
  | unregisterListener key =>
    cases hl : p.shared.listeners key with
    | none => exact returns_act h .go [] (by simp [frameAct, hl])
    | some l =>
      have hact := returns_act h .go [.deactivateListener l .store] (by simp [frameAct, hl])
      exact hact.trans fun p' hp' => returns_deactivateListener hp'
  | deactivateSocketListener c =>
    cases hs : p.shared.sockets c with
    | none => exact returns_act h .go [] (by simp [frameAct, hs])
    | some l =>
      have hact := returns_act h .go [.deactivateListenerInstance l] (by simp [frameAct, hs])
      exact hact.trans fun p' hp' => returns_deactivateListenerInstance hp'

theorem returns_append {p : Pool State (List Frame)} (above : List Frame)
    (hf : ∀ f ∈ above, f.isConnect = false) (h : p.tasks i = running (above ++ rest)) :
    Returns i p rest := by
  induction above generalizing p with
  | nil => exact ⟨p, .refl, h⟩
  | cons f above ih =>
    have hret : Returns i p (above ++ rest) := returns_of_not_isConnect (hf f List.mem_cons_self) h
    exact hret.trans fun p' hp' => ih (fun g hg => hf g (List.mem_cons_of_mem f hg)) hp'

end Returns

/-! ### and fail there -/

/-- The call in slot `i` can return, with a connect for `l` having failed. -/
def Fails (i l : Nat) (p : Pool State (List Frame)) : Prop :=
  ∃ p', registry.Leads p p' ∧ p'.tasks i = none ∧
    ∃ events, p'.shared.history = p.shared.history ++ events ∧ Event.failed l ∈ events

section Fails

variable {i l : Nat} {p : Pool State (List Frame)}

theorem Fails.of_returns {stack : List Frame} (h : registry.Reachable p) (hs : Settled p l)
    (hret : Returns i p stack)
    (hfails : ∀ p', registry.Reachable p' → Settled p' l → p'.tasks i = running stack →
      Fails i l p') : Fails i l p := by
  obtain ⟨p₁, hleads, hp₁⟩ := hret
  obtain ⟨hs₁, events, hevents, -⟩ := settled_leads h hs hleads
  obtain ⟨p₂, hleads', hp₂, events', hevents', hmem⟩ := hfails p₁ (h.leads hleads) hs₁ hp₁
  refine ⟨p₂, hleads.trans hleads', hp₂, events ++ events', ?_, List.mem_append_right _ hmem⟩
  rw [hevents', hevents, List.append_assoc]

theorem fails_now {f : Frame} (h : p.tasks i = some [f])
    (hact : frameAct p.shared f .go = some (p.shared.log (.failed l), [])) : Fails i l p :=
  ⟨_, leads_act h .go hact, Pool.set_tasks_self .., [.failed l], rfl, List.mem_cons_self⟩

theorem fails_detach {c : Str} (h : registry.Reachable p) (hs : Settled p l)
    (ht : p.tasks i = some [.detachSocketState c (.connect l), .connect l .fail]) : Fails i l p :=
  Fails.of_returns h hs (returns_detachSocketState ht) fun _ _ _ hp' => fails_now hp' rfl

theorem fails_finalCheck {c : Str} (h : registry.Reachable p) (hs : Settled p l)
    (ht : p.tasks i = some [.connect l (.finalCheck c)]) : Fails i l p := by
  have hact := returns_act ht .go [.detachSocketState c (.connect l), .connect l .fail]
    (by simp [frameAct, connectAct, hs.inactive])
  exact Fails.of_returns h hs hact fun _ h' hs' hp' => fails_detach h' hs' hp'

theorem fails_openEvent {c : Str} (h : registry.Reachable p) (hs : Settled p l)
    (ht : p.tasks i = some [.connect l (.openEvent c)]) : Fails i l p := by
  have hact := returns_act ht .go [.connect l (.finalCheck c)] ⟨_, rfl⟩
  exact Fails.of_returns h hs hact fun _ h' hs' hp' => fails_finalCheck h' hs' hp'

theorem fails_recheck {c : Str} (h : registry.Reachable p) (hs : Settled p l)
    (ht : p.tasks i = some [.connect l (.recheck c)]) : Fails i l p := by
  cases ha : (p.shared.sockets c).any p.shared.isActive with
  | true =>
    have hact := returns_act ht .go [.connect l (.openEvent c)] (by simp [frameAct, connectAct, ha])
    exact Fails.of_returns h hs hact fun _ h' hs' hp' => fails_openEvent h' hs' hp'
  | false =>
    have hact := returns_act ht .go [.detachSocketState c (.connect l), .connect l .fail]
      (by simp [frameAct, connectAct, ha])
    exact Fails.of_returns h hs hact fun _ h' hs' hp' => fails_detach h' hs' hp'

theorem fails_attach {c : Str} (hs : Settled p l)
    (ht : p.tasks i = some [.connect l (.attach c)]) : Fails i l p :=
  fails_now ht (by simp [frameAct, connectAct, hs.inactive])

/-- A connect for a listener that is settled can run to its end, where it fails. -/
theorem fails_connect {pc : Connect} (h : registry.Reachable p) (hs : Settled p l)
    (ht : p.tasks i = some [.connect l pc]) : Fails i l p := by
  cases pc with
  | check => exact fails_now ht (by simp [frameAct, connectAct, hs.inactive])
  | nextConnId =>
    have hact := returns_act ht .go [.connect l (.attach (connId (p.shared.instances l).key
      p.shared.seq))] ⟨_, rfl⟩
    exact Fails.of_returns h hs hact fun _ _ hs' hp' => fails_attach hs' hp'
  | attach c => exact fails_attach hs ht
  | insert c =>
    have hact := returns_act ht .go [.connect l (.recheck c)] ⟨_, rfl⟩
    exact Fails.of_returns h hs hact fun _ h' hs' hp' => fails_recheck h' hs' hp'
  | recheck c => exact fails_recheck h hs ht
  | openEvent c => exact fails_openEvent h hs ht
  | deactivated c =>
    have hact := returns_act ht .go [.detachSocketState c (.connect l), .connect l .fail] ⟨_, rfl⟩
    exact Fails.of_returns h hs hact fun _ h' hs' hp' => fails_detach h' hs' hp'
  | finalCheck c => exact fails_finalCheck h hs ht
  | socketState c =>
    have hnone := hs.absent c ⟨i, _, ht, List.mem_cons_self⟩
    exact fails_now ht (by simp [frameAct, connectAct, hnone])
  | fail => exact fails_now ht rfl

theorem fails_of_connects (h : registry.Reachable p) (hs : Settled p l) {stack : List Frame}
    (ht : p.tasks i = some stack) (hc : ∃ f ∈ stack, f.Connects l) : Fails i l p := by
  have hp := reachable_inv h
  obtain ⟨pc, hmem⟩ : ∃ pc, .connect l pc ∈ stack := by
    obtain ⟨f, hf, hfc⟩ := hc
    unfold Frame.Connects at hfc
    split at hfc
    · next pc =>
      rw [hfc] at hf
      exact ⟨pc, hf⟩
    · next c l' =>
      rw [hfc] at hf
      exact ⟨.fail, hp.failing i stack ht c l hf⟩
    · exact hfc.elim
  have hret : Returns i p [.connect l pc] := by
    refine returns_append stack.dropLast (hp.bottom i stack ht) ?_
    rw [← hp.stack_eq ht hmem rfl, ht]
    cases stack with
    | nil => cases hmem
    | cons f stack => rfl
  exact Fails.of_returns h hs hret fun _ h' hs' hp' => fails_connect h' hs' hp'

end Fails

/-- **No orphaned connection.** In every reachable state, of a listener that is inactive with no
deactivation of it running: if no connect for it is in flight, `sockets` has no entry of it, no
connection is attached to it, and every connection made through it has been aborted unless it was
detached; and a connect that is in flight, in whatever interleaving, never returns `Ok`, and can run
to its end, where it has failed. -/
theorem no_orphaned_connection {p : Pool State (List Frame)} {l : Nat} (h : registry.Reachable p)
    (hl : p.shared.isActive l = false) (hd : ¬ Deactivating p l) :
    (¬ Connecting p l →
      (∀ c, p.shared.sockets c ≠ some l) ∧ p.shared.connections l = ∅ ∧
      ∀ c, Event.connected l c ∈ p.shared.history →
        Event.aborted c ∈ p.shared.history ∨ Event.detached c ∈ p.shared.history) ∧
    (∀ p' c, registry.Leads p p' → Event.connected l c ∈ p'.shared.history →
      Event.connected l c ∈ p.shared.history) ∧
    ∀ i stack, p.tasks i = some stack → (∃ f ∈ stack, f.Connects l) → Fails i l p := by
  have hp := reachable_inv h
  have hs := settled_of_deactivated hp hl hd
  refine ⟨fun hc => ?_, ?_, fun i stack ht hc => fails_of_connects h hs ht hc⟩
  · have hsockets := sockets_ne hp hl hd hc
    refine ⟨hsockets, connections_eq_empty hp hl hd, fun c hconn => ?_⟩
    rcases hp.flow.closed l c hconn with ha | hdet | hsock
    · exact .inl ha
    · exact .inr hdet
    · exact (hsockets c hsock).elim
  · intro p' c hleads hconn
    obtain ⟨-, events, hevents, hno⟩ := settled_leads h hs hleads
    rw [hevents, List.mem_append] at hconn
    exact hconn.resolve_right (hno c)

/-- A listener is registered, connected to and unregistered, one call after the other. -/
def connectThenUnregister : List (Move (List Frame) Choice Empty) :=
  [.begin 0 [.registerListener ['k']], .act 0 .go] ++
  .begin 0 [.connect 0 .check] :: List.replicate 8 (.act 0 .go) ++
  .begin 0 [.unregisterListener ['k']] :: List.replicate 2 (.act 0 .go) ++
  .act 0 (.drained [connId ['k'] 0]) :: List.replicate 4 (.act 0 .go)

theorem no_orphaned_connection_unregistered :
    ∃ p, registry.Reachable p ∧ p.shared.isActive 0 = false ∧
      Event.connected 0 (connId ['k'] 0) ∈ p.shared.history ∧
      (∀ c, p.shared.sockets c ≠ some 0) ∧ p.shared.connections 0 = ∅ ∧
      (Event.aborted (connId ['k'] 0) ∈ p.shared.history ∨
        Event.detached (connId ['k'] 0) ∈ p.shared.history) := by
  obtain ⟨p, hrun, htask, hl, hconn⟩ : ∃ p,
      registry.run registry.start connectThenUnregister = some p ∧ p.tasks 0 = none ∧
        p.shared.isActive 0 = false ∧ Event.connected 0 (connId ['k'] 0) ∈ p.shared.history :=
    ⟨_, rfl, rfl, rfl, List.mem_cons_of_mem _ List.mem_cons_self⟩
  have hreach := Object.Reachable.leads (O := registry) .start
    (Object.leads_of_run connectThenUnregister hrun)
  have hfree : ∀ j, p.tasks j = none := by
    intro j
    by_cases hj : j = 0
    · rw [hj, htask]
    · refine Object.tasks_eq_none_of_run connectThenUnregister hrun rfl ?_
      intro i t hmem
      simp [connectThenUnregister] at hmem
      omega
  have hidle : ∀ Q, ¬ p.Any Q := by
    rintro Q ⟨j, st, hst, -⟩
    rw [hfree j] at hst
    cases hst
  obtain ⟨hsockets, hempty, hclosed⟩ := (no_orphaned_connection hreach hl (hidle _)).1 (hidle _)
  exact ⟨p, hreach, hl, hconn, hsockets, hempty, hclosed _ hconn⟩

end Lonesome.VirtualJs.Registry
