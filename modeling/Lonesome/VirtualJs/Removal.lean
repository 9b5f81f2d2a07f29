import Lonesome.VirtualJs.NoOrphans

/-!
# The two removals of an id

`detach_socket_state` removes an id from `sockets` and then from the connections of its listener, in
two actions. Of an active listener, an id is attached without a socket entry only before its connect
has inserted it or while a detach is between the two (`Removal`), and at most one detach is
(`Removals`).
-/

namespace Lonesome.VirtualJs.Registry

open Lonesome.Interleaving

/-! ## What a frame does to the ids -/

/-- The ids stay as they are; listeners may be deactivated. -/
structure Fades (w w' : State) : Prop where
  sockets : w'.sockets = w.sockets
  active : ∀ l, w'.isActive l = true → w.isActive l = true
  connections : ∀ l, w'.isActive l = true → w'.connections l = w.connections l

theorem Fades.of_instances {w w' : State} (hs : w'.sockets = w.sockets)
    (hi : w'.instances = w.instances) : Fades w w' where
  sockets := hs
  active l h := by rwa [State.isActive, hi] at h
  connections l _ := by rw [State.connections, hi, State.connections]

/-- Frames ahead of which an id can be attached without a socket entry. -/
def Frame.isBetween : Frame → Bool
  | .connect _ (.insert _) | .detachConnection .. => true
  | _ => false

open Registry.Frame in
/-- One action of a frame, by what it does to the ids. -/
inductive KeyStep (w : State) : Frame → State → List Frame → Prop
  | attached {l : Nat} {c : Str} :
      KeyStep w (connect l (.attach c)) (w.attachConnection l c) [connect l (.insert c)]
  | inserted {l : Nat} {c : Str} :
      KeyStep w (connect l (.insert c)) (w.setSocket c (some l)) [connect l (.recheck c)]
  | detached {c : Str} {caller : Caller} {l : Nat} {history : List Event}
      (h : w.sockets c = some l) :
      KeyStep w (detachSocketState c caller) { w.setSocket c none with history := history }
        [detachConnection l c]
  | connectionDetached {l : Nat} {c : Str} :
      KeyStep w (detachConnection l c) (w.detachConnection l c) []
  | other {f : Frame} {w' : State} {new : List Frame} (hw : Fades w w')
      (hf : f.isBetween = false) (hnew : ∀ g ∈ new, g.isBetween = false) : KeyStep w f w' new

theorem FrameStep.keyStep {w w' : State} {P : Frame → Prop} {f : Frame} {new : List Frame}
    (h : FrameStep w f w' new) (hk : Known w P) (hf : Flow w P) (ht : P f) : KeyStep w f w' new := by
  cases h with
  | attached => exact .attached
  | inserted => exact .inserted
  | detached h => exact .detached h
  | connectionDetached => exact .connectionDetached
  | registered =>
    -- the instance is new, so nothing was attached to it and nobody has deactivated it
    refine .other ⟨rfl, fun l hl => ?_, fun l hl => ?_⟩ rfl (by simp)
    · by_contra hno
      have hlt := hk.inactive l (Bool.eq_false_iff.2 hno)
      change (State.setListener ..).isActive l = true at hl
      rw [State.isActive, State.instances_setListener, if_neg (Nat.ne_of_lt hlt)] at hl
      exact hno hl
    · change (State.setListener ..).connections l = w.connections l
      rw [State.connections, State.instances_setListener]
      split
      · next heq =>
        refine (Finset.eq_empty_iff_forall_notMem.2 fun c hc => ?_).symm
        have hlt := (hk.issued l c (hk.attached c l hc)).1
        exact Nat.ne_of_lt hlt heq
      · rfl
  | @stored l =>
    refine .other ⟨rfl, fun l' hl' => ?_, fun l' _ => State.connections_storeInactive ..⟩ rfl
      (by simp [Frame.isBetween])
    rw [State.isActive_storeInactive] at hl'
    split at hl'
    · cases hl'
    · exact hl'
  | @drained l cs hcs =>
    have hinactive := hf.deactivated l .drain ht (by simp)
    refine .other ⟨rfl, fun l' hl' => ?_, fun l' hl' => ?_⟩ rfl (by simp [Frame.isBetween])
    · rwa [State.isActive_drain] at hl'
    · rw [State.isActive_drain] at hl'
      rw [State.connections_drain, if_neg]
      rintro rfl
      rw [hinactive] at hl'
      cases hl'
  | _ => exact .other (.of_instances rfl rfl) rfl (by simp [Frame.isBetween])

/-- Of an active listener: a socket entry, or a detach that has removed it, has its id attached; and
an attached id has one of these, or is just being inserted. -/
structure Removal (w : State) (P : Frame → Prop) : Prop where
  attached : ∀ l c, w.isActive l = true → w.sockets c = some l → c ∈ w.connections l
  detaching : ∀ l c, w.isActive l = true → P (.detachConnection l c) → c ∈ w.connections l
  accounted : ∀ l c, w.isActive l = true → c ∈ w.connections l →
    w.sockets c = some l ∨ P (.connect l (.insert c)) ∨ P (.detachConnection l c)

namespace Removal

variable {w : State} {P P' : Frame → Prop} {l : Nat} {c : Str}

theorem attachConnection (hrem : Removal w P)
    (hr : Replaces P P' (.connect l (.attach c)) [.connect l (.insert c)]) :
    Removal (w.attachConnection l c) P' := by
  have hgrow (l' : Nat) (c' : Str) (hc' : c' ∈ w.connections l') :=
    (State.mem_connections_attachConnection (l := l) (c := c)).2 (.inr hc')
  refine ⟨fun l' c' hl' hs => ?_, fun l' c' hl' hd => ?_, fun l' c' hl' hc' => ?_⟩ <;>
    rw [State.isActive_attachConnection] at hl'
  · exact hgrow l' c' (hrem.attached l' c' hl' hs)
  · exact hgrow l' c' (hrem.detaching l' c' hl' ((hr.old _ hd).resolve_left (by simp)))
  · rcases State.mem_connections_attachConnection.1 hc' with ⟨rfl, rfl⟩ | hold
    · exact .inr (.inl (hr.pushed _ List.mem_cons_self))
    · refine (hrem.accounted l' c' hl' hold).imp_right (Or.imp ?_ ?_)
      · exact fun hg => (hr.kept _ hg).resolve_left (by simp)
      · exact fun hg => (hr.kept _ hg).resolve_left (by simp)

theorem insertSocket (hrem : Removal w P) (hf : Flow w P) (ht : P (.connect l (.insert c)))
    (hr : Replaces P P' (.connect l (.insert c)) [.connect l (.recheck c)]) :
    Removal (w.setSocket c (some l)) P' := by
  refine ⟨fun l' c' hl' hs => ?_, fun l' c' hl' hd => ?_, fun l' c' hl' hc' => ?_⟩
  · rw [State.sockets_setSocket] at hs
    split at hs
    · next hc =>
      cases hs
      rw [hc]
      refine (hf.inserting l c ht).resolve_right fun hinactive => ?_
      rw [show w.isActive l = true from hl'] at hinactive
      cases hinactive
    · exact hrem.attached l' c' hl' hs
  · exact hrem.detaching l' c' hl' ((hr.old _ hd).resolve_left (by simp))
  · rw [State.sockets_setSocket]
    rcases hrem.accounted l' c' hl' hc' with hs | hg | hg
    · split
      · next hc =>
        rw [hc, (hf.early l _ c ht rfl).1] at hs
        cases hs
      · exact .inl hs
    · rcases hr.kept _ hg with heq | hg'
      · cases heq
        exact .inl (if_pos rfl)
      · exact .inr (.inl hg')
    · exact .inr (.inr ((hr.kept _ hg).resolve_left (by simp)))

theorem removeSocket (hrem : Removal w P) {caller : Caller} {history : List Event}
    (h : w.sockets c = some l)
    (hr : Replaces P P' (.detachSocketState c caller) [.detachConnection l c]) :
    Removal { w.setSocket c none with history := history } P' := by
  refine ⟨fun l' c' hl' hs => ?_, fun l' c' hl' hd => ?_, fun l' c' hl' hc' => ?_⟩
  · change (w.setSocket c none).sockets c' = some l' at hs
    rw [State.sockets_setSocket] at hs
    split at hs
    · cases hs
    · exact hrem.attached l' c' hl' hs
  · rcases hr.old _ hd with hnew | hold
    · cases List.mem_singleton.1 hnew
      exact hrem.attached l c hl' h
    · exact hrem.detaching l' c' hl' hold
  · change (w.setSocket c none).sockets c' = some l' ∨ _
    rw [State.sockets_setSocket]
    rcases hrem.accounted l' c' hl' hc' with hs | hg | hg
    · split
      · next hc =>
        rw [hc, h, Option.some.injEq] at hs
        rw [hc, ← hs]
        exact .inr (.inr (hr.pushed _ List.mem_cons_self))
      · exact .inl hs
    · exact .inr (.inl ((hr.kept _ hg).resolve_left (by simp)))
    · exact .inr (.inr ((hr.kept _ hg).resolve_left (by simp)))

/-- The second removal: no other detach has its own of this id ahead. -/
theorem detachConnection (hrem : Removal w P) (hf : Flow w P) (ht : P (.detachConnection l c))
    (hr : Replaces P P' (.detachConnection l c) [])
    (honce : ∀ l', ¬ P' (.detachConnection l' c)) : Removal (w.detachConnection l c) P' := by
  have hkeep (l' : Nat) (c' : Str) (hc' : c' ∈ w.connections l') (hne : c' ≠ c) :
      c' ∈ (w.detachConnection l c).connections l' :=
    State.mem_connections_detachConnection.2 ⟨hc', fun h => hne h.2⟩
  refine ⟨fun l' c' hl' hs => ?_, fun l' c' hl' hd => ?_, fun l' c' hl' hc' => ?_⟩ <;>
    rw [State.isActive_detachConnection] at hl'
  · refine hkeep l' c' (hrem.attached l' c' hl' hs) ?_
    rintro rfl
    have hnone := hf.detaching l c' ht
    rw [show w.sockets c' = some l' from hs] at hnone
    cases hnone
  · refine hkeep l' c' (hrem.detaching l' c' hl' ((hr.old _ hd).resolve_left (by simp))) ?_
    rintro rfl
    exact honce l' hd
  · have hold := State.mem_connections_detachConnection.1 hc'
    refine (hrem.accounted l' c' hl' hold.1).imp_right (Or.imp ?_ ?_)
    · exact fun hg => (hr.kept _ hg).resolve_left (by simp)
    · intro hg
      refine (hr.kept _ hg).resolve_left fun heq => hold.2 ?_
      cases heq
      exact ⟨rfl, rfl⟩

theorem fade (hrem : Removal w P) {w' : State} (hw : Fades w w')
    (h : ∀ g : Frame, g.isBetween = true → (P' g ↔ P g)) : Removal w' P' := by
  refine ⟨fun l c hl hs => ?_, fun l c hl hd => ?_, fun l c hl hc => ?_⟩
  · rw [hw.connections l hl]
    exact hrem.attached l c (hw.active l hl) (hw.sockets ▸ hs)
  · rw [hw.connections l hl]
    exact hrem.detaching l c (hw.active l hl) ((h _ rfl).1 hd)
  · rw [hw.connections l hl] at hc
    rw [hw.sockets, h _ rfl, h _ rfl]
    exact hrem.accounted l c (hw.active l hl) hc

theorem step (hrem : Removal w P) (hf : Flow w P) {w' : State} {f : Frame} {new : List Frame}
    (h : KeyStep w f w' new) (ht : P f) (hr : Replaces P P' f new)
    (honce : ∀ l c, f = .detachConnection l c → ∀ l', ¬ P' (.detachConnection l' c)) :
    Removal w' P' := by
  cases h with
  | attached => exact hrem.attachConnection hr
  | inserted => exact hrem.insertSocket hf ht hr
  | detached h => exact hrem.removeSocket h hr
  | connectionDetached => exact hrem.detachConnection hf ht hr (honce _ _ rfl)
  | other hw hfrm hnew =>
    refine hrem.fade hw fun g hg => ⟨fun hpg => ?_, fun hpg => ?_⟩
    · refine (hr.old g hpg).resolve_left fun hmem => ?_
      rw [hnew g hmem] at hg
      cases hg
    · refine (hr.kept g hpg).resolve_left fun heq => ?_
      rw [heq, hfrm] at hg
      cases hg

end Removal

/-! ### in every run -/

def Frame.isDetachConnection : Frame → Bool
  | .detachConnection .. => true
  | _ => false

/-- The second removal of an id is ahead. -/
def Detaching (c : Str) (stack : List Frame) : Prop := ∃ l, .detachConnection l c ∈ stack

/-- The second removal comes next in its call, and an id has at most one ahead. -/
structure Removals (p : Pool State (List Frame)) : Prop where
  keys : Removal p.shared (Present p)
  top : p.All fun stack => ∀ f ∈ stack.tail, f.isDetachConnection = false
  once : ∀ c, p.AtMostOne (Detaching c)

theorem FrameStep.tail {w w' : State} {f : Frame} {new : List Frame} (h : FrameStep w f w' new) :
    ∀ g ∈ new.tail, g.isDetachConnection = false := by
  cases h <;> simp [Frame.isDetachConnection]

theorem FrameStep.detaching {w w' : State} {f : Frame} {new : List Frame} (h : FrameStep w f w' new)
    {c : Str} (hc : Detaching c new) : w.sockets c ≠ none := by
  obtain ⟨l, hmem⟩ := hc
  cases h with
  | detached hs =>
    cases List.mem_singleton.1 hmem
    simp [hs]
  | _ => simp at hmem

namespace Removals

variable {p : Pool State (List Frame)} {i : Nat} {f : Frame} {rest new : List Frame} {w' : State}

theorem top_act (hp : Removals p) (h : p.tasks i = some (f :: rest))
    (hstep : FrameStep p.shared f w' new) :
    ∀ g ∈ (new ++ rest).tail, g.isDetachConnection = false := by
  have hrest : ∀ g ∈ rest, g.isDetachConnection = false := hp.top i _ h
  intro g hg
  cases new with
  | nil => exact hrest g (List.mem_of_mem_tail hg)
  | cons g' new =>
    rcases List.mem_append.1 hg with hnew | hmem
    · exact hstep.tail g hnew
    · exact hrest g hmem

/-- After its second removal an id has none ahead. -/
theorem not_detaching (hp : Removals p) {l : Nat} {c : Str}
    (h : p.tasks i = some (.detachConnection l c :: rest))
    (hstep : FrameStep p.shared (.detachConnection l c) w' new) (l' : Nat) :
    ¬ Present (p.set i w' (running (new ++ rest))) (.detachConnection l' c) := by
  have hno : ¬ (p.set i w' (running (new ++ rest))).Any (Detaching c) := by
    refine (hp.once c).not_any_set h ⟨l, List.mem_cons_self⟩ ?_
    rintro st hst ⟨l'', hmem⟩
    cases hstep
    rw [running_eq_some hst] at hmem
    cases hp.top i _ h _ hmem
  rintro ⟨j, st, hst, hmem⟩
  exact hno ⟨j, st, hst, l', hmem⟩

theorem act (hp : Removals p) (hinv : Inv p) (h : p.tasks i = some (f :: rest))
    (hstep : FrameStep p.shared f w' new) : Removals (p.set i w' (running (new ++ rest))) where
  keys := by
    have ht : Present p f := ⟨i, _, h, List.mem_cons_self⟩
    refine hp.keys.step hinv.flow (hstep.keyStep hinv.known hinv.flow ht) ht (replaces_set h) ?_
    rintro l c rfl l'
    exact hp.not_detaching h hstep l'
  top := by
    refine hp.top.set (fun _ _ _ _ h => h) fun st hst => ?_
    rw [running_eq_some hst]
    exact hp.top_act h hstep
  once c := by
    by_cases hs : p.shared.sockets c = none
    · refine (hp.once c).set fun st hst hd => ⟨_, h, ?_⟩
      rw [running_eq_some hst] at hd
      obtain ⟨l, hmem⟩ := hd
      rcases List.mem_append.1 hmem with hnew | hrest
      · exact (hstep.detaching ⟨l, hnew⟩ hs).elim
      · exact ⟨l, List.mem_cons_of_mem f hrest⟩
    · refine Pool.atMostOne_set_of_not_any ?_
      rintro ⟨j, st, hst, l, hmem⟩
      exact hs (hinv.flow.detaching l c ⟨j, st, hst, hmem⟩)

theorem begin (hp : Removals p) {stack : List Frame} (h : p.tasks i = none)
    (hb : begins p.shared stack = true) : Removals (p.set i p.shared (some stack)) := by
  obtain ⟨g, rfl, hplain, -⟩ := begins_cases hb
  have hbetween : ∀ g' : Frame, g'.isBetween = true → g' ≠ g := by
    rintro g' hg' rfl
    unfold Frame.isBetween at hg'
    split at hg' <;> cases hg' <;> cases hplain
  refine ⟨hp.keys.fade (.of_instances rfl rfl) fun g' hg' => ⟨?_, ?_⟩, ?_, fun c => ?_⟩
  · rintro ⟨j, st, hst, hmem⟩
    rcases Pool.tasks_set_cases hst with ⟨-, hnew⟩ | ⟨-, hold⟩
    · cases hnew
      exact (hbetween g' hg' (List.mem_singleton.1 hmem)).elim
    · exact ⟨j, st, hold, hmem⟩
  · intro hpresent
    refine hpresent.set fun st hst => ?_
    rw [h] at hst
    cases hst
  · refine hp.top.set (fun _ _ _ _ h => h) fun st hst => ?_
    cases hst
    simp
  · refine (hp.once c).set fun st hst hd => ?_
    cases hst
    obtain ⟨l, hmem⟩ := hd
    exact (hbetween _ rfl (List.mem_singleton.1 hmem)).elim

end Removals

theorem reachable_removals {p : Pool State (List Frame)} (h : registry.Reachable p) : Removals p := by
  refine h.induct ?_ ?_ ?_ ?_
  · refine ⟨⟨?_, ?_, ?_⟩, ?_, ?_⟩ <;>
      simp [Object.start, registry, State.init, State.connections, Listener.new, Present, Pool.Any,
        Pool.All, Pool.AtMostOne]
  · intro p i stack _ hrem hfree hb
    exact hrem.begin hfree hb
  · intro p i choice stack w' stack' hp hrem hstack hact
    obtain ⟨f, rest, new, rfl, hstep, rfl⟩ := act_step hact
    exact hrem.act (reachable_inv hp) hstack hstep
  · intro p e
    exact e.elim

end Lonesome.VirtualJs.Registry
