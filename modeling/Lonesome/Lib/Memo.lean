import Lonesome.Lib.Interleaving
import Mathlib.Data.List.Basic

/-!
# A table of computed values

A table that remembers what a partial function gives for a key, shared by calls that hold no lock while
they compute. A call looks its key up; when there is nothing, it computes a value, builds an instance of
it and enters that, unless the key has been entered in the meantime: then it takes what is there. An
error is not remembered.

A call answers as the function does, and all calls of one key get the same instance (`sound`), which
stays in the table (`stays`).
-/

namespace Lonesome.Interleaving

/-- The key of a call, and what there is to compute for a key. -/
structure Memo (ω κ ν ε : Type) where
  key : ω → κ
  compute : κ → Except ε ν

namespace Memo

variable {ω κ ν ε : Type}

/-- A value as one of the calls built it: instances are numbered. -/
structure Instance (ν : Type) where
  value : ν
  number : Nat
  deriving DecidableEq

/-- The table, the number of instances ever built, and what the calls returned, in that order. -/
structure State (ω κ ν ε : Type) where
  table : κ → Option (Instance ν)
  built : Nat
  returned : List (ω × Except ε (Instance ν))

/-- A call before its lookup, before the computation, and with the instance that it has built. -/
inductive Task (ω ν : Type) where
  | probe (call : ω)
  | compute (call : ω)
  | enter (call : ω) (built : Instance ν)

def State.finish (s : State ω κ ν ε) (call : ω) (result : Except ε (Instance ν)) : State ω κ ν ε :=
  { s with returned := s.returned ++ [(call, result)] }

variable [DecidableEq κ]

def State.enter (s : State ω κ ν ε) (k : κ) (a : Instance ν) : State ω κ ν ε :=
  { s with table := Function.update s.table k (some a) }

variable (M : Memo ω κ ν ε)

def act (s : State ω κ ν ε) : Task ω ν → State ω κ ν ε × Option (Task ω ν)
  | .probe call =>
    match s.table (M.key call) with
    | some hit => (s.finish call (.ok hit), none)
    | none => (s, some (.compute call))
  | .compute call =>
    match M.compute (M.key call) with
    | .error e => (s.finish call (.error e), none)
    | .ok v => ({ s with built := s.built + 1 }, some (.enter call ⟨v, s.built⟩))
  | .enter call built =>
    match s.table (M.key call) with
    | some there => (s.finish call (.ok there), none)
    | none => ((s.enter (M.key call) built).finish call (.ok built), none)

/-- The table with its calls. -/
def object : Object (State ω κ ν ε) (Task ω ν) Unit Empty where
  initial := ⟨fun _ => none, 0, []⟩
  begins
    | _, .probe _ => true
    | _, _ => false
  act _ s t _ := some (M.act s t)
  env _ e := nomatch e

variable {M}

/-- What an action does: it returns the instance that is in the table, it goes on to compute, it returns
the error, it has built an instance, or it enters one. -/
theorem act_cases {s s' : State ω κ ν ε} {t : Task ω ν} {t' : Option (Task ω ν)}
    (h : M.act s t = (s', t')) :
    (∃ call hit, (t = .probe call ∨ ∃ a, t = .enter call a) ∧ s.table (M.key call) = some hit ∧
      s' = s.finish call (.ok hit) ∧ t' = none) ∨
    (∃ call, t = .probe call ∧ s.table (M.key call) = none ∧ s' = s ∧ t' = some (.compute call)) ∨
    (∃ call e, t = .compute call ∧ M.compute (M.key call) = .error e ∧
      s' = s.finish call (.error e) ∧ t' = none) ∨
    (∃ call v, t = .compute call ∧ M.compute (M.key call) = .ok v ∧
      s' = { s with built := s.built + 1 } ∧ t' = some (.enter call ⟨v, s.built⟩)) ∨
    (∃ call a, t = .enter call a ∧ s.table (M.key call) = none ∧ t' = none ∧
      s' = (s.enter (M.key call) a).finish call (.ok a)) := by
  cases t with
  | probe call =>
    cases hk : s.table (M.key call) with
    | some hit =>
      simp only [act, hk] at h
      cases h
      exact .inl ⟨call, hit, .inl rfl, hk, rfl, rfl⟩
    | none =>
      simp only [act, hk] at h
      cases h
      exact .inr (.inl ⟨call, rfl, hk, rfl, rfl⟩)
  | compute call =>
    cases hc : M.compute (M.key call) with
    | error e =>
      simp only [act, hc] at h
      cases h
      exact .inr (.inr (.inl ⟨call, e, rfl, hc, rfl, rfl⟩))
    | ok v =>
      simp only [act, hc] at h
      cases h
      exact .inr (.inr (.inr (.inl ⟨call, v, rfl, hc, rfl, rfl⟩)))
  | enter call a =>
    cases hk : s.table (M.key call) with
    | some there =>
      simp only [act, hk] at h
      cases h
      exact .inl ⟨call, there, .inr ⟨a, rfl⟩, hk, rfl, rfl⟩
    | none =>
      simp only [act, hk] at h
      cases h
      exact .inr (.inr (.inr (.inr ⟨call, a, rfl, hk, rfl, rfl⟩)))

/-! ## What the calls return -/

/-- What a call returned is what there is to compute; a value comes as the instance in the table. -/
def State.Answers (M : Memo ω κ ν ε) (s : State ω κ ν ε) (call : ω) : Except ε (Instance ν) → Prop
  | .error e => M.compute (M.key call) = .error e
  | .ok a => M.compute (M.key call) = .ok a.value ∧ s.table (M.key call) = some a

/-- An instance that is about to be entered is one of the value. -/
def Task.Built (M : Memo ω κ ν ε) : Task ω ν → Prop
  | .enter call a => M.compute (M.key call) = .ok a.value
  | _ => True

structure Sound (M : Memo ω κ ν ε) (p : Pool (State ω κ ν ε) (Task ω ν)) : Prop where
  table : ∀ k a, p.shared.table k = some a → M.compute k = .ok a.value
  tasks : p.All (Task.Built M)
  returned : ∀ call r, (call, r) ∈ p.shared.returned → p.shared.Answers M call r

/-- What has been entered stays. -/
theorem table_act {s s' : State ω κ ν ε} {t : Task ω ν} {t' : Option (Task ω ν)}
    (h : M.act s t = (s', t')) {k : κ} {a : Instance ν} (hk : s.table k = some a) :
    s'.table k = some a := by
  obtain ⟨_, _, -, -, rfl, -⟩ | ⟨_, -, -, rfl, -⟩ | ⟨_, _, -, -, rfl, -⟩ | ⟨_, _, -, -, rfl, -⟩ |
    ⟨call, b, -, hnone, -, rfl⟩ := act_cases h
  · exact hk
  · exact hk
  · exact hk
  · exact hk
  · have hne : k ≠ M.key call := by
      rintro rfl
      rw [hk] at hnone
      cases hnone
    show Function.update s.table (M.key call) (some b) k = some a
    rwa [Function.update_of_ne hne]

omit [DecidableEq κ] in
theorem State.Answers.mono {s s' : State ω κ ν ε} {call : ω} {r : Except ε (Instance ν)}
    (h : s.Answers M call r) (htable : ∀ k a, s.table k = some a → s'.table k = some a) :
    s'.Answers M call r := by
  cases r with
  | error e => exact h
  | ok a => exact ⟨h.1, htable _ a h.2⟩

omit [DecidableEq κ] in
/-- What is returned next is an answer too. -/
theorem Sound.finish {p : Pool (State ω κ ν ε) (Task ω ν)} (hp : Sound M p) {s : State ω κ ν ε}
    (hreturned : s.returned = p.shared.returned)
    (htable : ∀ k a, p.shared.table k = some a → s.table k = some a) {call : ω}
    {r : Except ε (Instance ν)} (hr : s.Answers M call r) :
    ∀ call' r', (call', r') ∈ (s.finish call r).returned → (s.finish call r).Answers M call' r' := by
  intro call' r' hmem
  rw [State.finish, List.mem_append, hreturned, List.mem_singleton] at hmem
  rcases hmem with hold | hnew
  · exact (hp.returned call' r' hold).mono htable
  · cases hnew
    exact hr

theorem Sound.act {p : Pool (State ω κ ν ε) (Task ω ν)} (hp : Sound M p) {i : Nat} {t : Task ω ν}
    (ht : p.tasks i = some t) {s' : State ω κ ν ε} {t' : Option (Task ω ν)}
    (h : M.act p.shared t = (s', t')) : Sound M (p.set i s' t') := by
  have hdone : (∀ u, t' = some u → u.Built M) → (p.set i s' t').All (Task.Built M) :=
    hp.tasks.set fun _ _ _ _ hu => hu
  obtain ⟨call, hit, -, hk, rfl, rfl⟩ | ⟨call, -, -, rfl, rfl⟩ | ⟨call, e, -, hc, rfl, rfl⟩ |
    ⟨call, v, -, hc, rfl, rfl⟩ | ⟨call, a, rfl, hk, rfl, rfl⟩ := act_cases h
  · have hhit : p.shared.Answers M call (.ok hit) := ⟨hp.table _ _ hk, hk⟩
    exact ⟨hp.table, hdone fun _ hu => (nomatch hu), hp.finish rfl (fun _ _ hk => hk) hhit⟩
  · refine ⟨hp.table, hdone fun u hu => ?_, hp.returned⟩
    cases hu
    trivial
  · exact ⟨hp.table, hdone fun _ hu => (nomatch hu), hp.finish rfl (fun _ _ hk => hk) hc⟩
  · refine ⟨hp.table, hdone fun u hu => ?_, fun call r hr => ?_⟩
    · cases hu
      exact hc
    · exact (hp.returned call r hr).mono fun _ _ hk => hk
  · have hbuilt : M.compute (M.key call) = .ok a.value := hp.tasks i _ ht
    refine ⟨fun k b hkb => ?_, hdone fun _ hu => (nomatch hu), ?_⟩
    · have hkb : Function.update p.shared.table (M.key call) (some a) k = some b := hkb
      by_cases hkey : k = M.key call
      · subst hkey
        rw [Function.update_self] at hkb
        cases hkb
        exact hbuilt
      · rw [Function.update_of_ne hkey] at hkb
        exact hp.table k b hkb
    · have hentered : (p.shared.enter (M.key call) a).Answers M call (.ok a) :=
        ⟨hbuilt, Function.update_self ..⟩
      refine hp.finish (s := p.shared.enter (M.key call) a) rfl (fun k b hkb => ?_) hentered
      exact table_act h hkb

/-- **Answers**: in every interleaving the calls return what the function gives, and the value of a key
always as the same instance. -/
theorem sound {p : Pool (State ω κ ν ε) (Task ω ν)} (h : M.object.Reachable p) : Sound M p := by
  refine Object.ReachableVia.invariant (O := M.object) (I := Sound M) ?_ ?_ ?_ ?_ h
  · exact ⟨fun _ _ hk => (nomatch hk), fun _ _ ht => (nomatch ht), fun _ _ hr => (nomatch hr)⟩
  · intro p i t hp _ _ hbegins
    refine ⟨hp.table, hp.tasks.set (fun _ _ _ _ ht => ht) fun t' ht => ?_, hp.returned⟩
    cases ht
    cases t with
    | enter call a => cases hbegins
    | _ => trivial
  · intro p i _ t s' t' hp _ ht hact
    exact hp.act ht (Option.some.inj hact)
  · intro p e
    exact nomatch e

theorem stays {p p' : Pool (State ω κ ν ε) (Task ω ν)} (h : M.object.Leads p p') {k : κ}
    {a : Instance ν} (hk : p.shared.table k = some a) : p'.shared.table k = some a := by
  induction h with
  | refl => exact hk
  | tail _ hstep ih =>
    obtain ⟨m, hm⟩ := hstep
    obtain ⟨_, _, -, -, -, rfl⟩ | ⟨_, _, _, _, _, -, -, hact, rfl⟩ | ⟨e, _⟩ := Object.move_cases hm
    · exact ih
    · exact table_act (Option.some.inj hact) ih
    · exact nomatch e

end Memo

end Lonesome.Interleaving
