import Mathlib.Logic.Function.Basic
import Mathlib.Logic.Relation

/-!
# Interleaved calls on a shared object

A shared object is a state and the calls running on it. A call is a task that advances by atomic
actions on the state; the tasks of a pool run in any interleaving, new calls begin in free slots,
and the surroundings may change the state too. An action takes a choice, which stands for whatever
the object does not control (the order of a map, the answer of a callback).

Everything is a guarded function of the pool and the next move, so that a schedule can be run
(`Object.run`). An invariant is proved from one case for each kind of move
(`ReachableVia.invariant`), and from facts about single tasks by `Pool.All` and `Pool.Any`.
-/

namespace Lonesome.Interleaving

/-- The shared state and the call running in each slot. -/
structure Pool (σ τ : Type) where
  shared : σ
  tasks : Nat → Option τ

/-- A call begins in a free slot, the call in a slot acts, or the surroundings act. -/
inductive Move (τ κ ε : Type)
  | begin (i : Nat) (t : τ)
  | act (i : Nat) (choice : κ)
  | env (e : ε)

/-- An object: which calls may begin, what the next action of a call does to the state and to the
call itself (`none` once it has returned), and what the surroundings do. -/
structure Object (σ τ κ ε : Type) where
  initial : σ
  begins : Pool σ τ → τ → Bool
  act : Nat → σ → τ → κ → Option (σ × Option τ)
  env : σ → ε → Option σ

variable {σ τ κ ε : Type}

namespace Pool

/-- The pool after the call in slot `i` acted. -/
def set (p : Pool σ τ) (i : Nat) (s' : σ) (t' : Option τ) : Pool σ τ :=
  ⟨s', Function.update p.tasks i t'⟩

@[simp] theorem set_shared (p : Pool σ τ) (i : Nat) (s' : σ) (t' : Option τ) :
    (p.set i s' t').shared = s' := rfl

@[simp] theorem set_tasks_self (p : Pool σ τ) (i : Nat) (s' : σ) (t' : Option τ) :
    (p.set i s' t').tasks i = t' := Function.update_self ..

theorem set_tasks_of_ne (p : Pool σ τ) {i j : Nat} (h : j ≠ i) (s' : σ) (t' : Option τ) :
    (p.set i s' t').tasks j = p.tasks j := Function.update_of_ne h ..

/-- The task in a slot is the one just written, or an old one of another slot. -/
theorem tasks_set_cases {p : Pool σ τ} {i j : Nat} {s' : σ} {t' : Option τ} {t : τ}
    (h : (p.set i s' t').tasks j = some t) : (j = i ∧ t' = some t) ∨ (j ≠ i ∧ p.tasks j = some t) := by
  by_cases hj : j = i
  · subst hj
    exact .inl ⟨rfl, by simpa using h⟩
  · exact .inr ⟨hj, by rwa [set_tasks_of_ne p hj] at h⟩

/-- Every running call satisfies `A`. -/
def All (A : τ → Prop) (p : Pool σ τ) : Prop :=
  ∀ i t, p.tasks i = some t → A t

/-- Some running call satisfies `Q`. -/
def Any (Q : τ → Prop) (p : Pool σ τ) : Prop :=
  ∃ i t, p.tasks i = some t ∧ Q t

theorem All.set {A B : τ → Prop} {p : Pool σ τ} {i : Nat} {s' : σ} {t' : Option τ} (h : p.All A)
    (hothers : ∀ j t, j ≠ i → p.tasks j = some t → A t → B t) (hnew : ∀ t, t' = some t → B t) :
    (p.set i s' t').All B := by
  intro j t ht
  rcases tasks_set_cases ht with ⟨-, ht⟩ | ⟨hj, ht⟩
  · exact hnew t ht
  · exact hothers j t hj ht (h j t ht)

/-- `Any` survives an action of a call that passes `Q` on, and of every call without it. -/
theorem Any.set {Q : τ → Prop} {p : Pool σ τ} {i : Nat} {s' : σ} {t' : Option τ} (h : p.Any Q)
    (hi : ∀ t, p.tasks i = some t → Q t → ∃ t₂, t' = some t₂ ∧ Q t₂) : (p.set i s' t').Any Q := by
  obtain ⟨j, t, ht, hQ⟩ := h
  by_cases hj : j = i
  · subst hj
    obtain ⟨t₂, rfl, hQ₂⟩ := hi t ht hQ
    exact ⟨j, t₂, set_tasks_self .., hQ₂⟩
  · exact ⟨j, t, by rwa [set_tasks_of_ne p hj], hQ⟩

/-- A call with `Q` after a move stands for one before it in the same slot, if the new call does. -/
theorem of_tasks_set {Q : τ → Prop} {p : Pool σ τ} {i j : Nat} {s' : σ} {t' : Option τ} {t : τ}
    (hi : ∀ t₂, t' = some t₂ → Q t₂ → ∃ t₁, p.tasks i = some t₁ ∧ Q t₁)
    (ht : (p.set i s' t').tasks j = some t) (hQ : Q t) : ∃ t₁, p.tasks j = some t₁ ∧ Q t₁ := by
  rcases tasks_set_cases ht with ⟨hj, hnew⟩ | ⟨-, hold⟩
  · rw [hj]
    exact hi t hnew hQ
  · exact ⟨t, hold, hQ⟩

theorem Any.of_set {Q : τ → Prop} {p : Pool σ τ} {i : Nat} {s' : σ} {t' : Option τ}
    (h : (p.set i s' t').Any Q)
    (hi : ∀ t₂, t' = some t₂ → Q t₂ → ∃ t₁, p.tasks i = some t₁ ∧ Q t₁) : p.Any Q := by
  obtain ⟨j, t, ht, hQ⟩ := h
  obtain ⟨t₁, ht₁, hQ₁⟩ := of_tasks_set hi ht hQ
  exact ⟨j, t₁, ht₁, hQ₁⟩

/-- At most one running call satisfies `Q`. -/
def AtMostOne (Q : τ → Prop) (p : Pool σ τ) : Prop :=
  ∀ i j a b, p.tasks i = some a → p.tasks j = some b → Q a → Q b → i = j

theorem AtMostOne.set {Q : τ → Prop} {p : Pool σ τ} {i : Nat} {s' : σ} {t' : Option τ}
    (h : p.AtMostOne Q) (hi : ∀ t₂, t' = some t₂ → Q t₂ → ∃ t₁, p.tasks i = some t₁ ∧ Q t₁) :
    (p.set i s' t').AtMostOne Q := by
  intro j k a b ha hb hQa hQb
  obtain ⟨a₁, ha₁, hQa₁⟩ := of_tasks_set hi ha hQa
  obtain ⟨b₁, hb₁, hQb₁⟩ := of_tasks_set hi hb hQb
  exact h j k a₁ b₁ ha₁ hb₁ hQa₁ hQb₁

/-- A first call with `Q`. -/
theorem atMostOne_set_of_not_any {Q : τ → Prop} {p : Pool σ τ} {i : Nat} {s' : σ} {t' : Option τ}
    (h : ¬ p.Any Q) : (p.set i s' t').AtMostOne Q := by
  have hslot : ∀ j t, (p.set i s' t').tasks j = some t → Q t → j = i := by
    intro j t ht hQ
    rcases tasks_set_cases ht with ⟨hj, -⟩ | ⟨-, hold⟩
    · exact hj
    · exact (h ⟨j, t, hold, hQ⟩).elim
  intro j k a b ha hb hQa hQb
  rw [hslot j a ha hQa, hslot k b hb hQb]

/-- The last call with `Q` loses it. -/
theorem AtMostOne.not_any_set {Q : τ → Prop} {p : Pool σ τ} {i : Nat} {s' : σ} {t' : Option τ}
    {t : τ} (h : p.AtMostOne Q) (ht : p.tasks i = some t) (hQ : Q t)
    (hnew : ∀ t₂, t' = some t₂ → ¬ Q t₂) : ¬ (p.set i s' t').Any Q := by
  rintro ⟨j, u, hu, hQu⟩
  rcases tasks_set_cases hu with ⟨-, hnew'⟩ | ⟨hj, hold⟩
  · exact hnew u hnew' hQu
  · exact hj (h j i u t hold ht hQu hQ)

theorem any_set_self {Q : τ → Prop} {p : Pool σ τ} {i : Nat} {s' : σ} {t : τ} (h : Q t) :
    (p.set i s' (some t)).Any Q :=
  ⟨i, t, set_tasks_self .., h⟩

end Pool

namespace Object

variable (O : Object σ τ κ ε)

/-- No call is running. -/
def start : Pool σ τ := ⟨O.initial, fun _ => none⟩

def move (p : Pool σ τ) : Move τ κ ε → Option (Pool σ τ)
  | .begin i t =>
    if (p.tasks i).isNone && O.begins p t then some (p.set i p.shared (some t)) else none
  | .act i choice =>
    match p.tasks i with
    | none => none
    | some t => (O.act i p.shared t choice).map fun r => p.set i r.1 r.2
  | .env e => (O.env p.shared e).map fun s' => { p with shared := s' }

/-- The pools that moves meeting `P` lead to. -/
inductive ReachableVia (P : Pool σ τ → Move τ κ ε → Prop) : Pool σ τ → Prop
  | start : ReachableVia P O.start
  | move {p p' : Pool σ τ} {m : Move τ κ ε} :
      ReachableVia P p → P p m → O.move p m = some p' → ReachableVia P p'

/-- The pools that any moves lead to. -/
def Reachable (p : Pool σ τ) : Prop := O.ReachableVia (fun _ _ => True) p

def Step (p p' : Pool σ τ) : Prop := ∃ m, O.move p m = some p'

/-- Some moves lead from `p` to `p'`. -/
def Leads : Pool σ τ → Pool σ τ → Prop := Relation.ReflTransGen O.Step

/-- Run a schedule; `none` if some move is not possible. -/
def run (p : Pool σ τ) (schedule : List (Move τ κ ε)) : Option (Pool σ τ) :=
  schedule.foldlM O.move p

/-- A move meeting `P` happens when the schedule runs from `p`. -/
def Occurs (P : Pool σ τ → Move τ κ ε → Prop) (p : Pool σ τ) (schedule : List (Move τ κ ε)) : Prop :=
  ∃ before m after q, schedule = before ++ m :: after ∧ O.run p before = some q ∧ P q m

/-- `Q` holds in every pool that the schedule goes through. -/
def Always (Q : Pool σ τ → Prop) (p : Pool σ τ) (schedule : List (Move τ κ ε)) : Prop :=
  ∀ before after q, schedule = before ++ after → O.run p before = some q → Q q

variable {O}

/-- What a move does. -/
theorem move_cases {p p' : Pool σ τ} {m : Move τ κ ε} (h : O.move p m = some p') :
    (∃ i t, m = .begin i t ∧ p.tasks i = none ∧ O.begins p t = true ∧
      p' = p.set i p.shared (some t)) ∨
    (∃ i choice t s' t', m = .act i choice ∧ p.tasks i = some t ∧
      O.act i p.shared t choice = some (s', t') ∧ p' = p.set i s' t') ∨
    (∃ e s', m = .env e ∧ O.env p.shared e = some s' ∧ p' = { p with shared := s' }) := by
  cases m with
  | begin i t =>
    simp only [move, Option.ite_none_right_eq_some, Bool.and_eq_true, Option.isNone_iff_eq_none,
      Option.some.injEq] at h
    exact .inl ⟨i, t, rfl, h.1.1, h.1.2, h.2.symm⟩
  | act i choice =>
    unfold move at h
    cases ht : p.tasks i with
    | none => simp [ht] at h
    | some t =>
      simp only [ht, Option.map_eq_some_iff] at h
      obtain ⟨⟨s', t'⟩, hact, rfl⟩ := h
      exact .inr (.inl ⟨i, choice, t, s', t', rfl, ht, hact, rfl⟩)
  | env e =>
    simp only [move, Option.map_eq_some_iff] at h
    obtain ⟨s', henv, rfl⟩ := h
    exact .inr (.inr ⟨e, s', rfl, henv, rfl⟩)

theorem Reachable.step {p p' : Pool σ τ} {m : Move τ κ ε} (hp : O.Reachable p)
    (h : O.move p m = some p') : O.Reachable p' :=
  ReachableVia.move hp trivial h

theorem Reachable.leads {p p' : Pool σ τ} (hp : O.Reachable p) (h : O.Leads p p') :
    O.Reachable p' := by
  induction h with
  | refl => exact hp
  | tail _ hstep ih =>
    obtain ⟨m, hm⟩ := hstep
    exact ih.step hm

theorem run_cons {p p' : Pool σ τ} {m : Move τ κ ε} {schedule : List (Move τ κ ε)} :
    O.run p (m :: schedule) = some p' ↔ ∃ q, O.move p m = some q ∧ O.run q schedule = some p' := by
  rw [run, List.foldlM_cons]
  exact Option.bind_eq_some_iff

theorem leads_of_run {p p' : Pool σ τ} (schedule : List (Move τ κ ε))
    (h : O.run p schedule = some p') : O.Leads p p' := by
  induction schedule generalizing p with
  | nil => cases h; exact .refl
  | cons m schedule ih =>
    obtain ⟨q, hq, hrest⟩ := run_cons.1 h
    exact .head ⟨m, hq⟩ (ih hrest)

/-- A slot stays free in a schedule that begins no call in it. -/
theorem tasks_eq_none_of_run {p p' : Pool σ τ} (schedule : List (Move τ κ ε)) {j : Nat}
    (h : O.run p schedule = some p') (hj : p.tasks j = none)
    (hbegin : ∀ i t, .begin i t ∈ schedule → i ≠ j) : p'.tasks j = none := by
  induction schedule generalizing p with
  | nil => cases h; exact hj
  | cons m schedule ih =>
    obtain ⟨q, hq, hrest⟩ := run_cons.1 h
    refine ih hrest ?_ fun i t hmem => hbegin i t (List.mem_cons_of_mem m hmem)
    obtain ⟨i, t, rfl, -, -, rfl⟩ | ⟨i, _, t, s', t', rfl, hi, -, rfl⟩ | ⟨e, s', rfl, -, rfl⟩ :=
      move_cases hq
    · rwa [Pool.set_tasks_of_ne p (hbegin i t List.mem_cons_self).symm]
    · have hij : j ≠ i := by
        rintro rfl
        rw [hi] at hj
        cases hj
      rwa [Pool.set_tasks_of_ne p hij]
    · exact hj

theorem run_append {p q : Pool σ τ} {before : List (Move τ κ ε)} (h : O.run p before = some q)
    (after : List (Move τ κ ε)) : O.run p (before ++ after) = O.run q after := by
  rw [run, List.foldlM_append]
  exact congrArg (Option.bind · fun q => O.run q after) h

theorem Occurs.cons {P : Pool σ τ → Move τ κ ε → Prop} {p q : Pool σ τ} {m : Move τ κ ε}
    {schedule : List (Move τ κ ε)} (hm : O.move p m = some q) (h : O.Occurs P q schedule) :
    O.Occurs P p (m :: schedule) := by
  obtain ⟨before, m', after, r, rfl, hrun, hP⟩ := h
  exact ⟨m :: before, m', after, r, rfl, run_cons.2 ⟨q, hm, hrun⟩, hP⟩

/-- The first move, or a later one. -/
theorem occurs_cons {P : Pool σ τ → Move τ κ ε → Prop} {p q : Pool σ τ} {m : Move τ κ ε}
    {schedule : List (Move τ κ ε)} (hm : O.move p m = some q) :
    O.Occurs P p (m :: schedule) ↔ P p m ∨ O.Occurs P q schedule := by
  constructor
  · rintro ⟨before, m', after, r, heq, hrun, hP⟩
    cases before with
    | nil =>
      cases heq
      cases hrun
      exact .inl hP
    | cons m'' before =>
      cases heq
      obtain ⟨q', hq', hrest⟩ := run_cons.1 hrun
      obtain rfl : q = q' := Option.some.inj (hm.symm.trans hq')
      exact .inr ⟨before, m', after, r, rfl, hrest, hP⟩
  · rintro (hP | h)
    · exact ⟨[], m, schedule, p, rfl, rfl, hP⟩
    · exact h.cons hm

theorem Occurs.of_before {P : Pool σ τ → Move τ κ ε → Prop} {p : Pool σ τ}
    {before : List (Move τ κ ε)} (h : O.Occurs P p before) (after : List (Move τ κ ε)) :
    O.Occurs P p (before ++ after) := by
  obtain ⟨first, m, last, q, rfl, hrun, hP⟩ := h
  exact ⟨first, m, last ++ after, q, by simp, hrun, hP⟩

theorem Occurs.of_after {P : Pool σ τ → Move τ κ ε → Prop} {p q : Pool σ τ}
    {before after : List (Move τ κ ε)} (hrun : O.run p before = some q) (h : O.Occurs P q after) :
    O.Occurs P p (before ++ after) := by
  obtain ⟨first, m, last, r, rfl, hfirst, hP⟩ := h
  exact ⟨before ++ first, m, last, r, by simp, (run_append hrun first).trans hfirst, hP⟩

/-- **The until rule**: what every move other than those meeting `P` keeps holds at the end of a
schedule, unless a move meeting `P` happens in it. -/
theorem run_until {P : Pool σ τ → Move τ κ ε → Prop} {I : Pool σ τ → Prop}
    (hstep : ∀ p m p', I p → ¬ P p m → O.move p m = some p' → I p') {p p' : Pool σ τ}
    (schedule : List (Move τ κ ε)) (h : O.run p schedule = some p') (hI : I p) :
    I p' ∨ O.Occurs P p schedule := by
  induction schedule generalizing p with
  | nil => cases h; exact .inl hI
  | cons m schedule ih =>
    obtain ⟨q, hq, hrest⟩ := run_cons.1 h
    by_cases hP : P p m
    · exact .inr ⟨[], m, schedule, p, rfl, rfl, hP⟩
    · exact (ih hrest (hstep p m q hI hP hq)).imp_right (.cons hq)

theorem always_cons {Q : Pool σ τ → Prop} {p q : Pool σ τ} {m : Move τ κ ε}
    {schedule : List (Move τ κ ε)} (hm : O.move p m = some q) :
    O.Always Q p (m :: schedule) ↔ Q p ∧ O.Always Q q schedule := by
  constructor
  · intro h
    refine ⟨h [] (m :: schedule) p rfl rfl, fun before after r heq hrun => ?_⟩
    exact h (m :: before) after r (by rw [heq, List.cons_append]) (run_cons.2 ⟨q, hm, hrun⟩)
  · rintro ⟨hp, h⟩ before after r heq hrun
    cases before with
    | nil =>
      cases hrun
      exact hp
    | cons m' before =>
      cases heq
      obtain ⟨q', hq', hrest⟩ := run_cons.1 hrun
      obtain rfl : q = q' := Option.some.inj (hm.symm.trans hq')
      exact h before after r rfl hrest

/-- **The exact invariant rule**: when a move breaks `I` exactly if it meets `P`, then `I` holds all
along a schedule exactly if no move meeting `P` happens in it. -/
theorem always_iff {P : Pool σ τ → Move τ κ ε → Prop} {I : Pool σ τ → Prop}
    (hstep : ∀ p m p', O.Reachable p → I p → O.move p m = some p' → (I p' ↔ ¬ P p m))
    {p p' : Pool σ τ} (hp : O.Reachable p) (hI : I p) (schedule : List (Move τ κ ε))
    (h : O.run p schedule = some p') : O.Always I p schedule ↔ ¬ O.Occurs P p schedule := by
  induction schedule generalizing p with
  | nil =>
    constructor
    · rintro - ⟨before, m, after, q, heq, -, -⟩
      cases before <;> cases heq
    · rintro - before after q heq hrun
      obtain ⟨rfl, -⟩ := List.append_eq_nil_iff.1 heq.symm
      cases hrun
      exact hI
  | cons m schedule ih =>
    obtain ⟨q, hq, hrest⟩ := run_cons.1 h
    rw [always_cons hq, occurs_cons hq, not_or, ← hstep p m q hp hI hq]
    constructor
    · rintro ⟨-, halways⟩
      have hIq : I q := halways [] schedule q rfl rfl
      exact ⟨hIq, (ih (hp.step hq) hIq hrest).1 halways⟩
    · rintro ⟨hIq, hno⟩
      exact ⟨hI, (ih (hp.step hq) hIq hrest).2 hno⟩

theorem ReachableVia.reachable {P : Pool σ τ → Move τ κ ε → Prop} {p : Pool σ τ}
    (h : O.ReachableVia P p) : O.Reachable p := by
  induction h with
  | start => exact .start
  | move _ _ hmove ih => exact ih.step hmove

/-- **The invariant rule**: what holds at the start and is kept by every beginning, by every action
of a running call and by the surroundings holds in every reachable pool. -/
theorem ReachableVia.invariant {P : Pool σ τ → Move τ κ ε → Prop} {I : Pool σ τ → Prop}
    (hstart : I O.start)
    (hbegin : ∀ p i t, I p → P p (.begin i t) → p.tasks i = none → O.begins p t = true →
      I (p.set i p.shared (some t)))
    (hact : ∀ p i choice t s' t', I p → P p (.act i choice) → p.tasks i = some t →
      O.act i p.shared t choice = some (s', t') → I (p.set i s' t'))
    (henv : ∀ p e s', I p → P p (.env e) → O.env p.shared e = some s' →
      I { p with shared := s' })
    {p : Pool σ τ} (h : O.ReachableVia P p) : I p := by
  induction h with
  | start => exact hstart
  | move _ hP hmove ih =>
    obtain ⟨i, t, rfl, hi, hb, rfl⟩ | ⟨i, choice, t, s', t', rfl, hi, ha, rfl⟩ |
      ⟨e, s', rfl, he, rfl⟩ := move_cases hmove
    · exact hbegin _ i t ih hP hi hb
    · exact hact _ i choice t s' t' ih hP hi ha
    · exact henv _ e s' ih hP he

/-- The rule with what is known of reachable pools at hand. -/
theorem Reachable.induct {I : Pool σ τ → Prop} (hstart : I O.start)
    (hbegin : ∀ p i t, O.Reachable p → I p → p.tasks i = none → O.begins p t = true →
      I (p.set i p.shared (some t)))
    (hact : ∀ p i choice t s' t', O.Reachable p → I p → p.tasks i = some t →
      O.act i p.shared t choice = some (s', t') → I (p.set i s' t'))
    (henv : ∀ p e s', O.Reachable p → I p → O.env p.shared e = some s' →
      I { p with shared := s' })
    {p : Pool σ τ} (h : O.Reachable p) : I p := by
  induction h with
  | start => exact hstart
  | move hp _ hmove ih =>
    obtain ⟨i, t, rfl, hi, hb, rfl⟩ | ⟨i, choice, t, s', t', rfl, hi, ha, rfl⟩ |
      ⟨e, s', rfl, he, rfl⟩ := move_cases hmove
    · exact hbegin _ i t hp ih hi hb
    · exact hact _ i choice t s' t' hp ih hi ha
    · exact henv _ e s' hp ih he

/-- **The simulation rule**: when every move of `O` from a reachable pool is, seen through `f`, some
moves of `O'`, then the reachable pools of `O` are reachable ones of `O'`. -/
theorem Reachable.simulates {σ' τ' κ' ε' : Type} {O' : Object σ' τ' κ' ε'}
    (f : Pool σ τ → Pool σ' τ') (hstart : f O.start = O'.start)
    (hmove : ∀ p m p', O.Reachable p → O.move p m = some p' → O'.Leads (f p) (f p'))
    {p : Pool σ τ} (h : O.Reachable p) : O'.Reachable (f p) := by
  induction h with
  | start =>
    rw [hstart]
    exact .start
  | move hp _ hm ih => exact Reachable.leads ih (hmove _ _ _ hp hm)

theorem Reachable.map {σ' τ' κ' ε' : Type} {O' : Object σ' τ' κ' ε'} (f : Pool σ τ → Pool σ' τ')
    (hstart : f O.start = O'.start)
    (hmove : ∀ p m p', O.move p m = some p' → O'.Leads (f p) (f p'))
    {p : Pool σ τ} (h : O.Reachable p) : O'.Reachable (f p) :=
  h.simulates f hstart fun p m p' _ => hmove p m p'

variable (O) in
/-- The object whose actions are each followed by `f` on the state. -/
def followedBy (f : σ → σ) : Object σ τ κ ε :=
  { O with act := fun i s t choice => (O.act i s t choice).map fun r => (f r.1, r.2) }

/-- **The bound rule**: as long as the state is within a bound that runs can only leave, and `f` does
nothing there, the object is what it is without `f`. -/
theorem Reachable.of_followedBy {f : σ → σ} {B : σ → Prop}
    (hf : ∀ p, O.Reachable p → B (f p.shared) → f p.shared = p.shared)
    (hact : ∀ i s t choice s' t', O.act i s t choice = some (s', t') → B (f s') → B s)
    (henv : ∀ s e s', O.env s e = some s' → B s' → B s) {p : Pool σ τ}
    (h : (O.followedBy f).Reachable p) (hB : B p.shared) : O.Reachable p := by
  revert hB
  refine ReachableVia.invariant (O := O.followedBy f) (I := fun p => B p.shared → O.Reachable p)
    (fun _ => .start) ?_ ?_ ?_ h
  · intro p i t ih _ hi hbegins hB
    have hmove : O.move p (.begin i t) = some (p.set i p.shared (some t)) :=
      if_pos (Bool.and_eq_true_iff.2 ⟨Option.isNone_iff_eq_none.2 hi, hbegins⟩)
    exact (ih hB).step hmove
  · intro p i choice t s' t' ih _ hi hfollowed hB
    obtain ⟨⟨s₁, t₁⟩, hacts, heq⟩ := Option.map_eq_some_iff.1 hfollowed
    cases heq
    have hmove : O.move p (.act i choice) = some (p.set i s₁ t₁) := by
      simp only [move, hi, hacts, Option.map_some]
    have hreach := (ih (hact i p.shared t choice s₁ t₁ hacts hB)).step hmove
    have hsame : f s₁ = s₁ := hf _ hreach hB
    show O.Reachable (p.set i (f s₁) t₁)
    rwa [hsame]
  · intro p e s' ih _ hstep hB
    have hmove : O.move p (.env e) = some { p with shared := s' } := by
      rw [move, show O.env p.shared e = some s' from hstep]
      rfl
    exact (ih (henv p.shared e s' hstep hB)).step hmove

/-- A schedule of moves that meet `P` wherever they are made. -/
theorem ReachableVia.run {P : Pool σ τ → Move τ κ ε → Prop} {p p' : Pool σ τ}
    (h : O.ReachableVia P p) (schedule : List (Move τ κ ε)) (hrun : O.run p schedule = some p')
    (hP : ∀ m ∈ schedule, ∀ q, P q m) : O.ReachableVia P p' := by
  induction schedule generalizing p with
  | nil => cases hrun; exact h
  | cons m schedule ih =>
    obtain ⟨q, hq, hrest⟩ := run_cons.1 hrun
    exact ih (h.move (hP m List.mem_cons_self p) hq) hrest fun m' hm' =>
      hP m' (List.mem_cons_of_mem m hm')

theorem reachable_of_run {schedule : List (Move τ κ ε)} {p : Pool σ τ}
    (h : O.run O.start schedule = some p) : O.Reachable p :=
  Reachable.leads .start (leads_of_run schedule h)

end Object

end Lonesome.Interleaving
