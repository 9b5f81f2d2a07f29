import Mathlib.Logic.Basic

/-!
# Computations with state and errors

`Eff σ ε α` is a computation on a state that can fail; what it wrote before it failed stays
written. An invariant of the state is kept by a computation (`Keeps`) when it is kept by the steps
of it: one rule for each way of putting computations together. The same for computations that do not
depend on a part of the state (`Blind`), and for the two outcomes of a computation (`Triple`).
-/

namespace Lonesome.Lib

/-- A chain that succeeds has a first part that does. -/
theorem bind_eq_ok_iff {ε α β : Type} {x : Except ε α} {f : α → Except ε β} {b : β} :
    x >>= f = .ok b ↔ ∃ a, x = .ok a ∧ f a = .ok b := by
  cases x with
  | error e =>
    constructor
    · exact fun h => (nomatch h)
    · exact fun ⟨_, h, _⟩ => (nomatch h)
  | ok a =>
    constructor
    · exact fun h => ⟨a, rfl, h⟩
    · rintro ⟨_, ⟨⟩, h⟩
      exact h

abbrev Eff (σ ε α : Type) := ExceptT ε (StateM σ) α

variable {σ ε α β ι : Type}

/-- The result and the state that the computation ends in. -/
def Eff.exec (m : Eff σ ε α) (s : σ) : Except ε α × σ := (ExceptT.run m).run s

/-- The invariant holds afterwards, whether the computation fails or not. -/
def Keeps (I : σ → Prop) (m : Eff σ ε α) : Prop := ∀ s, I s → I (m.exec s).2

section Exec

variable (s : σ)

@[simp] theorem exec_pure (a : α) : Eff.exec (pure a : Eff σ ε α) s = (.ok a, s) := rfl

@[simp] theorem exec_get : Eff.exec (get : Eff σ ε σ) s = (.ok s, s) := rfl

@[simp] theorem exec_modify (f : σ → σ) :
    Eff.exec (modify f : Eff σ ε Unit) s = (.ok (), f s) := rfl

theorem exec_bind (m : Eff σ ε α) (f : α → Eff σ ε β) :
    Eff.exec (m >>= f) s = match m.exec s with
      | (.ok a, s') => (f a).exec s'
      | (.error e, s') => (.error e, s') := by
  have h : Eff.exec (m >>= f) s = match m.exec s with
      | (r, s') => Eff.exec (ExceptT.bindCont f r) s' := rfl
  rw [h]
  rcases m.exec s with ⟨_ | _, _⟩ <;> rfl

/-- A computation that succeeds does so step by step. -/
theorem exec_bind_eq_ok_iff {m : Eff σ ε α} {f : α → Eff σ ε β} {s s' : σ} {b : β} :
    Eff.exec (m >>= f) s = (.ok b, s') ↔ ∃ a s₁, m.exec s = (.ok a, s₁) ∧ (f a).exec s₁ = (.ok b, s') := by
  rw [exec_bind]
  rcases m.exec s with ⟨e | a, s₁⟩
  · constructor
    · intro h
      cases h
    · rintro ⟨_, _, h, _⟩
      cases h
  · constructor
    · exact fun h => ⟨a, s₁, rfl, h⟩
    · rintro ⟨_, _, ⟨⟩, h⟩
      exact h

theorem exec_map_eq_ok_iff {f : α → β} {m : Eff σ ε α} {s s' : σ} {b : β} :
    Eff.exec (f <$> m) s = (.ok b, s') ↔ ∃ a, m.exec s = (.ok a, s') ∧ f a = b := by
  rw [map_eq_pure_bind, exec_bind_eq_ok_iff]
  constructor
  · rintro ⟨a, _, hm, ⟨⟩⟩
    exact ⟨a, hm, rfl⟩
  · rintro ⟨a, hm, rfl⟩
    exact ⟨a, s', hm, rfl⟩

theorem exec_discard (m : Eff σ ε α) : (Eff.exec (discard m) s).2 = (m.exec s).2 := by
  show (Eff.exec (m >>= fun _ => pure PUnit.unit) s).2 = _
  rw [exec_bind]
  rcases m.exec s with ⟨_ | _, _⟩ <;> rfl

theorem exec_tryCatch (m : Eff σ ε α) (f : ε → Eff σ ε α) :
    Eff.exec (tryCatch m f) s = match m.exec s with
      | (.ok a, s') => (.ok a, s')
      | (.error e, s') => (f e).exec s' := by
  have h : Eff.exec (tryCatch m f) s = match m.exec s with
      | (r, s') => Eff.exec (match r with | .ok a => pure a | .error e => f e) s' := rfl
  rw [h]
  rcases m.exec s with ⟨_ | _, _⟩ <;> rfl

end Exec

/-! ## Rules -/

section Rules

variable {I : σ → Prop}

theorem keeps_pure (a : α) : Keeps I (pure a : Eff σ ε α) := fun _ h => h

theorem keeps_throw (e : ε) : Keeps I (throw e : Eff σ ε α) := fun _ h => h

theorem keeps_get : Keeps I (get : Eff σ ε σ) := fun _ h => h

/-- What is read is a state with the invariant. -/
theorem Keeps.get_bind {f : σ → Eff σ ε α} (hf : ∀ s, I s → Keeps I (f s)) : Keeps I (get >>= f) :=
  fun s h => hf s h s h

theorem keeps_modify {f : σ → σ} (h : ∀ s, I s → I (f s)) : Keeps I (modify f : Eff σ ε Unit) := h

theorem Keeps.bind {m : Eff σ ε α} {f : α → Eff σ ε β} (hm : Keeps I m) (hf : ∀ a, Keeps I (f a)) :
    Keeps I (m >>= f) := by
  intro s h
  have hs := hm s h
  rw [exec_bind]
  rcases hr : m.exec s with ⟨_ | a, s'⟩ <;> rw [hr] at hs
  · exact hs
  · exact hf a s' hs

theorem Keeps.ite {c : Prop} [Decidable c] {m m' : Eff σ ε α} (h : c → Keeps I m)
    (h' : ¬ c → Keeps I m') : Keeps I (if c then m else m') := by
  split
  · next hc => exact h hc
  · next hc => exact h' hc

theorem Keeps.tryCatch {m : Eff σ ε α} {f : ε → Eff σ ε α} (hm : Keeps I m)
    (hf : ∀ e, Keeps I (f e)) : Keeps I (tryCatch m f) := by
  intro s h
  have hs := hm s h
  rw [exec_tryCatch]
  rcases hr : m.exec s with ⟨e | _, s'⟩ <;> rw [hr] at hs
  · exact hf e s' hs
  · exact hs

theorem Keeps.foldlM {f : β → α → Eff σ ε β} (l : List α) (hf : ∀ b, ∀ a ∈ l, Keeps I (f b a)) (b : β) :
    Keeps I (l.foldlM f b) := by
  induction l generalizing b with
  | nil => exact keeps_pure b
  | cons a l ih =>
    rw [List.foldlM_cons]
    refine .bind (hf b a List.mem_cons_self) fun b' => ih (fun b a' ha => ?_) b'
    exact hf b a' (List.mem_cons_of_mem a ha)

/-- A loop that stops at the first `true`. -/
theorem Keeps.anyM {f : α → Eff σ ε Bool} (l : List α) (hf : ∀ a ∈ l, Keeps I (f a)) :
    Keeps I (l.anyM f) := by
  induction l with
  | nil => exact keeps_pure false
  | cons a l ih =>
    rw [List.anyM]
    refine .bind (hf a List.mem_cons_self) fun b => ?_
    cases b with
    | true => exact keeps_pure true
    | false => exact ih fun a' ha => hf a' (List.mem_cons_of_mem a ha)

theorem Keeps.forM {f : α → Eff σ ε PUnit} (l : List α) (hf : ∀ a ∈ l, Keeps I (f a)) :
    Keeps I (l.forM f) := by
  induction l with
  | nil => exact keeps_pure PUnit.unit
  | cons a l ih =>
    rw [List.forM]
    refine .bind (hf a List.mem_cons_self) fun _ => ih fun a' ha => ?_
    exact hf a' (List.mem_cons_of_mem a ha)

end Rules

/-! ## Results -/

/-- When the computation succeeds on a state with `P`, its result and the state it ends in are such
that `Q`. -/
def Ensures (P : σ → Prop) (m : Eff σ ε α) (Q : α → σ → Prop) : Prop :=
  ∀ s, P s → ∀ a s', m.exec s = (.ok a, s') → Q a s'

section Results

variable {P : σ → Prop} {Q : α → σ → Prop} {R : β → σ → Prop}

theorem ensures_pure {a : α} (h : ∀ s, P s → Q a s) : Ensures P (pure a : Eff σ ε α) Q := by
  intro s hs a' s' hexec
  cases hexec
  exact h s hs

/-- What is read is the state. -/
theorem ensures_get : Ensures P (get : Eff σ ε σ) fun r s => r = s ∧ P s := by
  intro s hs r s' hexec
  cases hexec
  exact ⟨rfl, hs⟩

theorem Keeps.ensures {m : Eff σ ε α} (h : Keeps P m) : Ensures P m fun _ s => P s := by
  intro s hs a s' hexec
  have hkept := h s hs
  rwa [hexec] at hkept

theorem Ensures.bind {m : Eff σ ε α} {f : α → Eff σ ε β} (hm : Ensures P m Q)
    (hf : ∀ a, Ensures (Q a) (f a) R) : Ensures P (m >>= f) R := by
  intro s hs b s' hexec
  rw [exec_bind] at hexec
  rcases hr : m.exec s with ⟨_ | a, s₁⟩ <;> rw [hr] at hexec
  · cases hexec
  · exact hf a s₁ (hm s hs a s₁ hr) b s' hexec

theorem Ensures.ite {c : Prop} [Decidable c] {m m' : Eff σ ε α} (h : c → Ensures P m Q)
    (h' : ¬ c → Ensures P m' Q) : Ensures P (if c then m else m') Q := by
  split
  · next hc => exact h hc
  · next hc => exact h' hc

/-- The rule of a loop: what is passed on and the state stay such that `R`. -/
theorem Ensures.foldlM {f : β → α → Eff σ ε β} (l : List α)
    (hf : ∀ b, ∀ a ∈ l, Ensures (R b) (f b a) R) (b : β) : Ensures (R b) (l.foldlM f b) R := by
  induction l generalizing b with
  | nil => exact ensures_pure fun _ h => h
  | cons a l ih =>
    rw [List.foldlM_cons]
    refine .bind (hf b a List.mem_cons_self) fun b' => ih (fun b a' ha => ?_) b'
    exact hf b a' (List.mem_cons_of_mem a ha)

theorem Ensures.mono {Q' : α → σ → Prop} {m : Eff σ ε α} (h : Ensures P m Q)
    (hQ : ∀ a s, Q a s → Q' a s) : Ensures P m Q' :=
  fun s hs a s' hexec => hQ a s' (h s hs a s' hexec)

/-- What is passed on through a list, changed by each of its elements as `S` allows. -/
inductive Through (S : α → β → β → Prop) : List α → β → β → Prop where
  | nil (b : β) : Through S [] b b
  | cons {a : α} {l : List α} {b b' b'' : β} : S a b b' → Through S l b' b'' → Through S (a :: l) b b''

namespace Through

variable {S : α → β → β → Prop} {l l' : List α} {b b' : β}

/-- What is seen of the value goes through the same list. -/
theorem map {γ : Type} {S' : α → γ → γ → Prop} {g : β → γ}
    (hg : ∀ a b b', S a b b' → S' a (g b) (g b')) (h : Through S l b b') :
    Through S' l (g b) (g b') := by
  induction h with
  | nil b => exact .nil (g b)
  | cons hstep _ ih => exact .cons (hg _ _ _ hstep) ih

/-- An invariant of the value holds before every step. -/
theorem keeping {I : β → Prop} (hI : ∀ a b b', S a b b' → I b → I b') (h : Through S l b b') (hb : I b) :
    Through (fun a b b' => S a b b' ∧ I b) l b b' := by
  induction h with
  | nil b => exact .nil b
  | cons hstep _ ih => exact .cons ⟨hstep, hb⟩ (ih (hI _ _ _ hstep hb))

theorem invariant {I : β → Prop} (hI : ∀ a b b', S a b b' → I b → I b') (h : Through S l b b')
    (hb : I b) : I b' := by
  induction h with
  | nil b => exact hb
  | cons hstep _ ih => exact ih (hI _ _ _ hstep hb)

theorem append {b'' : β} (h : Through S l b b') (h' : Through S l' b' b'') :
    Through S (l ++ l') b b'' := by
  induction h with
  | nil b => exact h'
  | cons hstep _ ih => exact .cons hstep (ih h')

/-- Steps that can be followed one by one can be followed along the list. -/
theorem follow {γ : Type} {T : α → γ → γ → Prop} {R : β → γ → Prop}
    (hR : ∀ a b b' c, S a b b' → R b c → ∃ c', T a c c' ∧ R b' c') (h : Through S l b b') {c : γ}
    (hc : R b c) : ∃ c', Through T l c c' ∧ R b' c' := by
  induction h generalizing c with
  | nil b => exact ⟨c, .nil c, hc⟩
  | cons hstep _ ih =>
    obtain ⟨c₁, hstep', hc₁⟩ := hR _ _ _ c hstep hc
    obtain ⟨c', hrest, hc'⟩ := ih hc₁
    exact ⟨c', .cons hstep' hrest, hc'⟩

theorem of_append (h : Through S (l ++ l') b b') : ∃ b₁, Through S l b b₁ ∧ Through S l' b₁ b' := by
  induction l generalizing b with
  | nil => exact ⟨b, .nil b, h⟩
  | cons a l ih =>
    cases h with
    | cons hstep hrest =>
      obtain ⟨b₁, hl, hl'⟩ := ih hrest
      exact ⟨b₁, .cons hstep hl, hl'⟩

/-- Elements that do not change what is seen of the value. -/
theorem unchanged {γ : Type} {g : β → γ} (h : Through S l b b')
    (hl : ∀ a ∈ l, ∀ b b', S a b b' → g b' = g b) : g b' = g b := by
  induction h with
  | nil b => rfl
  | cons hstep _ ih =>
    rw [ih fun a ha => hl a (List.mem_cons_of_mem _ ha)]
    exact hl _ List.mem_cons_self _ _ hstep

/-- After the last element that touches what is seen of the value, that stays what it made of it. -/
theorem last {γ : Type} {g : β → γ} {Touches : α → Prop}
    (hS : ∀ a b b', S a b b' → ¬ Touches a → g b' = g b) {a : α}
    (h : Through S (l ++ a :: l') b b') (hl' : ∀ a' ∈ l', ¬ Touches a') :
    ∃ b₁ b₂, Through S l b b₁ ∧ S a b₁ b₂ ∧ g b' = g b₂ := by
  obtain ⟨b₁, hbefore, hrest⟩ := h.of_append
  cases hrest with
  | cons hstep hafter =>
    exact ⟨b₁, _, hbefore, hstep, hafter.unchanged fun a' ha' b b' ha => hS a' b b' ha (hl' a' ha')⟩

end Through

/-- A loop goes through its list turn by turn, each of which begins where the one before ended. -/
theorem exec_foldlM_eq_ok_iff {f : β → α → Eff σ ε β} {l : List α} {b b' : β} {s s' : σ} :
    Eff.exec (l.foldlM f b) s = (.ok b', s') ↔
      Through (fun a p p' => (f p.1 a).exec p.2 = (.ok p'.1, p'.2)) l (b, s) (b', s') := by
  induction l generalizing b s with
  | nil =>
    constructor
    · intro h
      cases h
      exact .nil _
    · intro h
      cases h
      rfl
  | cons a l ih =>
    rw [List.foldlM_cons, exec_bind_eq_ok_iff]
    constructor
    · rintro ⟨b₁, s₁, hturn, hrest⟩
      refine .cons ?_ (ih.1 hrest)
      exact hturn
    · intro h
      cases h with
      | cons hturn hrest => exact ⟨_, _, hturn, ih.2 hrest⟩

/-- The same for a loop that nothing stopped. -/
theorem exec_anyM_eq_ok_false_iff {f : α → Eff σ ε Bool} {l : List α} {s s' : σ} :
    Eff.exec (l.anyM f) s = (.ok false, s') ↔
      Through (fun a s s' => (f a).exec s = (.ok false, s')) l s s' := by
  induction l generalizing s with
  | nil =>
    constructor
    · intro h
      cases h
      exact .nil _
    · intro h
      cases h
      rfl
  | cons a l ih =>
    rw [List.anyM, exec_bind_eq_ok_iff]
    constructor
    · rintro ⟨stop, s₁, hturn, hrest⟩
      cases stop with
      | true => exact (nomatch hrest)
      | false => exact .cons hturn (ih.1 hrest)
    · intro h
      cases h with
      | cons hturn hrest => exact ⟨false, _, hturn, ih.2 hrest⟩

/-- The rule of a loop whose turns change what is seen of the state, which `P` says, as `S` allows. -/
theorem Ensures.through_state {γ : Type} {S : α → γ → γ → Prop} {P : γ → σ → Prop}
    {f : α → Eff σ ε Unit} (l : List α)
    (hf : ∀ c, ∀ a ∈ l, Ensures (P c) (f a) fun _ s => ∃ c', S a c c' ∧ P c' s) (c : γ) (u : Unit) :
    Ensures (P c) (l.foldlM (fun _ a => f a) u) fun _ s => ∃ c', Through S l c c' ∧ P c' s := by
  induction l generalizing c u with
  | nil => exact ensures_pure fun _ hs => ⟨c, .nil c, hs⟩
  | cons a l ih =>
    rw [List.foldlM_cons]
    refine .bind (hf c a List.mem_cons_self) fun u s hs u' s' hexec => ?_
    obtain ⟨c', hstep, hs⟩ := hs
    have hrest := ih (fun c a' ha => hf c a' (List.mem_cons_of_mem a ha)) c' u s hs u' s' hexec
    obtain ⟨c'', hthrough, hs'⟩ := hrest
    exact ⟨c'', .cons hstep hthrough, hs'⟩

end Results

/-! ## Results and failures -/

/-- From a state with `P` the computation either succeeds, with a result and a state such that `Q`, or
fails in a state with `E`. -/
structure Triple (P : σ → Prop) (m : Eff σ ε α) (Q : α → σ → Prop) (E : σ → Prop) : Prop where
  returns : Ensures P m Q
  fails : ∀ s, P s → ∀ e s', m.exec s = (.error e, s') → E s'

section Triples

variable {P : σ → Prop} {Q : α → σ → Prop} {R : β → σ → Prop} {E : σ → Prop}

theorem triple_pure {a : α} (h : ∀ s, P s → Q a s) : Triple P (pure a : Eff σ ε α) Q E :=
  ⟨ensures_pure h, fun _ _ _ _ hexec => (nomatch hexec)⟩

theorem triple_throw {e : ε} (h : ∀ s, P s → E s) : Triple P (throw e : Eff σ ε α) Q E := by
  refine ⟨fun _ _ _ _ hexec => (nomatch hexec), fun s hs _ _ hexec => ?_⟩
  cases hexec
  exact h s hs

/-- An invariant goes through both outcomes. -/
theorem Keeps.triple {m : Eff σ ε α} (h : Keeps P m) (hE : ∀ s, P s → E s) :
    Triple P m (fun _ => P) E := by
  refine ⟨h.ensures, fun s hs e s' hexec => hE s' ?_⟩
  have hkept := h s hs
  rwa [hexec] at hkept

/-- A fact that is not about the state is had while the computation is specified. -/
theorem Triple.assume {p : Prop} {m : Eff σ ε α} (h : p → Triple P m Q E) :
    Triple (fun s => p ∧ P s) m Q E :=
  ⟨fun s hs => (h hs.1).returns s hs.2, fun s hs => (h hs.1).fails s hs.2⟩

theorem Triple.mono {P' : σ → Prop} {Q' : α → σ → Prop} {E' : σ → Prop} {m : Eff σ ε α}
    (h : Triple P m Q E) (hP : ∀ s, P' s → P s) (hQ : ∀ a s, Q a s → Q' a s) (hE : ∀ s, E s → E' s) :
    Triple P' m Q' E' :=
  ⟨fun s hs a s' hexec => hQ a s' (h.returns s (hP s hs) a s' hexec),
    fun s hs e s' hexec => hE s' (h.fails s (hP s hs) e s' hexec)⟩

theorem Triple.bind {m : Eff σ ε α} {f : α → Eff σ ε β} (hm : Triple P m Q E)
    (hf : ∀ a, Triple (Q a) (f a) R E) : Triple P (m >>= f) R E := by
  refine ⟨hm.returns.bind fun a => (hf a).returns, fun s hs e s' hexec => ?_⟩
  rw [exec_bind] at hexec
  rcases hr : m.exec s with ⟨e₁ | a, s₁⟩ <;> rw [hr] at hexec
  · cases hexec
    exact hm.fails s hs e s' hr
  · exact (hf a).fails s₁ (hm.returns s hs a s₁ hr) e s' hexec

theorem Triple.ite {c : Prop} [Decidable c] {m m' : Eff σ ε α} (h : c → Triple P m Q E)
    (h' : ¬ c → Triple P m' Q E) : Triple P (if c then m else m') Q E := by
  split
  · next hc => exact h hc
  · next hc => exact h' hc

theorem Triple.tryCatch {E' : σ → Prop} {m : Eff σ ε α} {f : ε → Eff σ ε α} (hm : Triple P m Q E')
    (hf : ∀ e, Triple E' (f e) Q E) : Triple P (tryCatch m f) Q E := by
  refine ⟨fun s hs a s' hexec => ?_, fun s hs e s' hexec => ?_⟩
  all_goals
    rw [exec_tryCatch] at hexec
    rcases hr : m.exec s with ⟨e₁ | a₁, s₁⟩ <;> rw [hr] at hexec
  · exact (hf e₁).returns s₁ (hm.fails s hs e₁ s₁ hr) a s' hexec
  · cases hexec
    exact hm.returns s hs a s' hr
  · exact (hf e₁).fails s₁ (hm.fails s hs e₁ s₁ hr) e s' hexec
  · cases hexec

/-- The rule of a loop that stops at the first `true`: a turn that does not stop it leaves `P`. -/
theorem Triple.anyM {S : σ → Prop} {f : α → Eff σ ε Bool} (l : List α)
    (hf : ∀ a ∈ l, Triple P (f a) (fun stop s => if stop then S s else P s) E) :
    Triple P (l.anyM f) (fun stop s => if stop then S s else P s) E := by
  induction l with
  | nil => exact triple_pure fun s hs => hs
  | cons a l ih =>
    rw [List.anyM]
    refine .bind (hf a List.mem_cons_self) fun stop => ?_
    cases stop with
    | true => exact triple_pure fun s hs => hs
    | false => exact ih fun a' ha => hf a' (List.mem_cons_of_mem a ha)

theorem triple_modify {Q : Unit → σ → Prop} {f : σ → σ} (h : ∀ s, P s → Q () (f s)) :
    Triple P (modify f : Eff σ ε Unit) Q E := by
  refine ⟨fun s hs _ _ hexec => ?_, fun _ _ _ _ hexec => (nomatch hexec)⟩
  cases hexec
  exact h s hs

theorem Triple.get_bind {f : σ → Eff σ ε α} (hf : ∀ s, P s → Triple P (f s) Q E) :
    Triple P (get >>= f) Q E :=
  ⟨fun s hs => (hf s hs).returns s hs, fun s hs => (hf s hs).fails s hs⟩

/-- The rule of a loop whose turns compute `step` on what is passed on and what is seen of the state. -/
theorem Triple.foldlM {γ : Type} {P : γ → σ → Prop} {step : α → β × γ → β × γ} {f : β → α → Eff σ ε β}
    (l : List α) (hf : ∀ p : β × γ, ∀ a ∈ l,
      Triple (P p.2) (f p.1 a) (fun b s => b = (step a p).1 ∧ P (step a p).2 s) E) (p : β × γ) :
    Triple (P p.2) (l.foldlM f p.1)
      (fun b s => b = (l.foldl (fun p a => step a p) p).1 ∧ P (l.foldl (fun p a => step a p) p).2 s) E := by
  induction l generalizing p with
  | nil => exact triple_pure fun _ hs => ⟨rfl, hs⟩
  | cons a l ih =>
    rw [List.foldlM_cons]
    refine .bind (hf p a List.mem_cons_self) fun b => .assume fun hb => ?_
    rw [hb]
    exact ih (fun p a' ha => hf p a' (List.mem_cons_of_mem a ha)) (step a p)

end Triples

/-- A loop that passes on more than another one computes the same as that one. -/
theorem map_foldlM {m : Type → Type} [Monad m] [LawfulMonad m] {γ : Type} {f : β → α → m β}
    {f' : γ → α → m γ} {g : β → γ} (h : ∀ b a, g <$> f b a = f' (g b) a) (l : List α) (b : β) :
    g <$> l.foldlM f b = l.foldlM f' (g b) := by
  induction l generalizing b with
  | nil => simp
  | cons a l ih =>
    rw [List.foldlM_cons, List.foldlM_cons, ← h, map_bind, bind_map_left]
    exact bind_congr fun b' => ih b'

section Blind

variable {g : σ → σ}

/-- The computation neither reads nor writes the part of the state that `g` changes. -/
def Blind (g : σ → σ) (m : Eff σ ε α) : Prop := ∀ s, m.exec (g s) = ((m.exec s).1, g (m.exec s).2)

theorem blind_pure (a : α) : Blind g (pure a : Eff σ ε α) := fun _ => rfl

theorem Blind.bind {m : Eff σ ε α} {f : α → Eff σ ε β} (hm : Blind g m) (hf : ∀ a, Blind g (f a)) :
    Blind g (m >>= f) := by
  intro s
  rw [exec_bind, exec_bind, hm s]
  rcases m.exec s with ⟨_ | a, s'⟩
  · rfl
  · exact hf a s'

/-- What is read from the state is not in that part. -/
theorem Blind.get_bind {f : σ → Eff σ ε β} (hread : ∀ s, f (g s) = f s) (hf : ∀ s, Blind g (f s)) :
    Blind g (get >>= f) := by
  intro s
  rw [exec_bind, exec_bind, exec_get, exec_get]
  show (f (g s)).exec (g s) = _
  rw [hread]
  exact hf s s

theorem Blind.ite {c : Prop} [Decidable c] {m m' : Eff σ ε α} (h : Blind g m) (h' : Blind g m') :
    Blind g (if c then m else m') := by
  split
  · exact h
  · exact h'

end Blind

end Lonesome.Lib
