import Mathlib.Data.Set.NAry

/-!
# The cheap pre-check: three-valued evaluation

`src/matcher/precheck/expr.rs`. A matcher rule is turned into a boolean combination of cheap
checks (`CheapExpr`) in which every part the pre-check cannot look into is an `unknown` leaf, and
the tree is evaluated under Kleene's three-valued logic (`CheapExpr.eval`).

The abstract side is the set of results that the tree has when each occurrence of an `unknown`
leaf is given a boolean of its own (`CheapExpr.outcomes`). A three-valued answer stands for a set
of booleans (`Tri.denote`), the connectives are the pointwise connectives on these sets
(`denote_triAnd`, `denote_triOr`, `denote_triNot`, `denote_triCond`), and so the evaluation is
exact: the answer stands for the outcomes (`denote_eval`).
-/

namespace Lonesome.Cel

/-- Three-valued result of a cheap pre-check. -/
inductive Tri where
  | true
  | false
  | unknown
  deriving DecidableEq, Repr

def fromBool (v : Bool) : Tri :=
  if v then .true else .false

def triAnd (a b : Tri) : Tri :=
  if a = .false ∨ b = .false then .false
  else if a = .unknown ∨ b = .unknown then .unknown
  else .true

def triOr (a b : Tri) : Tri :=
  if a = .true ∨ b = .true then .true
  else if a = .unknown ∨ b = .unknown then .unknown
  else .false

def triNot : Tri → Tri
  | .true => .false
  | .false => .true
  | .unknown => .unknown

def triCond (cond thn els : Tri) : Tri :=
  match cond with
  | .true => thn
  | .false => els
  | .unknown => if thn = els then thn else .unknown

/-- A cheap leaf: a check against the source context and the metadata it is given. -/
structure Leaf (C M : Type) where
  metadata : M
  check : C → M → Bool

/-- A boolean combination of cheap checks. -/
inductive CheapExpr (C M : Type) where
  | and (a b : CheapExpr C M)
  | or (a b : CheapExpr C M)
  | not (inner : CheapExpr C M)
  | cond (cond thn els : CheapExpr C M)
  | check (leaf : Leaf C M)
  | lit (v : Bool)
  | unknown

namespace CheapExpr

variable {C M : Type}

/-- The tree has no `unknown` leaf. -/
def isComplete : CheapExpr C M → Bool
  | .and a b => a.isComplete && b.isComplete
  | .or a b => a.isComplete && b.isComplete
  | .not inner => inner.isComplete
  | .cond c t e => c.isComplete && t.isComplete && e.isComplete
  | .check _ | .lit _ => true
  | .unknown => false

/-- Visits every `check` leaf in order, folding `f` over the metadata. -/
def forEachLeaf {σ : Type} (f : σ → M → σ) : CheapExpr C M → σ → σ
  | .and a b, acc => b.forEachLeaf f (a.forEachLeaf f acc)
  | .or a b, acc => b.forEachLeaf f (a.forEachLeaf f acc)
  | .not inner, acc => inner.forEachLeaf f acc
  | .cond c t e, acc => e.forEachLeaf f (t.forEachLeaf f (c.forEachLeaf f acc))
  | .check leaf, acc => f acc leaf.metadata
  | .lit _, acc => acc
  | .unknown, acc => acc

/-- Evaluates the constraint under Kleene's three-valued logic. -/
def eval (ctx : C) : CheapExpr C M → Tri
  | .and a b => triAnd (a.eval ctx) (b.eval ctx)
  | .or a b => triOr (a.eval ctx) (b.eval ctx)
  | .not inner => triNot (inner.eval ctx)
  | .cond c t e => triCond (c.eval ctx) (t.eval ctx) (e.eval ctx)
  | .check leaf => fromBool (leaf.check ctx leaf.metadata)
  | .lit v => fromBool v
  | .unknown => .unknown

/-- The metadata of the `check` leaves, in the order of the visit. -/
def leaves : CheapExpr C M → List M
  | .and a b => a.leaves ++ b.leaves
  | .or a b => a.leaves ++ b.leaves
  | .not inner => inner.leaves
  | .cond c t e => c.leaves ++ (t.leaves ++ e.leaves)
  | .check leaf => [leaf.metadata]
  | .lit _ => []
  | .unknown => []

theorem forEachLeaf_eq_foldl {σ : Type} (f : σ → M → σ) (e : CheapExpr C M) (acc : σ) :
    e.forEachLeaf f acc = e.leaves.foldl f acc := by
  induction e generalizing acc with
  | and a b iha ihb => rw [forEachLeaf, iha, ihb, leaves, List.foldl_append]
  | or a b iha ihb => rw [forEachLeaf, iha, ihb, leaves, List.foldl_append]
  | not inner ih => exact ih acc
  | cond c t e ihc iht ihe =>
    rw [forEachLeaf, ihc, iht, ihe, leaves, List.foldl_append, List.foldl_append]
  | check leaf => rfl
  | lit v => rfl
  | unknown => rfl

end CheapExpr

/-! ## Answers as sets of booleans -/

/-- The booleans a three-valued answer leaves open. -/
def Tri.denote : Tri → Set Bool
  | .true => {Bool.true}
  | .false => {Bool.false}
  | .unknown => Set.univ

theorem mem_denote_true {b : Bool} : b ∈ Tri.denote .true ↔ b = true := Iff.rfl

theorem mem_denote_false {b : Bool} : b ∈ Tri.denote .false ↔ b = false := Iff.rfl

theorem mem_denote_unknown {b : Bool} : b ∈ Tri.denote .unknown ↔ True := Iff.rfl

theorem denote_fromBool (v : Bool) : (fromBool v).denote = {v} := by
  cases v <;> rfl

theorem denote_triAnd (s t : Tri) :
    (triAnd s t).denote = Set.image2 (· && ·) s.denote t.denote := by
  ext b
  cases s <;> cases t <;> cases b <;>
    simp [triAnd, Set.mem_image2, mem_denote_true, mem_denote_false, mem_denote_unknown]

theorem denote_triOr (s t : Tri) :
    (triOr s t).denote = Set.image2 (· || ·) s.denote t.denote := by
  ext b
  cases s <;> cases t <;> cases b <;>
    simp [triOr, Set.mem_image2, mem_denote_true, mem_denote_false, mem_denote_unknown]

theorem denote_triNot (s : Tri) : (triNot s).denote = (! ·) '' s.denote := by
  ext b
  cases s <;> cases b <;>
    simp [triNot, mem_denote_true, mem_denote_false, mem_denote_unknown]

/-- An undecided condition leaves open what either branch leaves open, whether or not the branches
agree. -/
theorem denote_triCond (s t e : Tri) :
    (triCond s t e).denote =
      {b | ∃ c ∈ s.denote, ∃ x ∈ t.denote, ∃ y ∈ e.denote, (bif c then x else y) = b} := by
  ext b
  cases s <;> cases t <;> cases e <;> cases b <;>
    simp [triCond, mem_denote_true, mem_denote_false, mem_denote_unknown]

/-! ## Completions of a tree -/

namespace CheapExpr

variable {C M : Type}

/-- A boolean for each occurrence of an `unknown` leaf. -/
def Assignment : CheapExpr C M → Type
  | .and a b => a.Assignment × b.Assignment
  | .or a b => a.Assignment × b.Assignment
  | .not inner => inner.Assignment
  | .cond c t e => c.Assignment × t.Assignment × e.Assignment
  | .check _ | .lit _ => Unit
  | .unknown => Bool

/-- Two-valued evaluation of the tree, the `unknown` leaves read from an assignment. -/
def evalWith (ctx : C) : (e : CheapExpr C M) → e.Assignment → Bool
  | .and a b, σ => a.evalWith ctx σ.1 && b.evalWith ctx σ.2
  | .or a b, σ => a.evalWith ctx σ.1 || b.evalWith ctx σ.2
  | .not inner, σ => !inner.evalWith ctx σ
  | .cond c t e, σ =>
    bif c.evalWith ctx σ.1 then t.evalWith ctx σ.2.1 else e.evalWith ctx σ.2.2
  | .check leaf, _ => leaf.check ctx leaf.metadata
  | .lit v, _ => v
  | .unknown, σ => σ

/-- The results of the tree over all assignments. -/
def outcomes (ctx : C) (e : CheapExpr C M) : Set Bool :=
  Set.range (e.evalWith ctx)

/-- **The evaluation is exact**: the answer leaves open the outcomes of the tree, no more and no
less. The occurrences are independent, so the outcomes of a connective are the connective of the
outcomes. -/
theorem denote_eval (ctx : C) (e : CheapExpr C M) : (e.eval ctx).denote = e.outcomes ctx := by
  induction e with
  | and a b iha ihb =>
    simp only [eval, denote_triAnd, iha, ihb, outcomes]
    ext v
    constructor
    · rintro ⟨_, ⟨σ, rfl⟩, _, ⟨τ, rfl⟩, rfl⟩
      exact ⟨(σ, τ), rfl⟩
    · rintro ⟨⟨σ, τ⟩, rfl⟩
      exact ⟨_, ⟨σ, rfl⟩, _, ⟨τ, rfl⟩, rfl⟩
  | or a b iha ihb =>
    simp only [eval, denote_triOr, iha, ihb, outcomes]
    ext v
    constructor
    · rintro ⟨_, ⟨σ, rfl⟩, _, ⟨τ, rfl⟩, rfl⟩
      exact ⟨(σ, τ), rfl⟩
    · rintro ⟨⟨σ, τ⟩, rfl⟩
      exact ⟨_, ⟨σ, rfl⟩, _, ⟨τ, rfl⟩, rfl⟩
  | not inner ih =>
    simp only [eval, denote_triNot, ih, outcomes]
    exact (Set.range_comp _ _).symm
  | cond c t e ihc iht ihe =>
    simp only [eval, denote_triCond, ihc, iht, ihe, outcomes]
    ext v
    constructor
    · rintro ⟨_, ⟨σ, rfl⟩, _, ⟨τ, rfl⟩, _, ⟨υ, rfl⟩, rfl⟩
      exact ⟨(σ, τ, υ), rfl⟩
    · rintro ⟨⟨σ, τ, υ⟩, rfl⟩
      exact ⟨_, ⟨σ, rfl⟩, _, ⟨τ, rfl⟩, _, ⟨υ, rfl⟩, rfl⟩
  | check leaf =>
    rw [eval, denote_fromBool]
    exact (Set.range_const (ι := Unit)).symm
  | lit v =>
    rw [eval, denote_fromBool]
    exact (Set.range_const (ι := Unit)).symm
  | unknown => exact Set.range_id.symm

theorem evalWith_mem_denote (ctx : C) (e : CheapExpr C M) (σ : e.Assignment) :
    e.evalWith ctx σ ∈ (e.eval ctx).denote := by
  rw [denote_eval]
  exact ⟨σ, rfl⟩

theorem exists_evalWith {ctx : C} {e : CheapExpr C M} {b : Bool} (h : b ∈ (e.eval ctx).denote) :
    ∃ σ, e.evalWith ctx σ = b := by
  rwa [denote_eval] at h

/-- The tree is decided as `b` exactly when every assignment makes it `b`. -/
theorem eval_eq_fromBool_iff (ctx : C) (e : CheapExpr C M) (b : Bool) :
    e.eval ctx = fromBool b ↔ ∀ σ, e.evalWith ctx σ = b := by
  constructor
  · intro h σ
    have hσ := evalWith_mem_denote ctx e σ
    rwa [h, denote_fromBool] at hσ
  · intro h
    have only : ∀ v ∈ (e.eval ctx).denote, v = b := by
      intro v hv
      obtain ⟨σ, rfl⟩ := exists_evalWith hv
      exact h σ
    cases ht : e.eval ctx with
    | true => rw [← only true (by rw [ht]; rfl)]; rfl
    | false => rw [← only false (by rw [ht]; rfl)]; rfl
    | unknown =>
      have h1 := only true (by rw [ht]; trivial)
      have h2 := only false (by rw [ht]; trivial)
      rw [← h2] at h1; cases h1

theorem eval_eq_unknown_iff (ctx : C) (e : CheapExpr C M) :
    e.eval ctx = .unknown ↔ (∃ σ, e.evalWith ctx σ = true) ∧ ∃ σ, e.evalWith ctx σ = false := by
  constructor
  · intro h
    exact ⟨exists_evalWith (by rw [h]; trivial), exists_evalWith (by rw [h]; trivial)⟩
  · rintro ⟨⟨σ, hσ⟩, ⟨τ, hτ⟩⟩
    have h1 := evalWith_mem_denote ctx e σ
    have h2 := evalWith_mem_denote ctx e τ
    rw [hσ] at h1
    rw [hτ] at h2
    cases ht : e.eval ctx with
    | true => rw [ht] at h2; cases h2
    | false => rw [ht] at h1; cases h1
    | unknown => rfl

/-- A complete tree has a single assignment. -/
theorem assignment_unique : ∀ (e : CheapExpr C M), e.isComplete = true →
    ∀ σ τ : e.Assignment, σ = τ
  | .and a b, h, (σ₁, σ₂), (τ₁, τ₂) => by
    obtain ⟨ha, hb⟩ := Bool.and_eq_true_iff.1 h
    rw [assignment_unique a ha σ₁ τ₁, assignment_unique b hb σ₂ τ₂]
  | .or a b, h, (σ₁, σ₂), (τ₁, τ₂) => by
    obtain ⟨ha, hb⟩ := Bool.and_eq_true_iff.1 h
    rw [assignment_unique a ha σ₁ τ₁, assignment_unique b hb σ₂ τ₂]
  | .not inner, h, σ, τ => assignment_unique inner h σ τ
  | .cond c t e, h, (σ₁, σ₂, σ₃), (τ₁, τ₂, τ₃) => by
    obtain ⟨hct, he⟩ := Bool.and_eq_true_iff.1 h
    obtain ⟨hc, ht⟩ := Bool.and_eq_true_iff.1 hct
    rw [assignment_unique c hc σ₁ τ₁, assignment_unique t ht σ₂ τ₂, assignment_unique e he σ₃ τ₃]
  | .check _, _, (), () => rfl
  | .lit _, _, (), () => rfl

/-- A complete tree is always decided. -/
theorem eval_ne_unknown {e : CheapExpr C M} (h : e.isComplete = true) (ctx : C) :
    e.eval ctx ≠ .unknown := by
  intro hu
  obtain ⟨⟨σ, hσ⟩, ⟨τ, hτ⟩⟩ := (eval_eq_unknown_iff ctx e).1 hu
  rw [assignment_unique e h σ τ, hτ] at hσ
  cases hσ

/-- **Exactness of the pre-check**: the answer is `true`, or `false`, exactly when every assignment
of booleans to the `unknown` leaves gives that result, and `unknown` exactly when both results
occur; a complete tree is never answered `unknown`. -/
theorem eval_exact (e : CheapExpr C M) (ctx : C) :
    (e.eval ctx = .true ↔ ∀ σ, e.evalWith ctx σ = true) ∧
    (e.eval ctx = .false ↔ ∀ σ, e.evalWith ctx σ = false) ∧
    (e.eval ctx = .unknown ↔
      (∃ σ, e.evalWith ctx σ = true) ∧ ∃ σ, e.evalWith ctx σ = false) ∧
    (e.isComplete = true → e.eval ctx ≠ .unknown) :=
  ⟨eval_eq_fromBool_iff ctx e true, eval_eq_fromBool_iff ctx e false,
    eval_eq_unknown_iff ctx e, fun h => eval_ne_unknown h ctx⟩

end CheapExpr

end Lonesome.Cel
