import Lonesome.Matcher.Precheck.Cel

/-!
# Matching a rule, with and without the pre-check

`src/matcher/matcher.rs`. `Matcher.matches` first asks the pre-check tree of its rule and runs the
CEL program only when the tree leaves the answer open.

The `cel` crate is a parameter (`CelRuntime`): how an expression is executed on a request is open,
up to the rules for the logical operators that the CEL specification gives, and the functions
`Host`, `Path` and `PathPrefix`, which are the program's own. What an execution says about a rule
is its boolean (`asBool`), and an error or a value of another kind is no boolean.

The pre-check decides `c ? a : b` when it decides both branches alike, without the condition; the
CEL program fails when the condition does. `matches_faithful_iff` says exactly when this shows:
`BlindTernary` is a conditional without a boolean condition whose failure reaches the root.
-/

namespace Lonesome.Cel

/-! ## The CEL runtime -/

/-- A CEL value: a boolean, or a value of another kind. -/
inductive Value (υ : Type) where
  | bool (v : Bool)
  | other (x : υ)
  deriving DecidableEq, Repr

/-- The boolean that an execution gave; an error and a value of another kind give none. -/
def asBool {ε υ : Type} : Except ε (Value υ) → Option Bool
  | .ok (.bool v) => some v
  | _ => none

/-- `&&` on results: an operand without a boolean is absorbed by a `false` one. -/
def absorbAnd : Option Bool → Option Bool → Option Bool
  | some false, _ => some false
  | _, some false => some false
  | some true, some true => some true
  | _, _ => none

/-- `||` on results: an operand without a boolean is absorbed by a `true` one. -/
def absorbOr : Option Bool → Option Bool → Option Bool
  | some true, _ => some true
  | _, some true => some true
  | some false, some false => some false
  | _, _ => none

/-- Execution of compiled rules, as the `cel` crate and the functions of `cel_common.rs` do it on
the sessions `S`. -/
structure CelRuntime (S ω ε υ : Type) [Source S] where
  execute : S → Expr ω → Except ε (Value υ)
  execute_boolean : ∀ s v, execute s (.boolean v) = .ok (.bool v)
  execute_host : ∀ s v, execute s (CheckMeta.host v).expr =
    .ok (.bool (hostMatches (Source.host s) v))
  execute_path : ∀ s v, execute s (CheckMeta.path v).expr = .ok (.bool (Source.path s == v))
  execute_pathPrefix : ∀ s v, execute s (CheckMeta.pathPrefix v).expr =
    .ok (.bool (v.isPrefixOf (Source.path s)))
  execute_and : ∀ s a b, asBool (execute s (a.and b)) =
    absorbAnd (asBool (execute s a)) (asBool (execute s b))
  execute_or : ∀ s a b, asBool (execute s (a.or b)) =
    absorbOr (asBool (execute s a)) (asBool (execute s b))
  execute_not : ∀ s a, asBool (execute s a.not) = (asBool (execute s a)).map (! ·)
  execute_cond : ∀ s c a b, asBool (execute s (c.cond a b)) =
    (asBool (execute s c)).bind fun v => asBool (execute s (bif v then a else b))

variable {S ω ε υ : Type} [Source S]

/-- A runtime for every behaviour of the expressions outside the boolean skeleton: the logical
operators follow the CEL specification with the error `overload` for an operand that is not a
boolean, everything else is executed by `opaq`. -/
def interpret (opaq : S → Expr ω → Except ε (Value υ)) (overload : ε) (s : S) :
    Expr ω → Except ε (Value υ)
  | .boolean v => .ok (.bool v)
  | .call none "Host" [.string v] => .ok (.bool (hostMatches (Source.host s) v))
  | .call none "Path" [.string v] => .ok (.bool (Source.path s == v))
  | .call none "PathPrefix" [.string v] => .ok (.bool (v.isPrefixOf (Source.path s)))
  | .call none "_&&_" [a, b] =>
    match absorbAnd (asBool (interpret opaq overload s a)) (asBool (interpret opaq overload s b)) with
    | some v => .ok (.bool v)
    | none => .error overload
  | .call none "_||_" [a, b] =>
    match absorbOr (asBool (interpret opaq overload s a)) (asBool (interpret opaq overload s b)) with
    | some v => .ok (.bool v)
    | none => .error overload
  | .call none "!_" [a] =>
    match asBool (interpret opaq overload s a) with
    | some v => .ok (.bool (!v))
    | none => .error overload
  | .call none "_?_:_" [c, a, b] =>
    match asBool (interpret opaq overload s c) with
    | some true => interpret opaq overload s a
    | some false => interpret opaq overload s b
    | none => .error overload
  | e => opaq s e

def CelRuntime.ofOpaque (opaq : S → Expr ω → Except ε (Value υ)) (overload : ε) :
    CelRuntime S ω ε υ where
  execute := interpret opaq overload
  execute_boolean _ _ := rfl
  execute_host _ _ := rfl
  execute_path _ _ := rfl
  execute_pathPrefix _ _ := rfl
  execute_and s a b := by
    simp only [Expr.and, logicalAnd, interpret]
    split <;> rename_i h <;> rw [h] <;> rfl
  execute_or s a b := by
    simp only [Expr.or, logicalOr, interpret]
    split <;> rename_i h <;> rw [h] <;> rfl
  execute_not s a := by
    simp only [Expr.not, logicalNot, interpret]
    split <;> rename_i h <;> rw [h] <;> rfl
  execute_cond s c a b := by
    simp only [Expr.cond, conditional, interpret]
    split <;> rename_i h <;> rw [h] <;> rfl

/-- A compiled rule with its pre-check. -/
structure Matcher (S ω : Type) where
  program : Expr ω
  precheck : Option (CheapExpr S CheckMeta)

/-- `Matcher::from_cel`, on a rule that compiles. -/
def Matcher.fromCel (program : Expr ω) : Matcher S ω :=
  { program, precheck := build program }

/-- `Matcher::matches`. -/
def Matcher.matches (R : CelRuntime S ω ε υ) (m : Matcher S ω) (s : S) : Bool :=
  let full :=
    match R.execute s m.program with
    | .ok (.bool v) => v
    | .ok (.other _) => false
    | .error _ => false
  match m.precheck with
  | some expr =>
    match expr.eval s with
    | .false => false
    | .true => true
    | .unknown => full
  | none => full

/-- `Matcher::matches` without the fast path. -/
def Matcher.withoutPrecheck (m : Matcher S ω) : Matcher S ω :=
  { m with precheck := none }

/-- The pre-check answer of a rule, `unknown` when it has no tree. -/
def precheckAnswer (s : S) (e : Expr ω) : Tri :=
  (buildOpt e : CheapExpr S CheckMeta).eval s

/-- Whenever the pre-check of the rule answers, the CEL program alone gives that answer. -/
def PrecheckFaithful (R : CelRuntime S ω ε υ) (e : Expr ω) (s : S) : Prop :=
  ∀ tree : CheapExpr S CheckMeta, build e = some tree → ∀ b : Bool, tree.eval s = fromBool b →
    (Matcher.fromCel e).withoutPrecheck.matches R s = b

/-- A conditional without a boolean condition, not absorbed on the way to the root: the part of
the rule that makes it fail. -/
inductive BlindTernary (R : CelRuntime S ω ε υ) (s : S) : Expr ω → Prop where
  | condition {c a b : Expr ω} : asBool (R.execute s c) = none → BlindTernary R s (c.cond a b)
  | thn {c a b : Expr ω} : asBool (R.execute s c) = some true → BlindTernary R s a →
      BlindTernary R s (c.cond a b)
  | els {c a b : Expr ω} : asBool (R.execute s c) = some false → BlindTernary R s b →
      BlindTernary R s (c.cond a b)
  | not {a : Expr ω} : BlindTernary R s a → BlindTernary R s a.not
  | andLeft {a b : Expr ω} : BlindTernary R s a → asBool (R.execute s b) ≠ some false →
      BlindTernary R s (a.and b)
  | andRight {a b : Expr ω} : asBool (R.execute s a) ≠ some false → BlindTernary R s b →
      BlindTernary R s (a.and b)
  | orLeft {a b : Expr ω} : BlindTernary R s a → asBool (R.execute s b) ≠ some true →
      BlindTernary R s (a.or b)
  | orRight {a b : Expr ω} : asBool (R.execute s a) ≠ some true → BlindTernary R s b →
      BlindTernary R s (a.or b)

/-- The rule is true whatever booleans the parts that the pre-check does not look into give. -/
def HoldsRegardless (s : S) (e : Expr ω) : Prop :=
  ∀ σ : (buildOpt e : CheapExpr S CheckMeta).Assignment, (buildOpt e).evalWith s σ = true

/-! ## The pre-check against the program -/

@[simp] theorem precheckAnswer_lit (s : S) (v : Bool) :
    precheckAnswer s (.boolean v : Expr ω) = fromBool v := rfl

@[simp] theorem precheckAnswer_check (s : S) (m : CheckMeta) :
    precheckAnswer s (m.expr : Expr ω) = fromBool (check s m) := by
  simp [precheckAnswer, buildOpt, build_check, CheapExpr.eval]

@[simp] theorem precheckAnswer_and (s : S) (a b : Expr ω) :
    precheckAnswer s (a.and b) = triAnd (precheckAnswer s a) (precheckAnswer s b) := by
  rw [precheckAnswer, buildOpt, build_and]; rfl

@[simp] theorem precheckAnswer_or (s : S) (a b : Expr ω) :
    precheckAnswer s (a.or b) = triOr (precheckAnswer s a) (precheckAnswer s b) := by
  rw [precheckAnswer, buildOpt, build_or]; rfl

@[simp] theorem precheckAnswer_not (s : S) (a : Expr ω) :
    precheckAnswer s a.not = triNot (precheckAnswer s a) := by
  rw [precheckAnswer, buildOpt, build_not]; rfl

@[simp] theorem precheckAnswer_cond (s : S) (c a b : Expr ω) :
    precheckAnswer s (c.cond a b) =
      triCond (precheckAnswer s c) (precheckAnswer s a) (precheckAnswer s b) := by
  rw [precheckAnswer, buildOpt, build_cond]; rfl

theorem precheckAnswer_opaq (s : S) {e : Expr ω}
    (h : build e = (none : Option (CheapExpr S CheckMeta))) : precheckAnswer s e = .unknown := by
  rw [precheckAnswer, buildOpt, h]; rfl

theorem execute_check (R : CelRuntime S ω ε υ) (s : S) (m : CheckMeta) :
    asBool (R.execute s m.expr) = some (check s m) := by
  cases m with
  | host v => rw [R.execute_host]; rfl
  | path v => rw [R.execute_path]; rfl
  | pathPrefix v => rw [R.execute_pathPrefix]; rfl

/-- A rule with a blind conditional fails. -/
theorem BlindTernary.asBool_eq_none {R : CelRuntime S ω ε υ} {s : S} {e : Expr ω}
    (h : BlindTernary R s e) : asBool (R.execute s e) = none := by
  induction h with
  | condition hc => rw [R.execute_cond, hc]; rfl
  | thn hc _ ih => rw [R.execute_cond, hc]; exact ih
  | els hc _ ih => rw [R.execute_cond, hc]; exact ih
  | not _ ih => rw [R.execute_not, ih]; rfl
  | @andLeft a b _ hb ih =>
    rw [R.execute_and, ih]
    rcases hv : asBool (R.execute s b) with _ | _ | _
    · rfl
    · exact absurd hv hb
    · rfl
  | @andRight a b ha _ ih =>
    rw [R.execute_and, ih]
    rcases hv : asBool (R.execute s a) with _ | _ | _
    · rfl
    · exact absurd hv ha
    · rfl
  | @orLeft a b _ hb ih =>
    rw [R.execute_or, ih]
    rcases hv : asBool (R.execute s b) with _ | _ | _
    · rfl
    · rfl
    · exact absurd hv hb
  | @orRight a b ha _ ih =>
    rw [R.execute_or, ih]
    rcases hv : asBool (R.execute s a) with _ | _ | _
    · rfl
    · rfl
    · exact absurd hv ha

theorem triAnd_eq_true {a b : Tri} (h : triAnd a b = .true) : a = .true ∧ b = .true := by
  cases a <;> cases b <;> simp_all [triAnd]

theorem triAnd_eq_false {a b : Tri} (h : triAnd a b = .false) : a = .false ∨ b = .false := by
  cases a <;> cases b <;> simp_all [triAnd]

theorem triOr_eq_true {a b : Tri} (h : triOr a b = .true) : a = .true ∨ b = .true := by
  cases a <;> cases b <;> simp_all [triOr]

theorem triOr_eq_false {a b : Tri} (h : triOr a b = .false) : a = .false ∧ b = .false := by
  cases a <;> cases b <;> simp_all [triOr]

theorem triNot_eq_fromBool {a : Tri} {b : Bool} (h : triNot a = fromBool b) :
    a = fromBool (!b) := by
  cases a <;> cases b <;> simp_all [triNot, fromBool]

/-- A decided conditional has a branch decided alike for every answer its condition still has. -/
theorem triCond_eq_fromBool {c a b : Tri} {v : Bool} (h : triCond c a b = fromBool v) :
    (c ≠ .false → a = fromBool v) ∧ (c ≠ .true → b = fromBool v) := by
  cases c <;> cases a <;> cases b <;> cases v <;> simp_all [triCond, fromBool]

theorem fromBool_injective {a b : Bool} (h : fromBool a = fromBool b) : a = b := by
  cases a <;> cases b <;> simp_all [fromBool]

/-- When the pre-check decides the rule, the program gives the decided boolean, or the rule has a
blind conditional. For both booleans at once, since negation swaps them. -/
def DecidedRight (R : CelRuntime S ω ε υ) (s : S) (e : Expr ω) : Prop :=
  ∀ v : Bool, precheckAnswer s e = fromBool v →
    asBool (R.execute s e) = some v ∨ BlindTernary R s e

namespace DecidedRight

variable {R : CelRuntime S ω ε υ} {s : S} {a b c : Expr ω}

theorem and (iha : DecidedRight R s a) (ihb : DecidedRight R s b) :
    DecidedRight R s (a.and b) := by
  intro v h
  rw [precheckAnswer_and] at h
  rw [R.execute_and]
  cases v with
  | true =>
    obtain ⟨ha, hb⟩ := triAnd_eq_true h
    rcases iha true ha with ha | ha <;> rcases ihb true hb with hb | hb
    · exact .inl (by rw [ha, hb]; rfl)
    · exact .inr (.andRight (by rw [ha]; simp) hb)
    · exact .inr (.andLeft ha (by rw [hb]; simp))
    · exact .inr (.andLeft ha (by rw [hb.asBool_eq_none]; simp))
  | false =>
    rcases triAnd_eq_false h with ha | hb
    · rcases iha false ha with ha | ha
      · exact .inl (by rw [ha]; rfl)
      · by_cases hb : asBool (R.execute s b) = some false
        · exact .inl (by rw [ha.asBool_eq_none, hb]; rfl)
        · exact .inr (.andLeft ha hb)
    · rcases ihb false hb with hb | hb
      · exact .inl (by rw [hb]; rcases asBool (R.execute s a) with _ | _ | _ <;> rfl)
      · by_cases ha : asBool (R.execute s a) = some false
        · exact .inl (by rw [ha]; rfl)
        · exact .inr (.andRight ha hb)

theorem or (iha : DecidedRight R s a) (ihb : DecidedRight R s b) : DecidedRight R s (a.or b) := by
  intro v h
  rw [precheckAnswer_or] at h
  rw [R.execute_or]
  cases v with
  | true =>
    rcases triOr_eq_true h with ha | hb
    · rcases iha true ha with ha | ha
      · exact .inl (by rw [ha]; rfl)
      · by_cases hb : asBool (R.execute s b) = some true
        · exact .inl (by rw [ha.asBool_eq_none, hb]; rfl)
        · exact .inr (.orLeft ha hb)
    · rcases ihb true hb with hb | hb
      · exact .inl (by rw [hb]; rcases asBool (R.execute s a) with _ | _ | _ <;> rfl)
      · by_cases ha : asBool (R.execute s a) = some true
        · exact .inl (by rw [ha]; rfl)
        · exact .inr (.orRight ha hb)
  | false =>
    obtain ⟨ha, hb⟩ := triOr_eq_false h
    rcases iha false ha with ha | ha <;> rcases ihb false hb with hb | hb
    · exact .inl (by rw [ha, hb]; rfl)
    · exact .inr (.orRight (by rw [ha]; simp) hb)
    · exact .inr (.orLeft ha (by rw [hb]; simp))
    · exact .inr (.orLeft ha (by rw [hb.asBool_eq_none]; simp))

theorem not (ih : DecidedRight R s a) : DecidedRight R s a.not := by
  intro v h
  rw [precheckAnswer_not] at h
  rw [R.execute_not]
  rcases ih (!v) (triNot_eq_fromBool h) with ha | ha
  · exact .inl (by rw [ha]; simp)
  · exact .inr (.not ha)

/-- A condition with a boolean is not decided as the other one. -/
theorem precheckAnswer_ne (ih : DecidedRight R s c) {v : Bool}
    (hc : asBool (R.execute s c) = some v) : precheckAnswer s c ≠ fromBool (!v) := by
  intro hdecided
  rcases ih (!v) hdecided with h | h
  · rw [hc] at h
    cases v <;> cases h
  · rw [h.asBool_eq_none] at hc
    cases hc

theorem cond (ihc : DecidedRight R s c) (iha : DecidedRight R s a) (ihb : DecidedRight R s b) :
    DecidedRight R s (c.cond a b) := by
  intro v h
  rw [precheckAnswer_cond] at h
  obtain ⟨ht, he⟩ := triCond_eq_fromBool h
  rw [R.execute_cond]
  rcases hc : asBool (R.execute s c) with _ | _ | _
  · exact .inr (.condition hc)
  · exact (ihb v (he (ihc.precheckAnswer_ne hc))).imp id (.els hc)
  · exact (iha v (ht (ihc.precheckAnswer_ne hc))).imp id (.thn hc)

end DecidedRight

/-- **What a decided rule does in CEL**, by induction on the skeleton. -/
theorem decidedRight (R : CelRuntime S ω ε υ) (s : S) (e : Expr ω) : DecidedRight R s e := by
  induction skeleton S e with
  | lit w =>
    intro v h
    rw [R.execute_boolean]
    exact .inl (congrArg some (fromBool_injective (precheckAnswer_lit s w ▸ h)))
  | check m =>
    intro v h
    rw [execute_check]
    exact .inl (congrArg some (fromBool_injective (precheckAnswer_check (ω := ω) s m ▸ h)))
  | and _ _ iha ihb => exact iha.and ihb
  | or _ _ iha ihb => exact iha.or ihb
  | not _ ih => exact ih.not
  | cond _ _ _ ihc iha ihb => exact ihc.cond iha ihb
  | opaq h =>
    intro v hv
    rw [precheckAnswer_opaq s h] at hv
    cases v <;> simp [fromBool] at hv

/-! ## The fast path -/

theorem matches_withoutPrecheck (R : CelRuntime S ω ε υ) (s : S) (e : Expr ω) :
    (Matcher.fromCel e).withoutPrecheck.matches R s = (asBool (R.execute s e)).getD false := by
  simp only [Matcher.matches, Matcher.withoutPrecheck, Matcher.fromCel, asBool]
  rcases R.execute s e with _ | _ | _ <;> rfl

theorem matches_fromCel (R : CelRuntime S ω ε υ) (s : S) (e : Expr ω) :
    (Matcher.fromCel e).matches R s =
      match precheckAnswer s e with
      | .false => false
      | .true => true
      | .unknown => (Matcher.fromCel e).withoutPrecheck.matches R s := by
  simp only [Matcher.matches, Matcher.withoutPrecheck, Matcher.fromCel, precheckAnswer, buildOpt]
  cases (build e : Option (CheapExpr S CheckMeta)) with
  | none => rfl
  | some tree => rfl

theorem holdsRegardless_iff (s : S) (e : Expr ω) :
    HoldsRegardless s e ↔ precheckAnswer s e = .true :=
  (CheapExpr.eval_eq_fromBool_iff s (buildOpt e) true).symm

/-- A decided rule is matched as decided, unless it was decided `true` and a blind conditional
makes the program fail. -/
theorem withoutPrecheck_eq_iff (R : CelRuntime S ω ε υ) (s : S) (e : Expr ω) {b : Bool}
    (h : precheckAnswer s e = fromBool b) :
    (Matcher.fromCel e).withoutPrecheck.matches R s = b ↔ ¬ (b = true ∧ BlindTernary R s e) := by
  rw [matches_withoutPrecheck]
  rcases decidedRight R s e b h with hv | hbl
  · have hnb : ¬ BlindTernary R s e := fun hb => by
      rw [hb.asBool_eq_none] at hv; cases hv
    simp [hv, hnb]
  · rw [hbl.asBool_eq_none]
    cases b <;> simp [hbl]

theorem precheckFaithful_iff (R : CelRuntime S ω ε υ) (s : S) (e : Expr ω) :
    PrecheckFaithful R e s ↔
      ∀ b : Bool, precheckAnswer s e = fromBool b →
        (Matcher.fromCel e).withoutPrecheck.matches R s = b := by
  unfold PrecheckFaithful precheckAnswer buildOpt
  constructor
  · intro h b hb
    cases ht : (build e : Option (CheapExpr S CheckMeta)) with
    | none => rw [ht] at hb; cases b <;> simp [CheapExpr.eval, fromBool] at hb
    | some tree => rw [ht] at hb; exact h tree ht b hb
  · intro h tree ht b hb
    exact h b (by rw [ht]; exact hb)

/-- **When the fast path is faithful**: on a rule and a session the decided pre-check agrees with
the program, and `matches` with and without the pre-check are equal, exactly when the rule does
not both hold regardless of the parts the pre-check skips and fail in a blind conditional. -/
theorem matches_faithful_iff (R : CelRuntime S ω ε υ) (e : Expr ω) (s : S) :
    (PrecheckFaithful R e s ↔ ¬ (HoldsRegardless s e ∧ BlindTernary R s e)) ∧
    ((Matcher.fromCel e).matches R s = (Matcher.fromCel e).withoutPrecheck.matches R s ↔
      ¬ (HoldsRegardless s e ∧ BlindTernary R s e)) := by
  rw [precheckFaithful_iff, holdsRegardless_iff, matches_fromCel]
  cases ht : precheckAnswer s e with
  | true =>
    have hk := withoutPrecheck_eq_iff R s e (b := true) ht
    refine ⟨⟨fun h hb => hk.1 (h true rfl) ⟨rfl, hb.2⟩, fun h b hb => ?_⟩, ?_⟩
    · obtain rfl : true = b := fromBool_injective hb
      exact hk.2 fun hb => h ⟨rfl, hb.2⟩
    · rw [eq_comm, hk]; simp
  | false =>
    have hk := withoutPrecheck_eq_iff R s e (b := false) ht
    have hfull := hk.2 (by simp)
    refine ⟨⟨fun _ hb => (by cases hb.1), fun _ b hb => ?_⟩, ?_⟩
    · obtain rfl : false = b := fromBool_injective hb
      exact hfull
    · simp [hfull]
  | unknown =>
    refine ⟨⟨fun _ hb => (by cases hb.1), fun _ b hb => ?_⟩, by simp⟩
    cases b <;> cases hb

/-! The smallest case: `HostValue() ? Host("a") : Host("a")`, whose condition is a string. -/

/-- Outside the skeleton only `HostValue()` is executed, to the text of the host. -/
def hostValueRuntime : CelRuntime (Str × Str) Empty String Str :=
  CelRuntime.ofOpaque (fun s e =>
    match e with
    | .call none "HostValue" [] => .ok (.other s.1)
    | _ => .error "undeclared reference") "no such overload"

def ternaryOnHostValue : Expr Empty :=
  (Expr.call none "HostValue" []).cond (CheckMeta.host "a".toList).expr
    (CheckMeta.host "a".toList).expr

theorem ternaryOnHostValue_not_faithful :
    (Matcher.fromCel ternaryOnHostValue).matches hostValueRuntime ("a".toList, "/".toList) = true ∧
    (Matcher.fromCel ternaryOnHostValue).withoutPrecheck.matches hostValueRuntime
      ("a".toList, "/".toList) = false ∧
    ¬ PrecheckFaithful hostValueRuntime ternaryOnHostValue ("a".toList, "/".toList) := by
  refine ⟨by decide, by decide, fun h => ?_⟩
  have hk := h _ rfl true (by decide)
  revert hk
  decide

end Lonesome.Cel
