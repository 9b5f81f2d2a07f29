import Lonesome.Matcher.CelCommon
import Lonesome.Matcher.Precheck.Expr

/-!
# Building the pre-check from a rule

`src/matcher/precheck/cel.rs`. `build` walks the boolean skeleton of a compiled CEL rule
(`&&`, `||`, `!`, `?:`, boolean literals, and `Host`/`Path`/`PathPrefix` of a string literal) and
turns everything else below it into `unknown`; `analyze` lists the literals of the skeleton.

Of the AST of the `cel` crate only the parts that `build` looks into are kept apart: calls and
boolean and string literals. All other expressions (identifiers, selections, comprehensions, the
other literals, ...) are `other`, over an arbitrary type.
-/

namespace Lonesome.Cel

/-- An expression of a compiled rule. -/
inductive Expr (ω : Type) where
  | call (target : Option (Expr ω)) (funcName : String) (args : List (Expr ω))
  | boolean (v : Bool)
  | string (v : Str)
  | other (x : ω)

def fnHost : String := "Host"
def fnPath : String := "Path"
def fnPathPrefix : String := "PathPrefix"

/-! The names that the `cel` parser gives to the logical operators. -/

def logicalAnd : String := "_&&_"
def logicalOr : String := "_||_"
def logicalNot : String := "!_"
def conditional : String := "_?_:_"

namespace Expr

variable {ω : Type}

def and (a b : Expr ω) : Expr ω := .call none logicalAnd [a, b]
def or (a b : Expr ω) : Expr ω := .call none logicalOr [a, b]
def not (a : Expr ω) : Expr ω := .call none logicalNot [a]
def cond (c a b : Expr ω) : Expr ω := .call none conditional [c, a, b]

end Expr

/-- Which constraint a cheap leaf checks, with the literal it refers to. -/
inductive CheckMeta where
  | host (value : Str)
  | path (value : Str)
  | pathPrefix (value : Str)
  deriving DecidableEq, Repr

/-- The call that a cheap leaf stands for. -/
def CheckMeta.expr {ω : Type} : CheckMeta → Expr ω
  | .host v => .call none fnHost [.string v]
  | .path v => .call none fnPath [.string v]
  | .pathPrefix v => .call none fnPathPrefix [.string v]

/-- Request attributes that the cheap checks consult. -/
class Source (C : Type) where
  host : C → Str
  path : C → Str

instance : Source (Str × Str) where
  host := Prod.fst
  path := Prod.snd

/-- The one cheap-check implementation. -/
def check {C : Type} [Source C] (ctx : C) : CheckMeta → Bool
  | .host value => hostMatches (Source.host ctx) value
  | .path value => Source.path ctx == value
  | .pathPrefix value => value.isPrefixOf (Source.path ctx)

section Build

variable {C ω : Type} [Source C]

mutual

/-- Builds a cheap boolean constraint from a compiled rule; `none` when the root cannot be
evaluated partially. -/
def build : Expr ω → Option (CheapExpr C CheckMeta)
  | .call target funcName args => buildCall target funcName args
  | .boolean v => some (.lit v)
  | _ => none
termination_by structural e => e

def buildCall (target : Option (Expr ω)) (funcName : String) (args : List (Expr ω)) :
    Option (CheapExpr C CheckMeta) :=
  if target.isSome then none
  else if funcName = fnHost ∨ funcName = fnPath ∨ funcName = fnPathPrefix then
    match args with
    | [.string value] =>
      let m : CheckMeta :=
        if funcName = fnPath then .path value
        else if funcName = fnPathPrefix then .pathPrefix value
        else .host value
      some (.check ⟨m, check⟩)
    | _ => none
  else if funcName = logicalAnd then
    match args with
    | [a, b] => some (.and ((build a).getD .unknown) ((build b).getD .unknown))
    | _ => none
  else if funcName = logicalOr then
    match args with
    | [a, b] => some (.or ((build a).getD .unknown) ((build b).getD .unknown))
    | _ => none
  else if funcName = logicalNot then
    match args with
    | [a] => some (.not ((build a).getD .unknown))
    | _ => none
  else if funcName = conditional then
    match args with
    | [c, a, b] =>
      some (.cond ((build c).getD .unknown) ((build a).getD .unknown) ((build b).getD .unknown))
    | _ => none
  else none
termination_by structural args

end

/-- Like `build`, but collapses what cannot be optimized into `unknown`. -/
def buildOpt (e : Expr ω) : CheapExpr C CheckMeta :=
  (build e).getD .unknown

end Build

/-! ## Static analysis -/

/-- The constraints that a rule refers to, and whether the pre-check alone decides it. -/
structure RuleConstraints where
  hosts : List Str
  paths : List Str
  pathPrefixes : List Str
  fullyPrecheckable : Bool
  deriving DecidableEq, Repr

/-- The source that only serves to look at the shape of the tree. -/
structure UnitSource

instance : Source UnitSource where
  host _ := []
  path _ := []

def pushUnique (list : List Str) (value : Str) : List Str :=
  if list.contains value then list else list ++ [value]

def RuleConstraints.push (c : RuleConstraints) : CheckMeta → RuleConstraints
  | .host value => { c with hosts := pushUnique c.hosts value }
  | .path value => { c with paths := pushUnique c.paths value }
  | .pathPrefix value => { c with pathPrefixes := pushUnique c.pathPrefixes value }

/-- The `Host`/`Path`/`PathPrefix` literals in the skeleton of a rule. -/
def analyze {ω : Type} (e : Expr ω) : RuleConstraints :=
  let cheap : Option (CheapExpr UnitSource CheckMeta) := build e
  let constraints : RuleConstraints := ⟨[], [], [], cheap.any (·.isComplete)⟩
  match cheap with
  | some cheap => cheap.forEachLeaf RuleConstraints.push constraints
  | none => constraints

/-! ## The skeleton of a rule -/

section Skeleton

variable {C ω : Type} [Source C]

theorem build_check (m : CheckMeta) :
    build (m.expr : Expr ω) = some (.check ⟨m, check⟩ : CheapExpr C CheckMeta) := by
  cases m <;> simp [CheckMeta.expr, build, buildCall, fnHost, fnPath, fnPathPrefix]

theorem build_and (a b : Expr ω) :
    build (a.and b) = some (.and (buildOpt a) (buildOpt b) : CheapExpr C CheckMeta) := by
  simp [Expr.and, build, buildCall, buildOpt, fnHost, fnPath, fnPathPrefix, logicalAnd]

theorem build_or (a b : Expr ω) :
    build (a.or b) = some (.or (buildOpt a) (buildOpt b) : CheapExpr C CheckMeta) := by
  simp [Expr.or, build, buildCall, buildOpt, fnHost, fnPath, fnPathPrefix, logicalAnd, logicalOr]

theorem build_not (a : Expr ω) :
    build a.not = some (.not (buildOpt a) : CheapExpr C CheckMeta) := by
  simp [Expr.not, build, buildCall, buildOpt, fnHost, fnPath, fnPathPrefix, logicalAnd, logicalOr,
    logicalNot]

theorem build_cond (c a b : Expr ω) :
    build (c.cond a b) =
      some (.cond (buildOpt c) (buildOpt a) (buildOpt b) : CheapExpr C CheckMeta) := by
  simp [Expr.cond, build, buildCall, buildOpt, fnHost, fnPath, fnPathPrefix, logicalAnd, logicalOr,
    logicalNot, conditional]

variable (C) in
/-- The part of a rule that `build` sees: a node it knows over parts of the same kind, or an
expression it does not look into. -/
inductive Skeleton : Expr ω → Prop where
  | lit (v : Bool) : Skeleton (.boolean v)
  | check (m : CheckMeta) : Skeleton m.expr
  | and {a b : Expr ω} : Skeleton a → Skeleton b → Skeleton (a.and b)
  | or {a b : Expr ω} : Skeleton a → Skeleton b → Skeleton (a.or b)
  | not {a : Expr ω} : Skeleton a → Skeleton a.not
  | cond {c a b : Expr ω} : Skeleton c → Skeleton a → Skeleton b → Skeleton (c.cond a b)
  | opaq {e : Expr ω} : build e = (none : Option (CheapExpr C CheckMeta)) → Skeleton e

/-- A call whose arguments have skeletons has one: it is a node that `build` knows, or `build`
gives up at it. -/
theorem skeleton_call (funcName : String) (args : List (Expr ω))
    (ih : ∀ a ∈ args, Skeleton C a) : Skeleton C (.call none funcName args) := by
  by_cases hcheck : funcName = fnHost ∨ funcName = fnPath ∨ funcName = fnPathPrefix
  · match args with
    | [.string value] =>
      rcases hcheck with rfl | rfl | rfl
      · exact .check (.host value)
      · exact .check (.path value)
      · exact .check (.pathPrefix value)
    | [] | [.call _ _ _] | [.boolean _] | [.other _] | _ :: _ :: _ =>
      exact .opaq (by simp [build, buildCall.eq_def, hcheck])
  by_cases hand : funcName = logicalAnd
  · subst hand
    match args, ih with
    | [a, b], ih => exact .and (ih a (by simp)) (ih b (by simp))
    | [], _ | [_], _ | _ :: _ :: _ :: _, _ => exact .opaq (by simp [build, buildCall.eq_def, hcheck])
  by_cases hor : funcName = logicalOr
  · subst hor
    match args, ih with
    | [a, b], ih => exact .or (ih a (by simp)) (ih b (by simp))
    | [], _ | [_], _ | _ :: _ :: _ :: _, _ => exact .opaq (by simp [build, buildCall.eq_def, hcheck, hand])
  by_cases hnot : funcName = logicalNot
  · subst hnot
    match args, ih with
    | [a], ih => exact .not (ih a (by simp))
    | [], _ | _ :: _ :: _, _ => exact .opaq (by simp [build, buildCall.eq_def, hcheck, hand, hor])
  by_cases hcond : funcName = conditional
  · subst hcond
    match args, ih with
    | [c, a, b], ih => exact .cond (ih c (by simp)) (ih a (by simp)) (ih b (by simp))
    | [], _ | [_], _ | [_, _], _ | _ :: _ :: _ :: _ :: _, _ =>
      exact .opaq (by simp [build, buildCall.eq_def, hcheck, hand, hor, hnot])
  · exact .opaq (by simp [build, buildCall.eq_def, hcheck, hand, hor, hnot, hcond])

variable (C) in
/-- Every rule has a skeleton: properties of the pre-check are proved by induction on it. -/
theorem skeleton : ∀ e : Expr ω, Skeleton C e
  | .call (some _) _ _ => .opaq (by simp [build, buildCall.eq_def])
  | .call none funcName args => skeleton_call funcName args fun a _ => skeleton a
  | .boolean v => .lit v
  | .string _ => .opaq (by simp [build])
  | .other _ => .opaq (by simp [build])

end Skeleton

/-! ## What the analysis covers

`analyze` looks at the tree over `UnitSource`, the pre-check evaluates the one over the sessions.
The trees are built alike, so the literals that were listed are all that the evaluation reads. -/

section Coverage

variable {S ω : Type} [Source S]

/-- Whether a rule has a tree does not depend on the source it is built for. -/
theorem build_eq_none_iff (C D : Type) [Source C] [Source D] (e : Expr ω) :
    build e = (none : Option (CheapExpr C CheckMeta)) ↔
      build e = (none : Option (CheapExpr D CheckMeta)) := by
  cases e with
  | call target funcName args =>
    rw [build, build, buildCall.eq_def, buildCall.eq_def]
    -- the tests are on the call alone, so both sides take the same branch
    split_ifs <;> first | (split <;> simp) | simp
  | boolean v => simp [build]
  | string v => simp [build]
  | other x => simp [build]

variable (S) in
theorem isComplete_buildOpt (e : Expr ω)
    (h : (buildOpt e : CheapExpr UnitSource CheckMeta).isComplete = true) :
    (buildOpt e : CheapExpr S CheckMeta).isComplete = true := by
  induction skeleton S e with
  | lit v => rfl
  | check m => rw [buildOpt, build_check]; rfl
  | and _ _ iha ihb =>
    rw [buildOpt, build_and] at h ⊢
    obtain ⟨ha, hb⟩ := Bool.and_eq_true_iff.1 h
    exact Bool.and_eq_true_iff.2 ⟨iha ha, ihb hb⟩
  | or _ _ iha ihb =>
    rw [buildOpt, build_or] at h ⊢
    obtain ⟨ha, hb⟩ := Bool.and_eq_true_iff.1 h
    exact Bool.and_eq_true_iff.2 ⟨iha ha, ihb hb⟩
  | not _ ih =>
    rw [buildOpt, build_not] at h ⊢
    exact ih h
  | cond _ _ _ ihc iha ihb =>
    rw [buildOpt, build_cond] at h ⊢
    obtain ⟨hca, hb⟩ := Bool.and_eq_true_iff.1 h
    obtain ⟨hc, ha⟩ := Bool.and_eq_true_iff.1 hca
    exact Bool.and_eq_true_iff.2 ⟨Bool.and_eq_true_iff.2 ⟨ihc hc, iha ha⟩, ihb hb⟩
  | opaq hnone =>
    rw [buildOpt, (build_eq_none_iff S UnitSource _).1 hnone] at h
    cases h

/-- Two sessions on which the leaves of a rule answer alike get the same answer from its tree. -/
theorem eval_buildOpt_congr {s₁ s₂ : S} (e : Expr ω)
    (h : ∀ m ∈ (buildOpt e : CheapExpr UnitSource CheckMeta).leaves, check s₁ m = check s₂ m) :
    (buildOpt e : CheapExpr S CheckMeta).eval s₁ = (buildOpt e).eval s₂ := by
  induction skeleton S e with
  | lit v => rfl
  | check m =>
    rw [buildOpt, build_check] at h ⊢
    exact congrArg fromBool (h m (List.mem_singleton_self m))
  | and _ _ iha ihb =>
    rw [buildOpt, build_and] at h ⊢
    exact congrArg₂ triAnd (iha fun m hm => h m (List.mem_append_left _ hm))
      (ihb fun m hm => h m (List.mem_append_right _ hm))
  | or _ _ iha ihb =>
    rw [buildOpt, build_or] at h ⊢
    exact congrArg₂ triOr (iha fun m hm => h m (List.mem_append_left _ hm))
      (ihb fun m hm => h m (List.mem_append_right _ hm))
  | not _ ih =>
    rw [buildOpt, build_not] at h ⊢
    exact congrArg triNot (ih h)
  | @cond c a b _ _ _ ihc iha ihb =>
    rw [buildOpt, build_cond] at h ⊢
    have hc := ihc fun m hm => h m (List.mem_append_left _ hm)
    have ha := iha fun m hm => h m (List.mem_append_right _ (List.mem_append_left _ hm))
    have hb := ihb fun m hm => h m (List.mem_append_right _ (List.mem_append_right _ hm))
    show triCond _ _ _ = triCond _ _ _
    rw [hc, ha, hb]
  | opaq hnone => rw [buildOpt, hnone]; rfl

/-- The literal of a leaf is in the list that its kind is collected in. -/
def RuleConstraints.Lists (c : RuleConstraints) : CheckMeta → Prop
  | .host value => value ∈ c.hosts
  | .path value => value ∈ c.paths
  | .pathPrefix value => value ∈ c.pathPrefixes

theorem mem_pushUnique {list : List Str} {value v : Str} :
    v ∈ pushUnique list value ↔ v ∈ list ∨ v = value := by
  unfold pushUnique
  split
  · next h =>
    rw [List.contains_iff_mem] at h
    exact ⟨.inl, fun hv => hv.elim id fun heq => heq ▸ h⟩
  · rw [List.mem_append, List.mem_singleton]

theorem RuleConstraints.lists_push (c : RuleConstraints) (m m' : CheckMeta) :
    (c.push m).Lists m' ↔ c.Lists m' ∨ m' = m := by
  cases m <;> cases m' <;> simp [push, Lists, mem_pushUnique]

theorem RuleConstraints.lists_foldl_push (c : RuleConstraints) (l : List CheckMeta)
    (m : CheckMeta) : (l.foldl push c).Lists m ↔ c.Lists m ∨ m ∈ l := by
  induction l generalizing c with
  | nil => simp
  | cons m' l ih => rw [List.foldl_cons, ih, lists_push, List.mem_cons, or_assoc]

/-- The analysis lists the literals of the leaves, no more and no less. -/
theorem lists_analyze (e : Expr ω) (m : CheckMeta) :
    (analyze e).Lists m ↔ m ∈ (buildOpt e : CheapExpr UnitSource CheckMeta).leaves := by
  unfold analyze buildOpt
  cases (build e : Option (CheapExpr UnitSource CheckMeta)) with
  | none => cases m <;> simp [RuleConstraints.Lists, CheapExpr.leaves]
  | some tree =>
    simp only [CheapExpr.forEachLeaf_eq_foldl, RuleConstraints.lists_foldl_push, Option.getD_some]
    cases m <;> simp [RuleConstraints.Lists]

theorem RuleConstraints.fullyPrecheckable_foldl_push (c : RuleConstraints) (l : List CheckMeta) :
    (l.foldl push c).fullyPrecheckable = c.fullyPrecheckable := by
  induction l generalizing c with
  | nil => rfl
  | cons m l ih =>
    rw [List.foldl_cons, ih]
    cases m <;> rfl

theorem fullyPrecheckable_analyze (e : Expr ω) :
    (analyze e).fullyPrecheckable =
      (build e : Option (CheapExpr UnitSource CheckMeta)).any (·.isComplete) := by
  unfold analyze
  cases (build e : Option (CheapExpr UnitSource CheckMeta)) with
  | none => rfl
  | some tree =>
    simp only [CheapExpr.forEachLeaf_eq_foldl, RuleConstraints.fullyPrecheckable_foldl_push]

/-- Two sessions that the listed patterns, paths and path prefixes do not tell apart. -/
structure RuleConstraints.Alike (c : RuleConstraints) (s₁ s₂ : S) : Prop where
  hosts : ∀ pattern ∈ c.hosts,
    hostMatches (Source.host s₁) pattern = hostMatches (Source.host s₂) pattern
  paths : ∀ path ∈ c.paths, (Source.path s₁ = path ↔ Source.path s₂ = path)
  pathPrefixes : ∀ pre ∈ c.pathPrefixes, (pre <+: Source.path s₁ ↔ pre <+: Source.path s₂)

theorem RuleConstraints.Alike.check_eq {c : RuleConstraints} {s₁ s₂ : S} (h : c.Alike s₁ s₂)
    {m : CheckMeta} (hm : c.Lists m) : check s₁ m = check s₂ m := by
  cases m with
  | host value => exact h.hosts value hm
  | path value =>
    rw [check, check, Bool.eq_iff_iff, beq_iff_eq, beq_iff_eq]
    exact h.paths value hm
  | pathPrefix value =>
    rw [check, check, Bool.eq_iff_iff, List.isPrefixOf_iff_prefix, List.isPrefixOf_iff_prefix]
    exact h.pathPrefixes value hm

variable (S) in
/-- **The analysis covers the fast path**: a rule it calls fully pre-checkable has a tree that
decides every session, and sessions that the listed literals do not tell apart get the same
three-valued answer. -/
theorem analyze_covers (e : Expr ω) :
    ((analyze e).fullyPrecheckable = true →
      ∃ tree : CheapExpr S CheckMeta, build e = some tree ∧
        ∀ s, tree.eval s = .true ∨ tree.eval s = .false) ∧
    ∀ s₁ s₂ : S, (analyze e).Alike s₁ s₂ →
      (build e : Option (CheapExpr S CheckMeta)).map (·.eval s₁) =
        (build e : Option (CheapExpr S CheckMeta)).map (·.eval s₂) := by
  constructor
  · intro hfull
    rw [fullyPrecheckable_analyze] at hfull
    obtain ⟨unitTree, hunit, hcomplete⟩ := (Option.any_eq_true _ _).1 hfull
    cases ht : (build e : Option (CheapExpr S CheckMeta)) with
    | none =>
      rw [(build_eq_none_iff S UnitSource e).1 ht] at hunit
      cases hunit
    | some tree =>
      have hunitOpt : (buildOpt e : CheapExpr UnitSource CheckMeta) = unitTree := by
        rw [buildOpt, hunit]; rfl
      have htreeOpt : (buildOpt e : CheapExpr S CheckMeta) = tree := by rw [buildOpt, ht]; rfl
      have hc := isComplete_buildOpt S e (hunitOpt ▸ hcomplete)
      rw [htreeOpt] at hc
      refine ⟨tree, rfl, fun s => ?_⟩
      have hne := CheapExpr.eval_ne_unknown hc s
      cases hv : tree.eval s with
      | true => exact .inl rfl
      | false => exact .inr rfl
      | unknown => exact absurd hv hne
  · intro s₁ s₂ halike
    have heval : (buildOpt e : CheapExpr S CheckMeta).eval s₁ = (buildOpt e).eval s₂ :=
      eval_buildOpt_congr e fun m hm => halike.check_eq ((lists_analyze e m).2 hm)
    cases ht : (build e : Option (CheapExpr S CheckMeta)) with
    | none => rfl
    | some tree =>
      rw [buildOpt, ht] at heval
      exact congrArg some heval

/-- `Host("*.a.com") && !Path("/x")` -/
def hostWithoutPath : Expr Empty :=
  (CheckMeta.host "*.a.com".toList).expr.and (CheckMeta.path "/x".toList).expr.not

theorem hostWithoutPath_alike :
    (analyze hostWithoutPath).Alike ("b.a.com".toList, "/y".toList) ("c.a.com".toList, "/z".toList) where
  hosts := by decide
  paths := by decide
  pathPrefixes := by decide

theorem analyze_covers_hostWithoutPath :
    (∃ tree : CheapExpr (Str × Str) CheckMeta, build hostWithoutPath = some tree ∧
      ∀ s, tree.eval s = .true ∨ tree.eval s = .false) ∧
    (build hostWithoutPath : Option (CheapExpr (Str × Str) CheckMeta)).map
        (·.eval ("b.a.com".toList, "/y".toList)) =
      (build hostWithoutPath : Option (CheapExpr (Str × Str) CheckMeta)).map
        (·.eval ("c.a.com".toList, "/z".toList)) :=
  ⟨(analyze_covers (Str × Str) hostWithoutPath).1 (by decide),
    (analyze_covers (Str × Str) hostWithoutPath).2 _ _ hostWithoutPath_alike⟩

end Coverage

end Lonesome.Cel
