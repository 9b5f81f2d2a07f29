import Lonesome.Proxy.Refinement

/-!
# Spellings of the routing host

Two requests whose routing hosts are the same host name in two spellings (`hostname_eq`: ASCII case
and trailing dots apart) should get the same route from rules about the host and the path. The
comparison that `host_matches` makes is by the letter, so they do exactly as long as the `Host`
literals do not tell the spellings apart.

The rules are trees (`HostRule`), with what they say about a host and a path (`HostRule.Holds`). The
pre-check decides each of them as it says (`precheckAnswer_expr`), so the route that is selected is
the first whose rule holds (`matchedRoute_eq`), and `matchedRoute_respelled_iff` compares the two
requests.
-/

namespace Lonesome

open Lonesome.Lib
open Lonesome.Cel (Expr CheckMeta Matcher Tri fromBool triAnd triOr triNot triCond hostMatches
  precheckAnswer buildOpt)

/-! ## Rules about the host and the path -/

/-- The pattern names the host by the letter: it is the host, or it is `*.` with what follows the
first label of the host. -/
def Names (pattern host : Str) : Prop :=
  pattern = host ∨
    ∃ label base, label ≠ [] ∧ '.' ∉ label ∧ pattern = '*' :: '.' :: base ∧ host = label ++ '.' :: base

theorem hostMatches_iff_names (host pattern : Str) :
    hostMatches host pattern = true ↔ Names pattern host := by
  by_cases hwild : ∃ base, pattern = '*' :: '.' :: base
  · obtain ⟨base, rfl⟩ := hwild
    rw [Cel.hostMatches_wildcard]
    constructor
    · rintro ⟨label, hne, hdot, heq⟩
      exact .inr ⟨label, base, hne, hdot, rfl, heq⟩
    · rintro (rfl | ⟨label, base', hne, hdot, heq, hhost⟩)
      · exact ⟨['*'], by simp, by decide, rfl⟩
      · obtain rfl : base = base' := by simpa using heq
        exact ⟨label, hne, hdot, hhost⟩
  · have hexact : hostMatches host pattern = (host == pattern) := by
      unfold hostMatches
      split
      · next base => exact absurd ⟨base, rfl⟩ hwild
      · rfl
    rw [hexact, beq_iff_eq]
    constructor
    · intro heq
      exact .inl heq.symm
    · rintro (heq | ⟨_, base, _, _, heq, _⟩)
      · exact heq.symm
      · exact absurd ⟨base, heq⟩ hwild

/-- A rule that is built from `Host`, `Path` and `PathPrefix` of literals. -/
inductive HostRule where
  | host (pattern : Str)
  | path (value : Str)
  | pathPrefix (value : Str)
  | and (a b : HostRule)
  | or (a b : HostRule)
  | not (a : HostRule)
  | cond (c a b : HostRule)

namespace HostRule

/-- The rule as an expression. -/
def expr {ω : Type} : HostRule → Expr ω
  | host pattern => (CheckMeta.host pattern).expr
  | path value => (CheckMeta.path value).expr
  | pathPrefix value => (CheckMeta.pathPrefix value).expr
  | and a b => a.expr.and b.expr
  | or a b => a.expr.or b.expr
  | not a => a.expr.not
  | cond c a b => c.expr.cond a.expr b.expr

/-- The `Host` literals of the rule. -/
def hosts : HostRule → List Str
  | host pattern => [pattern]
  | path _ | pathPrefix _ => []
  | and a b | or a b => a.hosts ++ b.hosts
  | not a => a.hosts
  | cond c a b => c.hosts ++ (a.hosts ++ b.hosts)

/-- What the rule says about a host and a path. -/
def Holds (h p : Str) : HostRule → Prop
  | host pattern => Names pattern h
  | path value => p = value
  | pathPrefix value => value <+: p
  | and a b => a.Holds h p ∧ b.Holds h p
  | or a b => a.Holds h p ∨ b.Holds h p
  | not a => ¬ a.Holds h p
  | cond c a b => (c.Holds h p → a.Holds h p) ∧ (¬ c.Holds h p → b.Holds h p)

/-- Hosts that the literals of a rule do not tell apart are alike to the rule. -/
theorem holds_congr {h₁ h₂ : Str} (p : Str) {rule : HostRule}
    (hnames : ∀ pattern ∈ rule.hosts, (Names pattern h₁ ↔ Names pattern h₂)) :
    rule.Holds h₁ p ↔ rule.Holds h₂ p := by
  induction rule with
  | host pattern => exact hnames pattern (List.mem_singleton_self pattern)
  | path value => exact Iff.rfl
  | pathPrefix value => exact Iff.rfl
  | and a b iha ihb =>
    exact and_congr (iha fun q hq => hnames q (List.mem_append_left _ hq))
      (ihb fun q hq => hnames q (List.mem_append_right _ hq))
  | or a b iha ihb =>
    exact or_congr (iha fun q hq => hnames q (List.mem_append_left _ hq))
      (ihb fun q hq => hnames q (List.mem_append_right _ hq))
  | not a ih => exact not_congr (ih hnames)
  | cond c a b ihc iha ihb =>
    have hc := ihc fun q hq => hnames q (List.mem_append_left _ hq)
    have ha := iha fun q hq => hnames q (List.mem_append_right _ (List.mem_append_left _ hq))
    have hb := ihb fun q hq => hnames q (List.mem_append_right _ (List.mem_append_right _ hq))
    exact and_congr (imp_congr hc ha) (imp_congr (not_congr hc) hb)

/-- The check of a leaf, as the rule says. -/
theorem check_host_iff (h p pattern : Str) :
    Cel.check (h, p) (.host pattern) = true ↔ Names pattern h :=
  hostMatches_iff_names h pattern

theorem check_path_iff (h p value : Str) : Cel.check (h, p) (.path value) = true ↔ p = value :=
  beq_iff_eq

theorem check_pathPrefix_iff (h p value : Str) :
    Cel.check (h, p) (.pathPrefix value) = true ↔ value <+: p :=
  List.isPrefixOf_iff_prefix

theorem precheckAnswer_leaf {ω : Type} {source : Str × Str} {m : CheckMeta} {P : Prop} [Decidable P]
    (h : Cel.check source m = true ↔ P) :
    precheckAnswer source (m.expr : Expr ω) = fromBool (decide P) := by
  rw [Cel.precheckAnswer_check]
  exact congrArg fromBool (Bool.eq_iff_iff.2 (h.trans decide_eq_true_iff.symm))

open Classical in
/-- The pre-check decides such a rule, as the rule says. -/
theorem precheckAnswer_expr {ω : Type} (h p : Str) (rule : HostRule) :
    precheckAnswer (h, p) (rule.expr : Expr ω) = fromBool (decide (rule.Holds h p)) := by
  induction rule with
  | host pattern => exact precheckAnswer_leaf (P := Holds h p (host pattern)) (check_host_iff h p pattern)
  | path value => exact precheckAnswer_leaf (P := Holds h p (path value)) (check_path_iff h p value)
  | pathPrefix value =>
    exact precheckAnswer_leaf (P := Holds h p (pathPrefix value)) (check_pathPrefix_iff h p value)
  | and a b iha ihb =>
    rw [expr, Cel.precheckAnswer_and, iha, ihb]
    by_cases ha : a.Holds h p <;> by_cases hb : b.Holds h p <;>
      simp [Holds, ha, hb, triAnd, fromBool]
  | or a b iha ihb =>
    rw [expr, Cel.precheckAnswer_or, iha, ihb]
    by_cases ha : a.Holds h p <;> by_cases hb : b.Holds h p <;>
      simp [Holds, ha, hb, triOr, fromBool]
  | not a ih =>
    rw [expr, Cel.precheckAnswer_not, ih]
    by_cases ha : a.Holds h p <;> simp [Holds, ha, triNot, fromBool]
  | cond c a b ihc iha ihb =>
    rw [expr, Cel.precheckAnswer_cond, ihc, iha, ihb]
    by_cases hc : c.Holds h p <;> simp [Holds, hc, triCond, fromBool]

end HostRule

/-! ## The route that is selected -/

section Selection

variable {X : Externals} {c : SessionCelContext X.H} {s : RequestState X}

/-- The routes of the proxy match by the given rules. -/
def LonesomeProxy.RoutesBy (proxy : LonesomeProxy X) (rule : Route X → HostRule) : Prop :=
  ∀ route ∈ proxy.routes.routes, route.matcher = .fromCel (rule route).expr

open Classical in
/-- A route with such a rule is matched without its program. -/
theorem exec_routeMatches (hs : HasScope c s) {route : Route X} {rule : HostRule}
    (hrule : route.matcher = .fromCel rule.expr) :
    (routeMatches route).exec s =
      (.ok (decide (rule.Holds (sourceOf X c).1 (sourceOf X c).2)), s) := by
  unfold routeMatches
  rw [exec_bind, exec_ensureSessionCelContext, RequestState.scope_eq hs, RequestState.setScope_eq hs,
    hrule]
  have hanswer := rule.precheckAnswer_expr (ω := X.Ω) (sourceOf X c).1 (sourceOf X c).2
  unfold precheckAnswer buildOpt at hanswer
  dsimp only [Matcher.fromCel]
  cases hbuild : (Cel.build (rule.expr : Expr X.Ω) :
      Option (Cel.CheapExpr (Str × Str) CheckMeta)) with
  | none =>
    rw [hbuild] at hanswer
    by_cases hholds : rule.Holds (sourceOf X c).1 (sourceOf X c).2 <;>
      simp [hholds, Cel.CheapExpr.eval, fromBool] at hanswer
  | some tree =>
    rw [hbuild, Option.getD_some] at hanswer
    have heval : tree.eval (c.celHttpSession.host, c.celHttpSession.path X.D) = _ := hanswer
    dsimp only
    rw [heval]
    by_cases hholds : rule.Holds (sourceOf X c).1 (sourceOf X c).2 <;>
      simp [hholds, fromBool, exec_pure]

open Classical in
theorem exec_findFirstMatch (hs : HasScope c s) {rule : Route X → HostRule} {routes : List (Route X)}
    (hrules : ∀ route ∈ routes, route.matcher = .fromCel (rule route).expr) :
    (findFirstMatch X routes).exec s =
      (.ok (routes.find? fun r => decide ((rule r).Holds (sourceOf X c).1 (sourceOf X c).2)), s) := by
  induction routes with
  | nil => rfl
  | cons route rest ih =>
    have ih := ih fun r hr => hrules r (List.mem_cons_of_mem route hr)
    unfold findFirstMatch
    rw [exec_bind, exec_routeMatches hs (hrules route List.mem_cons_self)]
    by_cases hholds : (rule route).Holds (sourceOf X c).1 (sourceOf X c).2
    · simp [hholds, exec_pure]
    · simpa [hholds] using ih

open Classical in
/-- **The selected route** is the first whose rule holds of the routing host and the path. -/
theorem matchedRoute_eq {proxy : LonesomeProxy X} {rule : Route X → HostRule}
    (hrules : proxy.RoutesBy rule) (session : Session X.H) (shared : Shared X.Ω) (time : Nat) :
    proxy.matchedRoute (proxy.incoming session shared time) =
      proxy.routes.routes.find? fun r =>
        decide ((rule r).Holds (session.received proxy.sniHostPolicy).host
          ((session.received proxy.sniHostPolicy).path X.D)) := by
  let c := SessionCelContext.ofReceived (session.received proxy.sniHostPolicy)
  have hselect : proxy.select.exec (proxy.incoming session shared time) =
      (findFirstMatch X proxy.routes.routes >>= setRoute X).exec
        ((proxy.incoming session shared time).setScope c) := rfl
  unfold LonesomeProxy.matchedRoute
  have hscope : HasScope c ((proxy.incoming session shared time).setScope c) := rfl
  rw [hselect, exec_bind, exec_findFirstMatch hscope hrules]
  show ((setRoute X (proxy.routes.routes.find? fun r =>
    decide ((rule r).Holds (session.received proxy.sniHostPolicy).host
      ((session.received proxy.sniHostPolicy).path X.D)))).exec _).2.ctx.currentRoute = _
  cases proxy.routes.routes.find? _ with
  | none => rfl
  | some route => rfl

end Selection

/-! ## Two spellings -/

/-- Two searches of a list end alike exactly when what tells them apart comes after an element that
both would take. -/
theorem find?_eq_find?_iff {α : Type} (l : List α) (p q : α → Bool) :
    l.find? p = l.find? q ↔
      ∀ before a after, l = before ++ a :: after →
        (∃ b ∈ before, p b = true ∧ q b = true) ∨ p a = q a := by
  induction l with
  | nil => simp
  | cons x l ih =>
    rw [List.find?_cons, List.find?_cons]
    constructor
    · intro h
      have hx : p x = q x := by
        cases hp : p x <;> cases hq : q x <;> simp only [hp, hq] at h
        · rfl
        · exact absurd (List.find?_some h) (by simp [hp])
        · exact absurd (List.find?_some h.symm) (by simp [hq])
        · rfl
      rintro (_ | ⟨y, before⟩) a after heq
      · obtain ⟨rfl, rfl⟩ := List.cons.inj heq
        exact .inr hx
      · obtain ⟨rfl, rfl⟩ := List.cons.inj heq
        rw [← hx] at h
        cases hp : p x with
        | true => exact .inl ⟨x, List.mem_cons_self, hp, hx ▸ hp⟩
        | false =>
          simp only [hp] at h
          refine (ih.1 h before a after rfl).imp_left ?_
          rintro ⟨b, hb, hboth⟩
          exact ⟨b, List.mem_cons_of_mem x hb, hboth⟩
    · intro h
      have hx : p x = q x := (h [] x l rfl).resolve_left (by simp)
      rw [← hx]
      cases hp : p x with
      | true => rfl
      | false =>
        refine ih.2 fun before a after heq => ?_
        refine (h (x :: before) a after (by rw [heq]; rfl)).imp_left ?_
        rintro ⟨b, hb, hboth⟩
        rcases List.mem_cons.1 hb with rfl | hb
        · rw [hp] at hboth
          exact absurd hboth.1 (by simp)
        · exact ⟨b, hb, hboth⟩

/-- Two requests with the same path, whose routing hosts are two spellings of one host name. -/
structure Respelled (D : Decoders) {H : HttpCrate} (policy : SniHostPolicy)
    (session₁ session₂ : Session H) : Prop where
  host : hostnameEq (session₁.received policy).host (session₂.received policy).host = true
  path : (session₁.received policy).path D = (session₂.received policy).path D

section Spellings

variable {X : Externals} {policy : SniHostPolicy} {session₁ session₂ : Session X.H}

/-- A proxy with a single route, for the hosts that a pattern names. -/
def hostProxy (X : Externals) (policy : SniHostPolicy) (pattern : Str) : LonesomeProxy X where
  routes := ⟨[{
    id := "host"
    priority := 0
    matcher := .fromCel (HostRule.host pattern).expr
    content := { middlewares := [], upstreamPool := ⟨[], none, 0⟩, hashKeyProgram := none } }]⟩
  sniHostPolicy := policy

theorem hostProxy_routesBy (pattern : Str) :
    (hostProxy X policy pattern).RoutesBy fun _ => .host pattern := by
  intro route hroute
  rw [List.mem_singleton.1 hroute]

/-- **When the spelling of the host does not matter.** Of two requests that differ in the spelling of
the routing host, a table of rules about the host and the path selects the same route if and only
if each route whose rule tells the spellings apart comes after a route whose rule holds for both. It
does so for every table over a set of `Host` literals if and only if each of the literals names both
spellings or neither. -/
theorem matchedRoute_respelled_iff (h : Respelled X.D policy session₁ session₂)
    (shared₁ shared₂ : Shared X.Ω) (time₁ time₂ : Nat) :
    let host₁ := (session₁.received policy).host
    let host₂ := (session₂.received policy).host
    let path := (session₁.received policy).path X.D
    (∀ (proxy : LonesomeProxy X) (rule : Route X → HostRule), proxy.sniHostPolicy = policy →
      proxy.RoutesBy rule →
      (proxy.matchedRoute (proxy.incoming session₁ shared₁ time₁) =
          proxy.matchedRoute (proxy.incoming session₂ shared₂ time₂) ↔
        ∀ before route after, proxy.routes.routes = before ++ route :: after →
          (∃ r ∈ before, (rule r).Holds host₁ path ∧ (rule r).Holds host₂ path) ∨
            ((rule route).Holds host₁ path ↔ (rule route).Holds host₂ path))) ∧
    ∀ patterns : Set Str,
      (∀ (proxy : LonesomeProxy X) (rule : Route X → HostRule), proxy.sniHostPolicy = policy →
        proxy.RoutesBy rule →
        (∀ route ∈ proxy.routes.routes, ∀ pattern ∈ (rule route).hosts, pattern ∈ patterns) →
        proxy.matchedRoute (proxy.incoming session₁ shared₁ time₁) =
          proxy.matchedRoute (proxy.incoming session₂ shared₂ time₂)) ↔
      ∀ pattern ∈ patterns, (Names pattern host₁ ↔ Names pattern host₂) := by
  intro host₁ host₂ path
  have hselect (proxy : LonesomeProxy X) (rule : Route X → HostRule)
      (hpolicy : proxy.sniHostPolicy = policy) (hrules : proxy.RoutesBy rule) :
      proxy.matchedRoute (proxy.incoming session₁ shared₁ time₁) =
          proxy.matchedRoute (proxy.incoming session₂ shared₂ time₂) ↔
        ∀ before route after, proxy.routes.routes = before ++ route :: after →
          (∃ r ∈ before, (rule r).Holds host₁ path ∧ (rule r).Holds host₂ path) ∨
            ((rule route).Holds host₁ path ↔ (rule route).Holds host₂ path) := by
    rw [matchedRoute_eq hrules, matchedRoute_eq hrules, hpolicy, ← h.path, find?_eq_find?_iff]
    simp only [decide_eq_true_eq, decide_eq_decide, host₁, host₂, path]
  refine ⟨hselect, fun patterns => ⟨fun hsame pattern hpattern => ?_, fun hnames proxy rule hpolicy hrules hhosts => ?_⟩⟩
  · have hone := hsame (hostProxy X policy pattern) (fun _ => .host pattern) rfl
      (hostProxy_routesBy pattern) (fun _ _ p hp => List.mem_singleton.1 hp ▸ hpattern)
    rw [hselect _ (fun _ => .host pattern) rfl (hostProxy_routesBy pattern)] at hone
    exact (hone [] _ [] rfl).resolve_left (by simp)
  · refine (hselect proxy rule hpolicy hrules).2 fun before route after heq => .inr ?_
    have hroute : route ∈ proxy.routes.routes := by
      rw [heq]
      exact List.mem_append_right _ List.mem_cons_self
    exact HostRule.holds_congr path fun p hp => hnames p (hhosts route hroute p hp)

end Spellings

/-! A route for `a.example`, and a route of lower priority for every request. -/

def hostSession (host : Str) : Session Externals.plain.H :=
  { Session.plain with reqHeader := requestWithHosts none [HeaderValue.ofAscii host] }

theorem path_hostSession (host : Str) (policy : SniHostPolicy) :
    ((hostSession host).received policy).path Externals.plain.D = "/".toList := rfl

theorem hostSession_respelled :
    Respelled Externals.plain.D .strict (hostSession "a.example".toList)
      (hostSession "A.example".toList) where
  host := by decide
  path := by rw [path_hostSession, path_hostSession]

def ruleRoute (id : String) (priority : Int) (rule : HostRule) : Route Externals.plain where
  id := id
  priority := priority
  matcher := .fromCel rule.expr
  content := { middlewares := [], upstreamPool := ⟨[()], none, 8⟩, hashKeyProgram := none }

def adminProxy : LonesomeProxy Externals.plain where
  routes := ⟨[ruleRoute "admin" 10 (.host "a.example".toList), ruleRoute "rest" 0 (.pathPrefix "/".toList)]⟩
  sniHostPolicy := .strict

def adminRule (route : Route Externals.plain) : HostRule :=
  if route.id = "admin" then .host "a.example".toList else .pathPrefix "/".toList

theorem adminProxy_routesBy : adminProxy.RoutesBy adminRule := by
  intro route hroute
  rcases List.mem_pair.1 hroute with rfl | rfl <;> rfl

theorem uppercase_host_gets_other_route :
    Respelled Externals.plain.D .strict (hostSession "a.example".toList)
      (hostSession "A.example".toList) ∧
    adminProxy.RoutesBy adminRule ∧
    (adminProxy.matchedRoute
      (adminProxy.incoming (hostSession "a.example".toList) (.plain ⟨[]⟩) 0)).map (·.id) = some "admin" ∧
    (adminProxy.matchedRoute
      (adminProxy.incoming (hostSession "A.example".toList) (.plain ⟨[]⟩) 0)).map (·.id) = some "rest" :=
  ⟨hostSession_respelled, adminProxy_routesBy, by decide, by decide⟩

/-! The wildcard `*.example` names both spellings. -/

theorem matchedRoute_respelled_wildcard :
    (Names "*.example".toList "a.example".toList ∧ Names "*.example".toList "A.example".toList) ∧
    (hostProxy Externals.plain .strict "*.example".toList).matchedRoute
        ((hostProxy _ .strict "*.example".toList).incoming (hostSession "a.example".toList) (.plain ⟨[]⟩) 0) =
      (hostProxy Externals.plain .strict "*.example".toList).matchedRoute
        ((hostProxy _ .strict "*.example".toList).incoming (hostSession "A.example".toList) (.plain ⟨[]⟩) 0) := by
  have hlower : Names "*.example".toList "a.example".toList :=
    (hostMatches_iff_names _ _).1 (by decide)
  have hupper : Names "*.example".toList "A.example".toList :=
    (hostMatches_iff_names _ _).1 (by decide)
  refine ⟨⟨hlower, hupper⟩, ?_⟩
  have hiff := (matchedRoute_respelled_iff (X := .plain) hostSession_respelled (.plain ⟨[]⟩) (.plain ⟨[]⟩) 0 0).2
    {"*.example".toList}
  refine hiff.2 ?_ _ _ rfl (hostProxy_routesBy _) ?_
  · rintro pattern rfl
    exact iff_of_true hlower hupper
  · intro route _ pattern hpattern
    exact List.mem_singleton.1 hpattern

end Lonesome
