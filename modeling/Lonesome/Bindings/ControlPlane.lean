import Lonesome.Bindings.RouteConfig
import Lonesome.Lib.CopyOnWrite
import Lonesome.Proxy.CelStability

/-!
# The control plane and the requests

`SharedRouteTable` of `src/route/route_table.rs`, with the calls of `src/bindings/server.rs` that write
it (`add_or_update`, `remove`, and `validate`, which does not) and the requests that are routed by it. The
table is replaced as a whole and without a lock, so it is a cell of `Lonesome.Lib.CopyOnWrite` whose
clients are the requests: `early_request_filter` reads the table, and no later callback depends on it
(`run_routes`). A request is thus served as if the table did not change after that: `control_plane`.
-/

namespace Lonesome

open Lonesome.Lib
open Lonesome.Interleaving
open Lonesome.Interleaving.Cell (Clients)
open Lonesome.Routes (RouteTable Canonical lastUpsert)

variable {X : Externals} (K : RouteCrates X)

/-! ## Calls -/

/-- A call of the server that concerns routes. -/
inductive RouteCall where
  | addOrUpdate (route : RouteOptions)
  | validate (route : RouteOptions)
  | remove (routeId : String)

inductive RouteReply where
  | done (result : Except String Unit)
  | removed (v : Bool)

/-- The route table of the proxy. -/
abbrev Table (X : Externals) := RouteTable (Str × Str) X.Ω (RouteContent X)

/-- `SharedRouteTable`, and the calls of the server on it. -/
def sharedRouteTable : Cell (Table X) RouteCall RouteReply where
  initial := .empty
  update current
    | .addOrUpdate route =>
      match buildRoute K route with
      | .ok route => (some (current.upsertRoute route), .done (.ok ()))
      | .error e => (none, .done (.error e))
    | .validate route => (none, .done ((buildRoute K route).map fun _ => ()))
    | .remove routeId =>
      let (next, removed) := current.removeRoute routeId
      (some next, .removed removed)

/-- What a call does to the table. -/
def RouteCall.op : RouteCall → Option (Routes.Op (Str × Str) X.Ω (RouteContent X))
  | .addOrUpdate route => (buildRoute K route).toOption.map .upsert
  | .validate _ => none
  | .remove routeId => some (.remove routeId)

/-- The table after calls. -/
def tableAfter (calls : List RouteCall) : Table X :=
  Routes.run (calls.filterMap (RouteCall.op K))

theorem after_sharedRouteTable (calls : List RouteCall) :
    (sharedRouteTable K).after calls = tableAfter K calls := by
  induction calls using List.reverseRecOn with
  | nil => rfl
  | append_singleton calls call ih =>
    rw [Cell.after_append, ih, tableAfter, tableAfter, List.filterMap_append, Routes.run, Routes.run,
      List.foldl_append]
    cases call with
    | addOrUpdate route =>
      simp only [Cell.apply, sharedRouteTable, List.filterMap_cons, RouteCall.op]
      cases buildRoute K route <;> rfl
    | validate route => rfl
    | remove routeId => rfl

/-- What a call returns when it takes effect after others. -/
def RouteCall.reply (before : List RouteCall) : RouteCall → RouteReply
  | .addOrUpdate route => .done ((buildRoute K route).map fun _ => ())
  | .validate route => .done ((buildRoute K route).map fun _ => ())
  | .remove routeId => .removed (lastUpsert (before.filterMap (RouteCall.op K)) routeId).isSome

theorem reply_sharedRouteTable (before : List RouteCall) (call : RouteCall) :
    ((sharedRouteTable K).update (tableAfter K before) call).2 = call.reply K before := by
  cases call with
  | addOrUpdate route =>
    simp only [sharedRouteTable, RouteCall.reply]
    cases buildRoute K route <;> rfl
  | validate route => rfl
  | remove routeId =>
    show RouteReply.removed ((tableAfter K before).removeRoute routeId).2 = .removed _
    rw [RouteReply.removed.injEq, Bool.eq_iff_iff, Routes.RouteTable.removeRoute_snd, tableAfter,
      Routes.mem_ids_run_iff, Option.isSome_iff_exists]

/-! ## Requests -/

/-- A request on its way: as it came in, how many calls had taken effect when it was routed, the phases
since then, and its state. -/
structure InFlight (X : Externals) where
  incoming : RequestState X
  routedAt : Option Nat
  phases : List (Phase X)
  state : RequestState X

/-- The proxy with the table that it reads. -/
def proxyWith (policy : SniHostPolicy) (routes : Table X) : LonesomeProxy X := ⟨routes, policy⟩

/-- The requests: `early_request_filter` first, then any phases; each reads the table there is. -/
def requests (policy : SniHostPolicy) :
    Clients (Table X) RouteCall RouteReply (InFlight X) (Phase X) where
  begins c := c.routedAt.isNone && c.phases.isEmpty
  observe s c phase :=
    match c.routedAt with
    | none =>
      some { c with
        routedAt := some s.updates.length
        state := ((proxyWith policy s.value).earlyRequestFilter.exec c.incoming).2 }
    | some _ =>
      some { c with
        phases := c.phases ++ [phase]
        state := ((phase.run (proxyWith policy s.value)).exec c.state).2 }

/-- The server with its calls and requests. -/
def served (policy : SniHostPolicy) :=
  (sharedRouteTable K).object (requests (X := X) policy)

/-- The state of the server, with the calls and requests that are running. -/
abbrev ServedPool (X : Externals) :=
  Pool (Cell.State (Table X) RouteCall RouteReply) (Cell.Task (Table X) RouteCall RouteReply (InFlight X))

/-- No phase looks at the table again. -/
theorem run_routes (policy : SniHostPolicy) (routes routes' : Table X) (phase : Phase X) :
    phase.run (proxyWith policy routes) = phase.run (proxyWith policy routes') := by
  cases phase <;> rfl

/-- The request is where it would be with this table all along. -/
def ServedBy (policy : SniHostPolicy) (routes : Table X) (c : InFlight X) : Prop :=
  c.state = (proxyWith policy routes).run c.incoming c.phases

/-- One more phase, whatever the table is by then. -/
theorem ServedBy.phase {policy : SniHostPolicy} {routes : Table X} {c : InFlight X}
    (h : ServedBy policy routes c) (current : Table X) (phase : Phase X) :
    ServedBy policy routes { c with
      phases := c.phases ++ [phase]
      state := ((phase.run (proxyWith policy current)).exec c.state).2 } := by
  unfold ServedBy LonesomeProxy.run at h ⊢
  dsimp only
  rw [List.foldl_append, h, run_routes policy current routes]
  rfl

/-- A request that has been routed is served by the table after `P` of the calls. -/
def Routed (policy : SniHostPolicy) (P : List RouteCall → List RouteCall → Nat → Prop)
    (calls : List RouteCall) (c : InFlight X) : Prop :=
  (c.routedAt = none → c.phases = []) ∧
    ∀ n, c.routedAt = some n → ∃ before, P calls before n ∧ ServedBy policy (tableAfter K before) c

variable {K} {policy : SniHostPolicy}

/-- One read of a request. -/
theorem Routed.observe {P : List RouteCall → List RouteCall → Nat → Prop}
    {s : Cell.State (Table X) RouteCall RouteReply} {before : List RouteCall}
    (hvalue : s.value = tableAfter K before) (hP : P s.updates before s.updates.length)
    {c c' : InFlight X} (hc : Routed K policy P s.updates c) {phase : Phase X}
    (h : (requests policy).observe s c phase = some c') : Routed K policy P s.updates c' := by
  cases hrouted : c.routedAt with
  | none =>
    simp only [requests, hrouted, Option.some.injEq] at h
    subst h
    refine ⟨fun h => (nomatch h), fun n hn => ?_⟩
    cases hn
    refine ⟨before, hP, ?_⟩
    rw [ServedBy, hvalue]
    dsimp only
    rw [hc.1 hrouted]
    rfl
  | some n =>
    simp only [requests, hrouted, Option.some.injEq] at h
    subst h
    refine ⟨fun h => (nomatch h), fun m hm => ?_⟩
    cases hm
    obtain ⟨before', hP', hserved⟩ := hc.2 n hrouted
    exact ⟨before', hP', hserved.phase s.value phase⟩

/-! ## Runs -/

/-- The calls before are some of the calls, in their order. -/
def SomeOf (calls before : List RouteCall) (_ : Nat) : Prop := before.Sublist calls

/-- The calls before are the first ones. -/
def FirstOf (calls before : List RouteCall) (n : Nat) : Prop := n ≤ calls.length ∧ before = calls.take n

theorem routed_begins {P : List RouteCall → List RouteCall → Nat → Prop} {calls : List RouteCall}
    {c : InFlight X} (h : (requests (X := X) policy).begins c = true) : Routed K policy P calls c := by
  simp only [requests, Bool.and_eq_true, Option.isNone_iff_eq_none, List.isEmpty_iff] at h
  refine ⟨fun _ => h.2, fun n hn => ?_⟩
  rw [h.1] at hn
  cases hn

theorem Routed.grows {P : List RouteCall → List RouteCall → Nat → Prop} {calls : List RouteCall}
    {c : InFlight X} (hP : ∀ before n call, P calls before n → P (calls ++ [call]) before n)
    (h : Routed K policy P calls c) (call : RouteCall) : Routed K policy P (calls ++ [call]) c := by
  refine ⟨h.1, fun n hn => ?_⟩
  obtain ⟨before, hbefore, hserved⟩ := h.2 n hn
  exact ⟨before, hP before n call hbefore, hserved⟩

/-- The value is always the table after some of the calls. -/
theorem exists_tableAfter {p : ServedPool X} (h : (served K policy).Reachable p) :
    ∃ before, before.Sublist p.shared.updates ∧ p.shared.value = tableAfter K before := by
  obtain ⟨before, hbefore, hvalue⟩ := (Cell.serial h).value
  exact ⟨before, hbefore, hvalue.trans (after_sharedRouteTable K before)⟩

theorem routed_someOf {p : ServedPool X} (h : (served K policy).Reachable p) {i : Nat} {c : InFlight X}
    (hc : p.tasks i = some (.client c)) : Routed K policy SomeOf p.shared.updates c := by
  refine Cell.clients_induct (J := Routed K policy SomeOf) (fun _ _ => routed_begins) ?_ ?_ h hc
  · refine fun ops op c => fun hJ => hJ.grows (fun before n call hbefore => ?_) op
    exact List.Sublist.trans hbefore (List.sublist_append_left _ _)
  · intro p c phase c' hp hJ hobserve
    obtain ⟨before, hbefore, hvalue⟩ := exists_tableAfter hp
    exact hJ.observe hvalue hbefore hobserve

theorem routed_firstOf {p : ServedPool X} (h : (served K policy).ReachableVia Cell.Apart p) {i : Nat} {c : InFlight X}
    (hc : p.tasks i = some (.client c)) : Routed K policy FirstOf p.shared.updates c := by
  refine Cell.clients_induct (J := Routed K policy FirstOf) (fun _ _ => routed_begins) ?_ ?_ h hc
  · refine fun ops op c => fun hJ => hJ.grows (fun before n call hbefore => ?_) op
    obtain ⟨hn, rfl⟩ := hbefore
    rw [FirstOf, List.length_append, List.take_append_of_le_length hn]
    exact ⟨Nat.le_add_right_of_le hn, rfl⟩
  · intro p c phase c' hp hJ hobserve
    have hvalue := (Cell.linear hp).value.trans (after_sharedRouteTable K _)
    exact hJ.observe hvalue ⟨le_rfl, (List.take_length).symm⟩ hobserve

/-- Every route of a table after calls was built from the configuration of one of them. -/
theorem describes_of_mem {calls : List RouteCall} {r : Route X} (h : r ∈ (tableAfter K calls).routes) :
    ∃ route, .addOrUpdate route ∈ calls ∧ Describes K route r := by
  have hlast := ((Routes.run_canonical _).mem_iff r).1 h
  have hmem := List.mem_of_find?_eq_some (Routes.lastUpsert_eq_some.1 hlast)
  rw [List.mem_reverse, List.mem_filterMap] at hmem
  obtain ⟨call, hcall, hop⟩ := hmem
  cases call with
  | addOrUpdate route =>
    refine ⟨route, hcall, buildRoute_eq_ok_iff.1 ?_⟩
    simp only [RouteCall.op] at hop
    cases hbuild : buildRoute K route with
    | error e =>
      rw [hbuild] at hop
      cases hop
    | ok built =>
      rw [hbuild] at hop
      cases hop
      rfl
  | validate route => cases hop
  | remove routeId => cases hop

/-- **The control plane.** Calls that write the routes and requests run in any interleaving. The table
is always the canonical one after some of the calls in their order; a route is built exactly when each
part of its configuration is accepted, and every route of the table is what the configuration of some
call describes; each request is where the callbacks alone would have brought it with one such table.
When no call loads the table while another is about to store it, the calls take effect one after the
other: the table is the one after all of them, each has returned what it returns there, and each
request is served by the table that was there when it was routed. -/
theorem control_plane {p : ServedPool X} (h : (served K policy).Reachable p) :
    (∃ before, before.Sublist p.shared.updates ∧ p.shared.value = tableAfter K before ∧
      Canonical p.shared.value (lastUpsert (before.filterMap (RouteCall.op K)))) ∧
    (∀ route r, buildRoute K route = .ok r ↔ Describes K route r) ∧
    (∀ r ∈ p.shared.value.routes, ∃ route, .addOrUpdate route ∈ p.shared.updates ∧ Describes K route r) ∧
    (∀ i c n, p.tasks i = some (.client c) → c.routedAt = some n →
      ∃ before, before.Sublist p.shared.updates ∧ ServedBy policy (tableAfter K before) c) ∧
    ((served K policy).ReachableVia Cell.Apart p →
      p.shared.value = tableAfter K p.shared.updates ∧
      (∀ (n : Nat) (call : RouteCall) (reply : RouteReply), p.shared.log[n]? = some (call, reply) →
        reply = call.reply K (p.shared.updates.take n)) ∧
      ∀ i c n, p.tasks i = some (.client c) → c.routedAt = some n →
        n ≤ p.shared.updates.length ∧ ServedBy policy (tableAfter K (p.shared.updates.take n)) c) := by
  obtain ⟨before, hbefore, hvalue⟩ := exists_tableAfter h
  refine ⟨⟨before, hbefore, hvalue, ?_⟩, fun _ _ => buildRoute_eq_ok_iff, fun r hr => ?_,
    fun i c n hc hn => ?_, fun hapart => ?_⟩
  · rw [hvalue]
    exact Routes.run_canonical _
  · rw [hvalue] at hr
    obtain ⟨route, hmem, hdescribes⟩ := describes_of_mem hr
    exact ⟨route, hbefore.subset hmem, hdescribes⟩
  · exact (routed_someOf h hc).2 n hn
  · have hlinear := Cell.linear hapart
    refine ⟨hlinear.value.trans (after_sharedRouteTable K _), fun n call reply hlog => ?_,
      fun i c n hc hn => ?_⟩
    · rw [← reply_sharedRouteTable, ← after_sharedRouteTable]
      exact (hlinear.results n call reply hlog).symm
    · obtain ⟨_, ⟨hle, rfl⟩, hserved⟩ := (routed_firstOf hapart hc).2 n hn
      exact ⟨hle, hserved⟩

/-! A request comes in after a route has been added, and the route is removed while it is served. -/

/-- Routes to one TCP upstream. -/
def RouteCrates.plain : RouteCrates Externals.plain where
  fromValue _ := .error "unknown variant"
  upstream := .roundRobin
  pool built := ⟨built.endpoints.map fun _ => (), built.lb.map (fun lb => lb (0 : Nat)), built.lbCfg.maxIterations⟩
  program := Empty.elim

def plainOptions : RouteOptions where
  id := "a"
  matcher := ⟨"'always'".toList, some 1⟩
  middlewares := []
  upstreams := [{
    kind := none, address := "127.0.0.1:9000".toList, tls := none, h2c := none, sni := none
    weight := none, connectTimeoutMs := none, readTimeoutMs := none, writeTimeoutMs := none
    idleTimeoutMs := none, verifyCert := none, clientCertPem := none, clientKeyPem := none
    caCertPem := none }]
  loadBalancer := none

def plainInFlight : InFlight Externals.plain where
  incoming := RequestState.plain ⟨[]⟩
  routedAt := none
  phases := []
  state := RequestState.plain ⟨[]⟩

theorem control_plane_addThenRemove :
    ∃ p, (served RouteCrates.plain .looseByHeader).ReachableVia Cell.Apart p ∧
      p.shared.updates = [.addOrUpdate plainOptions, .remove "a"] ∧ ∃ c, p.tasks 1 = some (.client c) ∧ c.phases.length = 1 ∧
        ServedBy .looseByHeader (tableAfter RouteCrates.plain [.addOrUpdate plainOptions]) c := by
  have hadd : (served RouteCrates.plain .looseByHeader).ReachableVia Cell.Apart _ :=
    .move (m := .begin 0 (.load (.addOrUpdate plainOptions))) .start trivial rfl
  have hload := hadd.move (m := .act 0 (.logging none)) (fun _ _ j t ht => by
    rcases Pool.tasks_set_cases ht with ⟨-, hj⟩ | ⟨-, hj⟩ <;> cases hj
    trivial) rfl
  have hstore := hload.move (m := .act 0 (.logging none)) (fun _ h => (nomatch h)) rfl
  have hrequest := hstore.move (m := .begin 1 (.client plainInFlight)) trivial rfl
  have hrouted := hrequest.move (m := .act 1 (.logging none)) (fun _ h => (nomatch h)) rfl
  have hremove := hrouted.move (m := .begin 0 (.load (.remove "a"))) trivial rfl
  have hload' := hremove.move (m := .act 0 (.logging none)) (fun _ _ j t ht => by
    rcases Pool.tasks_set_cases ht with ⟨-, hj⟩ | ⟨hj, ht⟩
    · cases hj
      trivial
    · -- the request is the only other one
      by_cases hone : j = 1
      · subst hone
        cases ht
        trivial
      · simp [Pool.set, Object.start, hone] at ht) rfl
  have hstore' := hload'.move (m := .act 0 (.logging none)) (fun _ h => (nomatch h)) rfl
  have hphase := hstore'.move (m := .act 1 (.logging none)) (fun _ h => (nomatch h)) rfl
  have hserved := (control_plane hphase.reachable).2.2.2.2 hphase
  exact ⟨_, hphase, rfl, _, rfl, rfl, (hserved.2.2 1 _ 1 rfl rfl).2⟩

end Lonesome
