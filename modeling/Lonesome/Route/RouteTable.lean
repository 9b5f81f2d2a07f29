import Lonesome.Matcher.Matcher
import Mathlib.Data.List.Sort
import Mathlib.Data.String.Basic

/-!
# The route table

`src/route/route_table.rs`. An update replaces the route with the same id in place, or appends the
new one, and sorts the list by descending priority and ascending id.

A table is canonical for the map from ids to routes that the updates leave (`Canonical`): its
members are the routes of the map, and it is strictly sorted. Each operation keeps this
(`Canonical.upsertRoute`, `Canonical.removeRoute`), a canonical table is determined by its map
(`Canonical.unique`), and the first match in it is the best one (`Canonical.findFirstMatch`).
-/

namespace Lonesome.Routes

open Lonesome.Cel

/-- A route; `μ` is what it carries beside its matcher (the middlewares and the upstream pool). -/
structure Route (S ω μ : Type) where
  id : String
  priority : Int
  matcher : Matcher S ω
  content : μ

variable {S ω ε υ μ : Type}

def Route.matches [Source S] (R : CelRuntime S ω ε υ) (r : Route S ω μ) (session : S) : Bool :=
  r.matcher.matches R session

structure RouteTable (S ω μ : Type) where
  routes : List (Route S ω μ)

/-- `b.priority.cmp(&a.priority).then_with(|| a.id.cmp(&b.id))`: both languages compare strings by
code points. -/
def routeCmp (a b : Route S ω μ) : Ordering :=
  (compare b.priority a.priority).then (compare a.id b.id)

namespace RouteTable

def empty : RouteTable S ω μ := ⟨[]⟩

/-- The routes before the sort: the one with the same id replaced, or the new one pushed. -/
def replaceOrPush (routes : List (Route S ω μ)) (route : Route S ω μ) : List (Route S ω μ) :=
  match routes.findIdx? (·.id == route.id) with
  | some existingIdx => routes.set existingIdx route
  | none => routes ++ [route]

def upsertRoute (t : RouteTable S ω μ) (route : Route S ω μ) : RouteTable S ω μ :=
  ⟨(replaceOrPush t.routes route).mergeSort fun a b => (routeCmp a b).isLE⟩

/-- The table without the id, and whether it became shorter. -/
def removeRoute (t : RouteTable S ω μ) (routeId : String) : RouteTable S ω μ × Bool :=
  let routes := t.routes.filter (·.id != routeId)
  (⟨routes⟩, t.routes.length != routes.length)

def findFirstMatch [Source S] (R : CelRuntime S ω ε υ) (t : RouteTable S ω μ) (session : S) :
    Option (Route S ω μ) :=
  t.routes.find? fun r => r.matches R session

end RouteTable

/-! ## The order of routes -/

/-- Strictly before in the table: greater priority, or equal priority and smaller id. -/
def Precedes (a b : Route S ω μ) : Prop :=
  b.priority < a.priority ∨ a.priority = b.priority ∧ a.id < b.id

theorem precedes_iff (a b : Route S ω μ) : Precedes a b ↔ routeCmp a b = .lt := by
  rw [Precedes, routeCmp, Ordering.then_eq_lt, compare_lt_iff_lt, compare_lt_iff_lt, compare_eq_iff_eq,
    eq_comm (a := a.priority)]

theorem Precedes.trans {a b c : Route S ω μ} (h₁ : Precedes a b) (h₂ : Precedes b c) :
    Precedes a c := by
  rcases h₁ with h₁ | ⟨e₁, h₁⟩ <;> rcases h₂ with h₂ | ⟨e₂, h₂⟩
  · exact .inl (h₂.trans h₁)
  · exact .inl (e₂ ▸ h₁)
  · exact .inl (e₁ ▸ h₂)
  · exact .inr ⟨e₁.trans e₂, h₁.trans h₂⟩

theorem Precedes.irrefl (a : Route S ω μ) : ¬ Precedes a a := by
  rintro (h | ⟨_, h⟩)
  · exact lt_irrefl _ h
  · exact lt_irrefl _ h

/-- Routes of different ids are ordered one way or the other. -/
theorem precedes_or {a b : Route S ω μ} (h : a.id ≠ b.id) : Precedes a b ∨ Precedes b a := by
  rcases lt_trichotomy a.priority b.priority with hp | hp | hp
  · exact .inr (.inl hp)
  · rcases lt_or_gt_of_ne h with hi | hi
    · exact .inl (.inr ⟨hp, hi⟩)
    · exact .inr (.inr ⟨hp.symm, hi⟩)
  · exact .inl (.inl hp)

theorem isLE_iff (a b : Route S ω μ) :
    (routeCmp a b).isLE = true ↔ Precedes a b ∨ a.priority = b.priority ∧ a.id = b.id := by
  rw [precedes_iff, Ordering.isLE_iff_eq_lt_or_eq_eq, routeCmp, Ordering.then_eq_eq,
    compare_eq_iff_eq, compare_eq_iff_eq, eq_comm (a := b.priority)]

theorem routeCmp_isLE_trans (a b c : Route S ω μ) (h₁ : (routeCmp a b).isLE = true)
    (h₂ : (routeCmp b c).isLE = true) : (routeCmp a c).isLE = true := by
  rw [isLE_iff] at h₁ h₂ ⊢
  rcases h₁ with h₁ | ⟨p₁, i₁⟩ <;> rcases h₂ with h₂ | ⟨p₂, i₂⟩
  · exact .inl (h₁.trans h₂)
  · rw [Precedes, p₂, i₂] at h₁
    exact .inl h₁
  · rw [Precedes, ← p₁, ← i₁] at h₂
    exact .inl h₂
  · exact .inr ⟨p₁.trans p₂, i₁.trans i₂⟩

theorem routeCmp_isLE_total (a b : Route S ω μ) :
    ((routeCmp a b).isLE || (routeCmp b a).isLE) = true := by
  rw [Bool.or_eq_true, isLE_iff, isLE_iff]
  by_cases hi : a.id = b.id
  · rcases lt_trichotomy a.priority b.priority with hp | hp | hp
    · exact .inr (.inl (.inl hp))
    · exact .inl (.inr ⟨hp, hi⟩)
    · exact .inl (.inl (.inl hp))
  · exact (precedes_or hi).imp .inl .inl

/-! ## Canonical tables -/

/-- The ids are pairwise different. -/
def DistinctIds (routes : List (Route S ω μ)) : Prop :=
  routes.Pairwise fun a b => a.id ≠ b.id

/-- A table for the map `m`: its members are the routes of the map, and it is strictly sorted by
descending priority and ascending id. -/
structure Canonical (t : RouteTable S ω μ) (m : String → Option (Route S ω μ)) : Prop where
  mem_iff : ∀ r, r ∈ t.routes ↔ m r.id = some r
  sorted : t.routes.Pairwise Precedes

namespace Canonical

variable {t t' : RouteTable S ω μ} {m : String → Option (Route S ω μ)}

theorem nodup (h : Canonical t m) : t.routes.Nodup := by
  refine h.sorted.imp ?_
  intro a b hab heq
  exact Precedes.irrefl a (heq ▸ hab)

theorem eq_of_id_eq (h : Canonical t m) {a b : Route S ω μ} (ha : a ∈ t.routes)
    (hb : b ∈ t.routes) (hid : a.id = b.id) : a = b := by
  have hma := (h.mem_iff a).1 ha
  have hmb := (h.mem_iff b).1 hb
  rw [hid, hmb] at hma
  exact (Option.some.inj hma).symm

theorem distinctIds (h : Canonical t m) : DistinctIds t.routes :=
  h.nodup.imp_of_mem fun ha hb hne hid => hne (h.eq_of_id_eq ha hb hid)

/-- **A canonical table is determined by its map.** -/
theorem unique (h : Canonical t m) (h' : Canonical t' m) : t = t' := by
  have hperm : t.routes.Perm t'.routes :=
    (List.perm_ext_iff_of_nodup h.nodup h'.nodup).2 fun r => by rw [h.mem_iff, h'.mem_iff]
  have heq : t.routes = t'.routes :=
    hperm.eq_of_pairwise
      (fun _ _ _ _ hab hba => (Precedes.irrefl _ (hab.trans hba)).elim) h.sorted h'.sorted
  cases t
  cases t'
  exact congrArg _ heq

end Canonical

theorem empty_canonical : Canonical (RouteTable.empty : RouteTable S ω μ) fun _ => none where
  mem_iff r := by simp [RouteTable.empty]
  sorted := List.Pairwise.nil

/-! ## Updates -/

/-- Up to order, the update drops the route of the same id and adds the new one. -/
theorem replaceOrPush_perm (route : Route S ω μ) (routes : List (Route S ω μ))
    (h : DistinctIds routes) :
    (RouteTable.replaceOrPush routes route).Perm
      (route :: routes.filter (·.id != route.id)) := by
  induction routes with
  | nil => simp [RouteTable.replaceOrPush]
  | cons a routes ih =>
    obtain ⟨ha, hrest⟩ := List.pairwise_cons.1 h
    have ih := ih hrest
    unfold RouteTable.replaceOrPush at ih ⊢
    by_cases hid : a.id = route.id
    · have hkeep : routes.filter (·.id != route.id) = routes :=
        List.filter_eq_self.2 fun b hb => by simpa [hid] using (ha b hb).symm
      simp [List.findIdx?_cons, hid, hkeep]
    · have hswap := (ih.cons a).trans (List.Perm.swap route a _)
      cases hf : routes.findIdx? (·.id == route.id) with
      | none =>
        rw [hf] at hswap
        simpa [List.findIdx?_cons, hid, hf] using hswap
      | some i =>
        rw [hf] at hswap
        simpa [List.findIdx?_cons, hid, hf] using hswap

/-- The sort of routes with different ids is strict. -/
theorem mergeSort_sorted {routes : List (Route S ω μ)} (h : DistinctIds routes) :
    (routes.mergeSort fun a b => (routeCmp a b).isLE).Pairwise Precedes := by
  have hle := List.pairwise_mergeSort routeCmp_isLE_trans routeCmp_isLE_total routes
  have hids : DistinctIds (routes.mergeSort fun a b => (routeCmp a b).isLE) :=
    ((List.mergeSort_perm routes _).pairwise_iff fun h => Ne.symm h).2 h
  refine hle.imp₂ ?_ hids
  intro a b hab hid
  exact ((isLE_iff a b).1 hab).resolve_right fun h => hid h.2

/-- The table becomes shorter exactly when the id is in it. -/
theorem RouteTable.removeRoute_snd (t : RouteTable S ω μ) (routeId : String) :
    (t.removeRoute routeId).2 = true ↔ routeId ∈ t.routes.map (·.id) := by
  rw [removeRoute, bne_iff_ne, ne_comm, Ne, List.length_filter_eq_length_iff]
  simp

namespace Canonical

variable {t : RouteTable S ω μ} {m : String → Option (Route S ω μ)}

theorem upsertRoute (h : Canonical t m) (route : Route S ω μ) :
    Canonical (t.upsertRoute route) (Function.update m route.id (some route)) := by
  have hperm := replaceOrPush_perm route t.routes h.distinctIds
  constructor
  · intro r
    rw [RouteTable.upsertRoute, List.mem_mergeSort, hperm.mem_iff, List.mem_cons, List.mem_filter,
      h.mem_iff]
    by_cases hid : r.id = route.id
    · simp [hid, eq_comm]
    · have hne : r ≠ route := fun heq => hid (heq ▸ rfl)
      simp [hid, hne]
  · refine mergeSort_sorted ((hperm.pairwise_iff fun h => Ne.symm h).2 ?_)
    refine List.pairwise_cons.2 ⟨fun r hr => ?_, h.distinctIds.filter _⟩
    have hne := (List.mem_filter.1 hr).2
    exact fun heq => bne_iff_ne.1 hne heq.symm

theorem removeRoute (h : Canonical t m) (routeId : String) :
    Canonical (t.removeRoute routeId).1 (Function.update m routeId none) := by
  constructor
  · intro r
    rw [RouteTable.removeRoute, List.mem_filter, h.mem_iff]
    by_cases hid : r.id = routeId <;> simp [hid]
  · exact h.sorted.filter _

/-- What the first match is: it matches, and precedes every other route that does. -/
theorem findFirstMatch_spec [Source S] (h : Canonical t m) {R : CelRuntime S ω ε υ} {s : S}
    {r : Route S ω μ} (hf : t.findFirstMatch R s = some r) :
    r ∈ t.routes ∧ r.matches R s = true ∧
      ∀ r' ∈ t.routes, r'.matches R s = true → r' ≠ r → Precedes r r' := by
  obtain ⟨hr, before, after, hsplit, hbefore⟩ := List.find?_eq_some_iff_append.1 hf
  have hsorted := h.sorted
  rw [hsplit] at hsorted ⊢
  refine ⟨by simp, hr, ?_⟩
  intro r' hr' hm hne
  rcases List.mem_append.1 hr' with hb | ha
  · have hno := hbefore r' hb
    rw [hm] at hno
    cases hno
  · have ha := (List.mem_cons.1 ha).resolve_left hne
    exact (List.pairwise_cons.1 (List.pairwise_append.1 hsorted).2.1).1 r' ha

/-- **The first match is the best one.** -/
theorem findFirstMatch [Source S] (h : Canonical t m) (R : CelRuntime S ω ε υ) (s : S)
    (r : Route S ω μ) :
    t.findFirstMatch R s = some r ↔
      r ∈ t.routes ∧ r.matches R s = true ∧
        ∀ r' ∈ t.routes, r'.matches R s = true → r' ≠ r → Precedes r r' := by
  refine ⟨h.findFirstMatch_spec, ?_⟩
  rintro ⟨hmem, hr, hbest⟩
  cases hf : t.findFirstMatch R s with
  | none => exact absurd hr (List.find?_eq_none.1 hf r hmem)
  | some r' =>
    obtain ⟨hmem', hr', hbest'⟩ := h.findFirstMatch_spec hf
    by_cases heq : r' = r
    · rw [heq]
    · exact (Precedes.irrefl r ((hbest r' hmem' hr' heq).trans
        (hbest' r hmem hr (Ne.symm heq)))).elim

end Canonical

/-! ## Runs -/

/-- A call of the table's updates. -/
inductive Op (S ω μ : Type)
  | upsert (route : Route S ω μ)
  | remove (routeId : String)

def Op.id : Op S ω μ → String
  | .upsert route => route.id
  | .remove routeId => routeId

def RouteTable.apply (t : RouteTable S ω μ) : Op S ω μ → RouteTable S ω μ
  | .upsert route => t.upsertRoute route
  | .remove routeId => (t.removeRoute routeId).1

def run (ops : List (Op S ω μ)) : RouteTable S ω μ :=
  ops.foldl RouteTable.apply .empty

/-- The route that the last operation on the id left, if that operation was an upsert. -/
def lastUpsert (ops : List (Op S ω μ)) (id : String) : Option (Route S ω μ) :=
  match ops.reverse.find? (·.id == id) with
  | some (.upsert route) => some route
  | _ => none

theorem lastUpsert_upsert (ops : List (Op S ω μ)) (route : Route S ω μ) :
    lastUpsert (ops ++ [.upsert route]) = Function.update (lastUpsert ops) route.id (some route) := by
  funext id
  by_cases hid : id = route.id
  · simp [lastUpsert, Op.id, hid]
  · simp [lastUpsert, Op.id, hid, Ne.symm hid]

theorem lastUpsert_remove (ops : List (Op S ω μ)) (routeId : String) :
    lastUpsert (ops ++ [.remove routeId]) = Function.update (lastUpsert ops) routeId none := by
  funext id
  by_cases hid : id = routeId
  · simp [lastUpsert, Op.id, hid]
  · simp [lastUpsert, Op.id, hid, Ne.symm hid]

theorem lastUpsert_eq_some {ops : List (Op S ω μ)} {id : String} {r : Route S ω μ} :
    lastUpsert ops id = some r ↔ ops.reverse.find? (·.id == id) = some (.upsert r) := by
  unfold lastUpsert
  split
  · next route hf => simp [hf]
  · next hf => exact ⟨fun h => (Option.some_ne_none r h.symm).elim, fun h => (hf r h).elim⟩

theorem lastUpsert_id {ops : List (Op S ω μ)} {id : String} {r : Route S ω μ}
    (h : lastUpsert ops id = some r) : r.id = id := by
  have hid := List.find?_some (lastUpsert_eq_some.1 h)
  exact beq_iff_eq.1 hid

/-- Every run leaves the canonical table of its last upserts. -/
theorem run_canonical (ops : List (Op S ω μ)) : Canonical (run ops) (lastUpsert ops) := by
  induction ops using List.reverseRecOn with
  | nil => exact empty_canonical
  | append_singleton ops op ih =>
    have hrun : run (ops ++ [op]) = (run ops).apply op := by simp [run]
    rw [hrun]
    cases op with
    | upsert route => rw [lastUpsert_upsert]; exact ih.upsertRoute route
    | remove routeId => rw [lastUpsert_remove]; exact ih.removeRoute routeId

/-- The members of the table, met by their ids. -/
theorem mem_run_of_lastUpsert {ops : List (Op S ω μ)} {id : String} {r : Route S ω μ}
    (h : lastUpsert ops id = some r) : r ∈ (run ops).routes := by
  refine ((run_canonical ops).mem_iff r).2 ?_
  rwa [lastUpsert_id h]

theorem mem_ids_run_iff (ops : List (Op S ω μ)) (id : String) :
    id ∈ (run ops).routes.map (·.id) ↔ ∃ r, lastUpsert ops id = some r := by
  rw [List.mem_map]
  constructor
  · rintro ⟨r, hr, rfl⟩
    exact ⟨r, ((run_canonical ops).mem_iff r).1 hr⟩
  · rintro ⟨r, hr⟩
    exact ⟨r, mem_run_of_lastUpsert hr, lastUpsert_id hr⟩

theorem findFirstMatch_run_eq_none [Source S] (R : CelRuntime S ω ε υ) (ops : List (Op S ω μ))
    (s : S) :
    (run ops).findFirstMatch R s = none ↔
      ∀ id r, lastUpsert ops id = some r → r.matches R s = false := by
  rw [RouteTable.findFirstMatch, List.find?_eq_none]
  constructor
  · intro h id r hr
    exact Bool.eq_false_iff.2 (h r (mem_run_of_lastUpsert hr))
  · intro h r hr
    exact Bool.eq_false_iff.1 (h r.id r (((run_canonical ops).mem_iff r).1 hr))

theorem findFirstMatch_run_eq_some [Source S] (R : CelRuntime S ω ε υ) (ops : List (Op S ω μ))
    (s : S) (r : Route S ω μ) :
    (run ops).findFirstMatch R s = some r ↔
      lastUpsert ops r.id = some r ∧ r.matches R s = true ∧
        ∀ id r', lastUpsert ops id = some r' → r'.matches R s = true → r' ≠ r → Precedes r r' := by
  have hc := run_canonical ops
  rw [hc.findFirstMatch, hc.mem_iff]
  refine and_congr_right fun _ => and_congr_right fun _ => ⟨fun h id r' hr' => ?_, fun h r' hr' => ?_⟩
  · exact h r' (mem_run_of_lastUpsert hr')
  · exact h r'.id r' ((hc.mem_iff r').1 hr')

/-- **Canonicity of the route table.** After every sequence of updates: one route per id, the ids
whose last operation was an upsert, each with its content; strictly sorted; removal reports
presence; the table is a function of the map of last upserts; and the first match is the matching
route of greatest priority and, among those, least id. -/
theorem route_table_canonical [Source S] (R : CelRuntime S ω ε υ) (ops : List (Op S ω μ)) :
    ((run ops).routes.map (·.id)).Nodup ∧
    (∀ id, id ∈ (run ops).routes.map (·.id) ↔
      ∃ route, ops.reverse.find? (·.id == id) = some (.upsert route)) ∧
    (∀ r, r ∈ (run ops).routes ↔ ops.reverse.find? (·.id == r.id) = some (.upsert r)) ∧
    (run ops).routes.Pairwise Precedes ∧
    (∀ id, ((run ops).removeRoute id).2 = true ↔ id ∈ (run ops).routes.map (·.id)) ∧
    (∀ ops', lastUpsert ops' = lastUpsert ops → run ops' = run ops) ∧
    (∀ s, ((run ops).findFirstMatch R s = none ↔
        ∀ id r, lastUpsert ops id = some r → r.matches R s = false) ∧
      ∀ r, (run ops).findFirstMatch R s = some r ↔
        lastUpsert ops r.id = some r ∧ r.matches R s = true ∧
          ∀ id r', lastUpsert ops id = some r' → r'.matches R s = true → r' ≠ r →
            Precedes r r') := by
  have hc := run_canonical ops
  refine ⟨List.pairwise_map.2 hc.distinctIds, fun id => ?_, fun r => ?_, hc.sorted,
    (run ops).removeRoute_snd, fun ops' h => ?_, fun s => ⟨?_, ?_⟩⟩
  · rw [mem_ids_run_iff]
    exact exists_congr fun r => lastUpsert_eq_some
  · rw [hc.mem_iff, lastUpsert_eq_some]
  · exact (run_canonical ops').unique (h ▸ hc)
  · exact findFirstMatch_run_eq_none R ops s
  · exact findFirstMatch_run_eq_some R ops s

end Lonesome.Routes
