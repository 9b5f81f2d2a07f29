import Lonesome.Lib.Interleaving
import Lonesome.Lib.Trace

/-!
# Purging the cache of a route

`purge_route_namespace` and `CacheHandler::cache_hit_filter` of
`src/middlewares/cache/handler.rs`. The purges of all routes share one map from route ids to times.
A purge copies the map, inserts the reading of the clock for its route and stores the copy, under a
lock; a lookup only loads the map, and refuses an object that was updated at or before the time in
it.

The calls run in any interleaving (`Lib.Interleaving`). The lock makes the copies of the map
current: while a purge holds it nobody else stores (`Inv.holder`), so no time is ever lost or set
back, and the trace of what happened justifies every answer (`purge_never_lost`).
-/

namespace Lonesome.CachePurge

open Lonesome.Interleaving Lonesome.Lib

/-- `ForcedFreshness`, as far as the handler uses it. -/
inductive ForcedFreshness
  | forceMiss
deriving DecidableEq, Repr

/-- `CacheHandler::cache_hit_filter` on the map it loads: the route of the request, and
`meta.updated()` of the object. -/
def cacheHitFilter (purgeAt : String → Option Int) (routeId : String) (updated : Int) :
    Option ForcedFreshness :=
  match purgeAt routeId with
  | some ts => if updated ≤ ts then some .forceMiss else none
  | none => none

/-- What happened: a purge stored its reading, a purge returned, or a lookup was answered. -/
inductive Event
  | stored (routeId : String) (reading : Int)
  | purged (routeId : String) (reading : Int)
  | answered (routeId : String) (updated : Int) (answer : Option ForcedFreshness)
deriving DecidableEq, Repr

structure Cache where
  /-- `NAMESPACE_PURGE_AT` -/
  purgeAt : String → Option Int
  /-- The call that holds `NAMESPACE_PURGE_WRITE_LOCK`. -/
  lock : Option Nat
  /-- What `SystemTime::now` reads. -/
  clock : Int
  /-- The objects in the storage, by route and time of update. -/
  objects : List (String × Int)
  events : List Event

/-- A call: a purge by where it is, an admission of an object, or a lookup of one. -/
inductive Call
  | purge (routeId : String)
  | load (routeId : String)
  | insert (routeId : String) (next : String → Option Int)
  | store (routeId : String) (next : String → Option Int) (reading : Int)
  | unlock (routeId : String) (reading : Int)
  | cacheWrite (routeId : String) (updated : Int)
  | cacheHit (routeId : String) (updated : Int)

/-- The purge holds the lock. -/
def Call.holds : Call → Prop
  | .load _ | .insert _ _ | .store _ _ _ | .unlock _ _ => True
  | .purge _ | .cacheWrite _ _ | .cacheHit _ _ => False

def Cache.log (s : Cache) (e : Event) : Cache :=
  { s with events := s.events ++ [e] }

/-- The next action of the call in slot `i`. -/
def act (i : Nat) (s : Cache) : Call → Unit → Option (Cache × Option Call)
  | .purge routeId, _ =>
    if routeId.isEmpty then some (s, none)
    else if s.lock.isSome then none
    else some ({ s with lock := some i }, some (.load routeId))
  | .load routeId, _ => some (s, some (.insert routeId s.purgeAt))
  | .insert routeId next, _ =>
    some (s, some (.store routeId (Function.update next routeId (some s.clock)) s.clock))
  | .store routeId next reading, _ =>
    some ({ s with purgeAt := next }.log (.stored routeId reading), some (.unlock routeId reading))
  | .unlock routeId reading, _ =>
    some ({ s with lock := none }.log (.purged routeId reading), none)
  | .cacheWrite routeId updated, _ => some ({ s with objects := (routeId, updated) :: s.objects }, none)
  | .cacheHit routeId updated, _ =>
    some (s.log (.answered routeId updated (cacheHitFilter s.purgeAt routeId updated)), none)

/-- The calls that can begin: purges, admissions and lookups of stored objects. -/
def begins (p : Pool Cache Call) : Call → Bool
  | .purge _ => true
  | .cacheWrite _ _ => true
  | .cacheHit routeId updated => p.shared.objects.contains (routeId, updated)
  | _ => false

/-- The cache of a process; the surroundings move the clock forward. -/
def cache : Object Cache Call Unit Nat where
  initial := ⟨fun _ => none, none, 0, [], []⟩
  begins := begins
  act := act
  env s d := some { s with clock := s.clock + d }

/-! ## The invariant -/

/-- What the events before an answer say about it: an object at or before the reading of a purge of
its route that has returned is refused, and only a purge of its own route refuses one. -/
def AnsweredRight (before : List Event) : Event → Prop
  | .answered routeId updated answer =>
    (∀ reading, .purged routeId reading ∈ before → updated ≤ reading → answer = some .forceMiss) ∧
    (answer = some .forceMiss → ∃ reading, .stored routeId reading ∈ before ∧ updated ≤ reading)
  | _ => True

/-- What a purge that holds the lock knows of the map. -/
def Current (s : Cache) : Call → Prop
  | .insert _ next => next = s.purgeAt
  | .store routeId next reading =>
    next = Function.update s.purgeAt routeId (some reading) ∧ reading ≤ s.clock ∧
      ∀ r t, s.purgeAt r = some t → t ≤ reading
  | .unlock routeId reading => s.purgeAt routeId = some reading
  | _ => True

structure Inv (p : Pool Cache Call) : Prop where
  holder : ∀ i t, p.tasks i = some t → t.holds → p.shared.lock = some i
  current : p.All (Current p.shared)
  past : ∀ r t, p.shared.purgeAt r = some t → t ≤ p.shared.clock
  kept : ∀ r reading, .purged r reading ∈ p.shared.events →
    ∃ t, p.shared.purgeAt r = some t ∧ reading ≤ t
  own : ∀ r t, p.shared.purgeAt r = some t → .stored r t ∈ p.shared.events
  right : Justified AnsweredRight p.shared.events

theorem current_of_not_holds {s : Cache} {t : Call} (h : ¬ t.holds) : Current s t := by
  cases t with
  | purge | cacheWrite | cacheHit => trivial
  | load | insert | store | unlock => exact absurd trivial h

namespace Inv

variable {p : Pool Cache Call} {i : Nat} {t : Call}

/-- While a call holds the lock the others know nothing of the map, so it may be written. -/
theorem others_current (h : Inv p) (hi : p.tasks i = some t) (ht : t.holds) (s' : Cache) :
    ∀ j u, j ≠ i → p.tasks j = some u → Current p.shared u → Current s' u := by
  intro j u hj hu _
  refine current_of_not_holds fun hholds => hj ?_
  have hlock := h.holder j u hu hholds
  rw [h.holder i t hi ht] at hlock
  exact (Option.some.inj hlock).symm

/-- A call that keeps the lock if it has it. -/
theorem holder_set (h : Inv p) {s' : Cache} {t' : Option Call} (hi : p.tasks i = some t)
    (hlock : s'.lock = p.shared.lock) (hnew : ∀ u, t' = some u → u.holds → t.holds) :
    ∀ j u, (p.set i s' t').tasks j = some u → u.holds → s'.lock = some j := by
  intro j u hu hholds
  rw [hlock]
  rcases Pool.tasks_set_cases hu with ⟨hj, hu'⟩ | ⟨-, hu'⟩
  · rw [hj]
    exact h.holder i t hi (hnew u hu' hholds)
  · exact h.holder j u hu' hholds

theorem begin (h : Inv p) (hb : begins p t = true) :
    Inv (p.set i p.shared (some t)) := by
  have hno : ¬ t.holds := by
    cases t with
    | purge | cacheWrite | cacheHit => exact id
    | load | insert | store | unlock => cases hb
  refine ⟨?_, ?_, h.past, h.kept, h.own, h.right⟩
  · intro j u hu hholds
    rcases Pool.tasks_set_cases hu with ⟨-, hu⟩ | ⟨-, hu⟩
    · cases hu
      exact absurd hholds hno
    · exact h.holder j u hu hholds
  · refine h.current.set (fun j u _ _ hu => hu) fun u hu => ?_
    cases hu
    exact current_of_not_holds hno

theorem env (h : Inv p) (d : Nat) :
    Inv { p with shared := { p.shared with clock := p.shared.clock + d } } := by
  refine ⟨h.holder, ?_, ?_, h.kept, h.own, h.right⟩
  · intro j u hu
    have hcur := h.current j u hu
    cases u with
    | store routeId next reading =>
      obtain ⟨hnext, hclock, hall⟩ := hcur
      exact ⟨hnext, Int.le_trans hclock (by simp only; omega), hall⟩
    | purge | load | insert | unlock | cacheWrite | cacheHit => exact hcur
  · intro r t ht
    exact Int.le_trans (h.past r t ht) (by simp only; omega)

/-- An action that leaves the map, the events and the lock alone. -/
theorem step_quiet (h : Inv p) (hi : p.tasks i = some t) {s' : Cache} {t' : Option Call}
    (hmap : s'.purgeAt = p.shared.purgeAt) (hclock : s'.clock = p.shared.clock)
    (hevents : s'.events = p.shared.events) (hlock : s'.lock = p.shared.lock)
    (hnew : ∀ u, t' = some u → (u.holds → t.holds) ∧ Current s' u) : Inv (p.set i s' t') := by
  refine ⟨h.holder_set hi hlock fun u hu => (hnew u hu).1, ?_, ?_, ?_, ?_, ?_⟩
  · refine h.current.set (fun j u _ _ hu => ?_) fun u hu => (hnew u hu).2
    cases u with
    | insert | store | unlock => simpa only [Pool.set_shared, Current, hmap, hclock] using hu
    | purge | load | cacheWrite | cacheHit => trivial
  · rw [Pool.set_shared, hmap, hclock]; exact h.past
  · rw [Pool.set_shared, hmap, hevents]; exact h.kept
  · rw [Pool.set_shared, hmap, hevents]; exact h.own
  · rw [Pool.set_shared, hevents]; exact h.right

theorem purge_lock (h : Inv p) {routeId : String} (hfree : p.shared.lock = none) :
    Inv (p.set i { p.shared with lock := some i } (some (.load routeId))) := by
  refine ⟨?_, ?_, h.past, h.kept, h.own, h.right⟩
  · intro j u hu hholds
    rcases Pool.tasks_set_cases hu with ⟨rfl, -⟩ | ⟨-, hu⟩
    · rfl
    · rw [h.holder j u hu hholds] at hfree
      cases hfree
  · refine h.current.set (fun j u _ _ hu => hu) fun u hu => ?_
    cases hu
    trivial

/-- The copy that is stored is the map with the new reading, which is later than all in it. -/
theorem store (h : Inv p) {routeId : String} {next : String → Option Int} {reading : Int}
    (hi : p.tasks i = some (.store routeId next reading)) :
    Inv (p.set i ({ p.shared with purgeAt := next }.log (.stored routeId reading))
      (some (.unlock routeId reading))) := by
  obtain ⟨rfl, hclock, hall⟩ := h.current i _ hi
  have hself : Function.update p.shared.purgeAt routeId (some reading) routeId = some reading :=
    Function.update_self ..
  refine ⟨h.holder_set hi rfl fun u _ _ => trivial, ?_, ?_, ?_, ?_, ?_⟩
  · refine h.current.set (h.others_current hi trivial _) fun u hu => ?_
    cases hu
    exact hself
  · intro r t (ht : Function.update p.shared.purgeAt routeId (some reading) r = some t)
    by_cases hr : r = routeId
    · rw [hr, hself] at ht
      cases ht
      exact hclock
    · exact h.past r t (by rwa [Function.update_of_ne hr] at ht)
  · intro r reading' hmem
    have hold : .purged r reading' ∈ p.shared.events := by
      simpa [Cache.log] using hmem
    obtain ⟨t, ht, hle⟩ := h.kept r reading' hold
    show ∃ t, Function.update p.shared.purgeAt routeId (some reading) r = some t ∧ reading' ≤ t
    by_cases hr : r = routeId
    · rw [hr] at ht ⊢
      exact ⟨reading, hself, Int.le_trans hle (hall routeId t ht)⟩
    · exact ⟨t, by rwa [Function.update_of_ne hr], hle⟩
  · intro r t (ht : Function.update p.shared.purgeAt routeId (some reading) r = some t)
    show _ ∈ p.shared.events ++ [.stored routeId reading]
    by_cases hr : r = routeId
    · rw [hr, hself] at ht
      cases ht
      rw [hr]
      exact List.mem_append_right _ (List.mem_singleton_self _)
    · exact List.mem_append_left _ (h.own r t (by rwa [Function.update_of_ne hr] at ht))
  · exact h.right.concat trivial

theorem unlock (h : Inv p) {routeId : String} {reading : Int}
    (hi : p.tasks i = some (.unlock routeId reading)) :
    Inv (p.set i ({ p.shared with lock := none }.log (.purged routeId reading)) none) := by
  have hstored : p.shared.purgeAt routeId = some reading := h.current i _ hi
  refine ⟨?_, ?_, h.past, ?_, ?_, h.right.concat trivial⟩
  · intro j u hu hholds
    rcases Pool.tasks_set_cases hu with ⟨-, hu⟩ | ⟨hj, hu⟩
    · cases hu
    · have hlock := h.holder j u hu hholds
      rw [h.holder i _ hi trivial] at hlock
      exact absurd (Option.some.inj hlock).symm hj
  · exact h.current.set (h.others_current hi trivial _) fun u hu => (nomatch hu)
  · intro r reading' hmem
    rcases List.mem_append.1 hmem with hold | hnew
    · exact h.kept r reading' hold
    · cases List.mem_singleton.1 hnew
      exact ⟨reading, hstored, Int.le_refl _⟩
  · intro r t ht
    exact List.mem_append_left _ (h.own r t ht)

/-- An answer is justified by the map, which is justified by what happened before. -/
theorem answeredRight (h : Inv p) (routeId : String) (updated : Int) :
    AnsweredRight p.shared.events
      (.answered routeId updated (cacheHitFilter p.shared.purgeAt routeId updated)) := by
  constructor
  · intro reading hmem hle
    obtain ⟨t, ht, hreading⟩ := h.kept routeId reading hmem
    simp only [cacheHitFilter, ht, if_pos (Int.le_trans hle hreading)]
  · intro hanswer
    cases ht : p.shared.purgeAt routeId with
    | none => simp [cacheHitFilter, ht] at hanswer
    | some t =>
      have hle : updated ≤ t := by
        by_contra hgt
        simp [cacheHitFilter, ht, hgt] at hanswer
      exact ⟨t, h.own routeId t ht, hle⟩

theorem cacheHit (h : Inv p) {routeId : String} {updated : Int}
    (hi : p.tasks i = some (.cacheHit routeId updated)) :
    Inv (p.set i (p.shared.log (.answered routeId updated
      (cacheHitFilter p.shared.purgeAt routeId updated))) none) := by
  refine ⟨h.holder_set hi rfl fun u hu => (nomatch hu), ?_, h.past, ?_, ?_,
    h.right.concat (h.answeredRight routeId updated)⟩
  · refine h.current.set (fun j u _ _ hu => ?_) fun u hu => (nomatch hu)
    cases u with
    | insert | store | unlock => exact hu
    | purge | load | cacheWrite | cacheHit => trivial
  · intro r reading hmem
    exact h.kept r reading (by simpa [Cache.log] using hmem)
  · intro r t ht
    exact List.mem_append_left _ (h.own r t ht)

theorem act (h : Inv p) (hi : p.tasks i = some t) {s' : Cache} {t' : Option Call}
    (hact : CachePurge.act i p.shared t () = some (s', t')) : Inv (p.set i s' t') := by
  cases t with
  | purge routeId =>
    rw [CachePurge.act] at hact
    split at hact
    · cases hact
      exact h.step_quiet hi rfl rfl rfl rfl fun u hu => (nomatch hu)
    · split at hact
      · cases hact
      · next hlock =>
        cases hact
        exact h.purge_lock (by simpa using hlock)
  | load routeId =>
    cases hact
    exact h.step_quiet hi rfl rfl rfl rfl fun u hu => by cases hu; exact ⟨fun _ => trivial, rfl⟩
  | insert routeId next =>
    cases hact
    refine h.step_quiet hi rfl rfl rfl rfl fun u hu => ?_
    cases hu
    have hnext : next = p.shared.purgeAt := h.current i _ hi
    exact ⟨fun _ => trivial, by rw [hnext], Int.le_refl _, h.past⟩
  | store routeId next reading =>
    cases hact
    exact h.store hi
  | unlock routeId reading =>
    cases hact
    exact h.unlock hi
  | cacheWrite routeId updated =>
    cases hact
    exact h.step_quiet hi rfl rfl rfl rfl fun u hu => (nomatch hu)
  | cacheHit routeId updated =>
    cases hact
    exact h.cacheHit hi

end Inv

theorem reachable_inv {p : Pool Cache Call} (h : cache.Reachable p) : Inv p := by
  refine h.invariant ?_ ?_ ?_ ?_
  · exact ⟨fun i t ht => (nomatch ht), fun i t ht => (nomatch ht), fun r t ht => (nomatch ht),
      fun r reading hmem => (nomatch hmem), fun r t ht => (nomatch ht), justified_nil⟩
  · intro p i t hp _ _ hb
    exact hp.begin hb
  · intro p i choice t s' t' hp _ hi hact
    exact hp.act hi hact
  · intro p d s' hp _ henv
    cases henv
    exact hp.env d

/-- **A purge is never lost**: in every interleaving of purges, admissions and lookups, each answer
of a lookup refuses an object that was updated at or before the reading of a purge of its route
that had returned; and an answer that refuses an object follows the reading of a purge of its own
route, at or after the update. -/
theorem purge_never_lost {p : Pool Cache Call} (h : cache.Reachable p) (before after : List Event)
    (routeId : String) (updated : Int) (answer : Option ForcedFreshness)
    (hevents : p.shared.events = before ++ .answered routeId updated answer :: after) :
    (∀ reading, .purged routeId reading ∈ before → updated ≤ reading →
      answer = some .forceMiss) ∧
    (answer = some .forceMiss →
      ∃ reading, .stored routeId reading ∈ before ∧ updated ≤ reading) :=
  (reachable_inv h).right before _ after hevents

/-- An object is stored, the route is purged, and the object is looked up. -/
def purgeAndLookup : List (Move Call Unit Nat) :=
  [.begin 0 (.cacheWrite "r" 3), .act 0 (), .env 5, .begin 1 (.purge "r"), .act 1 (), .act 1 (),
    .act 1 (), .act 1 (), .act 1 (), .begin 0 (.cacheHit "r" 3), .act 0 ()]

theorem purge_never_lost_purgeAndLookup :
    ∃ p answer, cache.run cache.start purgeAndLookup = some p ∧
      p.shared.events = [.stored "r" 5, .purged "r" 5, .answered "r" 3 answer] ∧
      answer = some .forceMiss := by
  refine ⟨_, _, rfl, rfl, ?_⟩
  exact (purge_never_lost (Object.Reachable.leads .start (Object.leads_of_run purgeAndLookup rfl))
    [.stored "r" 5, .purged "r" 5] [] "r" 3 _ rfl).1 5 (by decide) (by decide)

end Lonesome.CachePurge
