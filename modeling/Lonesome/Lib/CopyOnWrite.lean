import Lonesome.Lib.Interleaving
import Mathlib.Data.List.Basic

/-!
# Copy on write

A value in a cell that is replaced as a whole: an update loads it, makes a new value of it and stores
that, without a lock. Clients read the cell in between, each as often as it likes.

When no update loads while another one is about to store, the updates take effect one after the other
(`Linear`). Otherwise a store can undo others, but the value is still that of some of the updates in
order (`Serial`), and so is every value that a client sees. `clients_induct` carries either over to the clients.
-/

namespace Lonesome.Interleaving

/-- The first value, and what an update makes of a value: the value to store, if it stores one, and its
result. -/
structure Cell (α ω ρ : Type) where
  initial : α
  update : α → ω → Option α × ρ

namespace Cell

variable {α ω ρ γ κ : Type}

/-- The value, and the updates in the order in which they took effect, with their results. -/
structure State (α ω ρ : Type) where
  value : α
  log : List (ω × ρ)

/-- The updates that have taken effect. -/
def State.updates (s : State α ω ρ) : List ω := s.log.map Prod.fst

/-- An update before its load, an update before its store, or a client. -/
inductive Task (α ω ρ γ : Type) where
  | load (op : ω)
  | store (op : ω) (next : α) (result : ρ)
  | client (c : γ)

/-- What the clients do: which ones may begin, and what one of them does with what it reads. -/
structure Clients (α ω ρ γ κ : Type) where
  begins : γ → Bool
  observe : State α ω ρ → γ → κ → Option γ

variable (C : Cell α ω ρ) (clients : Clients α ω ρ γ κ)

def act (s : State α ω ρ) : Task α ω ρ γ → κ → Option (State α ω ρ × Option (Task α ω ρ γ))
  | .load op, _ =>
    match C.update s.value op with
    | (some next, result) => some (s, some (.store op next result))
    | (none, result) => some ({ s with log := s.log ++ [(op, result)] }, none)
  | .store op next result, _ => some (⟨next, s.log ++ [(op, result)]⟩, none)
  | .client c, choice => (clients.observe s c choice).map fun c' => (s, some (.client c'))

def Task.begins : Task α ω ρ γ → Bool
  | .load _ => true
  | .store _ _ _ => false
  | .client c => clients.begins c

/-- The cell with its updates and clients. -/
def object : Object (State α ω ρ) (Task α ω ρ γ) κ Empty where
  initial := ⟨C.initial, []⟩
  begins _ := Task.begins clients
  act _ := C.act clients
  env _ e := nomatch e

/-! ## One update after the other -/

def apply (a : α) (op : ω) : α := (C.update a op).1.getD a

/-- The value after updates. -/
def after (ops : List ω) : α := ops.foldl C.apply C.initial

theorem after_append (ops : List ω) (op : ω) : C.after (ops ++ [op]) = C.apply (C.after ops) op := by
  rw [after, List.foldl_append]
  rfl

theorem updates_append (s : State α ω ρ) (v : α) (op : ω) (result : ρ) :
    State.updates ⟨v, s.log ++ [(op, result)]⟩ = s.updates ++ [op] := by
  rw [State.updates, List.map_append]
  rfl

variable {C clients}

/-- What an action does. -/
theorem act_cases {s s' : State α ω ρ} {t : Task α ω ρ γ} {choice : κ} {t' : Option (Task α ω ρ γ)}
    (h : C.act clients s t choice = some (s', t')) :
    (∃ op next result, t = .load op ∧ C.update s.value op = (some next, result) ∧ s' = s ∧
      t' = some (.store op next result)) ∨
    (∃ op result, t = .load op ∧ C.update s.value op = (none, result) ∧
      s' = ⟨s.value, s.log ++ [(op, result)]⟩ ∧ t' = none) ∨
    (∃ op next result, t = .store op next result ∧ s' = ⟨next, s.log ++ [(op, result)]⟩ ∧ t' = none) ∨
    (∃ c c', t = .client c ∧ clients.observe s c choice = some c' ∧ s' = s ∧
      t' = some (.client c')) := by
  cases t with
  | load op =>
    rcases hu : C.update s.value op with ⟨_ | next, result⟩ <;> rw [act, hu] at h <;> cases h
    · exact .inr (.inl ⟨op, result, rfl, hu, rfl, rfl⟩)
    · exact .inl ⟨op, next, result, rfl, hu, rfl, rfl⟩
  | store op next result =>
    cases h
    exact .inr (.inr (.inl ⟨op, next, result, rfl, rfl, rfl⟩))
  | client c =>
    rw [act, Option.map_eq_some_iff] at h
    obtain ⟨c', hc, heq⟩ := h
    cases heq
    exact .inr (.inr (.inr ⟨c, c', rfl, hc, rfl, rfl⟩))

/-- What is about to be stored is such that `Q`. -/
def Task.Stores (Q : ω → α → ρ → Prop) : Task α ω ρ γ → Prop
  | .store op next result => Q op next result
  | _ => True

theorem Task.Stores.imp {Q R : ω → α → ρ → Prop} {t : Task α ω ρ γ} (h : t.Stores Q)
    (hQR : ∀ op next result, Q op next result → R op next result) : t.Stores R := by
  cases t with
  | store op next result => exact hQR op next result h
  | _ => trivial

/-! ## Any interleaving -/

/-- The value and those about to be stored are each the value after some of the updates, in their
order. -/
structure Serial (C : Cell α ω ρ) (p : Pool (State α ω ρ) (Task α ω ρ γ)) : Prop where
  value : ∃ ops, ops.Sublist p.shared.updates ∧ p.shared.value = C.after ops
  stores : p.All (Task.Stores fun op next _ =>
    ∃ ops, ops.Sublist p.shared.updates ∧ next = C.after (ops ++ [op]))

theorem serial {p : Pool (State α ω ρ) (Task α ω ρ γ)} (h : (C.object clients).Reachable p) :
    Serial C p := by
  refine Object.ReachableVia.invariant (O := C.object clients) (I := Serial C) ?_ ?_ ?_ ?_ h
  · exact ⟨⟨[], List.Sublist.refl _, rfl⟩, fun _ _ ht => (nomatch ht)⟩
  · intro p i t hp _ hi hbegins
    refine ⟨hp.value, hp.stores.set (fun _ _ _ _ ht => ht) fun t' ht => ?_⟩
    cases ht
    cases t with
    | store op next result => cases hbegins
    | _ => trivial
  · intro p i choice t s' t' hp _ ht hact
    -- the log only grows, so what was a part of it stays one
    have hgrows (op : ω) (result : ρ) (v : α) {ops : List ω} (hops : ops.Sublist p.shared.updates) :
        ops.Sublist (State.updates ⟨v, p.shared.log ++ [(op, result)]⟩) := by
      rw [updates_append]
      exact hops.trans (List.sublist_append_left _ _)
    have hothers (op : ω) (result : ρ) (v : α) {u : Task α ω ρ γ} (hu : u.Stores fun op next _ =>
        ∃ ops, ops.Sublist p.shared.updates ∧ next = C.after (ops ++ [op])) :
        u.Stores fun op' next _ => ∃ ops,
          ops.Sublist (State.updates ⟨v, p.shared.log ++ [(op, result)]⟩) ∧
            next = C.after (ops ++ [op']) :=
      hu.imp fun _ _ _ ⟨ops, hops, hnext⟩ => ⟨ops, hgrows op result v hops, hnext⟩
    obtain ⟨ops, hops, hvalue⟩ := hp.value
    obtain ⟨op, next, result, rfl, hu, rfl, rfl⟩ | ⟨op, result, rfl, hu, rfl, rfl⟩ |
      ⟨op, next, result, rfl, rfl, rfl⟩ | ⟨c, c', rfl, hc, rfl, rfl⟩ := act_cases hact
    · refine ⟨⟨ops, hops, hvalue⟩, hp.stores.set (fun _ _ _ _ ht => ht) fun t' ht => ?_⟩
      cases ht
      refine ⟨ops, hops, ?_⟩
      rw [after_append, ← hvalue, apply, hu]
      rfl
    · refine ⟨⟨ops, hgrows op result _ hops, hvalue⟩, ?_⟩
      exact hp.stores.set (fun _ _ _ _ => hothers op result _) fun t' ht => (nomatch ht)
    · obtain ⟨ops', hops', hnext⟩ := hp.stores i _ ht
      refine ⟨⟨ops' ++ [op], ?_, hnext⟩, ?_⟩
      · rw [Pool.set_shared, updates_append]
        exact hops'.append (List.Sublist.refl [op])
      · exact hp.stores.set (fun _ _ _ _ => hothers op result next) fun t' ht => (nomatch ht)
    · refine ⟨⟨ops, hops, hvalue⟩, hp.stores.set (fun _ _ _ _ ht => ht) fun t' ht => ?_⟩
      cases ht
      trivial
  · exact fun _ e => nomatch e

/-! ## Updates that do not overlap -/

/-- No update loads while another one is about to store. -/
def Apart (p : Pool (State α ω ρ) (Task α ω ρ γ)) : Move (Task α ω ρ γ) κ Empty → Prop
  | .act i _ => ∀ op, p.tasks i = some (.load op) → p.All (Task.Stores fun _ _ _ => False)
  | _ => True

/-- The updates took effect one after the other: the value is the one after all of them, and each has the
result it has there. At most one is about to store. -/
structure Linear (C : Cell α ω ρ) (p : Pool (State α ω ρ) (Task α ω ρ γ)) : Prop where
  value : p.shared.value = C.after p.shared.updates
  results : ∀ n op result, p.shared.log[n]? = some (op, result) →
    (C.update (C.after (p.shared.updates.take n)) op).2 = result
  stores : p.All (Task.Stores fun op next result => C.update p.shared.value op = (some next, result))
  alone : p.AtMostOne fun t => ¬ t.Stores fun _ _ _ => False

/-- The next update takes effect. -/
theorem Linear.results_append {p : Pool (State α ω ρ) (Task α ω ρ γ)} (hp : Linear C p) {op : ω}
    {next : Option α} {result : ρ} (hu : C.update p.shared.value op = (next, result)) {n : Nat}
    {op' : ω} {result' : ρ} (hn : (p.shared.log ++ [(op, result)])[n]? = some (op', result')) :
    (C.update (C.after ((p.shared.updates ++ [op]).take n)) op').2 = result' := by
  have hlength : p.shared.updates.length = p.shared.log.length := List.length_map _
  rcases Nat.lt_trichotomy n p.shared.log.length with hlt | rfl | hgt
  · rw [List.getElem?_append_left hlt] at hn
    rw [List.take_append_of_le_length (by omega)]
    exact hp.results n op' result' hn
  · rw [List.getElem?_concat_length] at hn
    cases hn
    rw [List.take_append_of_le_length (by omega), ← hlength, List.take_length, ← hp.value, hu]
  · rw [List.getElem?_eq_none (by rw [List.length_append]; exact hgt)] at hn
    cases hn

theorem linear {p : Pool (State α ω ρ) (Task α ω ρ γ)}
    (h : (C.object clients).ReachableVia Apart p) : Linear C p := by
  refine Object.ReachableVia.invariant (I := Linear C) ?_ ?_ ?_ ?_ h
  · exact ⟨rfl, fun _ _ _ hn => (nomatch hn), fun _ _ ht => (nomatch ht), fun _ _ _ _ ht => (nomatch ht)⟩
  · intro p i t hp _ hi hbegins
    have hidle : t.Stores (α := α) (ρ := ρ) fun _ _ _ => False := by
      cases t with
      | store op next result => cases hbegins
      | _ => trivial
    refine ⟨hp.value, hp.results, hp.stores.set (fun _ _ _ _ ht => ht) fun t' ht => ?_, ?_⟩
    · cases ht
      exact hidle.imp fun _ _ _ => False.elim
    · refine hp.alone.set fun t' ht hbusy => ?_
      cases ht
      exact absurd hidle hbusy
  · intro p i choice t s' t' hp hapart ht hact
    obtain ⟨op, next, result, rfl, hu, rfl, rfl⟩ | ⟨op, result, rfl, hu, rfl, rfl⟩ |
      ⟨op, next, result, rfl, rfl, rfl⟩ | ⟨c, c', rfl, hc, rfl, rfl⟩ := act_cases hact
    · refine ⟨hp.value, hp.results, hp.stores.set (fun _ _ _ _ ht => ht) fun t' ht => ?_, ?_⟩
      · cases ht
        exact hu
      · refine Pool.atMostOne_set_of_not_any ?_
        rintro ⟨j, u, hj, hbusy⟩
        exact hbusy (hapart op ht j u hj)
    · have hvalue : C.after (p.shared.updates ++ [op]) = p.shared.value := by
        rw [after_append, ← hp.value, apply, hu]
        rfl
      refine ⟨?_, fun n op' result' hn => ?_, ?_, ?_⟩
      · rw [Pool.set_shared, updates_append, hvalue]
      · rw [Pool.set_shared, updates_append]
        exact hp.results_append hu hn
      · exact hp.stores.set (fun _ _ _ _ ht => ht) fun t' ht => (nomatch ht)
      · exact hp.alone.set fun t' ht => (nomatch ht)
    · have hu : C.update p.shared.value op = (some next, result) := hp.stores i _ ht
      -- no other update is about to store
      have hothers : ∀ j u, j ≠ i → p.tasks j = some u → u.Stores fun _ _ _ => False := by
        intro j u hj hu
        by_contra hbusy
        exact hj (hp.alone j i u _ hu ht hbusy id)
      refine ⟨?_, fun n op' result' hn => ?_, ?_, ?_⟩
      · rw [Pool.set_shared, updates_append, after_append, ← hp.value, apply, hu]
        rfl
      · rw [Pool.set_shared, updates_append]
        exact hp.results_append hu hn
      · refine hp.stores.set (fun j u hj hu _ => ?_) fun t' ht => (nomatch ht)
        exact (hothers j u hj hu).imp fun _ _ _ => False.elim
      · exact hp.alone.set fun t' ht => (nomatch ht)
    · refine ⟨hp.value, hp.results, hp.stores.set (fun _ _ _ _ ht => ht) fun t' ht => ?_, ?_⟩
      · cases ht
        trivial
      · refine hp.alone.set fun t' ht hbusy => ?_
        cases ht
        exact absurd trivial hbusy
  · exact fun _ e => nomatch e

/-! ## Clients -/

/-- The rule of the clients: what their reads of the cell keep holds of all of them, if it does not
depend on the updates to come. -/
theorem clients_induct {P : Pool (State α ω ρ) (Task α ω ρ γ) → Move (Task α ω ρ γ) κ Empty → Prop}
    {J : List ω → γ → Prop} (hbegins : ∀ ops c, clients.begins c = true → J ops c)
    (hgrows : ∀ ops op c, J ops c → J (ops ++ [op]) c)
    (hobserve : ∀ p c choice c', (C.object clients).ReachableVia P p → J p.shared.updates c →
      clients.observe p.shared c choice = some c' → J p.shared.updates c')
    {p : Pool (State α ω ρ) (Task α ω ρ γ)} (h : (C.object clients).ReachableVia P p) {i : Nat} {c : γ}
    (hc : p.tasks i = some (.client c)) : J p.shared.updates c := by
  suffices hall : p.All fun t => ∀ c, t = .client c → J p.shared.updates c from hall i _ hc c rfl
  clear hc
  induction h with
  | start => exact fun _ _ ht => (nomatch ht)
  | move hp hP hmove ih =>
    obtain ⟨i, t, rfl, hi, hb, rfl⟩ | ⟨i, choice, t, s', t', rfl, hi, ha, rfl⟩ |
      ⟨e, s', rfl, he, rfl⟩ := Object.move_cases hmove
    · refine ih.set (fun _ _ _ _ ht => ht) fun t' ht c hc => ?_
      cases ht
      cases hc
      exact hbegins _ c hb
    · obtain ⟨op, next, result, rfl, hu, rfl, rfl⟩ | ⟨op, result, rfl, hu, rfl, rfl⟩ |
        ⟨op, next, result, rfl, rfl, rfl⟩ | ⟨c, c', rfl, hc, rfl, rfl⟩ := act_cases ha
      · refine ih.set (fun _ _ _ _ ht => ht) fun t' ht c hc => ?_
        cases ht
        cases hc
      · refine ih.set (fun _ _ _ _ ht c hc => ?_) fun t' ht => (nomatch ht)
        rw [Pool.set_shared, updates_append]
        exact hgrows _ op c (ht c hc)
      · refine ih.set (fun _ _ _ _ ht c hc => ?_) fun t' ht => (nomatch ht)
        rw [Pool.set_shared, updates_append]
        exact hgrows _ op c (ht c hc)
      · have hnew := hobserve _ c choice c' hp (ih i _ hi c rfl) hc
        refine ih.set (fun _ _ _ _ ht => ht) fun t' ht c₂ hc₂ => ?_
        cases ht
        cases hc₂
        exact hnew
    · nomatch e

end Cell

end Lonesome.Interleaving
