import Mathlib.Data.List.Induction
import Mathlib.Data.List.Sort

/-!
# Histories of keyed writes

A store is driven by a history of operations, each of which writes one key, clears one key, or
has no effect. `SetLast` says which write of a key is the one that counts at the end of a history:
no later operation of the history has an effect on that key.

Two shapes of store are covered. A map represents the history when it holds, for each key, the
value of the write that counts (`Represents`). A list that is sorted anew after each write keeps,
among equal elements, the order of writing, which is what `pairwise_mergeSort_ties` says of a
stable sort.
-/

namespace Lonesome.Lib

variable {O K V : Type} {effect : O → Option (K × Option V)} {ops : List O} {op : O}
  {t t' : Nat} {k : K} {v v' : V}

/-- The operation at time `t` set `k` to `v`, and no later one has an effect on `k`. -/
def SetLast (effect : O → Option (K × Option V)) (ops : List O) (t : Nat) (k : K) (v : V) : Prop :=
  ops[t]?.bind effect = some (k, some v) ∧
    ∀ t', t < t' → ∀ w, ops[t']?.bind effect ≠ some (k, w)

theorem SetLast.lt_length (h : SetLast effect ops t k v) : t < ops.length := by
  by_contra hlt
  have hnone : ops[t]? = none := List.getElem?_eq_none (Nat.le_of_not_lt hlt)
  have hset := h.1
  rw [hnone] at hset
  cases hset

theorem not_setLast_nil : ¬ SetLast effect [] t k v := fun h =>
  absurd h.lt_length (Nat.not_lt_zero t)

/-- A key has one time at which it was set last. -/
theorem SetLast.time_unique (h : SetLast effect ops t k v) (h' : SetLast effect ops t' k v') :
    t = t' := by
  rcases lt_trichotomy t t' with hlt | heq | hgt
  · exact absurd h'.1 (h.2 t' hlt _)
  · exact heq
  · exact absurd h.1 (h'.2 t hgt _)

theorem SetLast.value_unique (h : SetLast effect ops t k v) (h' : SetLast effect ops t' k v') :
    v = v' := by
  have ht := h.time_unique h'
  subst ht
  have heq := h.1.symm.trans h'.1
  simp only [Option.some.injEq, Prod.mk.injEq, true_and] at heq
  exact heq

/-- **One more operation**: it sets the key itself, or it has no effect on the key. -/
theorem setLast_concat :
    SetLast effect (ops ++ [op]) t k v ↔
      (t = ops.length ∧ effect op = some (k, some v)) ∨
      (SetLast effect ops t k v ∧ ∀ w, effect op ≠ some (k, w)) := by
  have hlast : (ops ++ [op])[ops.length]? = some op := by simp
  constructor
  · intro h
    have hlt := h.lt_length
    rw [List.length_append, List.length_singleton] at hlt
    rcases Nat.lt_or_ge t ops.length with hin | hout
    · refine .inr ⟨⟨?_, ?_⟩, ?_⟩
      · have hset := h.1
        rwa [List.getElem?_append_left hin] at hset
      · intro t' ht' w
        by_cases hin' : t' < ops.length
        · have hno := h.2 t' ht' w
          rwa [List.getElem?_append_left hin'] at hno
        · rw [List.getElem?_eq_none (Nat.le_of_not_lt hin')]
          exact fun hw => nomatch hw
      · intro w
        have hno := h.2 ops.length hin w
        rwa [hlast] at hno
    · obtain rfl : t = ops.length := by omega
      have hset := h.1
      rw [hlast] at hset
      exact .inl ⟨rfl, hset⟩
  · rintro (⟨rfl, hop⟩ | ⟨h, hop⟩)
    · refine ⟨by rw [hlast]; exact hop, fun t' ht' w => ?_⟩
      rw [List.getElem?_eq_none (by simp; omega)]
      exact fun hw => nomatch hw
    · have hin := h.lt_length
      refine ⟨by rw [List.getElem?_append_left hin]; exact h.1, fun t' ht' w => ?_⟩
      rcases lt_trichotomy t' ops.length with hlt | rfl | hgt
      · rw [List.getElem?_append_left hlt]
        exact h.2 t' ht' w
      · rw [hlast]
        exact hop w
      · rw [List.getElem?_eq_none (by simp; omega)]
        exact fun hw => nomatch hw

/-- Operations without an effect leave every last write where it was. -/
theorem setLast_append {more : List O} (hmore : ∀ op ∈ more, effect op = none) :
    SetLast effect (ops ++ more) t k v ↔ SetLast effect ops t k v := by
  induction more using List.reverseRecOn with
  | nil => rw [List.append_nil]
  | append_singleton more op ih =>
    have hop : effect op = none := hmore op (by simp)
    rw [← List.append_assoc, setLast_concat, hop]
    simpa using ih fun op' hop' => hmore op' (List.mem_append_left _ hop')

/-- An operation that does not set a key leaves its last write where it was, or clears it. -/
theorem SetLast.of_concat (h : SetLast effect (ops ++ [op]) t k v)
    (hop : ∀ w, effect op ≠ some (k, some w)) : SetLast effect ops t k v := by
  rcases setLast_concat.1 h with ⟨-, heff⟩ | ⟨h, -⟩
  · exact absurd heff (hop v)
  · exact h

/-! ## Maps -/

/-- A map after a write, or after none. -/
def applyWrite [DecidableEq K] (m : K → Option V) : Option (K × Option V) → K → Option V
  | some (k, w) => Function.update m k w
  | none => m

/-- The map holds, for each key, the value it was set to last. -/
def Represents (effect : O → Option (K × Option V)) (ops : List O) (m : K → Option V) : Prop :=
  ∀ k v, m k = some v ↔ ∃ t, SetLast effect ops t k v

theorem represents_nil : Represents effect [] fun _ => none := fun _ _ =>
  ⟨fun h => (nomatch h), fun ⟨_, h⟩ => absurd h not_setLast_nil⟩

/-- A map that is written as the operation says represents the longer history. -/
theorem Represents.concat [DecidableEq K] {m m' : K → Option V} (h : Represents effect ops m)
    (hop : m' = applyWrite m (effect op)) :
    Represents effect (ops ++ [op]) m' := by
  intro k v
  simp only [setLast_concat]
  subst hop
  cases heff : effect op with
  | none => simpa [applyWrite] using h k v
  | some write =>
    obtain ⟨k', w⟩ := write
    by_cases hk : k = k'
    · subst hk
      simp [applyWrite]
    · have hk' : ¬ k' = k := fun heq => hk heq.symm
      simpa [applyWrite, Function.update_of_ne hk, hk'] using h k v

/-! ## Lists sorted after each write -/

variable {α : Type}

/-- Two members of a list stand in one of the two orders. -/
theorem pair_sublist_of_mem {l : List α} {a b : α} (ha : a ∈ l) (hb : b ∈ l) (hne : a ≠ b) :
    [a, b].Sublist l ∨ [b, a].Sublist l := by
  induction l with
  | nil => cases ha
  | cons x l ih =>
    rcases List.mem_cons.1 ha with rfl | ha'
    · have hb' := (List.mem_cons.1 hb).resolve_left hne.symm
      exact .inl ((List.singleton_sublist.2 hb').cons_cons a)
    · rcases List.mem_cons.1 hb with rfl | hb'
      · exact .inr ((List.singleton_sublist.2 ha').cons_cons b)
      · exact (ih ha' hb').imp (·.cons x) (·.cons x)

/-- In a list without duplicates only one of the two orders occurs. -/
theorem eq_of_pair_sublist {l : List α} {a b : α} (hnodup : l.Nodup) (hab : [a, b].Sublist l)
    (hba : [b, a].Sublist l) : a = b := by
  induction l with
  | nil => cases hab
  | cons x l ih =>
    rw [List.nodup_cons] at hnodup
    cases hab with
    | cons _ hab =>
      cases hba with
      | cons _ hba => exact ih hnodup.2 hab hba
      | cons_cons _ hba => exact absurd (hab.subset (by simp)) hnodup.1
    | cons_cons _ hab =>
      cases hba with
      | cons _ hba => exact absurd (hba.subset (by simp)) hnodup.1
      | cons_cons _ hba => rfl

/-- **A stable sort keeps the order of ties**: a property that holds in the list from each element
to a later equal one holds in the sorted list too. -/
theorem pairwise_mergeSort_ties {le : α → α → Bool} {R : α → α → Prop} {l : List α}
    (trans : ∀ a b c, le a b = true → le b c = true → le a c = true)
    (total : ∀ a b, (le a b || le b a) = true) (nodup : l.Nodup)
    (ties : l.Pairwise fun a b => le a b = true → le b a = true → R a b) :
    (l.mergeSort le).Pairwise fun a b => le a b = true ∧ (le b a = true → R a b) := by
  have hsorted := List.pairwise_mergeSort trans total l
  have hnodup : (l.mergeSort le).Nodup := (List.mergeSort_perm l le).nodup_iff.2 nodup
  rw [List.pairwise_iff_forall_sublist] at hsorted ties ⊢
  intro a b hab
  have hle := hsorted hab
  refine ⟨hle, fun hba => ?_⟩
  have hne : a ≠ b := by
    rintro rfl
    have hpair := hab.nodup hnodup
    simp at hpair
  have ha : a ∈ l := List.mem_mergeSort.1 (hab.subset (by simp))
  have hb : b ∈ l := List.mem_mergeSort.1 (hab.subset (by simp))
  rcases pair_sublist_of_mem ha hb hne with hl | hl
  · exact ties hl hle hba
  · -- the sort is stable, so it would have kept the other order
    have hsorted' := List.pair_sublist_mergeSort trans total hba hl
    exact absurd (eq_of_pair_sublist hnodup hab hsorted') hne

end Lonesome.Lib
