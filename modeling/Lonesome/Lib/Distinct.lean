import Mathlib.Data.List.Induction
import Mathlib.Data.List.Sort
import Mathlib.Order.Basic

/-!
# Distinct elements in order of first occurrence

A list is gone through from the left, and an element that is not yet among those kept is added to
their end. The result is determined by what it is for: it has no duplicates, it has the elements of
the list, and they stand in the order in which the list names them first (`distinct_eq_iff`).
-/

namespace Lonesome.Lib

variable {α : Type} [DecidableEq α]

/-- Keeps an element that is new. -/
def pushNew (kept : List α) (a : α) : List α :=
  if kept.contains a then kept else kept ++ [a]

/-- The elements of a list, each once. -/
def distinct (l : List α) : List α :=
  l.foldl pushNew []

/-- The elements of a list, each once and in the order in which they first occur. -/
structure FirstOccurrences (l kept : List α) : Prop where
  nodup : kept.Nodup
  mem_iff : ∀ a, a ∈ kept ↔ a ∈ l
  sorted : kept.Pairwise fun a b => l.idxOf a < l.idxOf b

variable {l kept kept' : List α}

namespace FirstOccurrences

theorem nil : FirstOccurrences ([] : List α) [] :=
  ⟨.nil, fun _ => .rfl, .nil⟩

/-- A longer list names the elements of the shorter one where it did. -/
theorem sorted_concat (h : FirstOccurrences l kept) (a : α) :
    kept.Pairwise fun x y => (l ++ [a]).idxOf x < (l ++ [a]).idxOf y := by
  refine h.sorted.imp_of_mem fun {x y} hx hy hxy => ?_
  rw [List.idxOf_append, List.idxOf_append, if_pos ((h.mem_iff x).1 hx), if_pos ((h.mem_iff y).1 hy)]
  exact hxy

/-- One element more. -/
theorem pushNew (h : FirstOccurrences l kept) (a : α) :
    FirstOccurrences (l ++ [a]) (Lib.pushNew kept a) := by
  unfold Lib.pushNew
  by_cases ha : a ∈ kept
  · rw [if_pos (List.contains_iff_mem.2 ha)]
    refine ⟨h.nodup, fun x => ?_, h.sorted_concat a⟩
    have hal := (h.mem_iff a).1 ha
    rw [List.mem_append, List.mem_singleton, h.mem_iff]
    constructor
    · exact .inl
    · rintro (hx | rfl)
      · exact hx
      · exact hal
  · rw [if_neg fun hc => ha (List.contains_iff_mem.1 hc)]
    have hal : a ∉ l := fun hl => ha ((h.mem_iff a).2 hl)
    refine ⟨?_, fun x => ?_, ?_⟩
    · exact List.nodup_append.2 ⟨h.nodup, List.nodup_singleton a, fun x hx y hy hxy =>
        ha (List.mem_singleton.1 hy ▸ hxy ▸ hx)⟩
    · rw [List.mem_append, List.mem_append, h.mem_iff]
    · refine List.pairwise_append.2 ⟨h.sorted_concat a, List.pairwise_singleton _ _, ?_⟩
      intro x hx y hy
      obtain rfl := List.mem_singleton.1 hy
      have hxl := (h.mem_iff x).1 hx
      rw [List.idxOf_append, List.idxOf_append, if_pos hxl, if_neg hal]
      exact lt_of_lt_of_le (List.idxOf_lt_length_of_mem hxl) (Nat.le_add_left _ _)

theorem unique (h : FirstOccurrences l kept) (h' : FirstOccurrences l kept') : kept = kept' := by
  have hperm : kept.Perm kept' :=
    (List.perm_ext_iff_of_nodup h.nodup h'.nodup).2 fun a => by rw [h.mem_iff, h'.mem_iff]
  exact hperm.eq_of_pairwise (fun a b _ _ hab hba => (lt_asymm hab hba).elim) h.sorted h'.sorted

end FirstOccurrences

theorem firstOccurrences_distinct (l : List α) : FirstOccurrences l (distinct l) := by
  induction l using List.reverseRecOn with
  | nil => exact .nil
  | append_singleton l a ih =>
    unfold distinct
    rw [List.foldl_append, List.foldl_cons, List.foldl_nil]
    exact ih.pushNew a

/-- **What the accumulator ends with.** -/
theorem distinct_eq_iff : distinct l = kept ↔ FirstOccurrences l kept := by
  constructor
  · rintro rfl
    exact firstOccurrences_distinct l
  · exact (firstOccurrences_distinct l).unique

end Lonesome.Lib
