import Lonesome.Lib.KeyedSet

/-!
# Maps in the order of their keys

A map as a list of entries with strictly increasing keys. An insertion replaces the value of a key
that is there, so of entries with one key the last stays and the map is shorter than the list of
what was inserted: `length_insertAll_eq_iff`. Without such entries nothing is lost
(`insertAll_perm`), and the order of insertion does not matter (`insertAll_eq_of_perm`).
-/

namespace Lonesome.Lib

variable {κ ν : Type} [LinearOrder κ]

/-- `BTreeMap::insert` -/
def insertKey (k : κ) (v : ν) : List (κ × ν) → List (κ × ν)
  | [] => [(k, v)]
  | e :: m =>
    if k < e.1 then (k, v) :: e :: m
    else if k = e.1 then (k, v) :: m
    else e :: insertKey k v m

/-- The entries, inserted one after the other. -/
def insertAll (m entries : List (κ × ν)) : List (κ × ν) :=
  entries.foldl (fun m e => insertKey e.1 e.2 m) m

variable {k : κ} {v : ν} {m entries entries' : List (κ × ν)}

theorem insertAll_concat (m entries : List (κ × ν)) (e : κ × ν) :
    insertAll m (entries ++ [e]) = insertKey e.1 e.2 (insertAll m entries) := by
  simp [insertAll]

/-- The keys of a map are a set that is kept in order. -/
theorem keys_insertKey : (insertKey k v m).map Prod.fst = insertBy id k (m.map Prod.fst) := by
  induction m with
  | nil => rfl
  | cons e m ih =>
    rw [insertKey, List.map_cons, insertBy]
    split
    · next hlt => rw [if_pos (show id k < id e.1 from hlt)]; rfl
    · next hge =>
      rw [if_neg (show ¬ id k < id e.1 from hge)]
      split
      · next heq => rw [if_pos (show id k = id e.1 from heq), heq]; rfl
      · next hne => rw [if_neg (show ¬ id k = id e.1 from hne), List.map_cons, ih]

theorem keys_insertAll : (insertAll [] entries).map Prod.fst = collectBy id (entries.map Prod.fst) := by
  induction entries using List.reverseRecOn with
  | nil => rfl
  | append_singleton entries e ih =>
    rw [insertAll_concat, keys_insertKey, ih, List.map_append, List.map_singleton, collectBy_concat]

theorem sorted_insertAll (entries : List (κ × ν)) :
    ((insertAll [] entries).map Prod.fst).Pairwise (· < ·) := by
  have hsorted := @sorted_collectBy κ κ _ id (entries.map Prod.fst)
  rw [List.map_id] at hsorted
  rw [keys_insertAll]
  exact hsorted

theorem nodup_keys_insertAll (entries : List (κ × ν)) :
    ((insertAll [] entries).map Prod.fst).Nodup :=
  (sorted_insertAll entries).imp fun h => h.ne

/-- A key that is not there yet. -/
theorem insertKey_perm (hk : k ∉ m.map Prod.fst) : (insertKey k v m).Perm ((k, v) :: m) := by
  induction m with
  | nil => exact .refl _
  | cons e m ih =>
    rw [List.map_cons, List.mem_cons, not_or] at hk
    rw [insertKey]
    split
    · exact .refl _
    · rw [if_neg hk.1]
      exact ((ih hk.2).cons e).trans (.swap _ _ _)

/-- Entries with different keys are all kept. -/
theorem insertAll_perm (hkeys : (entries.map Prod.fst).Nodup) : (insertAll [] entries).Perm entries := by
  induction entries using List.reverseRecOn with
  | nil => exact .refl _
  | append_singleton entries e ih =>
    rw [List.map_append, List.map_singleton] at hkeys
    obtain ⟨hbefore, -, hnew⟩ := List.nodup_append.1 hkeys
    have hperm := ih hbefore
    have hfresh : e.1 ∉ (insertAll [] entries).map Prod.fst := by
      intro hmem
      have hold := (hperm.map Prod.fst).mem_iff.1 hmem
      exact hnew e.1 hold e.1 List.mem_cons_self rfl
    rw [insertAll_concat]
    refine (insertKey_perm hfresh).trans ?_
    exact (hperm.cons e).trans (List.perm_append_singleton e entries).symm

/-- The map has as many entries as went into it exactly when their keys are different. -/
theorem length_insertAll_eq_iff :
    (insertAll [] entries).length = entries.length ↔ (entries.map Prod.fst).Nodup := by
  constructor
  · intro hlength
    have hsub : ((insertAll [] entries).map Prod.fst).Subset (entries.map Prod.fst) := by
      intro k hk
      rw [keys_insertAll, ← List.map_id (collectBy id _), mem_keys_collectBy, List.map_id] at hk
      exact hk
    have hperm : ((insertAll [] entries).map Prod.fst).Perm (entries.map Prod.fst) := by
      apply (List.subperm_of_subset (nodup_keys_insertAll entries) hsub).perm_of_length_le
      rw [List.length_map, List.length_map, hlength]
    exact hperm.nodup_iff.1 (nodup_keys_insertAll entries)
  · intro hkeys
    exact (insertAll_perm hkeys).length_eq

/-- **The order of insertion does not matter** to entries with different keys. -/
theorem insertAll_eq_of_perm (hkeys : (entries.map Prod.fst).Nodup) (h : entries.Perm entries') :
    insertAll [] entries = insertAll [] entries' := by
  have hperm : (insertAll [] entries).Perm (insertAll [] entries') :=
    (insertAll_perm hkeys).trans
      (h.trans (insertAll_perm ((h.map Prod.fst).nodup_iff.1 hkeys)).symm)
  refine List.Perm.eq_of_pairwise ?_ (List.pairwise_map.1 (sorted_insertAll entries))
    (List.pairwise_map.1 (sorted_insertAll entries')) hperm
  intro e e' _ _ hlt hgt
  exact absurd hgt hlt.asymm

end Lonesome.Lib
