import Lonesome.Lib.Effects
import Mathlib.Data.List.Induction
import Mathlib.Data.List.Perm.Basic
import Mathlib.Data.List.Sort
import Mathlib.Order.Basic

/-!
# Sets ordered by a key

An ordered set whose elements are compared by a key only, as a list with strictly increasing keys.
An element whose key is taken is not inserted, so of elements with one key the first stays. What the
set holds depends on the order of insertion, but the keys of the set do not
(`keys_collect_eq_of_mem_iff`).

The second part is about two lists whose elements correspond: a search by corresponding predicates
finds corresponding elements. A map that can fail gives such a list, and in another order of the
arguments the same results in that order (`mapM_perm`).
-/

namespace Lonesome.Lib

variable {α β κ : Type} [LinearOrder κ] (key : α → κ)

/-- `BTreeSet::insert` -/
def insertBy (a : α) : List α → List α
  | [] => [a]
  | b :: l =>
    if key a < key b then a :: b :: l
    else if key a = key b then b :: l
    else b :: insertBy a l

/-- The elements of the list, inserted one after the other. -/
def collectBy (l : List α) : List α :=
  l.foldl (fun s a => insertBy key a s) []

variable {key}

theorem mem_of_mem_insertBy {a x : α} {l : List α} (h : x ∈ insertBy key a l) : x = a ∨ x ∈ l := by
  induction l with
  | nil => exact .inl (List.mem_singleton.1 h)
  | cons b l ih =>
    rw [insertBy] at h
    split at h
    · exact List.mem_cons.1 h
    · split at h
      · exact .inr h
      · rcases List.mem_cons.1 h with rfl | h
        · exact .inr List.mem_cons_self
        · exact (ih h).imp_right (List.mem_cons_of_mem b)

theorem mem_keys_insertBy {a : α} {k : κ} {l : List α} :
    k ∈ (insertBy key a l).map key ↔ k = key a ∨ k ∈ l.map key := by
  induction l with
  | nil => simp [insertBy]
  | cons b l ih =>
    rw [insertBy]
    split
    · simp
    · split
      · next heq => simp [heq]
      · rw [List.map_cons, List.mem_cons, ih, List.map_cons, List.mem_cons, or_left_comm]

theorem sorted_insertBy {a : α} {l : List α} (h : (l.map key).Pairwise (· < ·)) :
    ((insertBy key a l).map key).Pairwise (· < ·) := by
  induction l with
  | nil => simp [insertBy]
  | cons b l ih =>
    have hb := (List.pairwise_cons.1 h).1
    rw [insertBy]
    split
    · next hlt =>
      refine List.pairwise_cons.2 ⟨fun k hk => ?_, h⟩
      rcases List.mem_cons.1 hk with rfl | hk
      · exact hlt
      · exact hlt.trans (hb k hk)
    · split
      · exact h
      · next hge hne =>
        refine List.pairwise_cons.2 ⟨fun k hk => ?_, ih (List.pairwise_cons.1 h).2⟩
        rcases mem_keys_insertBy.1 hk with rfl | hk
        · exact lt_of_le_of_ne (not_lt.1 hge) (Ne.symm hne)
        · exact hb k hk

/-- An invariant of the set and the list that went into it. -/
theorem collectBy_concat (l : List α) (a : α) :
    collectBy key (l ++ [a]) = insertBy key a (collectBy key l) := by
  simp [collectBy]

theorem sorted_collectBy (l : List α) : ((collectBy key l).map key).Pairwise (· < ·) := by
  induction l using List.reverseRecOn with
  | nil => exact .nil
  | append_singleton l a ih =>
    rw [collectBy_concat]
    exact sorted_insertBy ih

theorem mem_of_mem_collectBy {l : List α} {x : α} (h : x ∈ collectBy key l) : x ∈ l := by
  induction l using List.reverseRecOn with
  | nil => exact h
  | append_singleton l a ih =>
    rw [collectBy_concat] at h
    rcases mem_of_mem_insertBy h with rfl | h
    · exact List.mem_append_right _ List.mem_cons_self
    · exact List.mem_append_left _ (ih h)

theorem mem_keys_collectBy {l : List α} {k : κ} : k ∈ (collectBy key l).map key ↔ k ∈ l.map key := by
  induction l using List.reverseRecOn with
  | nil => rfl
  | append_singleton l a ih =>
    rw [collectBy_concat, mem_keys_insertBy, ih, List.map_append, List.mem_append, or_comm]
    simp

/-- **The order of insertion does not matter to the keys.** -/
theorem keys_collect_eq_of_mem_iff {key' : β → κ} {l : List α} {l' : List β}
    (h : ∀ k, k ∈ l.map key ↔ k ∈ l'.map key') :
    (collectBy key l).map key = (collectBy key' l').map key' := by
  refine (sorted_collectBy l).eq_of_mem_iff (sorted_collectBy l') fun k => ?_
  rw [mem_keys_collectBy, mem_keys_collectBy, h]

/-! ## Corresponding searches -/

section Corresponding

variable {R : α → β → Prop}

theorem rel_map {α' β' : Type} {S : α' → β' → Prop} {f : α → α'} {g : β → β'} {o : Option α}
    {o' : Option β} (h : Option.Rel R o o') (hfg : ∀ a b, R a b → S (f a) (g b)) :
    Option.Rel S (o.map f) (o'.map g) := by
  cases h with
  | none => exact .none
  | some hab => exact .some (hfg _ _ hab)

/-- Two searches for the same key, in lists with the same keys, end alike. -/
theorem find_key_rel {key' : β → κ} {l : List α} {l' : List β} (h : l.map key = l'.map key') (k : κ) :
    Option.Rel (fun a b => a ∈ l ∧ b ∈ l' ∧ key a = k ∧ key' b = k)
      (l.find? (key · = k)) (l'.find? (key' · = k)) := by
  have hmem : k ∈ l.map key ↔ k ∈ l'.map key' := by rw [h]
  cases ha : l.find? (key · = k) with
  | none =>
    cases hb : l'.find? (key' · = k) with
    | none => exact .none
    | some b =>
      have hkb : key' b = k := by simpa using List.find?_some hb
      have hk : k ∈ l'.map key' := List.mem_map.2 ⟨b, List.mem_of_find?_eq_some hb, hkb⟩
      obtain ⟨a, hal, hka⟩ := List.mem_map.1 (hmem.2 hk)
      have hno := List.find?_eq_none.1 ha a hal
      simp [hka] at hno
  | some a =>
    have hka : key a = k := by simpa using List.find?_some ha
    have hal := List.mem_of_find?_eq_some ha
    cases hb : l'.find? (key' · = k) with
    | none =>
      obtain ⟨b, hbl, hkb⟩ := List.mem_map.1 (hmem.1 (List.mem_map.2 ⟨a, hal, hka⟩))
      have hno := List.find?_eq_none.1 hb b hbl
      simp [hkb] at hno
    | some b =>
      have hkb : key' b = k := by simpa using List.find?_some hb
      exact .some ⟨hal, List.mem_of_find?_eq_some hb, hka, hkb⟩

theorem forall₂_mem_left {l : List α} {l' : List β} (h : List.Forall₂ R l l') {a : α} (ha : a ∈ l) :
    ∃ b ∈ l', R a b := by
  induction h with
  | nil => cases ha
  | cons hab _ ih =>
    rcases List.mem_cons.1 ha with rfl | ha
    · exact ⟨_, List.mem_cons_self, hab⟩
    · obtain ⟨b, hb, hR⟩ := ih ha
      exact ⟨b, List.mem_cons_of_mem _ hb, hR⟩

theorem forall₂_mem_right {l : List α} {l' : List β} (h : List.Forall₂ R l l') {b : β} (hb : b ∈ l') :
    ∃ a ∈ l, R a b :=
  forall₂_mem_left (R := flip R) h.flip hb

theorem find_rel {p : α → Bool} {p' : β → Bool} {l : List α} {l' : List β}
    (h : List.Forall₂ R l l') (hp : ∀ a b, R a b → p a = p' b) :
    Option.Rel R (l.find? p) (l'.find? p') := by
  induction h with
  | nil => exact .none
  | @cons a b l l' hab _ ih =>
    rw [List.find?_cons, List.find?_cons, ← hp a b hab]
    cases p a with
    | true => exact .some hab
    | false => exact ih

/-- A map that gives something for every element keeps the order. -/
theorem forall₂_filterMap {f : α → Option β} {l : List α} (h : ∀ a ∈ l, ∃ b, f a = some b ∧ R a b) :
    List.Forall₂ R l (l.filterMap f) := by
  induction l with
  | nil => exact .nil
  | cons a l ih =>
    obtain ⟨b, hb, hR⟩ := h a List.mem_cons_self
    rw [List.filterMap_cons, hb]
    exact .cons hR (ih fun a' ha => h a' (List.mem_cons_of_mem a ha))

theorem mapM_eq_ok_iff {ε : Type} {f : α → Except ε β} {l : List α} {bs : List β} :
    l.mapM f = .ok bs ↔ List.Forall₂ (fun a b => f a = .ok b) l bs := by
  induction l generalizing bs with
  | nil =>
    constructor
    · intro h
      cases h
      exact .nil
    · intro h
      cases h
      rfl
  | cons a l ih =>
    rw [List.mapM_cons]
    constructor
    · intro h
      cases ha : f a with
      | error e =>
        rw [ha] at h
        cases h
      | ok b =>
        cases hl : l.mapM f with
        | error e =>
          rw [ha, hl] at h
          cases h
        | ok bs =>
          rw [ha, hl] at h
          cases h
          exact .cons ha (ih.1 hl)
    · intro h
      cases h with
      | cons ha hl =>
        rw [ha, ih.2 hl]
        rfl

/-- Two conversions of a list after each other are one. -/
theorem mapM_bind_eq_ok_iff {ε γ : Type} {f : α → Except ε β} {g : β → Except ε γ} {l : List α}
    {cs : List γ} :
    l.mapM (fun a => f a >>= g) = .ok cs ↔ ∃ bs, l.mapM f = .ok bs ∧ bs.mapM g = .ok cs := by
  simp only [mapM_eq_ok_iff, bind_eq_ok_iff]
  constructor
  · intro h
    induction h with
    | nil => exact ⟨[], .nil, .nil⟩
    | cons hac _ ih =>
      obtain ⟨b, hab, hbc⟩ := hac
      obtain ⟨bs, hbs, hcs⟩ := ih
      exact ⟨b :: bs, .cons hab hbs, .cons hbc hcs⟩
  · rintro ⟨bs, hbs, hcs⟩
    induction hbs generalizing cs with
    | nil =>
      cases hcs
      exact .nil
    | cons hab _ ih =>
      cases hcs with
      | cons hbc hcs => exact .cons ⟨_, hab, hbc⟩ (ih hcs)

theorem forM_eq_ok_iff {ε : Type} {f : α → Except ε Unit} {l : List α} :
    l.forM f = .ok () ↔ ∀ a ∈ l, f a = .ok () := by
  induction l with
  | nil => exact ⟨fun _ _ ha => (nomatch ha), fun _ => rfl⟩
  | cons a l ih =>
    rw [List.forM, bind_eq_ok_iff, List.forall_mem_cons]
    constructor
    · intro h
      obtain ⟨_, ha, hl⟩ := h
      exact ⟨ha, ih.1 hl⟩
    · intro h
      exact ⟨(), h.1, ih.2 h.2⟩

theorem mapM_perm {ε : Type} {f : α → Except ε β} {l l' : List α} {bs : List β} (hperm : l.Perm l')
    (h : l.mapM f = .ok bs) : ∃ bs', l'.mapM f = .ok bs' ∧ bs.Perm bs' := by
  obtain ⟨bs', hbs', hp⟩ := List.perm_comp_forall₂ hperm.symm (mapM_eq_ok_iff.1 h)
  exact ⟨bs', mapM_eq_ok_iff.2 hbs', hp.symm⟩

end Corresponding

end Lonesome.Lib
