import Lonesome.Lib.SortedMap
import Lonesome.Matcher.CelScope
import Mathlib.Data.Char
import Mathlib.Data.List.Lex

/-!
# The result of an expression as JSON

`cel_value_to_json` of `src/matcher/rule_eval.rs`, which `evaluate_expression` ends with. The loop
over a map inserts each entry under the text of its key, so that keys of four kinds share one name
space, and the insertion replaces a member that is there. `losesNothing_iff` says for which values
the conversion keeps everything.

Objects are equal when they have the same members, in whichever order `serde_json::Map` keeps them;
here the members stand in the order of their names, so that equal objects are one term.
-/

namespace Lonesome.RuleEval

open Lib

/-! ## Values -/

/-- What the values hold of other crates, and the texts that these give. -/
structure CelObjects where
  Timestamp : Type
  Duration : Type
  Opaque : Type
  /-- `DateTime::to_rfc3339` -/
  toRfc3339 : Timestamp → Str
  /-- `BASE64_STANDARD.encode` -/
  encodeBase64 : List UInt8 → Str
  /-- The text of a `serde_json::Number` made of a finite float, given by its bits. -/
  floatText : UInt64 → Str

/-- `cel::objects::Key` -/
inductive Key where
  | int (v : Int)
  | uint (v : Nat)
  | bool (v : Bool)
  | string (v : Str)
  deriving DecidableEq

/-- `to_string` on each kind of key. -/
def Key.text : Key → Str
  | .int v => (toString v).toList
  | .uint v => (toString v).toList
  | .bool v => (toString v).toList
  | .string v => v

/-- `cel::Value`; a float is given by its bits, and the entries of a map stand in the order in which
it is iterated. -/
inductive Value (O : CelObjects) where
  | null
  | bool (v : Bool)
  | int (v : Int)
  | uint (v : Nat)
  | float (bits : UInt64)
  | string (v : Str)
  | timestamp (v : O.Timestamp)
  | bytes (v : List UInt8)
  | list (items : List (Value O))
  | map (entries : List (Key × Value O))
  | duration (v : O.Duration)
  | function (name : Str)
  | opaqueValue (v : O.Opaque)

/-- `f64::is_finite`: the bits of the exponent are not all set. -/
def isFinite (bits : UInt64) : Bool :=
  (bits >>> 52) &&& 0x7ff != 0x7ff

/-- `serde_json::Value::from` for an `i64` -/
def jsonOfI64 (v : Int) : Json :=
  if v < 0 then .number (toString v).toList else .nat v.toNat

variable {O : CelObjects}

mutual

def celValueToJson : Value O → Option Json
  | .null => some .null
  | .bool v => some (.bool v)
  | .int v => some (jsonOfI64 v)
  | .uint v => some (.nat v)
  | .float bits => if isFinite bits then some (.number (O.floatText bits)) else none
  | .string v => some (.string v)
  | .timestamp v => some (.string (O.toRfc3339 v))
  | .bytes v => some (.string (O.encodeBase64 v))
  | .list items => (itemsToJson items).map .array
  | .map entries => (entriesToJson entries []).map .object
  | .duration _ | .function _ | .opaqueValue _ => none

/-- The items in order, up to the first that has no JSON. -/
def itemsToJson : List (Value O) → Option (List Json)
  | [] => some []
  | item :: items => do
    let j ← celValueToJson item
    let js ← itemsToJson items
    return j :: js

/-- The loop over the entries of a map, with the object so far. -/
def entriesToJson : List (Key × Value O) → List (Str × Json) → Option (List (Str × Json))
  | [], obj => some obj
  | (key, val) :: entries, obj => do
    let j ← celValueToJson val
    entriesToJson entries (insertKey key.text j obj)

end

/-! ## Items and entries -/

/-- A member is the conversion of an entry. -/
def Converts (e : Key × Value O) (m : Str × Json) : Prop :=
  e.1.text = m.1 ∧ celValueToJson e.2 = some m.2

theorem itemsToJson_eq_some_iff {items : List (Value O)} {js : List Json} :
    itemsToJson items = some js ↔ List.Forall₂ (fun v j => celValueToJson v = some j) items js := by
  induction items generalizing js with
  | nil =>
    rw [itemsToJson, List.forall₂_nil_left_iff, Option.some.injEq, eq_comm]
  | cons v items ih =>
    rw [itemsToJson, List.forall₂_cons_left_iff]
    simp only [Option.bind_eq_bind, Option.bind_eq_some_iff, Option.pure_def, Option.some.injEq, ih]
    constructor
    · rintro ⟨j, hj, js', hjs', rfl⟩
      exact ⟨j, js', hj, hjs', rfl⟩
    · rintro ⟨j, js', hj, hjs', rfl⟩
      exact ⟨j, hj, js', hjs', rfl⟩

theorem itemsToJson_eq_none_iff {items : List (Value O)} :
    itemsToJson items = none ↔ ∃ v ∈ items, celValueToJson v = none := by
  induction items with
  | nil => simp [itemsToJson]
  | cons v items ih =>
    rw [itemsToJson, List.exists_mem_cons_iff, ← ih]
    cases celValueToJson v with
    | none => simp
    | some j => cases itemsToJson items <;> simp

/-- The loop: every entry is converted, and the members are inserted in this order. -/
theorem entriesToJson_eq_some_iff {entries : List (Key × Value O)} {obj members : List (Str × Json)} :
    entriesToJson entries obj = some members ↔
      ∃ ms, List.Forall₂ Converts entries ms ∧ insertAll obj ms = members := by
  induction entries generalizing obj with
  | nil => simp [entriesToJson, insertAll]
  | cons e entries ih =>
    obtain ⟨key, val⟩ := e
    rw [entriesToJson]
    simp only [Option.bind_eq_bind, Option.bind_eq_some_iff, ih]
    constructor
    · rintro ⟨j, hj, ms, hms, hmembers⟩
      exact ⟨(key.text, j) :: ms, .cons ⟨rfl, hj⟩ hms, hmembers⟩
    · rintro ⟨ms, hms, hmembers⟩
      cases hms with
      | @cons _ m _ ms hm hms =>
        obtain ⟨text, j⟩ := m
        obtain ⟨rfl, hj⟩ := hm
        exact ⟨j, hj, ms, hms, hmembers⟩

theorem entriesToJson_eq_none_iff {entries : List (Key × Value O)} {obj : List (Str × Json)} :
    entriesToJson entries obj = none ↔ ∃ e ∈ entries, celValueToJson e.2 = none := by
  induction entries generalizing obj with
  | nil => simp [entriesToJson]
  | cons e entries ih =>
    obtain ⟨key, val⟩ := e
    rw [entriesToJson, List.exists_mem_cons_iff]
    cases celValueToJson val with
    | none => simp
    | some j => simp [ih]

/-! ## What a value holds -/

/-- The values that hold no other values. -/
def IsLeaf : Value O → Prop
  | .list _ | .map _ => False
  | _ => True

/-- Induction over a value and what it holds. -/
theorem Value.induct {p : Value O → Prop} (leaf : ∀ v, IsLeaf v → p v)
    (list : ∀ items, (∀ v ∈ items, p v) → p (.list items))
    (map : ∀ entries, (∀ e ∈ entries, p e.2) → p (.map entries)) : ∀ v, p v := by
  refine @Value.rec O p (fun items => ∀ v ∈ items, p v) (fun entries => ∀ e ∈ entries, p e.2)
    (fun e => p e.2) (leaf _ trivial) (fun _ => leaf _ trivial) (fun _ => leaf _ trivial)
    (fun _ => leaf _ trivial) (fun _ => leaf _ trivial) (fun _ => leaf _ trivial)
    (fun _ => leaf _ trivial) (fun _ => leaf _ trivial) list map (fun _ => leaf _ trivial)
    (fun _ => leaf _ trivial) (fun _ => leaf _ trivial) ?_ ?_ ?_ ?_ ?_
  · intro v hv
    cases hv
  · intro v items hv hitems w hw
    rcases List.mem_cons.1 hw with rfl | hw
    · exact hv
    · exact hitems w hw
  · intro e he
    cases he
  · intro e entries hval hentries e' he'
    rcases List.mem_cons.1 he' with rfl | he'
    · exact hval
    · exact hentries e' he'
  · intro key val hval
    exact hval

/-- `w` is the value or lies in it, at any depth. -/
inductive Occurs (w : Value O) : Value O → Prop
  | refl : Occurs w w
  | item {items : List (Value O)} {v : Value O} (hv : v ∈ items) (h : Occurs w v) :
    Occurs w (.list items)
  | entry {entries : List (Key × Value O)} {e : Key × Value O} (he : e ∈ entries)
    (h : Occurs w e.2) : Occurs w (.map entries)

/-- The values with no JSON equivalent. -/
def NoJson : Value O → Prop
  | .float bits => isFinite bits = false
  | .duration _ | .function _ | .opaqueValue _ => True
  | _ => False

/-- A value with no JSON equivalent lies in it. -/
def Unrepresentable (v : Value O) : Prop :=
  ∃ w, Occurs w v ∧ NoJson w

/-- No map in it has two keys with one text. -/
def KeysApart (v : Value O) : Prop :=
  ∀ entries, Occurs (.map entries) v → (entries.map fun e => e.1.text).Nodup

variable {v v' : Value O} {items : List (Value O)} {entries entries' : List (Key × Value O)}

theorem occurs_leaf {w : Value O} (hleaf : IsLeaf v) (h : Occurs w v) : w = v := by
  cases h with
  | refl => rfl
  | item => exact hleaf.elim
  | entry => exact hleaf.elim

theorem unrepresentable_leaf (hleaf : IsLeaf v) : Unrepresentable v ↔ NoJson v := by
  constructor
  · rintro ⟨w, hw, hno⟩
    rw [← occurs_leaf hleaf hw]
    exact hno
  · intro hno
    exact ⟨v, .refl, hno⟩

theorem unrepresentable_list : Unrepresentable (.list items) ↔ ∃ v ∈ items, Unrepresentable v := by
  constructor
  · rintro ⟨w, hw, hno⟩
    cases hw with
    | refl => exact hno.elim
    | item hv h => exact ⟨_, hv, w, h, hno⟩
  · rintro ⟨v, hv, w, hw, hno⟩
    exact ⟨w, .item hv hw, hno⟩

theorem unrepresentable_map :
    Unrepresentable (.map entries) ↔ ∃ e ∈ entries, Unrepresentable e.2 := by
  constructor
  · rintro ⟨w, hw, hno⟩
    cases hw with
    | refl => exact hno.elim
    | entry he h => exact ⟨_, he, w, h, hno⟩
  · rintro ⟨e, he, w, hw, hno⟩
    exact ⟨w, .entry he hw, hno⟩

theorem keysApart_leaf (hleaf : IsLeaf v) : KeysApart v := by
  intro entries h
  rw [← occurs_leaf hleaf h] at hleaf
  exact hleaf.elim

theorem keysApart_list : KeysApart (.list items) ↔ ∀ v ∈ items, KeysApart v := by
  constructor
  · intro h v hv entries hentries
    exact h entries (.item hv hentries)
  · intro h entries hentries
    cases hentries with
    | item hv hin => exact h _ hv entries hin

theorem keysApart_map : KeysApart (.map entries) ↔
    (entries.map fun e => e.1.text).Nodup ∧ ∀ e ∈ entries, KeysApart e.2 := by
  constructor
  · intro h
    exact ⟨h entries .refl, fun e he inner hinner => h inner (.entry he hinner)⟩
  · rintro ⟨hkeys, h⟩ inner hinner
    cases hinner with
    | refl => exact hkeys
    | entry he hin => exact h _ he inner hin

/-! ## No JSON -/

theorem celValueToJson_leaf (hleaf : IsLeaf v) : celValueToJson v = none ↔ NoJson v := by
  cases v with
  | float bits => cases hfinite : isFinite bits <;> simp [celValueToJson, NoJson, hfinite]
  | list => exact hleaf.elim
  | map => exact hleaf.elim
  | _ => simp [celValueToJson, NoJson]

/-- There is no JSON for a value exactly when it holds one that has none. -/
theorem celValueToJson_eq_none_iff : ∀ v : Value O, celValueToJson v = none ↔ Unrepresentable v := by
  intro v
  induction v using Value.induct with
  | leaf v hleaf => rw [celValueToJson_leaf hleaf, unrepresentable_leaf hleaf]
  | list items ih =>
    rw [celValueToJson, Option.map_eq_none_iff, itemsToJson_eq_none_iff, unrepresentable_list]
    exact exists_congr fun v => and_congr_right fun hv => ih v hv
  | map entries ih =>
    rw [celValueToJson, Option.map_eq_none_iff, entriesToJson_eq_none_iff, unrepresentable_map]
    exact exists_congr fun e => and_congr_right fun he => ih e he

/-! ## What is kept -/

/-- JSON that has all of a value: a list keeps its length and its order, and a map becomes an object
with as many members as it has entries, where the value of each entry is found under the text of its
key. -/
inductive Represents : Json → Value O → Prop
  | null : Represents .null .null
  | bool (v : Bool) : Represents (.bool v) (.bool v)
  | int {v : Int} {j : Json} (h : j = jsonOfI64 v) : Represents j (.int v)
  | uint (v : Nat) : Represents (.nat v) (.uint v)
  | float {bits : UInt64} (h : isFinite bits = true) :
    Represents (.number (O.floatText bits)) (.float bits)
  | string (v : Str) : Represents (.string v) (.string v)
  | timestamp (v : O.Timestamp) : Represents (.string (O.toRfc3339 v)) (.timestamp v)
  | bytes (v : List UInt8) : Represents (.string (O.encodeBase64 v)) (.bytes v)
  | list {items : List (Value O)} {js : List Json} (hlength : items.length = js.length)
    (h : ∀ i (hi : i < items.length) (hj : i < js.length), Represents js[i] items[i]) :
    Represents (.array js) (.list items)
  | map {entries : List (Key × Value O)} {members : List (Str × Json)}
    (hlength : members.length = entries.length)
    (hfound : ∀ e ∈ entries, ∃ j, Json.lookup members e.1.text = some j)
    (h : ∀ e ∈ entries, ∀ j, Json.lookup members e.1.text = some j → Represents j e.2) :
    Represents (.object members) (.map entries)

theorem represents_leaf {j : Json} (hleaf : IsLeaf v) (h : celValueToJson v = some j) :
    Represents j v := by
  cases v with
  | float bits =>
    rw [celValueToJson, Option.ite_none_right_eq_some] at h
    obtain ⟨hfinite, hj⟩ := h
    cases hj
    exact .float hfinite
  | list => exact hleaf.elim
  | map => exact hleaf.elim
  | duration => cases h
  | function => cases h
  | opaqueValue => cases h
  | int =>
    cases h
    exact .int rfl
  | _ =>
    cases h
    constructor

theorem lookup_insertAll {ms : List (Str × Json)} (hkeys : (ms.map Prod.fst).Nodup)
    {m : Str × Json} (hm : m ∈ ms) : Json.lookup (insertAll [] ms) m.1 = some m.2 := by
  have hmem : m ∈ insertAll [] ms := (insertAll_perm hkeys).mem_iff.2 hm
  cases hfind : (insertAll [] ms).find? (·.1 == m.1) with
  | none => exact absurd (List.find?_eq_none.1 hfind m hmem) (by simp)
  | some m' =>
    have hkey : m'.1 = m.1 := by simpa using List.find?_some hfind
    have heq : m' = m :=
      List.inj_on_of_nodup_map (nodup_keys_insertAll ms) (List.mem_of_find?_eq_some hfind) hmem hkey
    rw [Json.lookup, hfind, heq, Option.map_some]

theorem texts_of_converts {ms : List (Str × Json)} (h : List.Forall₂ Converts entries ms) :
    (entries.map fun e => e.1.text) = ms.map Prod.fst := by
  induction h with
  | nil => rfl
  | cons hm _ ih => rw [List.map_cons, List.map_cons, hm.1, ih]

/-- The conversion of a list has all of it when the conversions of the items do. -/
theorem represents_list_iff {js : List Json}
    (h : List.Forall₂ (fun v j => celValueToJson v = some j) items js)
    (ih : ∀ v ∈ items, ∀ j, celValueToJson v = some j → (Represents j v ↔ KeysApart v)) :
    Represents (.array js) (.list items) ↔ KeysApart (.list items) := by
  obtain ⟨hlength, hget⟩ := List.forall₂_iff_get.1 h
  rw [keysApart_list]
  constructor
  · intro hrep v hv
    cases hrep with
    | list _ hitems =>
      obtain ⟨i, hi, rfl⟩ := List.getElem_of_mem hv
      exact (ih _ hv _ (hget i hi (hlength ▸ hi))).1 (hitems i hi (hlength ▸ hi))
  · intro hapart
    refine .list hlength fun i hi hj => ?_
    have hv : items[i] ∈ items := List.getElem_mem hi
    exact (ih _ hv _ (hget i hi hj)).2 (hapart _ hv)

/-- The object of a map has all of it when the keys have different texts and the conversions of the
values have all of these. -/
theorem represents_map_iff {ms : List (Str × Json)} (h : List.Forall₂ Converts entries ms)
    (ih : ∀ e ∈ entries, ∀ j, celValueToJson e.2 = some j → (Represents j e.2 ↔ KeysApart e.2)) :
    Represents (.object (insertAll [] ms)) (.map entries) ↔ KeysApart (.map entries) := by
  rw [keysApart_map, texts_of_converts h]
  -- under different texts, each entry finds its own conversion
  have hfind (hkeys : (ms.map Prod.fst).Nodup) (e : Key × Value O) (he : e ∈ entries) :
      ∃ j, Json.lookup (insertAll [] ms) e.1.text = some j ∧ celValueToJson e.2 = some j := by
    obtain ⟨m, hm, htext, hj⟩ := forall₂_mem_left h he
    rw [htext]
    exact ⟨m.2, lookup_insertAll hkeys hm, hj⟩
  constructor
  · intro hrep
    cases hrep with
    | map hlength _ hvalues =>
      have hkeys := length_insertAll_eq_iff.1 (hlength.trans h.length_eq)
      refine ⟨hkeys, fun e he => ?_⟩
      obtain ⟨j, hlookup, hj⟩ := hfind hkeys e he
      exact (ih e he j hj).1 (hvalues e he j hlookup)
  · rintro ⟨hkeys, hapart⟩
    refine .map ((length_insertAll_eq_iff.2 hkeys).trans h.length_eq.symm) ?_ ?_
    · intro e he
      obtain ⟨j, hlookup, -⟩ := hfind hkeys e he
      exact ⟨j, hlookup⟩
    · intro e he j hj
      obtain ⟨j', hlookup, hj'⟩ := hfind hkeys e he
      obtain rfl := Option.some.inj (hlookup.symm.trans hj)
      exact (ih e he _ hj').2 (hapart e he)

/-- What is converted is there in full exactly when the keys of each map have different texts. -/
theorem represents_iff : ∀ (v : Value O) (j : Json), celValueToJson v = some j →
    (Represents j v ↔ KeysApart v) := by
  intro v
  induction v using Value.induct with
  | leaf v hleaf =>
    intro j h
    exact iff_of_true (represents_leaf hleaf h) (keysApart_leaf hleaf)
  | list items ih =>
    intro j h
    rw [celValueToJson, Option.map_eq_some_iff] at h
    obtain ⟨js, hjs, rfl⟩ := h
    exact represents_list_iff (itemsToJson_eq_some_iff.1 hjs) ih
  | map entries ih =>
    intro j h
    rw [celValueToJson, Option.map_eq_some_iff] at h
    obtain ⟨members, hmembers, rfl⟩ := h
    obtain ⟨ms, hms, rfl⟩ := entriesToJson_eq_some_iff.1 hmembers
    exact represents_map_iff hms ih

/-! ## The order of iteration -/

/-- The same value with the entries of its maps in another order, at any depth. -/
inductive Reordered : Value O → Value O → Prop
  | refl (v : Value O) : Reordered v v
  | trans {v v' v'' : Value O} (h : Reordered v v') (h' : Reordered v' v'') : Reordered v v''
  | perm {entries entries' : List (Key × Value O)} (h : entries.Perm entries') :
    Reordered (.map entries) (.map entries')
  | item {v v' : Value O} (before after : List (Value O)) (h : Reordered v v') :
    Reordered (.list (before ++ v :: after)) (.list (before ++ v' :: after))
  | entry {v v' : Value O} (before after : List (Key × Value O)) (key : Key) (h : Reordered v v') :
    Reordered (.map (before ++ (key, v) :: after)) (.map (before ++ (key, v') :: after))

theorem Reordered.unrepresentable_iff (h : Reordered v v') :
    Unrepresentable v ↔ Unrepresentable v' := by
  induction h with
  | refl => exact .rfl
  | trans _ _ ih ih' => exact ih.trans ih'
  | perm h =>
    rw [unrepresentable_map, unrepresentable_map]
    exact exists_congr fun e => and_congr_left' h.mem_iff
  | item before after _ ih =>
    simp only [unrepresentable_list, List.mem_append, List.mem_cons, or_and_right, exists_or,
      exists_eq_left, ih]
  | entry before after key _ ih =>
    simp only [unrepresentable_map, List.mem_append, List.mem_cons, or_and_right, exists_or,
      exists_eq_left, ih]

theorem Reordered.keysApart_iff (h : Reordered v v') : KeysApart v ↔ KeysApart v' := by
  induction h with
  | refl => exact .rfl
  | trans _ _ ih ih' => exact ih.trans ih'
  | perm h =>
    rw [keysApart_map, keysApart_map, (h.map _).nodup_iff]
    exact and_congr_right fun _ => forall_congr' fun e => imp_congr_left h.mem_iff
  | item before after _ ih =>
    simp only [keysApart_list, List.forall_mem_append, List.forall_mem_cons, ih]
  | entry before after key _ ih =>
    simp only [keysApart_map, List.map_append, List.map_cons, List.forall_mem_append,
      List.forall_mem_cons, ih]

theorem itemsToJson_replace (h : celValueToJson v' = celValueToJson v)
    (before after : List (Value O)) :
    itemsToJson (before ++ v' :: after) = itemsToJson (before ++ v :: after) := by
  induction before with
  | nil => rw [List.nil_append, List.nil_append, itemsToJson, itemsToJson, h]
  | cons w before ih =>
    rw [List.cons_append, List.cons_append, itemsToJson, itemsToJson, ih]

theorem entriesToJson_replace (h : celValueToJson v' = celValueToJson v)
    (before after : List (Key × Value O)) (key : Key) (obj : List (Str × Json)) :
    entriesToJson (before ++ (key, v') :: after) obj =
      entriesToJson (before ++ (key, v) :: after) obj := by
  induction before generalizing obj with
  | nil => rw [List.nil_append, List.nil_append, entriesToJson, entriesToJson, h]
  | cons e before ih =>
    obtain ⟨key', val⟩ := e
    simp only [List.cons_append, entriesToJson, ih]

theorem entriesToJson_perm (hkeys : (entries.map fun e => e.1.text).Nodup)
    (h : entries.Perm entries') : entriesToJson entries' [] = entriesToJson entries [] := by
  cases hmembers : entriesToJson entries [] with
  | none =>
    obtain ⟨e, he, hnone⟩ := entriesToJson_eq_none_iff.1 hmembers
    exact entriesToJson_eq_none_iff.2 ⟨e, h.mem_iff.1 he, hnone⟩
  | some members =>
    obtain ⟨ms, hms, rfl⟩ := entriesToJson_eq_some_iff.1 hmembers
    obtain ⟨ms', hms', hperm⟩ := List.perm_comp_forall₂ h.symm hms
    rw [texts_of_converts hms] at hkeys
    exact entriesToJson_eq_some_iff.2 ⟨ms', hms', (insertAll_eq_of_perm hkeys hperm.symm).symm⟩

/-- The order of iteration does not show while the keys have different texts. -/
theorem celValueToJson_reordered (h : Reordered v v') (hapart : KeysApart v) :
    celValueToJson v' = celValueToJson v := by
  induction h with
  | refl => rfl
  | trans h _ ih ih' => exact (ih' (h.keysApart_iff.1 hapart)).trans (ih hapart)
  | perm h =>
    rw [celValueToJson, celValueToJson, entriesToJson_perm (keysApart_map.1 hapart).1 h]
  | item before after _ ih =>
    have hin := keysApart_list.1 hapart _ (List.mem_append_right _ List.mem_cons_self)
    rw [celValueToJson, celValueToJson, itemsToJson_replace (ih hin)]
  | entry before after key _ ih =>
    have hin := (keysApart_map.1 hapart).2 _ (List.mem_append_right _ List.mem_cons_self)
    rw [celValueToJson, celValueToJson, entriesToJson_replace (ih hin)]

/-- The conversion of a value loses nothing: there is no JSON exactly when a value in it has no JSON
equivalent, what there is has all of the value, and the order in which maps are iterated does not
show in it. -/
structure LosesNothing (v : Value O) : Prop where
  none_iff : celValueToJson v = none ↔ Unrepresentable v
  kept : ∀ j, celValueToJson v = some j → Represents j v
  order : ∀ v', Reordered v v' → celValueToJson v' = celValueToJson v

/-- **Nothing is lost** in the conversion of a value if and only if it cannot be converted, or no map
in it has two keys with one text. -/
theorem losesNothing_iff (v : Value O) : LosesNothing v ↔ Unrepresentable v ∨ KeysApart v := by
  constructor
  · intro h
    cases hj : celValueToJson v with
    | none => exact .inl (h.none_iff.1 hj)
    | some j => exact .inr ((represents_iff v j hj).1 (h.kept j hj))
  · rintro (hno | hapart)
    · have hnone := (celValueToJson_eq_none_iff v).2 hno
      refine ⟨celValueToJson_eq_none_iff v, fun j hj => ?_, fun v' hv' => ?_⟩
      · rw [hnone] at hj
        cases hj
      · rw [hnone, celValueToJson_eq_none_iff]
        exact hv'.unrepresentable_iff.1 hno
    · exact ⟨celValueToJson_eq_none_iff v, fun j hj => (represents_iff v j hj).2 hapart,
        fun v' hv' => celValueToJson_reordered hv' hapart⟩

/-- No timestamps, durations and opaque values. -/
def CelObjects.plain : CelObjects where
  Timestamp := Empty
  Duration := Empty
  Opaque := Empty
  toRfc3339 := nofun
  encodeBase64 _ := []
  floatText _ := []

/-- The entries of `{1: "a", "1": "b"}`. -/
def mixedKeys : List (Key × Value CelObjects.plain) :=
  [(.int 1, .string "a".toList), (.string "1".toList, .string "b".toList)]

/-- Of two entries one is left, and which one depends on the order. -/
theorem mixedKeys_lose_entry :
    (mixedKeys.map Prod.fst).Nodup ∧
    celValueToJson (.map mixedKeys) = some (.object [("1".toList, .string "b".toList)]) ∧
    celValueToJson (.map mixedKeys.reverse) = some (.object [("1".toList, .string "a".toList)]) ∧
    ¬ LosesNothing (.map mixedKeys) := by
  have hfirst : celValueToJson (.map mixedKeys) =
      some (.object [("1".toList, .string "b".toList)]) := rfl
  have hsecond : celValueToJson (.map mixedKeys.reverse) =
      some (.object [("1".toList, .string "a".toList)]) := rfl
  refine ⟨by decide, hfirst, hsecond, fun h => ?_⟩
  have hsame := h.order _ (.perm (List.reverse_perm mixedKeys).symm)
  rw [hfirst, hsecond] at hsame
  simp at hsame

end Lonesome.RuleEval
