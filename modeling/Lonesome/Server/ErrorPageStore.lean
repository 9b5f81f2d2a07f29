import Lonesome.Http
import Lonesome.Lib.History

/-!
# The error page store

`src/server/error_page_store.rs`. An update replaces the entry with the same id by one at the end
of the list and sorts the list by descending priority; the sort is stable, so entries of equal
priority stay in the order of their latest updates.

The history of a store is the list of its operations. `effect` says what each of them writes, a
failed update nothing; `Ordered` ties the list of entries to the history, and each operation keeps
it (`Ordered.update`, `Ordered.remove`).
-/

namespace Lonesome.ErrorPages

open Lonesome.Lib

/-- The crates behind an error page: the CEL compiler, and the names of header fields. -/
structure Crates (π : Type) where
  /-- `Program::compile`, with the text of its error. -/
  compile : Str → Except String π
  /-- `HeaderName::from_str`: the name in lower case. -/
  headerName : Str → Option String

/-- Which generated error statuses are served, under which rule, and what is rendered. -/
structure ErrorPageEntry (π : Type) where
  id : Str
  /-- Empty for any generated error status. -/
  statuses : List Nat
  matcher : Option π
  body : Option Str
  bodyProgram : Option π
  contentType : Option Str
  headers : List (String × HeaderValue)
  statusOverride : Option Nat
  priority : Int
  deriving DecidableEq

/-- The configuration that `update` is given. -/
structure ErrorPageConfig where
  id : Str
  status : Option Str
  matcher : Option Str
  body : Option Str
  bodyExpression : Option Str
  contentType : Option Str
  headers : List (Str × Str)
  statusOverride : Option Nat
  priority : Int

/-! ## Status specs -/

def badCode (spec code : Str) : String :=
  s!"invalid error page status spec '{String.ofList spec}': bad code '{String.ofList code}'"

/-- `parse().map_err(..)`: a code, or the error that names it. -/
def parseCode (spec code : Str) : Except String Nat :=
  match code.parseU16 with
  | some n => .ok n
  | none => .error (badCode spec code)

/-- The first and last code of a token. -/
def parseRange (spec token : Str) : Except String (Nat × Nat) :=
  match token.splitOnce '-' with
  | some (a, b) => do
    let a := Str.trim a
    let b := Str.trim b
    if a.isEmpty || b.isEmpty then
      throw s!"invalid error page status spec '{String.ofList spec}': bad range '{String.ofList token}'"
    let first ← parseCode spec a
    let last ← parseCode spec b
    if first > last then
      throw s!"invalid error page status spec '{String.ofList spec}': range '{String.ofList token}' is reversed"
    return (first, last)
  | none => do
    let code ← parseCode spec token
    return (code, code)

/-- One round of the loop over the codes of a token. -/
def pushCode (spec : Str) (statuses : List Nat) (code : Nat) : Except String (List Nat) :=
  if 400 ≤ code ∧ code ≤ 599 then
    .ok (if statuses.contains code then statuses else statuses ++ [code])
  else
    .error s!"error page status must be within [400, 599], got {code} in spec '{String.ofList spec}'"

/-- One round of the loop over the tokens of a spec. -/
def pushToken (spec : Str) (statuses : List Nat) (token : Str) : Except String (List Nat) := do
  let token := Str.trim token
  if token.isEmpty then
    throw s!"invalid error page status spec '{String.ofList spec}': empty segment"
  let (first, last) ← parseRange spec token
  (List.range' first (last + 1 - first)).foldlM (pushCode spec) statuses

/-- The statuses of a spec such as `400-403,418,500`. -/
def parseStatusSpec (spec : Str) : Except String (List Nat) :=
  if (Str.trim spec).isEmpty then .ok []
  else (spec.splitOn ',').foldlM (pushToken spec) []

/-! ## Building an entry -/

variable {π : Type} {C : Crates π}

/-- `compile(..).map_err(..)` on an optional source text. -/
def compileOption (C : Crates π) (what : String) : Option Str → Except String (Option π)
  | none => .ok none
  | some source =>
    match C.compile source with
    | .ok program => .ok (some program)
    | .error e => .error s!"failed to compile error page {what} '{String.ofList source}': {e}"

def buildHeader (C : Crates π) (header : Str × Str) : Except String (String × HeaderValue) :=
  match C.headerName header.1 with
  | none => .error
    s!"invalid error page header name '{String.ofList header.1}': invalid HTTP header name"
  | some name =>
    match HeaderValue.fromStr header.2 with
    | none => .error
      s!"invalid error page header value for '{name}': failed to parse header value"
    | some value => .ok (name, value)

/-- `ErrorPageConfig::build` -/
def ErrorPageConfig.build (C : Crates π) (config : ErrorPageConfig) :
    Except String (ErrorPageEntry π) := do
  if (Str.trim config.id).isEmpty then
    throw "error page id cannot be empty"
  let statuses ← match config.status with
    | some spec => parseStatusSpec spec
    | none => pure []
  if let some status := config.statusOverride then
    if ¬ (100 ≤ status ∧ status ≤ 999) then
      throw s!"error page status_override must be within [100, 999], got {status}"
  if config.body.isSome && config.bodyExpression.isSome then
    throw "error page body and body_expression cannot both be set"
  let matcher ← compileOption C "matcher" config.matcher
  let bodyProgram ← compileOption C "body_expression" config.bodyExpression
  let headers ← config.headers.mapM (buildHeader C)
  return {
    id := config.id
    statuses := statuses
    matcher := matcher
    body := config.body
    bodyProgram := bodyProgram
    contentType := config.contentType
    headers := headers
    statusOverride := config.statusOverride
    priority := config.priority }

/-! ## The store -/

structure ErrorPageStore (π : Type) where
  inner : List (ErrorPageEntry π)
  deriving DecidableEq

namespace ErrorPageStore

def new : ErrorPageStore π := ⟨[]⟩

/-- `b.priority.cmp(&a.priority)` is not `Greater`. -/
def priorityLE (a b : ErrorPageEntry π) : Bool :=
  (compare b.priority a.priority).isLE

/-- Registers or replaces the entry of an id. -/
def update (C : Crates π) (s : ErrorPageStore π) (config : ErrorPageConfig) :
    ErrorPageStore π × Except String Unit :=
  match config.build C with
  | .error e => (s, .error e)
  | .ok entry =>
    let entries := s.inner.filter (·.id != entry.id)
    (⟨(entries ++ [entry]).mergeSort priorityLE⟩, .ok ())

/-- Removes the entry of an id; says whether there was one. -/
def remove (s : ErrorPageStore π) (id : Str) : ErrorPageStore π × Bool :=
  let entries := s.inner.filter (·.id != id)
  let removed := s.inner.length != entries.length
  (if removed then ⟨entries⟩ else s, removed)

/-- The entries in lookup order. -/
def snapshot (s : ErrorPageStore π) : List (ErrorPageEntry π) :=
  s.inner

end ErrorPageStore

/-- A call of the store. -/
inductive Op where
  | update (config : ErrorPageConfig)
  | remove (id : Str)

/-- The store after a call. -/
def step (C : Crates π) (s : ErrorPageStore π) : Op → ErrorPageStore π
  | .update config => (s.update C config).1
  | .remove id => (s.remove id).1

/-- The store after a sequence of calls from the empty one. -/
def run (C : Crates π) (ops : List Op) : ErrorPageStore π :=
  ops.foldl (step C) .new

/-- What a call writes: a successful update the entry under its id, a failed one nothing. -/
def effect (C : Crates π) : Op → Option (Str × Option (ErrorPageEntry π))
  | .update config =>
    match config.build C with
    | .ok entry => some (entry.id, some entry)
    | .error _ => none
  | .remove id => some (id, none)

/-! ## The order of the entries -/

variable {ops : List Op} {entries : List (ErrorPageEntry π)} {a b e entry : ErrorPageEntry π}

/-- The entry of an id after a history, by the update that counts. -/
abbrev RegisteredAt (C : Crates π) (ops : List Op) (t : Nat) (e : ErrorPageEntry π) : Prop :=
  SetLast (effect C) ops t e.id e

/-- Before in the lookup order: greater priority, or equal priority and updated earlier. -/
def Precedes (C : Crates π) (ops : List Op) (a b : ErrorPageEntry π) : Prop :=
  b.priority < a.priority ∨ a.priority = b.priority ∧
    ∀ ta tb, RegisteredAt C ops ta a → RegisteredAt C ops tb b → ta < tb

/-- The list of entries that a history leaves: those registered at its end, in lookup order. -/
structure Ordered (C : Crates π) (ops : List Op) (entries : List (ErrorPageEntry π)) : Prop where
  mem_iff : ∀ e, e ∈ entries ↔ ∃ t, RegisteredAt C ops t e
  sorted : entries.Pairwise (Precedes C ops)

/-- Times that the longer history keeps are ordered as before. -/
theorem Precedes.concat {op : Op} (h : Precedes C ops a b)
    (ha : ∀ w, effect C op ≠ some (a.id, some w)) (hb : ∀ w, effect C op ≠ some (b.id, some w)) :
    Precedes C (ops ++ [op]) a b := by
  rcases h with h | ⟨hp, ht⟩
  · exact .inl h
  · exact .inr ⟨hp, fun ta tb hta htb => ht ta tb (hta.of_concat ha) (htb.of_concat hb)⟩

theorem priorityLE_iff : ErrorPageStore.priorityLE a b = true ↔ b.priority ≤ a.priority := by
  rw [ErrorPageStore.priorityLE, Ordering.isLE_iff_ne_gt]
  exact compare_le_iff_le

namespace Ordered

theorem nil : Ordered C [] ([] : List (ErrorPageEntry π)) :=
  ⟨fun _ => ⟨fun h => (nomatch h), fun ⟨_, h⟩ => absurd h not_setLast_nil⟩, .nil⟩

theorem nodup (h : Ordered C ops entries) : entries.Nodup := by
  refine h.sorted.imp_of_mem ?_
  rintro a b ha - hab rfl
  obtain ⟨t, ht⟩ := (h.mem_iff a).1 ha
  rcases hab with hp | ⟨-, hab⟩
  · exact lt_irrefl _ hp
  · exact lt_irrefl _ (hab t t ht ht)

/-- One entry for each id. -/
theorem eq_of_id_eq (h : Ordered C ops entries) (ha : a ∈ entries) (hb : b ∈ entries)
    (hid : a.id = b.id) : a = b := by
  obtain ⟨ta, hta⟩ := (h.mem_iff a).1 ha
  obtain ⟨tb, htb⟩ := (h.mem_iff b).1 hb
  rw [RegisteredAt, hid] at hta
  exact hta.value_unique htb

theorem distinct_ids (h : Ordered C ops entries) : entries.Pairwise fun a b => a.id ≠ b.id :=
  h.nodup.imp_of_mem fun ha hb hne hid => hne (h.eq_of_id_eq ha hb hid)

/-- A call without an effect. -/
theorem concat_of_none {op : Op} (h : Ordered C ops entries) (hop : effect C op = none) :
    Ordered C (ops ++ [op]) entries := by
  refine ⟨fun e => ?_, h.sorted.imp fun hab => hab.concat (by simp [hop]) (by simp [hop])⟩
  simp [h.mem_iff, RegisteredAt, setLast_concat, hop]

/-- The entries that stay when an id is written. -/
theorem mem_filter_iff (h : Ordered C ops entries) (id : Str) :
    e ∈ entries.filter (·.id != id) ↔ (∃ t, RegisteredAt C ops t e) ∧ e.id ≠ id := by
  rw [List.mem_filter, h.mem_iff, bne_iff_ne]

theorem remove (h : Ordered C ops entries) (id : Str) :
    Ordered C (ops ++ [.remove id]) (entries.filter (·.id != id)) := by
  constructor
  · intro e
    rw [h.mem_filter_iff]
    simp only [RegisteredAt, setLast_concat, effect]
    constructor
    · rintro ⟨⟨t, ht⟩, hid⟩
      exact ⟨t, .inr ⟨ht, fun w hw => hid (by simp_all)⟩⟩
    · rintro ⟨t, ⟨-, hw⟩ | ⟨ht, hw⟩⟩
      · cases hw
      · exact ⟨⟨t, ht⟩, fun hid => hw none (by rw [hid])⟩
  · have hkeep := h.sorted.filter (·.id != id)
    exact hkeep.imp fun hab => hab.concat (by simp [effect]) (by simp [effect])

/-- The new entry goes to the end of the list, and the stable sort leaves it after the entries of
its own priority. -/
theorem update {config : ErrorPageConfig} (h : Ordered C ops entries)
    (hbuild : config.build C = .ok entry) :
    Ordered C (ops ++ [.update config])
      ((entries.filter (·.id != entry.id) ++ [entry]).mergeSort ErrorPageStore.priorityLE) := by
  have heff : effect C (.update config) = some (entry.id, some entry) := by
    rw [effect, hbuild]
  have hother : ∀ e ∈ entries.filter (·.id != entry.id),
      ∀ w, effect C (.update config) ≠ some (e.id, some w) := by
    intro e he w hw
    rw [heff, Option.some.injEq, Prod.mk.injEq] at hw
    exact ((h.mem_filter_iff entry.id).1 he).2 hw.1.symm
  have hnew : ∀ t, RegisteredAt C (ops ++ [.update config]) t entry → t = ops.length := by
    intro t ht
    rcases setLast_concat.1 ht with ⟨rfl, -⟩ | ⟨-, hno⟩
    · rfl
    · exact absurd heff (hno _)
  constructor
  · intro e
    rw [List.mem_mergeSort, List.mem_append, List.mem_singleton, h.mem_filter_iff]
    simp only [RegisteredAt, setLast_concat, heff]
    constructor
    · rintro (⟨⟨t, ht⟩, hid⟩ | rfl)
      · exact ⟨t, .inr ⟨ht, fun w hw => hid (by simp_all)⟩⟩
      · exact ⟨ops.length, .inl ⟨rfl, rfl⟩⟩
    · rintro ⟨t, ⟨-, hw⟩ | ⟨ht, hw⟩⟩
      · simp only [Option.some.injEq, Prod.mk.injEq] at hw
        exact .inr hw.2.symm
      · exact .inl ⟨⟨t, ht⟩, fun hid => hw (some entry) (by rw [hid])⟩
  · have hnodup : (entries.filter (·.id != entry.id) ++ [entry]).Nodup := by
      rw [List.nodup_append]
      refine ⟨h.nodup.filter _, List.nodup_singleton entry, ?_⟩
      rintro e he _ hx rfl
      exact ((h.mem_filter_iff entry.id).1 he).2 (by rw [List.mem_singleton.1 hx])
    have hties := @pairwise_mergeSort_ties _ ErrorPageStore.priorityLE
      (fun a b => ∀ ta tb, RegisteredAt C (ops ++ [.update config]) ta a →
        RegisteredAt C (ops ++ [.update config]) tb b → ta < tb) _
      (fun a b c hab hbc => by rw [priorityLE_iff] at *; exact hbc.trans hab)
      (fun a b => by
        rw [Bool.or_eq_true, priorityLE_iff, priorityLE_iff]
        exact le_total _ _)
      hnodup ?_
    · refine hties.imp fun {a b} hab => ?_
      rw [priorityLE_iff, priorityLE_iff] at hab
      rcases lt_or_eq_of_le hab.1 with hlt | heq
      · exact .inl hlt
      · exact .inr ⟨heq.symm, hab.2 heq.ge⟩
    · rw [List.pairwise_append]
      refine ⟨?_, List.pairwise_singleton _ _, ?_⟩
      · refine (h.sorted.filter (·.id != entry.id)).imp_of_mem fun {a b} ha hb hab hle hge => ?_
        rw [priorityLE_iff] at hle hge
        rcases hab.concat (hother a ha) (hother b hb) with hlt | ⟨-, ht⟩
        · exact absurd hlt (not_lt.2 hge)
        · exact ht
      · intro a ha b hb _ _ ta tb hta htb
        obtain rfl := List.mem_singleton.1 hb
        rw [hnew tb htb]
        exact (hta.of_concat (hother a ha)).lt_length

end Ordered

theorem remove_inner (s : ErrorPageStore π) (id : Str) :
    (s.remove id).1.inner = s.inner.filter (·.id != id) := by
  unfold ErrorPageStore.remove
  simp only
  split
  · rfl
  · next h =>
    rw [bne_iff_ne, not_not] at h
    exact (List.filter_eq_self.2 (List.length_filter_eq_length_iff.1 h.symm)).symm

/-- One call keeps the order. -/
theorem ordered_step {s : ErrorPageStore π} (h : Ordered C ops s.inner) (op : Op) :
    Ordered C (ops ++ [op]) (step C s op).inner := by
  cases op with
  | update config =>
    cases hbuild : config.build C with
    | error msg =>
      simp only [step, ErrorPageStore.update, hbuild]
      exact h.concat_of_none (by rw [effect, hbuild])
    | ok entry =>
      simp only [step, ErrorPageStore.update, hbuild]
      exact h.update hbuild
  | remove id =>
    rw [step, remove_inner]
    exact h.remove id

/-- Every history leaves the entries registered at its end, in lookup order. -/
theorem ordered_run (C : Crates π) (ops : List Op) : Ordered C ops (run C ops).inner := by
  induction ops using List.reverseRecOn with
  | nil => exact .nil
  | append_singleton ops op ih =>
    rw [run, List.foldl_append]
    exact ordered_step ih op

end Lonesome.ErrorPages
