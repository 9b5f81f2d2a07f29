import Lonesome.Proxy.Response

/-!
# Error pages from JavaScript

`src/bindings/error_page.rs` and `update_error_page` of `src/bindings/server.rs`. The options of
JavaScript become a configuration of the store, which checks it. A status override is a `u32` in the
options and a `u16` in the configuration, and the conversion in between keeps the low bits: the range
check of the store does not see the rest (`statusOverride_kept_iff`).
-/

namespace Lonesome

open Lonesome.Lib
open Lonesome.ErrorPages (ErrorPageConfig ErrorPageEntry ErrorPageStore)

/-- The headers are those of a map, in the order in which it is gone through. -/
structure ErrorPageOptions where
  id : Str
  /-- A single code, or a spec. -/
  status : Option (UInt32 ⊕ Str)
  matcher : Option Str
  body : Option Str
  bodyExpression : Option Str
  contentType : Option Str
  headers : Option (List (Str × Str))
  statusOverride : Option UInt32
  priority : Option Int

/-- `TryFrom<ErrorPageOptions>` -/
def ErrorPageConfig.tryFrom (value : ErrorPageOptions) : Except String ErrorPageConfig :=
  .ok {
    id := value.id
    status := value.status.map fun
      | .inl code => (toString code.toNat).toList
      | .inr spec => spec
    matcher := value.matcher
    body := value.body
    bodyExpression := value.bodyExpression
    contentType := value.contentType
    headers := value.headers.getD []
    -- `v as u16`
    statusOverride := value.statusOverride.map fun v => v.toUInt16.toNat
    priority := value.priority.getD 0 }

def updateErrorPage {π : Type} (C : ErrorPages.Crates π) (store : ErrorPageStore π)
    (options : ErrorPageOptions) : ErrorPageStore π × Except String Unit :=
  match ErrorPageConfig.tryFrom options with
  | .error e => (store, .error e)
  | .ok config => store.update C config

/-! ## The check of the override -/

namespace ErrorPages

variable {π : Type} {C : Crates π} {config : ErrorPageConfig} {entry : ErrorPageEntry π}

/-- The first part of `build`: the statuses that a configuration names. -/
def statusesOf (config : ErrorPageConfig) : Except String (List Nat) :=
  match config.status with
  | some spec => parseStatusSpec spec
  | none => .ok []

/-- The check of the override. -/
def checkOverride : Option Nat → Except String Unit
  | some status =>
    if 100 ≤ status ∧ status ≤ 999 then .ok ()
    else .error s!"error page status_override must be within [100, 999], got {status}"
  | none => .ok ()

/-- What `build` does after the check of the override. -/
def buildRest (C : Crates π) (config : ErrorPageConfig) (statuses : List Nat) :
    Except String (ErrorPageEntry π) := do
  if config.body.isSome && config.bodyExpression.isSome then
    throw "error page body and body_expression cannot both be set"
  let matcher ← compileOption C "matcher" config.matcher
  let bodyProgram ← compileOption C "body_expression" config.bodyExpression
  let headers ← config.headers.mapM (buildHeader C)
  return {
    id := config.id
    statuses := statuses
    matcher := matcher
    body := config.body
    bodyProgram := bodyProgram
    contentType := config.contentType
    headers := headers
    statusOverride := config.statusOverride
    priority := config.priority }

theorem build_eq (hid : Str.trim config.id ≠ []) : config.build C = (do
      let statuses ← statusesOf config
      checkOverride config.statusOverride
      buildRest C config statuses) := by
  unfold ErrorPageConfig.build statusesOf buildRest
  rw [if_neg fun h => hid (List.isEmpty_iff.1 h)]
  cases config.status with
  | none =>
    cases config.statusOverride with
    | none => rfl
    | some n => by_cases hn : 100 ≤ n ∧ n ≤ 999 <;> simp only [hn, checkOverride] <;> rfl
  | some spec =>
    cases config.statusOverride with
    | none => rfl
    | some n => by_cases hn : 100 ≤ n ∧ n ≤ 999 <;> simp only [hn, checkOverride] <;> rfl

theorem id_of_build (h : config.build C = .ok entry) : Str.trim config.id ≠ [] := by
  intro hid
  unfold ErrorPageConfig.build at h
  rw [if_pos (List.isEmpty_iff.2 hid)] at h
  cases h

/-- After its check the override is only copied. -/
theorem buildRest_statusOverride (o : Option Nat) (statuses : List Nat) :
    buildRest C { config with statusOverride := o } statuses =
      (buildRest C config statuses).map fun entry => { entry with statusOverride := o } := by
  unfold buildRest
  dsimp only
  split
  · rfl
  · cases compileOption C "matcher" config.matcher with
    | error e => rfl
    | ok matcher =>
      cases compileOption C "body_expression" config.bodyExpression with
      | error e => rfl
      | ok bodyProgram =>
        cases config.headers.mapM (buildHeader C) with
        | error e => rfl
        | ok headers => rfl

/-- The range check is the only one that reads the override. -/
theorem build_statusOverride (hnone : config.statusOverride = none) (h : config.build C = .ok entry)
    (n : Nat) :
    { config with statusOverride := some n }.build C =
      if 100 ≤ n ∧ n ≤ 999 then .ok { entry with statusOverride := some n }
      else .error s!"error page status_override must be within [100, 999], got {n}" := by
  have hid := id_of_build h
  rw [build_eq hid, hnone] at h
  have heq : { config with statusOverride := some n }.build C = (do
      let statuses ← statusesOf config
      checkOverride (some n)
      buildRest C { config with statusOverride := some n } statuses) := build_eq hid
  obtain ⟨statuses, hstatuses, h⟩ := bind_eq_ok_iff.1 h
  have hrest : buildRest C config statuses = .ok entry := h
  rw [heq, hstatuses]
  show (checkOverride (some n) >>= fun _ =>
    buildRest C { config with statusOverride := some n } statuses) = _
  rw [buildRest_statusOverride (some n), hrest, checkOverride]
  by_cases hn : 100 ≤ n ∧ n ≤ 999
  · rw [if_pos hn, if_pos hn]
    rfl
  · rw [if_neg hn, if_neg hn]
    rfl

theorem id_of_buildRest {statuses : List Nat} (h : buildRest C config statuses = .ok entry) :
    entry.id = config.id := by
  unfold buildRest at h
  split at h
  · cases h
  · obtain ⟨matcher, -, h⟩ := bind_eq_ok_iff.1 h
    obtain ⟨bodyProgram, -, h⟩ := bind_eq_ok_iff.1 h
    obtain ⟨headers, -, h⟩ := bind_eq_ok_iff.1 h
    cases h
    rfl

theorem id_build (h : config.build C = .ok entry) : entry.id = config.id := by
  rw [build_eq (id_of_build h)] at h
  obtain ⟨statuses, -, h⟩ := bind_eq_ok_iff.1 h
  obtain ⟨-, -, h⟩ := bind_eq_ok_iff.1 h
  exact id_of_buildRest h

/-- The entries of an id after an update that built one. -/
theorem mem_update_iff {store : ErrorPageStore π} (h : config.build C = .ok entry)
    {e : ErrorPageEntry π} (he : e.id = entry.id) :
    e ∈ (store.update C config).1.snapshot ↔ e = entry := by
  rw [ErrorPageStore.update, h]
  show e ∈ List.mergeSort _ _ ↔ _
  rw [List.mem_mergeSort, List.mem_append, List.mem_singleton, List.mem_filter]
  simp [he]

end ErrorPages

/-! ## What is rendered -/

section

variable {X : Externals}

theorem exec_renderErrorPageBody (page : ErrorPageEntry X.Program) (s : RequestState X) :
    ∃ body, ((renderErrorPageBody X page).exec s).1 = .ok body := by
  unfold renderErrorPageBody
  cases page.bodyProgram with
  | none => exact ⟨_, rfl⟩
  | some program =>
    dsimp only
    rw [exec_bind, exec_executeIn]
    dsimp only
    cases X.execute s.time s.scope program with
    | error e => exact ⟨_, rfl⟩
    | ok v => exact ⟨_, rfl⟩

theorem LookupFinds.unique {c : SessionCelContext X.H} {status t : Nat}
    {entries : List (ErrorPageEntry X.Program)} {result result' : Option (ErrorPageEntry X.Program)}
    (h : LookupFinds c status t entries result) (h' : LookupFinds c status t entries result') :
    result = result' := by
  refine Option.ext fun e => ?_
  rw [h.1, h'.1]

/-- The page of the entry that the lookup finds has the status of the entry, if that has one. -/
theorem exec_resolveErrorPage_of_lookup {s : RequestState X} {status : Nat}
    {entry : ErrorPageEntry X.Program}
    (h : ((lookupErrorPage X status).exec s).1 = .ok (some entry)) :
    ∃ page, ((resolveErrorPage X status).exec s).1 = .ok (some page) ∧
      page.status = entry.statusOverride.getD status := by
  -- the record of the call changes nothing that the lookup reads
  obtain ⟨found, hfound, hfinds⟩ := exec_lookupErrorPage s status
  obtain ⟨found', hfound', hfinds'⟩ :=
    exec_lookupEntries status s.shared.errorPages.snapshot (s := s.beginResolve status) rfl
  obtain rfl : found = some entry := Except.ok.inj (hfound.symm.trans h)
  obtain rfl : found' = some entry := (hfinds.unique hfinds').symm
  rw [exec_resolveErrorPage, exec_bind]
  rcases hlookup : (lookupEntries X status s.shared.errorPages.snapshot).exec (s.beginResolve status)
    with ⟨result, s'⟩
  rw [hlookup] at hfound'
  obtain rfl : result = .ok (some entry) := hfound'
  dsimp only
  obtain ⟨body, hbody⟩ := exec_renderErrorPageBody entry s'
  unfold renderErrorPage
  dsimp only
  rw [exec_bind]
  rcases hrender : (renderErrorPageBody X entry).exec s' with ⟨result, s''⟩
  rw [hrender] at hbody
  obtain rfl : result = .ok body := hbody
  exact ⟨_, rfl, rfl⟩

variable (X) in
/-- The override of an update is kept or refused: the update succeeds exactly for a status within
`[100, 999]`, and then the one entry of the id has this override, and the page that is rendered for
it this status. -/
structure OverrideKept (store : ErrorPageStore X.Program) (options : ErrorPageOptions) (w : UInt32) :
    Prop where
  accepted : (updateErrorPage X.crates store { options with statusOverride := some w }).2 = .ok () ↔
    100 ≤ w.toNat ∧ w.toNat ≤ 999
  stored : ∀ store', updateErrorPage X.crates store { options with statusOverride := some w } =
      (store', .ok ()) →
    ∃ entry, (∀ e, e ∈ store'.snapshot ∧ e.id = options.id ↔ e = entry) ∧
      entry.statusOverride = some w.toNat ∧
      ∀ (s : RequestState X) status, s.shared.errorPages = store' →
        ((lookupErrorPage X status).exec s).1 = .ok (some entry) →
        ∃ page, ((resolveErrorPage X status).exec s).1 = .ok (some page) ∧ page.status = w.toNat

/-- The other fields of the options are valid: without an override they make an entry. -/
def OtherwiseValid {π : Type} (C : ErrorPages.Crates π) (options : ErrorPageOptions) : Prop :=
  ∃ config entry, ErrorPageConfig.tryFrom { options with statusOverride := none } = .ok config ∧
    config.build C = .ok entry

/-- What an update does with an override, when there is nothing else to object to. -/
theorem updateErrorPage_statusOverride {π : Type} {C : ErrorPages.Crates π}
    (store : ErrorPageStore π) {options : ErrorPageOptions} (hvalid : OtherwiseValid C options)
    (w : UInt32) :
    ∃ entry : ErrorPageEntry π, entry.id = options.id ∧
      entry.statusOverride = some w.toUInt16.toNat ∧
      if 100 ≤ w.toUInt16.toNat ∧ w.toUInt16.toNat ≤ 999 then
        ∃ store', updateErrorPage C store { options with statusOverride := some w } = (store', .ok ()) ∧
          ∀ e, e ∈ store'.snapshot ∧ e.id = options.id ↔ e = entry
      else ∃ message,
        updateErrorPage C store { options with statusOverride := some w } = (store, .error message) := by
  obtain ⟨config, entry, hconfig, hbuild⟩ := hvalid
  have hnone : config.statusOverride = none := by
    cases hconfig
    rfl
  have hid : entry.id = options.id := by
    rw [ErrorPages.id_build hbuild]
    cases hconfig
    rfl
  have hupdate : updateErrorPage C store { options with statusOverride := some w } =
      store.update C { config with statusOverride := some w.toUInt16.toNat } := by
    cases hconfig
    rfl
  refine ⟨{ entry with statusOverride := some w.toUInt16.toNat }, hid, rfl, ?_⟩
  have hbuild' := ErrorPages.build_statusOverride hnone hbuild w.toUInt16.toNat
  rw [hupdate]
  split
  · next hrange =>
    rw [if_pos hrange] at hbuild'
    refine ⟨_, by rw [ErrorPageStore.update, hbuild'], fun e => ?_⟩
    have hmem := @ErrorPages.mem_update_iff _ _ _ _ store hbuild' e
    rw [ErrorPageStore.update, hbuild'] at hmem
    constructor
    · rintro ⟨he, heid⟩
      exact (hmem (heid.trans hid.symm)).1 he
    · rintro rfl
      exact ⟨(hmem rfl).2 rfl, hid⟩
  · next hrange =>
    rw [if_neg hrange] at hbuild'
    exact ⟨_, by rw [ErrorPageStore.update, hbuild']⟩

/-- **Status overrides**: with valid options otherwise, an override is kept or refused if and only if
it is not a status within `[100, 999]` plus a multiple of `65536` other than `0`. -/
theorem statusOverride_kept_iff (store : ErrorPageStore X.Program) (options : ErrorPageOptions)
    (hvalid : OtherwiseValid X.crates options) (w : UInt32) :
    OverrideKept X store options w ↔
      ¬ (65536 ≤ w.toNat ∧ 100 ≤ w.toNat % 65536 ∧ w.toNat % 65536 ≤ 999) := by
  obtain ⟨entry, hid, hoverride, hupdate⟩ := updateErrorPage_statusOverride store hvalid w
  rw [UInt32.toNat_toUInt16] at hoverride hupdate
  constructor
  · rintro hkept ⟨hbig, hrange⟩
    rw [if_pos hrange] at hupdate
    obtain ⟨store', hstore', -⟩ := hupdate
    have hok := hkept.accepted.1 (by rw [hstore'])
    omega
  · intro hnot
    by_cases hrange : 100 ≤ w.toNat % 2 ^ 16 ∧ w.toNat % 2 ^ 16 ≤ 999
    · rw [if_pos hrange] at hupdate
      obtain ⟨store', hstore', hentry⟩ := hupdate
      have hsmall : w.toNat % 2 ^ 16 = w.toNat := by omega
      rw [hsmall] at hrange hoverride
      refine ⟨⟨fun _ => hrange, fun _ => by rw [hstore']⟩, fun store'' h => ?_⟩
      obtain rfl : store' = store'' := by
        rw [hstore'] at h
        exact (Prod.mk.inj h).1
      refine ⟨entry, hentry, hoverride, fun s status _ hlookup => ?_⟩
      obtain ⟨page, hpage, hstatus⟩ := exec_resolveErrorPage_of_lookup hlookup
      refine ⟨page, hpage, ?_⟩
      rw [hstatus, hoverride]
      rfl
    · rw [if_neg hrange] at hupdate
      obtain ⟨message, hmessage⟩ := hupdate
      refine ⟨⟨fun h => ?_, fun h => ?_⟩, fun store'' h => ?_⟩
      · rw [hmessage] at h
        cases h
      · omega
      · rw [hmessage] at h
        cases h

end

/-! A page that is served with another status. -/

def overridePage : ErrorPageOptions where
  id := "down".toList
  status := none
  matcher := none
  body := some "back soon".toList
  bodyExpression := none
  contentType := none
  headers := none
  statusOverride := none
  priority := none

theorem overridePage_otherwiseValid : OtherwiseValid Externals.plain.crates overridePage :=
  ⟨_, _, rfl, rfl⟩

theorem overridePage_kept :
    OtherwiseValid Externals.plain.crates overridePage ∧
    OverrideKept Externals.plain .new overridePage 503 :=
  ⟨overridePage_otherwiseValid,
    (statusOverride_kept_iff .new overridePage overridePage_otherwiseValid 503).2 (by decide)⟩

/-- The override `65940` is taken for `404`. -/
theorem overridePage_changed :
    OtherwiseValid Externals.plain.crates overridePage ∧
    (let options := { overridePage with statusOverride := some 65940 }
     (updateErrorPage Externals.plain.crates .new options).1.snapshot.map (·.statusOverride) =
      [some 404]) ∧
    ¬ OverrideKept Externals.plain .new overridePage 65940 := by
  refine ⟨overridePage_otherwiseValid, ?_, fun h => ?_⟩
  · exact congrArg (List.map ErrorPageEntry.statusOverride) (List.mergeSort_singleton _)
  · have hrange : 100 ≤ (65940 : UInt32).toNat ∧ (65940 : UInt32).toNat ≤ 999 := h.accepted.1 rfl
    revert hrange
    decide

end Lonesome
