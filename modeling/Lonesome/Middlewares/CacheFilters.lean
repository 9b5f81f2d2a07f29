import Lonesome.Middlewares.Config

/-!
# The filters of the cache handler

`CacheHandler` of `src/middlewares/cache/handler.rs`: which requests are looked up
(`request_cache_filter`), which responses are stored (`response_cache_filter`) and which of the
stored variants a request is served (`cache_vary_filter`). What `pingora` decides is a parameter
(`CacheCrate`): how a `Cache-Control` field is read, which responses it takes for cacheable, and the
hash of a variance.

The variance of a request is made of the first field of each header that the response nominates in
`Vary`, and a header that is absent counts as an empty one. So it tells requests apart that differ in
these, and no others (`cacheVaryFilter_eq_iff`); `vary_honoured_iff` says for which requests that
is what `Vary` asks for.
-/

namespace Lonesome

variable {H : HttpCrate}

/-- `CacheMeta`; the times are in seconds. -/
structure CacheMeta where
  freshUntil : Nat
  created : Nat
  staleWhileRevalidateSec : Nat
  staleIfErrorSec : Nat
  responseHeader : ResponseHeader
  deriving DecidableEq

inductive NoCacheReason where
  | originNotCache
  | custom (reason : String)
  deriving DecidableEq

inductive RespCacheable where
  | cacheable (entry : CacheMeta)
  | uncacheable (reason : NoCacheReason)
  deriving DecidableEq

/-- The parts of `pingora_cache` that the handler calls. -/
structure CacheCrate where
  CacheControl : Type
  /-- `CacheControl::from_resp_headers_named` -/
  fromRespHeadersNamed : String → ResponseHeader → Option CacheControl
  /-- `resp_cacheable` with `CACHE_DECISION_DEFAULTS` -/
  respCacheable : Option CacheControl → ResponseHeader → Bool → RespCacheable
  HashBinary : Type
  /-- The hash that `VarianceBuilder::finalize` makes of the values by name. -/
  varianceHash : (Str → Option (List UInt8)) → HashBinary

variable (P : CacheCrate)

/-! ## The hooks -/

/-- The cache of a session, as far as the handler sets it up. -/
structure SessionCache where
  enabled : Bool
  waitTimeoutSecs : Option Nat
  maxFileSizeBytes : Option Nat
  deriving DecidableEq

def SessionCache.disabled : SessionCache := ⟨false, none, none⟩

/-- The readable tokens of the `Vary` fields. -/
def varyTokens (headers : HeaderMap) : List Str :=
  ((headers.getAll "vary").filterMap (·.toStr)).flatMap (·.splitOn ',')

def hasVaryStar (resp : ResponseHeader) : Bool :=
  (resp.headers.getAll "vary").any fun value =>
    match value.toStr with
    | some raw => (raw.splitOn ',').any fun part => (Str.trim part).eqIgnoreAsciiCase "*".toList
    | none => false

namespace CacheHandler

variable (h : CacheHandler)

def requestCacheFilter (cache : SessionCache) : SessionCache :=
  let cache := { cache with enabled := true, waitTimeoutSecs := some 2 }
  match h.maxFileSizeBytes with
  | some max => { cache with maxFileSizeBytes := some max }
  | none => cache

/-- `Cdn-Cache-Control` before `Cache-Control`; what is cacheable is so for `max_ttl_secs` at most. -/
def responseCacheFilter (req : RequestHeader H) (resp : ResponseHeader) : RespCacheable :=
  if hasVaryStar resp then .uncacheable .originNotCache
  else
    let cc := (P.fromRespHeadersNamed "cdn-cache-control" resp).or
      (P.fromRespHeadersNamed "cache-control" resp)
    let hasAuthorization := (req.headers.get "authorization").isSome
    match P.respCacheable cc resp hasAuthorization with
    | .cacheable entry =>
      .cacheable { entry with freshUntil := min entry.freshUntil (entry.created + h.maxTtlSecs) }
    | .uncacheable reason => .uncacheable reason

end CacheHandler

/-- The names of the headers that a response varies by. -/
def varyNames (headers : HeaderMap) : List Str :=
  (varyTokens headers).map fun s => (Str.trim s).toAsciiLowercase

/-- The fields of a header of the request. -/
def fieldsOf (req : RequestHeader H) (name : Str) : List HeaderValue :=
  req.headers.getAll (String.ofList name.toAsciiLowercase)

/-- The value that a header contributes to the variance: that of its first field. -/
def varianceValue (req : RequestHeader H) (name : Str) : List UInt8 :=
  ((req.headers.getStr name).map (·.bytes)).getD []

/-- `add_value` for each name, one after the other. -/
def varianceOf (req : RequestHeader H) (names : List Str) : Str → Option (List UInt8) :=
  names.foldl (fun values name => Function.update values name (some (varianceValue req name)))
    fun _ => none

/-- `CacheHandler::cache_vary_filter` on the header of a stored response. -/
def cacheVaryFilter (entry : CacheMeta) (req : RequestHeader H) : Option P.HashBinary :=
  let names := varyNames entry.responseHeader.headers
  if names.isEmpty then none else some (P.varianceHash (varianceOf req names))

/-! ## Variants -/

variable {P} {entry : CacheMeta} {r r' : RequestHeader H} {headers : HeaderMap} {names : List Str}
  {name : Str}

/-- A response nominates the header: it is one of the names between the commas of a `Vary` field that
can be read, whatever the case and the blanks around it. -/
def Nominated (headers : HeaderMap) (name : Str) : Prop :=
  ∃ value ∈ headers.getAll "vary", ∃ raw, value.toStr = some raw ∧
    ∃ token ∈ raw.splitOn ',', (Str.trim token).toAsciiLowercase = name

theorem mem_varyNames_iff : name ∈ varyNames headers ↔ Nominated headers name := by
  unfold varyNames varyTokens Nominated
  constructor
  · intro h
    obtain ⟨token, htoken, rfl⟩ := List.mem_map.1 h
    obtain ⟨raw, hraw, hsplit⟩ := List.mem_flatMap.1 htoken
    obtain ⟨value, hvalue, hread⟩ := List.mem_filterMap.1 hraw
    exact ⟨value, hvalue, raw, hread, token, hsplit, rfl⟩
  · rintro ⟨value, hvalue, raw, hread, token, hsplit, rfl⟩
    have hraw := List.mem_filterMap.2 ⟨value, hvalue, hread⟩
    exact List.mem_map.2 ⟨token, List.mem_flatMap.2 ⟨raw, hraw, hsplit⟩, rfl⟩

theorem varianceValue_eq : varianceValue r name = (((fieldsOf r name).head?).map (·.bytes)).getD [] :=
  rfl

/-- Each name is there once, with the value of its first field. -/
theorem varianceOf_apply : varianceOf r names name =
    if name ∈ names then some (varianceValue r name) else none := by
  induction names using List.reverseRecOn with
  | nil => rfl
  | append_singleton names last ih =>
    unfold varianceOf at ih ⊢
    rw [List.foldl_append, List.foldl_cons, List.foldl_nil]
    by_cases hlast : name = last
    · subst hlast
      rw [Function.update_self, if_pos (by simp)]
    · rw [Function.update_of_ne hlast, ih]
      simp [hlast]

theorem varianceOf_eq_iff : varianceOf r names = varianceOf r' names ↔
    ∀ n ∈ names, varianceValue r n = varianceValue r' n := by
  constructor
  · intro h n hn
    have happly := congrFun h n
    rw [varianceOf_apply, varianceOf_apply, if_pos hn, if_pos hn] at happly
    exact Option.some.inj happly
  · intro h
    funext n
    rw [varianceOf_apply, varianceOf_apply]
    by_cases hn : n ∈ names
    · rw [if_pos hn, if_pos hn, h n hn]
    · rw [if_neg hn, if_neg hn]

/-- Two requests have one variance when they agree on the first field of each nominated header. -/
theorem cacheVaryFilter_eq_iff (hinj : Function.Injective P.varianceHash) :
    cacheVaryFilter P entry r = cacheVaryFilter P entry r' ↔
      ∀ n, Nominated entry.responseHeader.headers n → varianceValue r n = varianceValue r' n := by
  simp only [← mem_varyNames_iff]
  unfold cacheVaryFilter
  dsimp only
  cases hnames : varyNames entry.responseHeader.headers with
  | nil => simp
  | cons n rest =>
    simp only [List.isEmpty_cons, Bool.false_eq_true, ↓reduceIte, Option.some.injEq]
    rw [hinj.eq_iff, varianceOf_eq_iff]

/-- Two requests have the same fields of every header that is nominated. -/
def SameFields (headers : HeaderMap) (r r' : RequestHeader H) : Prop :=
  ∀ n, Nominated headers n → fieldsOf r n = fieldsOf r' n

variable (P) in
/-- `Vary` is honoured for two requests: with equal variances they have the same fields of every
nominated header, and with the same fields they have equal variances. -/
structure VaryHonoured (entry : CacheMeta) (r r' : RequestHeader H) : Prop where
  separates : cacheVaryFilter P entry r = cacheVaryFilter P entry r' →
    SameFields entry.responseHeader.headers r r'
  shares : SameFields entry.responseHeader.headers r r' →
    cacheVaryFilter P entry r = cacheVaryFilter P entry r'

/-- The requests agree on the first field of each nominated header, absent or empty, and yet differ
in the fields of one of them. -/
def HiddenDifference (headers : HeaderMap) (r r' : RequestHeader H) : Prop :=
  (∀ n, Nominated headers n → varianceValue r n = varianceValue r' n) ∧
    ∃ n, Nominated headers n ∧ fieldsOf r n ≠ fieldsOf r' n

/-- At most one field, and not an empty one. -/
def OneValue (fields : List HeaderValue) : Prop :=
  fields.length ≤ 1 ∧ ∀ v ∈ fields, v.bytes ≠ []

theorem OneValue.eq_of_first {fields fields' : List HeaderValue} (h : OneValue fields)
    (h' : OneValue fields')
    (heq : (fields.head?.map (·.bytes)).getD [] = (fields'.head?.map (·.bytes)).getD []) :
    fields = fields' := by
  cases fields with
  | nil =>
    cases fields' with
    | nil => rfl
    | cons v rest => exact (h'.2 v List.mem_cons_self heq.symm).elim
  | cons v rest =>
    cases fields' with
    | nil => exact (h.2 v List.mem_cons_self heq).elim
    | cons v' rest' =>
      obtain rfl : rest = [] := List.length_eq_zero_iff.1 (Nat.le_zero.1 (Nat.le_of_succ_le_succ h.1))
      obtain rfl : rest' = [] := List.length_eq_zero_iff.1 (Nat.le_zero.1 (Nat.le_of_succ_le_succ h'.1))
      obtain ⟨bytes, _⟩ := v
      obtain ⟨bytes', _⟩ := v'
      obtain rfl : bytes = bytes' := heq
      rfl

/-- Headers of one value each hide nothing. -/
theorem not_hiddenDifference_of_oneValue (h : ∀ n, Nominated headers n → OneValue (fieldsOf r n))
    (h' : ∀ n, Nominated headers n → OneValue (fieldsOf r' n)) : ¬ HiddenDifference headers r r' := by
  rintro ⟨hfirst, n, hn, hne⟩
  refine hne ((h n hn).eq_of_first (h' n hn) ?_)
  rw [← varianceValue_eq, ← varianceValue_eq]
  exact hfirst n hn

/-- **Variants**: for a stored response, `Vary` is honoured for two requests if and only if they have
no hidden difference in the headers that the response nominates. -/
theorem vary_honoured_iff (hinj : Function.Injective P.varianceHash) (h : CacheHandler)
    (req : RequestHeader H) (resp : ResponseHeader) (entry : CacheMeta)
    (_hstored : h.responseCacheFilter P req resp = .cacheable entry) (r r' : RequestHeader H) :
    VaryHonoured P entry r r' ↔
      ¬ HiddenDifference entry.responseHeader.headers r r' := by
  constructor
  · rintro hhonoured ⟨hfirst, n, hn, hne⟩
    exact hne (hhonoured.separates ((cacheVaryFilter_eq_iff hinj).2 hfirst) n hn)
  · intro hhidden
    refine ⟨fun heq n hn => ?_, fun hfields => ?_⟩
    · by_contra hne
      exact hhidden ⟨(cacheVaryFilter_eq_iff hinj).1 heq, n, hn, hne⟩
    · refine (cacheVaryFilter_eq_iff hinj).2 fun n hn => ?_
      rw [varianceValue_eq, varianceValue_eq, hfields n hn]

/-! A response that varies by `Accept-Language`. -/

/-- Every response is cacheable for a minute; variances are kept as they are. -/
def CacheCrate.minute : CacheCrate where
  CacheControl := Empty
  fromRespHeadersNamed _ _ := none
  respCacheable _ resp _ := .cacheable ⟨60, 0, 1, 1, resp⟩
  HashBinary := Str → Option (List UInt8)
  varianceHash := id

def byLanguage : ResponseHeader where
  status := 200
  headers := [("vary", .ofAscii "Accept-Encoding".toList), ("vary", .ofAscii " Accept-Language".toList)]

def languageRequest (languages : List String) : RequestHeader HttpCrate.byCharacter where
  method := "GET"
  uri := ⟨none, none, none⟩
  headers := languages.map fun l => ("accept-language", .ofAscii l.toList)

/-- The names that the response nominates. -/
theorem nominated_byLanguage_iff : Nominated byLanguage.headers name ↔
    name = "accept-encoding".toList ∨ name = "accept-language".toList := by
  rw [← mem_varyNames_iff, show varyNames byLanguage.headers =
    ["accept-encoding".toList, "accept-language".toList] by decide]
  simp

theorem vary_honoured_two_languages :
    (CacheHandler.mk 3600 none true).responseCacheFilter .minute (languageRequest []) byLanguage =
      .cacheable ⟨60, 0, 1, 1, byLanguage⟩ ∧
    VaryHonoured .minute ⟨60, 0, 1, 1, byLanguage⟩ (languageRequest ["en"]) (languageRequest ["de"]) := by
  refine ⟨rfl, (vary_honoured_iff Function.injective_id ⟨3600, none, true⟩ (languageRequest [])
    byLanguage _ rfl _ _).2 fun h => ?_⟩
  have hfirst := h.1 _ (nominated_byLanguage_iff.2 (.inr rfl))
  revert hfirst
  decide

/-- A request for `en` and `de` is served what was stored for `en` alone. -/
theorem second_language_not_seen :
    (CacheHandler.mk 3600 none true).responseCacheFilter .minute (languageRequest []) byLanguage =
      .cacheable ⟨60, 0, 1, 1, byLanguage⟩ ∧
    cacheVaryFilter .minute ⟨60, 0, 1, 1, byLanguage⟩ (languageRequest ["en", "de"]) =
      cacheVaryFilter .minute ⟨60, 0, 1, 1, byLanguage⟩ (languageRequest ["en"]) ∧
    ¬ VaryHonoured .minute ⟨60, 0, 1, 1, byLanguage⟩ (languageRequest ["en", "de"])
      (languageRequest ["en"]) := by
  have hsame : cacheVaryFilter .minute ⟨60, 0, 1, 1, byLanguage⟩ (languageRequest ["en", "de"]) =
      cacheVaryFilter .minute ⟨60, 0, 1, 1, byLanguage⟩ (languageRequest ["en"]) :=
    (cacheVaryFilter_eq_iff Function.injective_id).2 fun n hn => by
      obtain rfl | rfl := nominated_byLanguage_iff.1 hn <;> decide
  refine ⟨rfl, hsame, fun h => ?_⟩
  have hfields := h.separates hsame _ (nominated_byLanguage_iff.2 (.inr rfl))
  revert hfields
  decide

end Lonesome
