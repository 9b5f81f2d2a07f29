import Lonesome.Middlewares.Cache
import Lonesome.Middlewares.CacheFilters
import Lonesome.Middlewares.Observe

/-!
# Requests on a shared cache

The cache callbacks of `src/proxy/proxy.rs` over runs of requests. A request whose route has a cache
middleware that applies carries the handler of the cache; `pingora` then looks the request up by its
key, and stores the response it fetches when the handler takes it for cacheable. None of the
callbacks looks at the method of the request, so a request of any method is stored and served like a
`GET`. `cache_safe_methods_iff` says which requests have to be kept off the cache, by the rule of the
middleware, for only `GET` and `HEAD` to use it.
-/

namespace Lonesome

open Lonesome.Lib

variable {X : Externals} (P : CacheCrate)

/-! ## The callbacks -/

namespace CacheCallbacks

/-- `LonesomeProxy::request_cache_filter` -/
def requestCacheFilter (s : RequestState X) (cache : SessionCache) : SessionCache :=
  match s.ctx.cacheHandler with
  | some handler => handler.requestCacheFilter cache
  | none => cache

/-- `LonesomeProxy::cache_key_callback` -/
def cacheKeyCallback (s : RequestState X) : Except ProxyError CacheKeyParts :=
  match s.ctx.cacheHandler with
  | some _ => .ok (Lonesome.cacheKeyCallback s.ctx.routeId s.session.reqHeader)
  | none => .error (.explain .internalError "cache middleware not configured")

/-- `LonesomeProxy::response_cache_filter` -/
def responseCacheFilter (s : RequestState X) (resp : ResponseHeader) : RespCacheable :=
  match s.ctx.cacheHandler with
  | some handler => handler.responseCacheFilter P s.session.reqHeader resp
  | none => .uncacheable (.custom "default")

end CacheCallbacks

/-! ## Runs -/

variable (X) in
/-- A stored response, with the request it was produced for. -/
structure StoredObject where
  key : CacheKeyParts
  request : RequestHeader X.H
  entry : CacheMeta

variable (X) in
/-- A request at the time of its cache callbacks. Whether an object under its key is served (its
freshness, its variance, a purge) is for `pingora` to say, and what the upstream answers for the
upstream. -/
structure CacheExchange where
  state : RequestState X
  serves : StoredObject X → Bool
  response : ResponseHeader

/-- Where the answer of a request came from. -/
inductive CacheAnswer (X : Externals) where
  | upstream (response : ResponseHeader)
  | stored (object : StoredObject X)
  | failed (error : ProxyError)

/-- The response is fetched, and stored when it is cacheable. -/
def fetchUpstream (storage : List (StoredObject X)) (x : CacheExchange X) (key : CacheKeyParts) :
    List (StoredObject X) × CacheAnswer X :=
  match CacheCallbacks.responseCacheFilter P x.state x.response with
  | .cacheable entry => (⟨key, x.state.session.reqHeader, entry⟩ :: storage, .upstream x.response)
  | .uncacheable _ => (storage, .upstream x.response)

/-- One request: with the cache enabled it is looked up by its key. -/
def exchangeCached (storage : List (StoredObject X)) (x : CacheExchange X) :
    List (StoredObject X) × CacheAnswer X :=
  if (CacheCallbacks.requestCacheFilter x.state .disabled).enabled then
    match CacheCallbacks.cacheKeyCallback x.state with
    | .error e => (storage, .failed e)
    | .ok key =>
      match storage.find? fun object => object.key = key ∧ x.serves object = true with
      | some object => (storage, .stored object)
      | none => fetchUpstream P storage x key
  else (storage, .upstream x.response)

/-- Requests one after the other, and the answers they got. -/
def exchangesCached (run : List (CacheExchange X)) :
    List (StoredObject X) × List (CacheExchange X × CacheAnswer X) :=
  run.foldl (fun s x =>
    let (storage, answer) := exchangeCached P s.1 x
    (storage, s.2 ++ [(x, answer)])) ([], [])

/-! ## Methods -/

/-- The methods whose responses a cache may keep. -/
def SafeMethod (method : String) : Prop :=
  method = "GET" ∨ method = "HEAD"

/-- Only safe methods use the cache: what is stored was produced for one, and only requests of one
were answered from the storage. -/
structure SafeMethodsOnly (s : List (StoredObject X) × List (CacheExchange X × CacheAnswer X)) :
    Prop where
  stored : ∀ object ∈ s.1, SafeMethod object.request.method
  served : ∀ x object, (x, .stored object) ∈ s.2 → SafeMethod x.state.session.reqHeader.method

section Exchange

variable {P} {storage : List (StoredObject X)} {x : CacheExchange X} {handler : CacheHandler}

theorem exchangeCached_of_none (h : x.state.ctx.cacheHandler = none) :
    exchangeCached P storage x = (storage, .upstream x.response) := by
  unfold exchangeCached CacheCallbacks.requestCacheFilter
  rw [h]
  rfl

/-- With a handler, the request is looked up, and its response is stored when it is cacheable. -/
theorem exchangeCached_of_some (h : x.state.ctx.cacheHandler = some handler) :
    exchangeCached P storage x =
      match storage.find? fun object =>
          object.key = cacheKeyCallback x.state.ctx.routeId x.state.session.reqHeader ∧
            x.serves object = true with
      | some object => (storage, .stored object)
      | none =>
        fetchUpstream P storage x (cacheKeyCallback x.state.ctx.routeId x.state.session.reqHeader) := by
  have henabled : (handler.requestCacheFilter .disabled).enabled = true := by
    unfold CacheHandler.requestCacheFilter
    cases handler.maxFileSizeBytes <;> rfl
  unfold exchangeCached CacheCallbacks.requestCacheFilter CacheCallbacks.cacheKeyCallback
  rw [h]
  dsimp only
  rw [if_pos henabled]

theorem fetchUpstream_cases (P : CacheCrate) (storage : List (StoredObject X)) (x : CacheExchange X)
    (key : CacheKeyParts) :
    fetchUpstream P storage x key = (storage, .upstream x.response) ∨
      ∃ entry, fetchUpstream P storage x key =
        (⟨key, x.state.session.reqHeader, entry⟩ :: storage, .upstream x.response) := by
  unfold fetchUpstream
  split
  · next entry _ => exact .inr ⟨entry, rfl⟩
  · exact .inl rfl

/-- What a request can do: it is forwarded; or it has a handler, and is answered from the storage or
its own response is stored. -/
theorem exchangeCached_cases (P : CacheCrate) (storage : List (StoredObject X)) (x : CacheExchange X) :
    exchangeCached P storage x = (storage, .upstream x.response) ∨
    x.state.ctx.cacheHandler.isSome = true ∧
      ((∃ object, exchangeCached P storage x = (storage, .stored object)) ∨
        ∃ object : StoredObject X, object.request = x.state.session.reqHeader ∧
          exchangeCached P storage x = (object :: storage, .upstream x.response)) := by
  cases hhandler : x.state.ctx.cacheHandler with
  | none => exact .inl (exchangeCached_of_none hhandler)
  | some handler =>
    rw [exchangeCached_of_some hhandler]
    split
    · next object _ => exact .inr ⟨rfl, .inl ⟨object, rfl⟩⟩
    · rcases fetchUpstream_cases P storage x _ with h | ⟨entry, h⟩
      · exact .inl h
      · exact .inr ⟨rfl, .inr ⟨_, rfl, h⟩⟩

/-- What was stored before a request is stored after it. -/
theorem exchangeCached_keeps (P : CacheCrate) {object : StoredObject X} (h : object ∈ storage)
    (x : CacheExchange X) : object ∈ (exchangeCached P storage x).1 := by
  rcases exchangeCached_cases P storage x with heq | ⟨-, ⟨_, heq⟩ | ⟨_, -, heq⟩⟩
  · rw [heq]
    exact h
  · rw [heq]
    exact h
  · rw [heq]
    exact List.mem_cons_of_mem _ h

end Exchange

theorem exchangesCached_concat (run : List (CacheExchange X)) (x : CacheExchange X) :
    exchangesCached P (run ++ [x]) =
      ((exchangeCached P (exchangesCached P run).1 x).1,
        (exchangesCached P run).2 ++ [(x, (exchangeCached P (exchangesCached P run).1 x).2)]) := by
  rw [exchangesCached, List.foldl_append]
  rfl

/-! ## Only safe methods -/

/-- A request gets the handler of a cache middleware when the rule of the middleware applies. -/
theorem cacheHandler_earlyRequestFilter (m : CacheMiddleware X) {s : RequestState X}
    (hnone : s.ctx.cacheHandler = none) :
    (m.earlyRequestFilter.exec s).2.ctx.cacheHandler.isSome = true ↔
      (m.shouldApply.exec s).1 = .ok true := by
  have hkeeps : (m.shouldApply.exec s).2.ctx.cacheHandler = none := by
    unfold CacheMiddleware.shouldApply
    cases m.celProgram with
    | none => exact hnone
    | some program =>
      unfold shouldApply execute
      rw [exec_bind, exec_executeIn]
      dsimp only
      split <;> exact hnone
  unfold CacheMiddleware.earlyRequestFilter
  rw [exec_bind]
  rcases happly : m.shouldApply.exec s with ⟨e | b, s'⟩
  · rw [happly] at hkeeps
    simpa using hkeeps
  · rw [happly] at hkeeps
    cases b with
    | false => simpa using hkeeps
    | true =>
      dsimp only at hkeeps ⊢
      rw [if_pos rfl, exec_bind, exec_get]
      dsimp only
      rw [hkeeps]
      exact iff_of_true rfl rfl

/-- The request uses the cache by a safe method, if at all. -/
def MethodChecked (s : RequestState X) : Prop :=
  s.ctx.cacheHandler.isSome = true → SafeMethod s.session.reqHeader.method

/-- One request. -/
theorem SafeMethodsOnly.exchange {storage : List (StoredObject X)}
    {answers : List (CacheExchange X × CacheAnswer X)} (h : SafeMethodsOnly (storage, answers))
    {x : CacheExchange X} (hx : MethodChecked x.state) :
    SafeMethodsOnly
      ((exchangeCached P storage x).1, answers ++ [(x, (exchangeCached P storage x).2)]) := by
  have hanswers : ∀ y object, (y, .stored object) ∈ answers →
      SafeMethod y.state.session.reqHeader.method := h.served
  rcases exchangeCached_cases P storage x with heq | ⟨hactive, ⟨found, heq⟩ | ⟨new, hreq, heq⟩⟩
  · rw [heq]
    refine ⟨h.stored, fun y object hy => ?_⟩
    rcases List.mem_append.1 hy with hy | hy
    · exact hanswers y object hy
    · cases List.mem_singleton.1 hy
  · rw [heq]
    refine ⟨h.stored, fun y object hy => ?_⟩
    rcases List.mem_append.1 hy with hy | hy
    · exact hanswers y object hy
    · obtain ⟨rfl, -⟩ := Prod.mk.inj (List.mem_singleton.1 hy)
      exact hx hactive
  · rw [heq]
    refine ⟨fun object hobject => ?_, fun y object hy => ?_⟩
    · rcases List.mem_cons.1 hobject with rfl | hobject
      · rw [hreq]
        exact hx hactive
      · exact h.stored object hobject
    · rcases List.mem_append.1 hy with hy | hy
      · exact hanswers y object hy
      · cases List.mem_singleton.1 hy

/-- A run of such requests. -/
theorem safeMethodsOnly_of_checked {run : List (CacheExchange X)}
    (hrun : ∀ x ∈ run, MethodChecked x.state) : SafeMethodsOnly (exchangesCached P run) := by
  induction run using List.reverseRecOn with
  | nil => exact ⟨fun _ h => (nomatch h), fun _ _ h => (nomatch h)⟩
  | append_singleton run x ih =>
    rw [exchangesCached_concat]
    refine SafeMethodsOnly.exchange P (ih fun y hy => hrun y ?_) (hrun x ?_)
    · exact List.mem_append_left _ hy
    · exact List.mem_append_right _ (List.mem_singleton.2 rfl)

/-- A response that is stored for requests with and without `Authorization`. -/
def CacheCrate.Stores (resp : ResponseHeader) : Prop :=
  ∀ (handler : CacheHandler) (req : RequestHeader X.H),
    ∃ entry, handler.responseCacheFilter P req resp = .cacheable entry

/-- When nothing stored is served, each request with a handler leaves its response. -/
theorem stored_of_active {resp : ResponseHeader} (hresp : CacheCrate.Stores (X := X) P resp)
    {run : List (CacheExchange X)}
    (hrun : ∀ x ∈ run, (∀ object, x.serves object = false) ∧ x.response = resp) {x : CacheExchange X}
    (hx : x ∈ run) (hactive : x.state.ctx.cacheHandler.isSome = true) :
    ∃ object ∈ (exchangesCached P run).1, object.request = x.state.session.reqHeader := by
  induction run using List.reverseRecOn with
  | nil => cases hx
  | append_singleton run last ih =>
    rw [exchangesCached_concat]
    rcases List.mem_append.1 hx with hx | hx
    · obtain ⟨object, hobject, hreq⟩ := ih (fun y hy => hrun y (List.mem_append_left _ hy)) hx
      exact ⟨object, exchangeCached_keeps P hobject last, hreq⟩
    · obtain rfl := List.mem_singleton.1 hx
      obtain ⟨handler, hhandler⟩ := Option.isSome_iff_exists.1 hactive
      obtain ⟨hserves, hresponse⟩ := hrun x (List.mem_append_right _ hx)
      obtain ⟨entry, hentry⟩ := hresp handler x.state.session.reqHeader
      rw [exchangeCached_of_some hhandler, List.find?_eq_none.2 (by simp [hserves])]
      unfold fetchUpstream CacheCallbacks.responseCacheFilter
      rw [hhandler, hresponse]
      dsimp only
      rw [hentry]
      exact ⟨_, List.mem_cons_self, rfl⟩

/-- **Methods**: requests, one after the other, use the cache by safe methods only, whatever the
upstreams answer and whatever is served of the storage, if and only if each of them that has the
handler of a cache is a `GET` or a `HEAD`. -/
theorem cache_safe_methods_iff {resp : ResponseHeader} (hresp : CacheCrate.Stores (X := X) P resp)
    (states : List (RequestState X)) :
    (∀ run, run.map (·.state) = states → SafeMethodsOnly (exchangesCached P run)) ↔
      ∀ s ∈ states, MethodChecked s := by
  constructor
  · intro h s hs hactive
    let run : List (CacheExchange X) := states.map fun s => ⟨s, fun _ => false, resp⟩
    have hstates : run.map (·.state) = states := by
      simp only [run, List.map_map]
      exact List.map_id' states
    have hall : ∀ x ∈ run, (∀ object, x.serves object = false) ∧ x.response = resp := by
      intro x hx
      obtain ⟨_, -, rfl⟩ := List.mem_map.1 hx
      exact ⟨fun _ => rfl, rfl⟩
    obtain ⟨object, hobject, hreq⟩ :=
      stored_of_active P hresp hall (List.mem_map_of_mem hs) hactive
    have hsafe := (h run hstates).stored object hobject
    rwa [hreq] at hsafe
  · rintro h run rfl
    exact safeMethodsOnly_of_checked P fun x hx => h x.state (List.mem_map_of_mem hx)

/-! A route that caches every request. -/

def okResponse : ResponseHeader := ⟨200, []⟩

theorem stores_okResponse : CacheCrate.Stores (X := .plain) .minute okResponse :=
  fun _ _ => ⟨_, rfl⟩

def cacheAll : CacheMiddleware .plain := ⟨⟨3600, none, true⟩, none⟩

/-- A request for `/`, after the early filters of its route. -/
def cachedRequest (middlewares : List (CacheMiddleware .plain)) (method : String) :
    RequestState .plain :=
  let s := RequestState.plain .new
  let s := { s with session := { s.session with reqHeader := { s.session.reqHeader with method } } }
  ((middlewares.forM (·.earlyRequestFilter)).exec s).2

/-- `GET` with the cache, `POST` without. -/
theorem cache_safe_methods_get_post :
    (cachedRequest [cacheAll] "GET").ctx.cacheHandler.isSome = true ∧
    (cachedRequest [] "POST").ctx.cacheHandler.isSome = false ∧
    ∀ run, run.map (·.state) = [cachedRequest [cacheAll] "GET", cachedRequest [] "POST"] →
      SafeMethodsOnly (exchangesCached .minute run) := by
  refine ⟨rfl, rfl, (cache_safe_methods_iff .minute stores_okResponse _).2 fun s hs hactive => ?_⟩
  rcases List.mem_cons.1 hs with rfl | hs
  · exact .inl rfl
  · obtain rfl := List.mem_singleton.1 hs
    cases hactive

/-- The `POST` is answered with what was stored for the `GET`. -/
theorem post_served_stored_get :
    ∃ run : List (CacheExchange .plain),
      run.map (·.state) = [cachedRequest [cacheAll] "GET", cachedRequest [cacheAll] "POST"] ∧
      (∃ x object, (x, .stored object) ∈ (exchangesCached .minute run).2 ∧
        x.state.session.reqHeader.method = "POST" ∧ object.request.method = "GET") ∧
      ¬ SafeMethodsOnly (exchangesCached .minute run) := by
  let get : CacheExchange .plain := ⟨cachedRequest [cacheAll] "GET", fun _ => true, okResponse⟩
  let post : CacheExchange .plain := ⟨cachedRequest [cacheAll] "POST", fun _ => true, okResponse⟩
  have hstored : ∃ object, (post, .stored object) ∈ (exchangesCached .minute [get, post]).2 ∧
      object.request.method = "GET" :=
    ⟨_, List.mem_cons_of_mem _ List.mem_cons_self, rfl⟩
  obtain ⟨object, hmem, hget⟩ := hstored
  refine ⟨[get, post], rfl, ⟨post, object, hmem, rfl, hget⟩, fun h => ?_⟩
  have hsafe : SafeMethod "POST" := h.served post object hmem
  revert hsafe
  simp [SafeMethod]

end Lonesome
