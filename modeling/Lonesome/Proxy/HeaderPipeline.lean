import Lonesome.Proxy.Turns

/-!
# What the middlewares make of the header fields

The middlewares of a route edit the header of the upstream request in `upstream_request_filter`
(`request_headers`) and that of the response in `response_filter` (`cors` and `response_headers`, after
the cache). Each of them has its own fields, so that what arrives in one field is what came in, changed
by the middlewares that name the field, in the order of the list, and by no other: `request_fields` and
`response_fields`. A rule and an expression count as they evaluate at the turn of their middleware; one
without a rule has the last word on its field when no later one names it.
-/

namespace Lonesome

open Lonesome.Lib

variable {X : Externals}

/-! ## Edits -/

/-- A change of the values of one field. -/
inductive FieldEdit where
  | append (v : HeaderValue)
  | set (v : HeaderValue)

namespace FieldEdit

def on : FieldEdit → List HeaderValue → List HeaderValue
  | append v, vs => vs ++ [v]
  | set v, _ => [v]

/-- What a list of edits makes of the values of the field `name`. -/
def onField (name : String) (edits : List (String × FieldEdit)) (vs : List HeaderValue) :
    List HeaderValue :=
  (edits.filter (·.1 == name)).foldl (fun vs e => e.2.on vs) vs

/-- An edit that is not always tried, of a value that may be illegal. -/
def attempt (name : String) (v : Option (Option HeaderValue)) : List (String × Option FieldEdit) :=
  (v.map fun v => (name, v.map set)).toList

def toMap : String × FieldEdit → HeaderMap → HeaderMap
  | (name, append v), headers => headers.append name v
  | (name, set v), headers => headers.insert name v

end FieldEdit

namespace HeaderMap

variable (headers : HeaderMap) {name other : String}

theorem getAll_append_ne (v : HeaderValue) (h : name ≠ other) :
    (headers.append name v).getAll other = headers.getAll other := by
  show ((headers ++ [(name, v)]).filter _).map _ = _
  simp [getAll, h]

theorem getAll_remove_ne (h : name ≠ other) :
    (headers.remove name).getAll other = headers.getAll other := by
  unfold getAll remove
  rw [List.filter_filter]
  congr 1
  refine List.filter_congr fun p _ => ?_
  by_cases hp : p.1 = other
  · simp [hp, h.symm]
  · simp [hp]

theorem getAll_insert_ne (v : HeaderValue) (h : name ≠ other) :
    (headers.insert name v).getAll other = headers.getAll other := by
  rw [insert, getAll_append_ne _ v h, getAll_remove_ne _ h]

end HeaderMap

namespace FieldEdit

/-- An edit of the map is an edit of one field. -/
theorem getAll_toMap (e : String × FieldEdit) (headers : HeaderMap) (name : String) :
    (toMap e headers).getAll name = onField name [e] (headers.getAll name) := by
  obtain ⟨field, e⟩ := e
  by_cases h : field = name
  · subst h
    have hone : onField field [(field, e)] (headers.getAll field) = e.on (headers.getAll field) := by
      simp [onField]
    rw [hone]
    cases e with
    | append v => exact headers.getAll_append field v
    | set v => exact headers.getAll_insert field v
  · have hnone : onField name [(field, e)] (headers.getAll name) = headers.getAll name := by
      simp [onField, h]
    rw [hnone]
    cases e with
    | append v => exact headers.getAll_append_ne v h
    | set v => exact headers.getAll_insert_ne v h

theorem onField_append (name : String) (edits edits' : List (String × FieldEdit))
    (vs : List HeaderValue) :
    onField name (edits ++ edits') vs = onField name edits' (onField name edits vs) := by
  rw [onField, List.filter_append, List.foldl_append]
  rfl

/-- Edits of other fields. -/
theorem onField_of_not_mem {name : String} {attempts : List (String × Option FieldEdit)}
    {edits : List (String × FieldEdit)}
    (hedits : (attempts.mapM fun w => w.2.map (w.1, ·)) = some edits)
    (hname : ∀ w ∈ attempts, w.1 ≠ name) (vs : List HeaderValue) : onField name edits vs = vs := by
  induction attempts generalizing edits with
  | nil =>
    obtain rfl := Option.some.inj hedits
    rfl
  | cons w attempts ih =>
    rw [List.mapM_cons] at hedits
    obtain ⟨e, he, hedits⟩ := Option.bind_eq_some_iff.1 hedits
    obtain ⟨rest, hrest, hedits⟩ := Option.bind_eq_some_iff.1 hedits
    obtain rfl := Option.some.inj hedits
    obtain ⟨edit, -, rfl⟩ := Option.map_eq_some_iff.1 he
    have hw : w.1 ≠ name := hname w List.mem_cons_self
    have hrest := ih hrest fun w' hw' => hname w' (List.mem_cons_of_mem w hw')
    rw [onField, List.filter_cons_of_neg (by simpa using hw)]
    exact hrest

end FieldEdit

/-! ## What a middleware does to a field -/

/-- The value is the configured text, or the string that its expression gives in the state. -/
def HeadersValue.Gives (s : RequestState X) (value : HeadersValue X) (v : HeaderValue) : Prop :=
  ∃ text, HeaderValue.fromStr text = some v ∧
    match value with
    | .value configured => text = configured
    | .expression program => X.execute s.time s.scope program = .ok (.string text)

namespace HeadersMiddleware

variable (s : RequestState X) (m : HeadersMiddleware X)

/-- The field that the middleware is about. -/
def fieldName : String := String.ofList m.name.toAsciiLowercase

/-- What the action makes of the values of the field. -/
def Writes (vs vs' : List HeaderValue) : Prop :=
  match m.action with
  | .append value => ∃ v, value.Gives s v ∧ vs' = vs ++ [v]
  | .set value => ∃ v, value.Gives s v ∧ vs' = [v]
  | .setDefault value => if vs = [] then ∃ v, value.Gives s v ∧ vs' = [v] else vs' = vs
  | .remove => vs' = []

/-- The same, where the rule lets the middleware apply. -/
def OnField (name : String) (vs vs' : List HeaderValue) : Prop :=
  if s.applies m.celProgram ∧ m.fieldName = name then m.Writes (s.ruled m.celProgram) vs vs'
  else vs' = vs

end HeadersMiddleware

namespace CorsMiddleware

variable (m : CorsMiddleware X)

/-- The edits that `apply_headers` tries, in their order. -/
def attempts (σ : Session X.H) : List (String × Option FieldEdit) :=
  let origin := (m.resolveAllowOrigin σ).getD "*".toList
  FieldEdit.attempt "access-control-allow-origin" (some (HeaderValue.fromStr origin)) ++
    (if m.reflectHost then [("vary", (HeaderValue.fromStr "host".toList).map .append)] else []) ++
    FieldEdit.attempt "access-control-allow-methods" (some (HeaderValue.fromStr m.allowMethods)) ++
    FieldEdit.attempt "access-control-allow-headers" (some (HeaderValue.fromStr m.allowHeaders)) ++
    FieldEdit.attempt "access-control-expose-headers" (m.exposeHeaders.map HeaderValue.fromStr) ++
    FieldEdit.attempt "access-control-allow-credentials"
      (if m.allowCredentials then some (HeaderValue.fromStr "true".toList) else none) ++
    FieldEdit.attempt "access-control-max-age"
      (m.maxAgeSecs.map fun secs => HeaderValue.fromStr (toString secs).toList)

/-- There are none when a value is not one of a header. -/
def edits (σ : Session X.H) : Option (List (String × FieldEdit)) :=
  (m.attempts σ).mapM fun w => w.2.map (w.1, ·)

def OnField (s : RequestState X) (name : String) (vs vs' : List HeaderValue) : Prop :=
  if s.applies m.celProgram then
    ∃ edits, m.edits s.session = some edits ∧ vs' = FieldEdit.onField name edits vs
  else vs' = vs

end CorsMiddleware

namespace Middleware

def OnRequestField (s : RequestState X) (name : String) (m : Middleware X) (vs vs' : List HeaderValue) :
    Prop :=
  match m with
  | .requestHeaders m => m.OnField s name vs vs'
  | _ => vs' = vs

def OnResponseField (s : RequestState X) (name : String) (m : Middleware X) (vs vs' : List HeaderValue) :
    Prop :=
  match m with
  | .cors m => m.OnField s name vs vs'
  | .responseHeaders m => m.OnField s name vs vs'
  | _ => vs' = vs

structure EditsResponse (s : RequestState X) (m : Middleware X) (resp resp' : ResponseHeader) : Prop where
  status : resp'.status = resp.status
  fields : ∀ name, m.OnResponseField s name (resp.headers.getAll name) (resp'.headers.getAll name)

end Middleware

/-- A turn of `response_filter`. -/
structure ResponseTurn (m : Middleware X) (p p' : ResponseHeader × RequestState X) : Prop where
  turn : Turn (fun resp m => m.responseFilter resp) m p p'
  edits : m.EditsResponse p.2.met p.1 p'.1

/-! ## request_headers and response_headers -/

section Headers

variable {m : HeadersMiddleware X} {s s' : RequestState X}

theorem gives_of_valueString {middleware : String} {value : HeadersValue X} {text : Str}
    (h : (HeadersMiddleware.valueString middleware value).exec s = (.ok text, s')) {v : HeaderValue}
    (hv : HeaderValue.fromStr text = some v) : value.Gives s v := by
  cases value with
  | value configured =>
    cases h
    exact ⟨_, hv, rfl⟩
  | expression program =>
    rw [HeadersMiddleware.valueString, exec_bind, exec_execute] at h
    dsimp only at h
    split at h
    · cases h
    · next hresult =>
      cases h
      exact ⟨text, hv, hresult⟩
    · cases h

theorem field_eq_ok {name text : Str} {p : String × HeaderValue}
    (h : HeadersMiddleware.field (X := X) name text = .ok p) :
    X.crates.headerName name = some p.1 ∧ HeaderValue.fromStr text = some p.2 := by
  unfold HeadersMiddleware.field at h
  split at h
  · cases h
  · next name' hname =>
    cases hvalue : HeaderValue.fromStr text with
    | none =>
      rw [hvalue] at h
      cases h
    | some v =>
      rw [hvalue] at h
      cases h
      exact ⟨hname, rfl⟩

/-- The value that an action writes, under the name that the crate makes of the configured one. -/
theorem gives_of_write {middleware context : String} {value : HeadersValue X}
    {f : String × HeaderValue → HeaderMap} {headers : HeaderMap}
    (h : (do
        let v ← HeadersMiddleware.valueString middleware value
        let p ← Lonesome.orInternalError X context (HeadersMiddleware.field (X := X) m.name v)
        return f p : ReqM X HeaderMap).exec s = (.ok headers, s')) :
    ∃ name v, X.crates.headerName m.name = some name ∧ value.Gives s v ∧ headers = f (name, v) := by
  obtain ⟨text, s₁, htext, h⟩ := exec_bind_eq_ok_iff.1 h
  obtain ⟨p, s₂, hfield, h⟩ := exec_bind_eq_ok_iff.1 h
  obtain ⟨hname, hvalue⟩ := field_eq_ok (exec_orInternalError_eq_ok hfield).1
  cases h
  exact ⟨p.1, p.2, hname, gives_of_valueString htext hvalue, rfl⟩

/-- `HeaderName` keeps its text in lower case. -/
def LowerCaseNames (X : Externals) : Prop :=
  ∀ text name, X.crates.headerName text = some name → name = String.ofList text.toAsciiLowercase

variable (hnames : LowerCaseNames X)
include hnames

/-- The action is about the values of one field; the others stay as they are. -/
theorem writes_of_apply {middleware : String} {headers headers' : HeaderMap}
    (h : (m.apply middleware headers).exec s = (.ok headers', s')) :
    m.Writes s (headers.getAll m.fieldName) (headers'.getAll m.fieldName) ∧
      ∀ name, m.fieldName ≠ name → headers'.getAll name = headers.getAll name := by
  have hname : ∀ name, X.crates.headerName m.name = some name → name = m.fieldName := hnames m.name
  unfold HeadersMiddleware.apply at h
  unfold HeadersMiddleware.Writes
  cases haction : m.action with
  | append value =>
    rw [haction] at h
    obtain ⟨name, v, hn, hgives, rfl⟩ := gives_of_write h
    obtain rfl := hname name hn
    exact ⟨⟨v, hgives, headers.getAll_append _ v⟩, fun _ h => headers.getAll_append_ne v h⟩
  | set value =>
    rw [haction] at h
    obtain ⟨name, v, hn, hgives, rfl⟩ := gives_of_write h
    obtain rfl := hname name hn
    exact ⟨⟨v, hgives, headers.getAll_insert _ v⟩, fun _ h => headers.getAll_insert_ne v h⟩
  | setDefault value =>
    have habsent : (headers.getStr m.name).isNone = true ↔ headers.getAll m.fieldName = [] := by
      rw [HeaderMap.getStr, HeaderMap.get, Option.isNone_iff_eq_none, List.head?_eq_none_iff]
      rfl
    rw [haction] at h
    dsimp only at h ⊢
    by_cases hfield : headers.getAll m.fieldName = []
    · rw [if_pos (habsent.2 hfield)] at h
      rw [if_pos hfield]
      obtain ⟨name, v, hn, hgives, rfl⟩ := gives_of_write h
      obtain rfl := hname name hn
      exact ⟨⟨v, hgives, headers.getAll_insert _ v⟩, fun _ h => headers.getAll_insert_ne v h⟩
    · rw [if_neg (mt habsent.1 hfield)] at h
      rw [if_neg hfield]
      cases h
      exact ⟨rfl, fun _ _ => rfl⟩
  | remove =>
    rw [haction] at h
    cases h
    exact ⟨headers.getAll_remove _, fun _ h => headers.getAll_remove_ne h⟩

theorem onField_of_filter {middleware : String} {headers headers' : HeaderMap}
    (h : (m.filter middleware headers).exec s = (.ok headers', s')) (name : String) :
    m.OnField s name (headers.getAll name) (headers'.getAll name) := by
  unfold HeadersMiddleware.OnField
  rcases exec_whenApplies_eq_ok h with ⟨hskipped, rfl, -⟩ | ⟨happlies, happly⟩
  · rw [hskipped, if_neg fun hboth => Bool.false_ne_true hboth.1]
  · obtain ⟨hwrites, hothers⟩ := writes_of_apply hnames happly
    by_cases hname : m.fieldName = name
    · subst hname
      rw [if_pos ⟨happlies, rfl⟩]
      exact hwrites
    · rw [if_neg fun hboth => hname hboth.2]
      exact hothers name hname

end Headers

/-! ## cors -/

section Cors

variable {s s' : RequestState X}

/-- The edits that were tried have all been made. -/
def Performed (attempts : List (String × Option FieldEdit)) (resp resp' : ResponseHeader) : Prop :=
  ∃ edits, (attempts.mapM fun w => w.2.map (w.1, ·)) = some edits ∧ resp'.status = resp.status ∧
    ∀ name, resp'.headers.getAll name = FieldEdit.onField name edits (resp.headers.getAll name)

namespace Performed

theorem nil (resp : ResponseHeader) : Performed [] resp resp :=
  ⟨[], rfl, rfl, fun _ => rfl⟩

theorem one (name : String) (e : FieldEdit) (resp : ResponseHeader) :
    Performed [(name, some e)] resp
      { resp with headers := FieldEdit.toMap (name, e) resp.headers } :=
  ⟨[(name, e)], rfl, rfl, fun _ => FieldEdit.getAll_toMap _ _ _⟩

theorem append {attempts attempts' : List (String × Option FieldEdit)}
    {resp resp' resp'' : ResponseHeader} (h : Performed attempts resp resp')
    (h' : Performed attempts' resp' resp'') : Performed (attempts ++ attempts') resp resp'' := by
  obtain ⟨edits, hedits, hstatus, hfields⟩ := h
  obtain ⟨edits', hedits', hstatus', hfields'⟩ := h'
  refine ⟨edits ++ edits', ?_, hstatus'.trans hstatus, fun name => ?_⟩
  · rw [List.mapM_append, hedits, hedits']
    rfl
  · rw [hfields', hfields, FieldEdit.onField_append]

end Performed

theorem performed_of_insertField {context name : String} {v : Option HeaderValue}
    {resp resp' : ResponseHeader} (h : (insertField X context name v resp).exec s = (.ok resp', s')) :
    Performed (FieldEdit.attempt name (some v)) resp resp' := by
  have hinsert := (exec_orInternalError_eq_ok h).1
  cases v with
  | none => cases hinsert
  | some v =>
    obtain rfl := Except.ok.inj hinsert
    exact .one name (.set v) resp

theorem performed_of_insertFieldIf {context name : String} {v : Option (Option HeaderValue)}
    {resp resp' : ResponseHeader} (h : (insertFieldIf X context name v resp).exec s = (.ok resp', s')) :
    Performed (FieldEdit.attempt name v) resp resp' := by
  cases v with
  | none =>
    cases h
    exact .nil resp
  | some v => exact performed_of_insertField h

theorem performed_of_appendVary {m : CorsMiddleware X} {resp resp' : ResponseHeader}
    (h : (m.appendVary resp).exec s = (.ok resp', s')) :
    Performed (if m.reflectHost then [("vary", (HeaderValue.fromStr "host".toList).map .append)]
      else []) resp resp' := by
  unfold CorsMiddleware.appendVary at h
  split at h
  · next hreflect =>
    obtain rfl := Except.ok.inj (exec_orInternalError_eq_ok h).1
    rw [if_pos hreflect]
    exact .one "vary" (.append _) resp
  · next hreflect =>
    cases h
    rw [if_neg hreflect]
    exact .nil resp

theorem performed_of_applyHeaders {m : CorsMiddleware X} {σ : Session X.H} {resp resp' : ResponseHeader}
    (h : (m.applyHeaders σ resp).exec s = (.ok resp', s')) : Performed (m.attempts σ) resp resp' := by
  obtain ⟨resp₁, s₁, horigin, h⟩ := exec_bind_eq_ok_iff.1 h
  obtain ⟨resp₂, s₂, hvary, h⟩ := exec_bind_eq_ok_iff.1 h
  obtain ⟨resp₃, s₃, hmethods, h⟩ := exec_bind_eq_ok_iff.1 h
  obtain ⟨resp₄, s₄, hheaders, h⟩ := exec_bind_eq_ok_iff.1 h
  obtain ⟨resp₅, s₅, hexpose, h⟩ := exec_bind_eq_ok_iff.1 h
  obtain ⟨resp₆, s₆, hcredentials, hage⟩ := exec_bind_eq_ok_iff.1 h
  have hfirst := (performed_of_insertField horigin).append (performed_of_appendVary hvary)
  have hlists := (hfirst.append (performed_of_insertField hmethods)).append
    (performed_of_insertField hheaders)
  have hexposed := hlists.append (performed_of_insertFieldIf hexpose)
  exact (hexposed.append (performed_of_insertFieldIf hcredentials)).append
    (performed_of_insertFieldIf hage)

theorem edits_of_cors {m : CorsMiddleware X} {resp resp' : ResponseHeader}
    (h : (m.responseFilter resp).exec s = (.ok resp', s')) :
    (Middleware.cors m).EditsResponse s resp resp' := by
  rcases exec_whenApplies_eq_ok h with ⟨hskipped, rfl, -⟩ | ⟨happlies, hbody⟩
  · refine ⟨rfl, fun name => ?_⟩
    show CorsMiddleware.OnField m s name _ _
    rw [CorsMiddleware.OnField, hskipped, if_neg Bool.false_ne_true]
  · have hheaders : (m.applyHeaders (s.ruled m.celProgram).session resp).exec (s.ruled m.celProgram) =
        (.ok resp', s') := hbody
    rw [s.session_ruled] at hheaders
    obtain ⟨edits, hedits, hstatus, hfields⟩ := performed_of_applyHeaders hheaders
    refine ⟨hstatus, fun name => ?_⟩
    show CorsMiddleware.OnField m s name _ _
    rw [CorsMiddleware.OnField, if_pos happlies]
    exact ⟨edits, hedits, hfields name⟩

end Cors

/-! ## The whole list -/

section Turns

variable {s s' : RequestState X}

theorem edits_of_responseFilter (hnames : LowerCaseNames X) {m : Middleware X}
    {resp resp' : ResponseHeader} (h : (m.responseFilter resp).exec s = (.ok resp', s')) :
    m.EditsResponse s resp resp' := by
  cases m with
  | cors m => exact edits_of_cors h
  | responseHeaders m =>
    obtain ⟨headers, s₁, hfilter, h⟩ := exec_bind_eq_ok_iff.1 h
    cases h
    exact ⟨rfl, onField_of_filter hnames hfilter⟩
  | setVariable m =>
    obtain ⟨_, _, _, h⟩ := exec_bind_eq_ok_iff.1 h
    cases h
    exact ⟨rfl, fun _ => rfl⟩
  | _ =>
    cases h
    exact ⟨rfl, fun _ => rfl⟩

/-- The cache tells in a field of its own how it served the response. -/
def OnCacheField (s : RequestState X) (name : String) (vs vs' : List HeaderValue) : Prop :=
  if s.ctx.cacheHandler.any (·.injectCacheHeaders) ∧ name = "cdn-cache-status" then
    ∃ v, HeaderValue.fromStr (X.cachePhase s.time).status = some v ∧ vs' = [v]
  else vs' = vs

/-- What a handler that injects its field leaves of the header. -/
theorem onCacheField_of_performed {cache : CacheHandler} {resp resp' : ResponseHeader}
    (hcache : s.ctx.cacheHandler = some cache) (hinject : cache.injectCacheHeaders = true)
    (h : Performed (FieldEdit.attempt "cdn-cache-status"
      (some (HeaderValue.fromStr (X.cachePhase s.time).status))) resp resp') (name : String) :
    OnCacheField s name (resp.headers.getAll name) (resp'.headers.getAll name) := by
  obtain ⟨edits, hedits, -, hfields⟩ := h
  rw [hfields, OnCacheField, hcache]
  split
  · next hboth =>
    obtain ⟨-, rfl⟩ := hboth
    cases hphase : HeaderValue.fromStr (X.cachePhase s.time).status with
    | none =>
      rw [hphase] at hedits
      cases hedits
    | some v =>
      rw [hphase] at hedits
      obtain rfl := Option.some.inj hedits
      exact ⟨v, rfl, rfl⟩
  · next hother =>
    refine FieldEdit.onField_of_not_mem hedits (fun w hw heq => hother ⟨hinject, ?_⟩) _
    obtain rfl := List.mem_singleton.1 hw
    exact heq.symm

theorem edits_of_cacheResponseFilter {resp resp' : ResponseHeader}
    (h : (LonesomeProxy.cacheResponseFilter X resp).exec s = (.ok resp', s')) :
    resp'.status = resp.status ∧ s'.ctx.currentRoute = s.ctx.currentRoute ∧
      ∀ name, OnCacheField s name (resp.headers.getAll name) (resp'.headers.getAll name) := by
  have hnone (hinject : ¬ s.ctx.cacheHandler.any (·.injectCacheHeaders) = true) (name : String) :
      OnCacheField s name (resp.headers.getAll name) (resp.headers.getAll name) := by
    rw [OnCacheField, if_neg fun hboth => hinject hboth.1]
  rw [LonesomeProxy.cacheResponseFilter, exec_bind, exec_get] at h
  dsimp only at h
  split at h
  · next cache hcache =>
    unfold CacheHandler.responseFilter at h
    split at h
    · next hinject =>
      obtain ⟨t, s₁, htick, h⟩ := exec_bind_eq_ok_iff.1 h
      cases htick
      have hperformed : Performed (FieldEdit.attempt "cdn-cache-status"
          (some (HeaderValue.fromStr (X.cachePhase s.time).status))) resp resp' := performed_of_insertField h
      have hroute : s'.ctx.currentRoute = s.ctx.currentRoute := by
        rw [(exec_orInternalError_eq_ok h).2]
      refine ⟨?_, hroute, onCacheField_of_performed hcache hinject hperformed⟩
      obtain ⟨_, -, hstatus, -⟩ := hperformed
      exact hstatus
    · next hinject =>
      cases h
      refine ⟨rfl, rfl, hnone ?_⟩
      rw [hcache]
      exact hinject
  · next hcache =>
    cases h
    refine ⟨rfl, rfl, hnone ?_⟩
    rw [hcache]
    exact Bool.false_ne_true

end Turns

/-! ## The last word -/

namespace Middleware

def NamesRequestField (name : String) : Middleware X → Prop
  | .requestHeaders m => m.fieldName = name
  | _ => False

def NamesResponseField (name : String) : Middleware X → Prop
  | .cors m => ∃ σ, ∃ w ∈ m.attempts σ, w.1 = name
  | .responseHeaders m => m.fieldName = name
  | _ => False

end Middleware

section LastWord

variable {s : RequestState X} {name : String} {vs vs' : List HeaderValue}

theorem HeadersMiddleware.OnField.unchanged {m : HeadersMiddleware X} (h : m.OnField s name vs vs')
    (hname : m.fieldName ≠ name) : vs' = vs := by
  rwa [HeadersMiddleware.OnField, if_neg fun hboth => hname hboth.2] at h

/-- Without a rule the middleware writes its field. -/
theorem HeadersMiddleware.OnField.writes {m : HeadersMiddleware X} (h : m.OnField s m.fieldName vs vs')
    (hrule : m.celProgram = none) : m.Writes s vs vs' := by
  rwa [HeadersMiddleware.OnField, hrule, if_pos ⟨rfl, rfl⟩] at h

theorem Middleware.OnRequestField.unchanged {m : Middleware X} (h : m.OnRequestField s name vs vs')
    (hname : ¬ m.NamesRequestField name) : vs' = vs := by
  cases m with
  | requestHeaders m => exact HeadersMiddleware.OnField.unchanged h hname
  | _ => exact h

theorem Middleware.OnResponseField.unchanged {m : Middleware X} (h : m.OnResponseField s name vs vs')
    (hname : ¬ m.NamesResponseField name) : vs' = vs := by
  cases m with
  | cors m =>
    change CorsMiddleware.OnField m s name vs vs' at h
    unfold CorsMiddleware.OnField at h
    split at h
    · obtain ⟨edits, hedits, rfl⟩ := h
      exact FieldEdit.onField_of_not_mem hedits (fun w hw heq => hname ⟨s.session, w, hw, heq⟩) vs
    · exact h
  | responseHeaders m => exact HeadersMiddleware.OnField.unchanged h hname
  | _ => exact h

end LastWord

/-- **The header that the downstream receives.** The same for `response_filter`: the cache first, then
the `cors` and the `response_headers` of the route. The status stays as it is. -/
theorem response_fields (hnames : LowerCaseNames X) {s s' : RequestState X} {route : Route X}
    (hroute : s.ctx.currentRoute = some route) {resp resp' : ResponseHeader}
    (h : (LonesomeProxy.responseFilter X resp).exec s = (.ok resp', s')) :
    resp'.status = resp.status ∧
    ∃ cached s₁, (LonesomeProxy.cacheResponseFilter X resp).exec s = (.ok cached, s₁) ∧
      (∀ name, OnCacheField s name (resp.headers.getAll name) (cached.headers.getAll name)) ∧
      Through ResponseTurn route.content.middlewares (cached, s₁) (resp', s') ∧
      ∀ before m after, route.content.middlewares = before ++ .responseHeaders m :: after →
        m.celProgram = none → (∀ m' ∈ after, ¬ m'.NamesResponseField m.fieldName) →
        ∃ resp₁ s₂, Through ResponseTurn before (cached, s₁) (resp₁, s₂) ∧
          m.Writes s₂.met (resp₁.headers.getAll m.fieldName) (resp'.headers.getAll m.fieldName) := by
  obtain ⟨cached, s₁, hcache, hloop⟩ := exec_bind_eq_ok_iff.1 h
  obtain ⟨hstatus, hsame, hcached⟩ := edits_of_cacheResponseFilter hcache
  have hthrough : Through ResponseTurn route.content.middlewares (cached, s₁) (resp', s') :=
    ((exec_throughMiddlewares_eq_ok_iff (hsame.trans hroute)).1 hloop).map (g := id)
      fun m _ _ hm => ⟨hm, edits_of_responseFilter hnames hm⟩
  have hkept := hthrough.unchanged (g := fun p => p.1.status) fun _ _ _ _ hm => hm.edits.status
  refine ⟨hkept.trans hstatus, cached, s₁, hcache, hcached, hthrough, ?_⟩
  intro before m after hlist hrule hafter
  rw [hlist] at hthrough
  obtain ⟨p₁, p₂, hbefore, hm, hlast⟩ := hthrough.last (g := fun p => p.1.headers.getAll m.fieldName)
    (fun _ _ _ hm => (hm.edits.fields m.fieldName).unchanged) hafter
  refine ⟨p₁.1, p₁.2, hbefore, ?_⟩
  rw [show resp'.headers.getAll m.fieldName = _ from hlast]
  exact HeadersMiddleware.OnField.writes (hm.edits.fields m.fieldName) hrule

/-! A route that hides a field of both headers, behind one that is set only if it is absent. -/

def hidingRoute : Route Externals.plain where
  id := "route"
  priority := 0
  matcher := .fromCel (.boolean true)
  content := {
    middlewares := [
      .requestHeaders ⟨"X-Secret".toList, .remove, none⟩,
      .responseHeaders ⟨"Server".toList, .remove, none⟩,
      .requestHeaders ⟨"X-Id".toList, .setDefault (.value "1".toList), none⟩,
      .cors ⟨"*".toList, "GET".toList, "*".toList, none, true, none, false, none⟩]
    upstreamPool := ⟨[()], none, 8⟩
    hashKeyProgram := none }

/-- A request for which the route has been selected. -/
def hidingState : RequestState Externals.plain :=
  let s := RequestState.plain ⟨[]⟩
  { s with ctx := { s.ctx with currentRoute := some hidingRoute } }

def servedResponse : ResponseHeader where
  status := 200
  headers := [("server", .ofAscii "x".toList)]

theorem lowerCaseNames_plain : LowerCaseNames Externals.plain :=
  fun _ _ h => (Option.some.inj h).symm

theorem response_fields_servedResponse :
    ∃ resp' s', (LonesomeProxy.responseFilter Externals.plain servedResponse).exec hidingState =
        (.ok resp', s') ∧ resp'.headers.getAll "server" = [] ∧ resp'.status = 200 := by
  obtain ⟨resp', s', h⟩ : ∃ resp' s',
      (LonesomeProxy.responseFilter Externals.plain servedResponse).exec hidingState =
        (.ok resp', s') := ⟨_, _, rfl⟩
  have hroute : hidingState.ctx.currentRoute = some hidingRoute := rfl
  obtain ⟨hstatus, cached, s₁, -, -, -, hlast⟩ := response_fields lowerCaseNames_plain hroute h
  obtain ⟨resp₁, s₂, -, hwrites⟩ := hlast [_] ⟨"Server".toList, .remove, none⟩ _ rfl rfl (by
    simp only [List.forall_mem_cons]
    refine ⟨id, ?_, fun _ hm => (nomatch hm)⟩
    rintro ⟨σ, w, hw, heq⟩
    have hlisted : w.1 ∈ ["access-control-allow-origin", "access-control-allow-methods",
      "access-control-allow-headers", "access-control-allow-credentials"] := List.mem_map_of_mem hw
    rw [heq] at hlisted
    revert hlisted
    decide)
  exact ⟨resp', s', h, hwrites, hstatus⟩

end Lonesome
