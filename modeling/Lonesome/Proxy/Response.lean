import Lonesome.Proxy.Ctx

/-!
# Generated responses

`src/proxy/response.rs`: an error status without a body of its own is served by an error page of
the store, if one applies. The lookup tries the entries of a snapshot in order; it writes the status
into the session first, so that matchers and body expressions can ask for it.

`errorPageStore_semantics` puts the lookup on top of what the store holds after a history of calls.
-/

namespace Lonesome

open Lonesome.Lib
open Lonesome.ErrorPages (ErrorPageEntry)

variable (X : Externals)

/-! ## Error pages -/

/-- A rendered error page. -/
structure RenderedErrorPage where
  status : Nat
  headers : List (String × HeaderValue)
  contentType : Option Str
  body : Str
  deriving DecidableEq

/-- The entry is for any status, or names this one. -/
def statusApplies (status : Nat) (entry : ErrorPageEntry X.Program) : Bool :=
  entry.statuses.isEmpty || entry.statuses.contains status

/-- The loop of `lookup_error_page`. -/
def lookupEntries (status : Nat) :
    List (ErrorPageEntry X.Program) → ReqM X (Option (ErrorPageEntry X.Program))
  | [] => pure none
  | entry :: rest => do
    if !statusApplies X status entry then
      lookupEntries status rest
    else
      match entry.matcher with
      | none => return some entry
      | some matcher =>
        match ← executeIn X true matcher with
        | .ok (.bool true) => return some entry
        | _ => lookupEntries status rest

def lookupErrorPage (status : Nat) : ReqM X (Option (ErrorPageEntry X.Program)) := do
  let c ← ensureSessionCelContext X
  setCelContext X (c.setErrorStatus (some status))
  let s ← get
  lookupEntries X status s.shared.errorPages.snapshot

/-- The static body, or the text of the body expression, empty when it has none. -/
def renderErrorPageBody (page : ErrorPageEntry X.Program) : ReqM X Str := do
  match page.bodyProgram with
  | some program =>
    match ← executeIn X true program with
    | .ok v => return v.scalarText.getD []
    | .error _ => return []
  | none => return page.body.getD []

def renderErrorPage (status : Nat) :
    Option (ErrorPageEntry X.Program) → ReqM X (Option RenderedErrorPage)
  | none => pure none
  | some entry => do
    let body ← renderErrorPageBody X entry
    return some {
      status := entry.statusOverride.getD status
      headers := entry.headers
      contentType := some (entry.contentType.getD "text/html; charset=utf-8".toList)
      body }

def resolveErrorPage (status : Nat) : ReqM X (Option RenderedErrorPage) := do
  record X (.resolve status)
  let entry ← lookupErrorPage X status
  renderErrorPage X status entry

/-! ## Writing -/

/-- The header fields of a response, one after the other. -/
def insertHeaders (context : String) (resp : ResponseHeader)
    (headers : List (String × Option HeaderValue)) : ReqM X ResponseHeader :=
  headers.foldlM (fun resp h => orInternalError X context (resp.insertHeader h.1 h.2)) resp

/-- The length of a body, as the value of a field. -/
def contentLength (body : Str) : Str :=
  (toString (HeaderValue.utf8Bytes body).length).toList

/-- What is written: the explicit body, else an error page for an error status, else nothing. -/
def responseContent (status : Nat) (explicitBody contentType : Option Str) :
    ReqM X RenderedErrorPage := do
  match explicitBody with
  | some body => return { status, headers := [], contentType, body }
  | none =>
    if status ≥ 400 then
      match ← resolveErrorPage X status with
      | some page => return page
      | none => return { status, headers := [], contentType, body := [] }
    else return { status, headers := [], contentType, body := [] }

def insertContentType (content : RenderedErrorPage) (resp : ResponseHeader) : ReqM X ResponseHeader :=
  if content.body.isEmpty then pure resp
  else orInternalError X "insert content-type failed" (resp.insertHeader "content-type"
    (HeaderValue.fromStr (content.contentType.getD "text/plain; charset=utf-8".toList)))

/-- Generated error responses announce `Connection: close`. -/
def closeAfter (status : Nat) : ReqM X Unit :=
  if status ≥ 400 then disableKeepalive X else pure ()

/-- Writes a response that the proxy or a middleware generated. -/
def writeResponse (status : Nat) (headers : List (String × Str))
    (explicitBody contentType : Option Str) : ReqM X Unit := do
  closeAfter X status
  let content ← responseContent X status explicitBody contentType
  let resp ← orInternalError X "build generated response failed" (ResponseHeader.build content.status)
  let resp ← insertHeaders X "insert error page header failed" resp
    (content.headers.map fun h => (h.1, some h.2))
  let resp ← insertHeaders X "insert response header failed" resp
    (headers.map fun h => (h.1, HeaderValue.fromStr h.2))
  let resp ← insertContentType X content resp
  let resp ← orInternalError X "insert content-length failed"
    (resp.insertHeader "content-length" (HeaderValue.fromStr (contentLength content.body)))
  mapInternalError X "write generated response failed" (writeResponseHeader X resp)
  if content.body.isEmpty then return ()
  else mapInternalError X "write generated response body failed" (writeResponseBody X content.body)

/-! ## Invariants of requests -/

section

variable {X} {I : RequestState X → Prop}

theorem keeps_orInternalError {α : Type} (context : String) (result : Except String α) :
    Keeps I (orInternalError X context result) := by
  cases result with
  | ok a => exact keeps_pure a
  | error e => exact keeps_throw _

theorem keeps_mapInternalError {α : Type} (context : String) {m : ReqM X α} (h : Keeps I m) :
    Keeps I (mapInternalError X context m) :=
  h.tryCatch fun _ => keeps_throw _

theorem keeps_insertHeaders (context : String) (resp : ResponseHeader)
    (headers : List (String × Option HeaderValue)) :
    Keeps I (insertHeaders X context resp headers) :=
  .foldlM headers (fun _ _ _ => keeps_orInternalError context _) resp

end

/-- The change leaves the request of the session. -/
def KeepsRequest {H : HttpCrate} (f : Session H → Session H) : Prop :=
  ∀ s, (f s).reqHeader = s.reqHeader

/-- The change leaves the header fields of the request. -/
def KeepsFields {H : HttpCrate} (f : Session H → Session H) : Prop :=
  ∀ s, (f s).reqHeader.headers = s.reqHeader.headers

/-- An invariant that the steps of writing a response keep. -/
structure Answers (I : RequestState X → Prop) : Prop where
  tick : Keeps I (tick X)
  modifySession : ∀ f, KeepsRequest f → Keeps I (modifySession X f)
  resolves : ∀ status, 400 ≤ status → Keeps I (resolveErrorPage X status)

theorem keeps_responseContent {X} {I : RequestState X → Prop}
    (hresolves : ∀ status, 400 ≤ status → Keeps I (resolveErrorPage X status)) (status : Nat)
    (explicitBody contentType : Option Str) :
    Keeps I (responseContent X status explicitBody contentType) := by
  cases explicitBody with
  | some body => exact keeps_pure _
  | none =>
    refine .ite (fun hstatus => .bind (hresolves status hstatus) fun page => ?_) fun _ => keeps_pure _
    cases page with
    | some page => exact keeps_pure page
    | none => exact keeps_pure _

namespace Answers

variable {X} {I : RequestState X → Prop} (hI : Answers X I)
include hI

theorem write {f : Session X.H → Session X.H} (hf : KeepsRequest f) : Keeps I (write X f) := by
  refine .bind hI.tick fun t => ?_
  split
  · exact keeps_throw _
  · exact hI.modifySession f hf

theorem writeResponse (status : Nat) (headers : List (String × Str))
    (explicitBody contentType : Option Str) :
    Keeps I (writeResponse X status headers explicitBody contentType) := by
  refine .bind (.ite (fun _ => hI.modifySession _ fun _ => rfl) fun _ => keeps_pure ()) fun _ => ?_
  refine .bind (keeps_responseContent hI.resolves status explicitBody contentType) fun content => ?_
  refine .bind (keeps_orInternalError _ _) fun resp => .bind (keeps_insertHeaders _ _ _) fun resp => ?_
  refine .bind (keeps_insertHeaders _ _ _) fun resp => .bind ?_ fun resp => ?_
  · exact .ite (fun _ => keeps_pure resp) fun _ => keeps_orInternalError _ _
  · refine .bind (keeps_orInternalError _ _) fun resp => ?_
    refine .bind (keeps_mapInternalError _ (hI.write fun _ => rfl)) fun _ => ?_
    exact .ite (fun _ => keeps_pure ()) fun _ => keeps_mapInternalError _ (hI.write fun _ => rfl)

end Answers

section Resolve

variable {X} {I : RequestState X → Prop}

/-- The state in which the lookup of an error page begins. -/
def RequestState.beginResolve (s : RequestState X) (status : Nat) : RequestState X :=
  { s.setScope (s.scope.setErrorStatus (some status)) with history := s.history ++ [.resolve status] }

theorem keeps_lookupEntries (heval : ∀ program, Keeps I (executeIn X true program)) (status : Nat)
    (entries : List (ErrorPageEntry X.Program)) : Keeps I (lookupEntries X status entries) := by
  induction entries with
  | nil => exact keeps_pure none
  | cons entry rest ih =>
    refine .ite (fun _ => ih) fun _ => ?_
    split
    · exact keeps_pure _
    · next matcher _ =>
      refine .bind (heval matcher) fun result => ?_
      split
      · exact keeps_pure _
      · exact ih

theorem keeps_renderErrorPageBody (heval : ∀ program, Keeps I (executeIn X true program))
    (page : ErrorPageEntry X.Program) : Keeps I (renderErrorPageBody X page) := by
  unfold renderErrorPageBody
  split
  · next program _ =>
    refine .bind (heval program) fun result => ?_
    split <;> exact keeps_pure _
  · exact keeps_pure _

theorem exec_resolveErrorPage (s : RequestState X) (status : Nat) :
    (resolveErrorPage X status).exec s =
      (lookupEntries X status s.shared.errorPages.snapshot >>= renderErrorPage X status).exec
        (s.beginResolve status) := by
  unfold resolveErrorPage lookupErrorPage
  rw [exec_bind, record, exec_modify]
  dsimp only
  rw [bind_assoc, exec_bind, exec_ensureSessionCelContext]
  rfl

/-- After its begin, `resolve_error_page` only evaluates. -/
theorem resolveErrorPage_induct (heval : ∀ program, Keeps I (executeIn X true program)) (status : Nat)
    {s : RequestState X} (h : I (s.beginResolve status)) :
    I ((resolveErrorPage X status).exec s).2 := by
  rw [exec_resolveErrorPage]
  refine Keeps.bind (keeps_lookupEntries heval status _) (fun entry => ?_) _ h
  cases entry with
  | none => exact keeps_pure none
  | some entry => exact .bind (keeps_renderErrorPageBody heval entry) fun body => keeps_pure _

end Resolve

/-! ### What a hook may write -/

/-- An invariant that a hook keeps when it evaluates expressions, writes variables with `Writable` names
and looks up error pages, and otherwise writes only what the requests share. -/
structure Evaluates (Writable : Str → Prop) (I : RequestState X → Prop) : Prop where
  tick : Keeps I (tick X)
  modifyShared : ∀ f, Keeps I (modifyShared X f)
  ensureSessionCelContext : Keeps I (ensureSessionCelContext X)
  executeIn : ∀ inside program, Keeps I (executeIn X inside program)
  addVariable : ∀ name, Writable name → ∀ v, Keeps I (addVariable X name v)
  setsHeader : ∀ h, Keeps I (modifyCtx X fun ctx =>
    { ctx with sessionCelContext := ctx.sessionCelContext.map (·.setUpstreamResHeader h) })
  resolves : ∀ status, 400 ≤ status → Keeps I (resolveErrorPage X status)

namespace Evaluates

variable {X} {Writable : Str → Prop} {I : RequestState X → Prop} (hI : Evaluates X Writable I)
include hI

theorem interleave : Keeps I (interleave X) :=
  .bind hI.tick fun t => hI.modifyShared (X.others t)

theorem execute (program : X.Program) : Keeps I (execute X program) :=
  hI.executeIn false program

theorem shouldApply (program : Option X.Program) : Keeps I (shouldApply X program) := by
  cases program with
  | none => exact keeps_pure true
  | some program =>
    refine .bind (hI.execute program) fun result => ?_
    split <;> exact keeps_pure _

/-- A filter that does nothing unless its rule applies. -/
theorem whenApplies {α : Type} (program : Option X.Program) {body : ReqM X α} (hbody : Keeps I body)
    (a : α) : Keeps I (do if ← Lonesome.shouldApply X program then body else return a) :=
  .bind (hI.shouldApply program) fun _ => .ite (fun _ => hbody) fun _ => keeps_pure a

end Evaluates

/-- An invariant that a hook keeps when it answers the request, too: it writes to the session, but for
the request. -/
structure Responds (Writable : Str → Prop) (I : RequestState X → Prop) : Prop
    extends Evaluates X Writable I where
  modifySession : ∀ f, KeepsRequest f → Keeps I (modifySession X f)

namespace Responds

variable {X} {Writable : Str → Prop} {I : RequestState X → Prop} (hI : Responds X Writable I)
include hI

theorem answers : Answers X I where
  tick := hI.tick
  modifySession := hI.modifySession
  resolves := hI.resolves

/-- The end of a filter that answers by `write_response`. -/
theorem answer (context : String) (status : Nat) (headers : List (String × Str))
    (explicitBody contentType : Option Str) :
    Keeps I (do
      mapInternalError X context (writeResponse X status headers explicitBody contentType)
      return true) :=
  .bind (keeps_mapInternalError _ (hI.answers.writeResponse _ _ _ _)) fun _ => keeps_pure true

theorem writeHead (context : String) (resp : ResponseHeader) :
    Keeps I (mapInternalError X context (writeResponseHeader X resp)) :=
  keeps_mapInternalError context (hI.answers.write fun _ => rfl)

theorem writeBody (context : String) (body : Str) :
    Keeps I (mapInternalError X context (writeResponseBody X body)) :=
  keeps_mapInternalError context (hI.answers.write fun _ => rfl)

end Responds

/-! ### Invariants of all hooks -/

/-- The later state agrees with the earlier one on what an invariant of requests may read. -/
structure Agree (s s' : RequestState X) : Prop where
  scope : s'.ctx.sessionCelContext = s.ctx.sessionCelContext
  route : s'.ctx.currentRoute = s.ctx.currentRoute
  bodyOverride : s'.ctx.responseBodyOverride = s.ctx.responseBodyOverride
  fields : s'.session.reqHeader.headers = s.session.reqHeader.headers
  time : s.time ≤ s'.time
  history : s'.history = s.history

/-- An invariant that the steps of all hooks keep: evaluations, and writes to the scope, those of
variables with `Writable` names only. Two steps of single middlewares are not among them, the JWT
payload and the override of the response body. -/
structure Routine (Writable : Str → Prop) (I : RequestState X → Prop) : Prop where
  frame : ∀ s s', Agree X s s' → I s → I s'
  makesScope : ∀ s, I s → I (s.setScope s.scope)
  evaluates : ∀ s inside, I s → I { s with history := s.history ++ [.eval inside s.scope] }
  addsVariable : ∀ s name v, Writable name → I s → I (s.setScope (s.scope.addVariable name v))
  setsHeader : ∀ s h, I s → I (s.setScope (s.scope.setUpstreamResHeader h))
  begins : ∀ s status, 400 ≤ status → I s → I (s.beginResolve status)

namespace Routine

variable {X} {Writable : Str → Prop} {I : RequestState X → Prop} (hI : Routine X Writable I)
include hI

theorem modifyCtx {f : ProxyCtx X → ProxyCtx X}
    (hscope : ∀ ctx, (f ctx).sessionCelContext = ctx.sessionCelContext)
    (hroute : ∀ ctx, (f ctx).currentRoute = ctx.currentRoute)
    (hbody : ∀ ctx, (f ctx).responseBodyOverride = ctx.responseBodyOverride) :
    Keeps I (modifyCtx X f) :=
  keeps_modify fun s => hI.frame s _ ⟨hscope s.ctx, hroute s.ctx, hbody s.ctx, rfl, le_rfl, rfl⟩

theorem modifySession {f : Session X.H → Session X.H} (hf : KeepsFields f) :
    Keeps I (modifySession X f) :=
  keeps_modify fun s => hI.frame s _ ⟨rfl, rfl, rfl, hf s.session, le_rfl, rfl⟩

theorem executeIn (inside : Bool) (program : X.Program) : Keeps I (executeIn X inside program) := by
  intro s h
  rw [exec_executeIn]
  exact hI.frame { s.setScope s.scope with history := _ } _ ⟨rfl, rfl, rfl, rfl, Nat.le_succ s.time, rfl⟩
    (hI.evaluates _ inside (hI.makesScope s h))

theorem addVariable {name : Str} (hname : Writable name) (v : CelValue) :
    Keeps I (addVariable X name v) := by
  intro s h
  rw [Lonesome.addVariable, exec_bind, exec_ensureSessionCelContext]
  exact hI.addsVariable s name v hname h

/-- A scope that is not there yet gets no header. -/
theorem setUpstreamResHeader (resp : Option ResponseHeader) :
    Keeps I (Lonesome.modifyCtx X fun ctx =>
      { ctx with sessionCelContext := ctx.sessionCelContext.map (·.setUpstreamResHeader resp) }) := by
  refine keeps_modify fun s h => ?_
  cases hscope : s.ctx.sessionCelContext with
  | none =>
    refine hI.frame s _ ⟨?_, rfl, rfl, rfl, le_rfl, rfl⟩ h
    show s.ctx.sessionCelContext.map _ = s.ctx.sessionCelContext
    rw [hscope]
    rfl
  | some c =>
    refine hI.frame (s.setScope (s.scope.setUpstreamResHeader resp)) _ ⟨?_, rfl, rfl, rfl, le_rfl, rfl⟩
      (hI.setsHeader s resp h)
    show s.ctx.sessionCelContext.map _ = some (s.scope.setUpstreamResHeader resp)
    rw [RequestState.scope_eq hscope, hscope]
    rfl

theorem responds : Responds X Writable I where
  tick := fun s => hI.frame s _ ⟨rfl, rfl, rfl, rfl, Nat.le_succ s.time, rfl⟩
  modifyShared := fun _ => keeps_modify fun s => hI.frame s _ ⟨rfl, rfl, rfl, rfl, le_rfl, rfl⟩
  ensureSessionCelContext := fun s h => by
    rw [exec_ensureSessionCelContext]
    exact hI.makesScope s h
  executeIn := hI.executeIn
  addVariable := fun _ => hI.addVariable
  setsHeader := hI.setUpstreamResHeader
  resolves := fun status hstatus s h =>
    resolveErrorPage_induct (hI.executeIn true) status (hI.begins s status hstatus h)
  modifySession := fun _ hf => hI.modifySession fun s => congrArg (·.headers) (hf s)

end Routine

/-- An invariant of requests with a scope, which only the steps below could break: evaluations, and
writes to the scope, those of variables with `Writable` names only. -/
structure Steady (Writable : Str → Prop) (I : RequestState X → Prop) : Prop where
  hasScope : ∀ s, I s → s.ctx.sessionCelContext = some s.scope
  frame : ∀ s s', s'.ctx.sessionCelContext = s.ctx.sessionCelContext →
    s'.ctx.currentRoute = s.ctx.currentRoute → s'.history = s.history → I s → I s'
  evaluates : ∀ s inside, I s → I { s with history := s.history ++ [.eval inside s.scope] }
  addsVariable : ∀ s name v, Writable name → I s → I (s.setScope (s.scope.addVariable name v))
  setsPayload : ∀ s p, I s → I (s.setScope (s.scope.setJwtPayload p))
  setsHeader : ∀ s h, I s → I (s.setScope (s.scope.setUpstreamResHeader h))
  begins : ∀ s status, 400 ≤ status → I s → I (s.beginResolve status)

namespace Steady

variable {X} {Writable : Str → Prop} {I : RequestState X → Prop} (hI : Steady X Writable I)
include hI

theorem routine : Routine X Writable I where
  frame := fun s s' h => hI.frame s s' h.scope h.route h.history
  makesScope := fun s h => hI.frame s _ (hI.hasScope s h).symm rfl rfl h
  evaluates := hI.evaluates
  addsVariable := hI.addsVariable
  setsHeader := hI.setsHeader
  begins := hI.begins

theorem modifySession (f : Session X.H → Session X.H) : Keeps I (modifySession X f) :=
  keeps_modify fun s => hI.frame s _ rfl rfl rfl

end Steady

/-! ## What the lookup finds -/

section Lookup

variable {X}

/-- The matcher of the entry is run by a lookup that gets to it. -/
def isEvaluated (status : Nat) (entry : ErrorPageEntry X.Program) : Bool :=
  statusApplies X status entry && entry.matcher.isSome

/-- The entry serves the status: it is for it, and its matcher, if it has one, gives `true`. -/
def Serves (c : SessionCelContext X.H) (status t : Nat) (entry : ErrorPageEntry X.Program) : Prop :=
  statusApplies X status entry = true ∧
    ∀ matcher, entry.matcher = some matcher → X.execute t c matcher = .ok (.bool true)

/-- The time at which a lookup gets to the entry at an index. -/
def lookupTime (status t : Nat) (entries : List (ErrorPageEntry X.Program)) (i : Nat) : Nat :=
  t + (entries.take i).countP (isEvaluated status)

/-- The entry at some index is the first to serve the status. -/
def FirstServing (c : SessionCelContext X.H) (status t : Nat)
    (entries : List (ErrorPageEntry X.Program)) (entry : ErrorPageEntry X.Program) : Prop :=
  ∃ i, entries[i]? = some entry ∧ Serves c status (lookupTime status t entries i) entry ∧
    ∀ j < i, ∀ e, entries[j]? = some e → ¬ Serves c status (lookupTime status t entries j) e

/-- No entry serves the status. -/
def NoneServing (c : SessionCelContext X.H) (status t : Nat)
    (entries : List (ErrorPageEntry X.Program)) : Prop :=
  ∀ i e, entries[i]? = some e → ¬ Serves c status (lookupTime status t entries i) e

variable {c : SessionCelContext X.H} {status t : Nat} {entry e : ErrorPageEntry X.Program}
  {rest : List (ErrorPageEntry X.Program)}

/-- The time after the entry. -/
def afterEntry (status t : Nat) (entry : ErrorPageEntry X.Program) : Nat :=
  if isEvaluated status entry then t + 1 else t

theorem lookupTime_cons (i : Nat) :
    lookupTime status t (entry :: rest) (i + 1) =
      lookupTime status (afterEntry status t entry) rest i := by
  unfold lookupTime afterEntry
  rw [List.take_succ_cons, List.countP_cons]
  split <;> omega

theorem firstServing_cons :
    FirstServing c status t (entry :: rest) e ↔ (Serves c status t entry ∧ e = entry) ∨
      (¬ Serves c status t entry ∧ FirstServing c status (afterEntry status t entry) rest e) := by
  constructor
  · rintro ⟨i, hi, hserves, hbefore⟩
    cases i with
    | zero =>
      obtain rfl : entry = e := by simpa using hi
      exact .inl ⟨hserves, rfl⟩
    | succ i =>
      refine .inr ⟨hbefore 0 (Nat.succ_pos i) entry rfl, i, hi, ?_, ?_⟩
      · rwa [lookupTime_cons] at hserves
      · intro j hj e' he'
        have hno := hbefore (j + 1) (Nat.succ_lt_succ hj) e' he'
        rwa [lookupTime_cons] at hno
  · rintro (⟨hserves, rfl⟩ | ⟨hno, i, hi, hserves, hbefore⟩)
    · exact ⟨0, rfl, hserves, fun j hj => absurd hj (Nat.not_lt_zero j)⟩
    · refine ⟨i + 1, hi, ?_, ?_⟩
      · rwa [lookupTime_cons]
      · intro j hj e' he'
        cases j with
        | zero =>
          obtain rfl : entry = e' := by simpa using he'
          exact hno
        | succ j =>
          rw [lookupTime_cons]
          exact hbefore j (Nat.lt_of_succ_lt_succ hj) e' he'

theorem noneServing_cons :
    NoneServing c status t (entry :: rest) ↔
      ¬ Serves c status t entry ∧ NoneServing c status (afterEntry status t entry) rest := by
  constructor
  · intro h
    refine ⟨h 0 entry rfl, fun i e he => ?_⟩
    have hno := h (i + 1) e he
    rwa [lookupTime_cons] at hno
  · rintro ⟨hentry, h⟩ i e he
    cases i with
    | zero =>
      obtain rfl : entry = e := by simpa using he
      exact hentry
    | succ i =>
      rw [lookupTime_cons]
      exact h i e he

/-- The result of a lookup is the first entry that serves the status, none if there is none. -/
def LookupFinds (c : SessionCelContext X.H) (status t : Nat)
    (entries : List (ErrorPageEntry X.Program)) (result : Option (ErrorPageEntry X.Program)) : Prop :=
  (∀ e, result = some e ↔ FirstServing c status t entries e) ∧
    (result = none ↔ NoneServing c status t entries)

theorem lookupFinds_of_serves (h : Serves c status t entry) :
    LookupFinds c status t (entry :: rest) (some entry) := by
  refine ⟨fun e => ?_, ?_⟩
  · rw [firstServing_cons, Option.some.injEq, eq_comm]
    simp [h]
  · rw [noneServing_cons]
    simp [h]

theorem lookupFinds_of_not_serves {result : Option (ErrorPageEntry X.Program)}
    (h : ¬ Serves c status t entry)
    (hrest : LookupFinds c status (afterEntry status t entry) rest result) :
    LookupFinds c status t (entry :: rest) result := by
  refine ⟨fun e => ?_, ?_⟩
  · rw [hrest.1, firstServing_cons]
    simp [h]
  · rw [hrest.2, noneServing_cons]
    simp [h]

theorem exec_lookupEntries (status : Nat) (entries : List (ErrorPageEntry X.Program))
    {s : RequestState X} (hs : s.ctx.sessionCelContext = some c) :
    ∃ result, ((lookupEntries X status entries).exec s).1 = .ok result ∧
      LookupFinds c status s.time entries result := by
  induction entries generalizing s with
  | nil => exact ⟨none, rfl, by simp [FirstServing], by simp [NoneServing]⟩
  | cons entry rest ih =>
    cases happlies : statusApplies X status entry with
    | false =>
      obtain ⟨result, hexec, hfinds⟩ := ih hs
      refine ⟨result, by simpa [lookupEntries, happlies] using hexec, ?_⟩
      refine lookupFinds_of_not_serves (by simp [Serves, happlies]) ?_
      simpa [afterEntry, isEvaluated, happlies] using hfinds
    | true =>
      cases hm : entry.matcher with
      | none =>
        refine ⟨some entry, by simp [lookupEntries, happlies, hm], ?_⟩
        exact lookupFinds_of_serves ⟨happlies, by simp [hm]⟩
      | some matcher =>
        simp only [lookupEntries, happlies, hm, Bool.not_true, Bool.false_eq_true, ↓reduceIte,
          exec_bind, exec_executeIn_of_scope hs]
        split
        · next heq =>
          refine ⟨some entry, rfl, lookupFinds_of_serves ⟨happlies, ?_⟩⟩
          intro m hm'
          rw [hm, Option.some.injEq] at hm'
          rw [← hm']
          exact heq
        · next hne =>
          obtain ⟨result, hexec, hfinds⟩ := @ih
            { s with time := s.time + 1, history := s.history ++ [.eval true c] } hs
          refine ⟨result, hexec, lookupFinds_of_not_serves ?_ ?_⟩
          · rintro ⟨-, hserves⟩
            exact hne (hserves matcher hm)
          · simpa [afterEntry, isEvaluated, happlies, hm] using hfinds

theorem exec_lookupErrorPage (s : RequestState X) (status : Nat) :
    ∃ result, ((lookupErrorPage X status).exec s).1 = .ok result ∧
      LookupFinds (s.scope.setErrorStatus (some status)) status s.time
        s.shared.errorPages.snapshot result := by
  rw [lookupErrorPage, exec_bind, exec_ensureSessionCelContext]
  exact exec_lookupEntries status s.shared.errorPages.snapshot rfl

end Lookup

/-- **The error page store.** A failed update leaves the store as it was. After any calls from the
empty store, the snapshot has the entries whose last call was a successful update, one for each id,
in descending order of priority and among equal ones in the order of these updates; and a lookup
finds the first entry that serves the status, and none if and only if there is none. -/
theorem errorPageStore_semantics (ops : List ErrorPages.Op) :
    (∀ (store : ErrorPages.ErrorPageStore X.Program) config message,
      (store.update X.crates config).2 = .error message → (store.update X.crates config).1 = store) ∧
    (∀ e, e ∈ (ErrorPages.run X.crates ops).snapshot ↔ ∃ t, ErrorPages.RegisteredAt X.crates ops t e) ∧
    ((ErrorPages.run X.crates ops).snapshot.Pairwise fun a b => a.id ≠ b.id) ∧
    (ErrorPages.run X.crates ops).snapshot.Pairwise (ErrorPages.Precedes X.crates ops) ∧
    ∀ (s : RequestState X) status, s.shared.errorPages = ErrorPages.run X.crates ops →
      ∃ result, ((lookupErrorPage X status).exec s).1 = .ok result ∧
        LookupFinds (s.scope.setErrorStatus (some status)) status s.time
          (ErrorPages.run X.crates ops).snapshot result := by
  have hordered := ErrorPages.ordered_run X.crates ops
  refine ⟨?_, hordered.mem_iff, hordered.distinct_ids, hordered.sorted, ?_⟩
  · intro store config message h
    unfold ErrorPages.ErrorPageStore.update at h ⊢
    cases hbuild : config.build X.crates with
    | error e => rfl
    | ok entry =>
      rw [hbuild] at h
      cases h
  · intro s status hs
    rw [← hs]
    exact exec_lookupErrorPage s status

/-! Two pages for any status; the first one is registered again after a failed update. -/

def pageConfig (id : Str) : ErrorPages.ErrorPageConfig where
  id := id
  status := none
  matcher := none
  body := some "gone".toList
  bodyExpression := none
  contentType := none
  headers := []
  statusOverride := none
  priority := 0

def registeredAgain : List ErrorPages.Op :=
  [.update (pageConfig "a".toList), .update (pageConfig "b".toList), .update (pageConfig [' ']),
    .update (pageConfig "a".toList)]

theorem errorPageStore_semantics_registeredAgain :
    let store := ErrorPages.run Externals.plain.crates registeredAgain
    (store.update Externals.plain.crates (pageConfig [' '])).1 = store ∧
    ∃ result, ((lookupErrorPage Externals.plain 404).exec (.plain store)).1 = .ok result ∧
      LookupFinds ((RequestState.plain store).scope.setErrorStatus (some 404)) 404 0 store.snapshot
        result := by
  have h := errorPageStore_semantics Externals.plain registeredAgain
  exact ⟨h.1 _ (pageConfig [' ']) _ rfl, h.2.2.2.2 (.plain _) 404 rfl⟩

end Lonesome
