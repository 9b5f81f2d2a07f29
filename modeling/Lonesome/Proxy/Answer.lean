import Lonesome.Proxy.ErrorPageFraming
import Lonesome.Proxy.Frames

/-!
# What a request is answered with

A response that the proxy or a middleware generates goes out in at most two writes, the head and the
body, and either can fail. `request_filter` tells `pingora` with `true` that there is nothing left to
do; the loop over the middlewares stops there.

Nothing but `request_filter` and `fail_to_proxy` writes (`Quiet`). Of these two, the hooks are specified
one by one from a state in which nothing has been sent (`Answering`); a run of callbacks then sends
nothing, or the head of one response, or one whole response: `requests_answered_once`.
-/

namespace Lonesome

open Lonesome.Lib

variable {X : Externals}

/-! ## What has been sent -/

/-- What has been written to the downstream, all heads and bodies in order. -/
def RequestState.sent (s : RequestState X) : List Written :=
  s.session.written

/-- Nothing has been sent. -/
def Unanswered (s : RequestState X) : Prop :=
  s.sent = []

/-- The head of a response has been sent, with the length of the body that was to follow. -/
def Announced (body : Str) (s : RequestState X) : Prop :=
  ∃ resp, s.sent = [.head resp] ∧ Announces resp body

/-- One response has been sent: one head, with one `Content-Length`, and after it the body of that
length, in one write if there is any. -/
def Answered (s : RequestState X) : Prop :=
  ∃ resp body, s.sent = .head resp :: (if body.isEmpty then [] else [.body body]) ∧ Announces resp body

/-- A write failed: nothing has been sent, or only a head. -/
def Interrupted (s : RequestState X) : Prop :=
  Unanswered s ∨ ∃ body, Announced body s

/-! ## Computations that send nothing -/

/-- The computation writes nothing to the downstream. -/
def Quiet {α : Type} (m : ReqM X α) : Prop :=
  ∀ sent, Keeps (fun s => s.sent = sent) m

namespace Quiet

variable {α β : Type}

theorem pure (a : α) : Quiet (X := X) (pure a) := fun _ => keeps_pure a

theorem throw (e : ProxyError) : Quiet (X := X) (α := α) (throw e) := fun _ => keeps_throw e

theorem get : Quiet (X := X) get := fun _ => keeps_get

theorem bind {m : ReqM X α} {f : α → ReqM X β} (hm : Quiet m) (hf : ∀ a, Quiet (f a)) :
    Quiet (m >>= f) :=
  fun sent => .bind (hm sent) fun a => hf a sent

theorem ite {c : Prop} [Decidable c] {m m' : ReqM X α} (h : Quiet m) (h' : Quiet m') :
    Quiet (if c then m else m') :=
  fun sent => .ite (fun _ => h sent) fun _ => h' sent

theorem tryCatch {m : ReqM X α} {f : ProxyError → ReqM X α} (hm : Quiet m) (hf : ∀ e, Quiet (f e)) :
    Quiet (tryCatch m f) :=
  fun sent => .tryCatch (hm sent) fun e => hf e sent

theorem modifyCtx (f : ProxyCtx X → ProxyCtx X) : Quiet (modifyCtx X f) :=
  fun _ => keeps_modify fun _ h => h

theorem modifySession {f : Session X.H → Session X.H} (hf : ∀ s, (f s).written = s.written) :
    Quiet (modifySession X f) :=
  fun _ => keeps_modify fun s h => (hf s.session).trans h

theorem orInternalError (context : String) (result : Except String α) :
    Quiet (orInternalError X context result) :=
  fun _ => keeps_orInternalError context result

theorem indifferent (sent : List Written) :
    Indifferent (X := X) fun s => s.sent = sent := by
  refine ⟨fun s s' hunheard hs => ?_⟩
  rw [← hs, RequestState.sent, hunheard.session]
  rfl

/-- Evaluations send nothing. -/
theorem of_evaluates {m : ReqM X α} (h : ∀ I, Evaluates X (fun _ => True) I → Keeps I m) : Quiet m :=
  fun sent => h _ (indifferent sent).evaluates

theorem of_observes (proxy : LonesomeProxy X) {p : Phase X} (hp : p.Observes) : Quiet (p.run proxy) :=
  fun sent => (indifferent sent).phase (fun _ => modifyCtx _ sent) proxy hp

theorem insertHeaders (context : String) (resp : ResponseHeader)
    (headers : List (String × Option HeaderValue)) : Quiet (insertHeaders X context resp headers) :=
  fun _ => keeps_insertHeaders context resp headers

theorem insertContentType (content : RenderedErrorPage) (resp : ResponseHeader) :
    Quiet (insertContentType X content resp) :=
  ite (pure resp) (orInternalError _ _)

theorem disableKeepalive : Quiet (disableKeepalive X) :=
  modifySession fun _ => rfl

/-- A filter that does nothing unless its rule applies. -/
theorem whenApplies (program : Option X.Program) {body : ReqM X α} (hbody : Quiet body) (a : α) :
    Quiet (do if ← shouldApply X program then body else return a) :=
  (of_evaluates fun _ hI => hI.shouldApply program).bind fun _ => ite hbody (pure a)

theorem triple {m : ReqM X α} (h : Quiet m) :
    Triple Unanswered m (fun _ => Unanswered) Interrupted :=
  (h _).triple fun _ => .inl

end Quiet

/-! ## Writing a response -/

/-- The head has been sent. -/
def HeadSent (resp : ResponseHeader) (s : RequestState X) : Prop :=
  s.sent = [.head resp]

section Writing

variable {α : Type}

theorem triple_mapInternalError {P E : RequestState X → Prop} {Q : α → RequestState X → Prop}
    {m : ReqM X α} (context : String) (h : Triple P m Q E) :
    Triple P (mapInternalError X context m) Q E :=
  .tryCatch h fun _ => triple_throw fun _ hs => hs

/-- A write that fails leaves what has been sent. -/
theorem triple_write {P Q : RequestState X → Prop} {f : Session X.H → Session X.H}
    (hP : ∀ s s' : RequestState X, s'.sent = s.sent → P s → P s')
    (hf : ∀ s, P s → Q { s with session := f s.session }) : Triple P (write X f) (fun _ => Q) P := by
  have htick : Keeps P (tick X) := fun s hs => hP s _ rfl hs
  refine .bind (htick.triple fun _ hs => hs) fun t => ?_
  split
  · exact triple_throw fun _ hs => hs
  · refine ⟨fun s hs _ s' hexec => ?_, fun s hs _ s' hexec => (nomatch hexec)⟩
    cases hexec
    exact hf s hs

theorem triple_writeResponseHeader (resp : ResponseHeader) :
    Triple Unanswered (writeResponseHeader X resp) (fun _ => HeadSent resp) Unanswered := by
  refine triple_write (fun s s' h hs => h.trans hs) fun s hs => ?_
  show s.sent ++ [.head resp] = _
  rw [hs, List.nil_append]

theorem triple_writeResponseBody (resp : ResponseHeader) (body : Str) :
    Triple (HeadSent resp) (writeResponseBody X body) (fun _ s => s.sent = [.head resp, .body body])
      (HeadSent resp) := by
  refine triple_write (fun s s' h hs => h.trans hs) fun s hs => ?_
  show s.sent ++ [.body body] = _
  rw [show s.sent = [.head resp] from hs, List.singleton_append]

/-- The value of `Content-Length` is always a legal one, and takes the place of others. -/
theorem announces_of_insert {before resp : ResponseHeader} {body : Str}
    (h : before.insertHeader "content-length" (HeaderValue.fromStr (contentLength body)) =
      .ok resp) : Announces resp body := by
  obtain ⟨v, hv, hread⟩ := HeaderValue.exists_fromStr (contentLength_visible body)
  rw [hv] at h
  have hresp : resp = { before with headers := before.headers.insert "content-length" v } :=
    (Except.ok.inj h).symm
  rw [Announces, hresp, HeaderMap.getAll_insert, List.map_singleton, hread]

theorem triple_orInternalError {P : RequestState X → Prop} (context : String)
    (result : Except String α) :
    Triple P (orInternalError X context result) (fun a s => result = .ok a ∧ P s) P := by
  cases result with
  | ok a => exact triple_pure fun s hs => ⟨rfl, hs⟩
  | error e => exact triple_throw fun s hs => hs

/-- The head, sent first. -/
theorem triple_head (context : String) (resp : ResponseHeader) :
    Triple Unanswered (mapInternalError X context (writeResponseHeader X resp))
      (fun _ => HeadSent resp) Interrupted :=
  (triple_mapInternalError context (triple_writeResponseHeader resp)).mono (fun _ hs => hs)
    (fun _ _ hs => hs) fun _ => .inl

/-- A response without a body is its head. -/
theorem HeadSent.answered {resp : ResponseHeader} {body : Str} {s : RequestState X}
    (hs : HeadSent resp s) (h : Announces resp body) (hempty : body.isEmpty = true) : Answered s :=
  ⟨resp, body, by rw [if_pos hempty]; exact hs, h⟩

theorem triple_body (context : String) {resp : ResponseHeader} {body : Str}
    (h : Announces resp body) (hempty : ¬ body.isEmpty = true) :
    Triple (HeadSent resp) (mapInternalError X context (writeResponseBody X body))
      (fun _ => Answered) Interrupted := by
  refine (triple_mapInternalError context (triple_writeResponseBody resp body)).mono (fun _ hs => hs)
    (fun _ s hs => ⟨resp, body, ?_, h⟩) fun s hs => .inr ⟨body, resp, hs, h⟩
  rw [if_neg hempty]
  exact hs

/-- The length is the last field to be set. -/
theorem triple_contentLength {P : RequestState X → Prop} (context : String) (resp : ResponseHeader)
    (body : Str) :
    Triple P (orInternalError X context (resp.insertHeader "content-length"
      (HeaderValue.fromStr (contentLength body)))) (fun resp s => Announces resp body ∧ P s) P :=
  (triple_orInternalError context _).mono (fun _ hs => hs)
    (fun _ _ hs => ⟨announces_of_insert hs.1, hs.2⟩) fun _ hs => hs

theorem triple_writeResponse (status : Nat) (headers : List (String × Str))
    (explicitBody contentType : Option Str) :
    Triple Unanswered (writeResponse X status headers explicitBody contentType) (fun _ => Answered)
      Interrupted := by
  have hclose : Quiet (closeAfter X status) := .ite .disableKeepalive (.pure ())
  refine hclose.triple.bind fun _ => ?_
  have hcontent : Quiet (responseContent X status explicitBody contentType) :=
    .of_evaluates fun _ hI => keeps_responseContent hI.resolves status explicitBody contentType
  refine hcontent.triple.bind fun content => ?_
  refine (Quiet.orInternalError _ _).triple.bind fun resp => ?_
  refine (Quiet.insertHeaders _ _ _).triple.bind fun resp => ?_
  refine (Quiet.insertHeaders _ _ _).triple.bind fun resp => ?_
  refine (Quiet.insertContentType content resp).triple.bind fun resp => ?_
  refine ((triple_contentLength _ _ _).mono (fun _ hs => hs) (fun _ _ hs => hs) fun _ => .inl).bind
    fun resp => .assume fun hannounces => ?_
  refine (triple_head _ resp).bind fun _ => ?_
  refine .ite (fun hempty => triple_pure fun s hs => hs.answered hannounces hempty) fun hempty => ?_
  exact triple_body _ hannounces hempty

end Writing

/-! ## The hooks -/

/-- A request filter: `true` when it has answered the request, and when it fails it may have got as far
as the head. -/
def Answering (m : ReqM X Bool) : Prop :=
  Triple Unanswered m (fun done s => if done then Answered s else Unanswered s) Interrupted

namespace Answering

/-- A filter that never answers. -/
theorem of_quiet {m : ReqM X Unit} (h : Quiet m) : Answering (do m; return false) :=
  h.triple.bind fun _ => triple_pure fun _ hs => hs

theorem bind {α : Type} {m : ReqM X α} {f : α → ReqM X Bool} (hm : Quiet m)
    (hf : ∀ a, Answering (f a)) : Answering (m >>= f) :=
  hm.triple.bind hf

theorem continues : Answering (X := X) (pure false) := triple_pure fun _ hs => hs

theorem fails (e : ProxyError) : Answering (X := X) (throw e) := triple_throw fun _ => .inl

theorem ite {c : Prop} [Decidable c] {m m' : ReqM X Bool} (h : Answering m) (h' : Answering m') :
    Answering (if c then m else m') :=
  Triple.ite (fun _ => h) fun _ => h'

theorem whenApplies (program : Option X.Program) {body : ReqM X Bool} (hbody : Answering body) :
    Answering (do if ← shouldApply X program then body else return false) :=
  .bind (.of_evaluates fun _ hI => hI.shouldApply program) fun _ => .ite hbody .continues

/-- A response of `write_response`. -/
theorem writeResponse (context : String) (status : Nat) (headers : List (String × Str))
    (explicitBody contentType : Option Str) :
    Answering (do
      mapInternalError X context (writeResponse X status headers explicitBody contentType)
      return true) :=
  (triple_mapInternalError context (triple_writeResponse status headers explicitBody contentType)).bind
    fun _ => triple_pure fun _ hs => hs

/-- The end of the filters that write a head only: the length, and the head. -/
theorem writeHead (lengthContext context : String) (resp : ResponseHeader) :
    Answering (do
      let resp ← insertField X lengthContext "content-length" (HeaderValue.fromStr "0".toList) resp
      mapInternalError X context (writeResponseHeader X resp)
      return true) := by
  have hlength := triple_contentLength (P := Unanswered (X := X)) lengthContext resp []
  refine (hlength.mono (fun _ hs => hs) (fun _ _ hs => hs) fun _ => .inl).bind
    fun resp => .assume fun hannounces => ?_
  refine (triple_head context resp).bind fun _ => triple_pure fun s hs => ?_
  exact hs.answered hannounces rfl

theorem basicAuth (m : BasicAuthMiddleware X) : Answering m.requestFilter := by
  refine .whenApplies m.celProgram (.bind .get fun s => ?_)
  split
  · exact .writeResponse _ _ _ _ _
  · split
    · exact .writeResponse _ _ _ _ _
    · exact .ite .continues (.writeResponse _ _ _ _ _)

theorem cors (m : CorsMiddleware X) : Answering m.requestFilter := by
  refine .whenApplies m.celProgram (.bind .get fun s => .ite .continues ?_)
  refine .bind (.orInternalError _ _) fun resp => ?_
  exact .bind (fun _ => keeps_cors_applyHeaders m s.session resp) fun resp => .writeHead _ _ resp

theorem writeShortResponse (result : InterceptorResult) :
    Answering (InterceptorMiddleware.writeShortResponse X result) := by
  refine .bind (.orInternalError _ _) fun resp => ?_
  refine .bind (fun _ => keeps_insertFieldIf _ _ _ _) fun resp => ?_
  refine ((triple_contentLength _ resp (result.body.getD [])).mono (fun _ hs => hs)
    (fun _ _ hs => hs) fun _ => .inl).bind fun resp => .assume fun hannounces => ?_
  refine (triple_head _ resp).bind fun _ => ?_
  refine .ite (fun hempty => triple_pure fun s hs => hs.answered hannounces hempty) fun hempty => ?_
  exact (triple_body _ hannounces hempty).bind fun _ => triple_pure fun _ hs => hs

theorem interceptor (m : InterceptorMiddleware) : Answering (m.requestFilter X) := by
  refine .bind .get fun s => .bind (.of_evaluates fun _ hI => hI.tick) fun t => ?_
  split
  · exact .fails _
  · exact .continues
  · split
    · exact .fails _
    · split
      · exact .continues
      · exact .writeShortResponse _

theorem jwt (m : JwtMiddleware X) : Answering m.requestFilter := by
  have hauthorize : Quiet m.authorize := fun sent => (Quiet.indifferent sent).jwt_authorize m
  refine .whenApplies m.ruleProgram (.bind hauthorize fun authorized => .ite .continues ?_)
  split
  · exact .continues
  · exact .writeResponse _ _ _ _ _

theorem rateLimit (m : RateLimitMiddleware X) : Answering m.requestFilter := by
  refine .bind (.of_evaluates fun _ hI => hI.rateLimit_observedKey m) fun key => ?_
  cases key with
  | none => exact .continues
  | some key =>
    refine .bind (.of_evaluates fun _ hI => hI.observeRate key) fun n => ?_
    exact .ite .continues (.bind .disableKeepalive fun _ => .writeResponse _ _ _ _ _)

theorem writeRedirect (middleware : String) (code : Nat) (location : Str) :
    Answering (Lonesome.writeRedirect X middleware code location) := by
  refine .bind (.orInternalError _ _) fun resp => .bind (.orInternalError _ _) fun resp => ?_
  exact .writeHead _ _ resp

theorem redirect (m : RedirectMiddleware X) : Answering m.requestFilter := by
  have htarget : Quiet m.targetLocation := .of_evaluates fun _ hI => hI.redirect_targetLocation m
  refine .whenApplies m.celProgram (.bind htarget fun location => ?_)
  cases location with
  | none => exact .continues
  | some location => exact .writeRedirect _ _ location

theorem redirectHttps (m : RedirectHttpsMiddleware X) : Answering m.requestFilter := by
  refine .whenApplies m.celProgram (.bind .get fun s => .ite .continues ?_)
  split
  · exact .continues
  · exact .writeRedirect _ _ _

theorem respond (m : RespondMiddleware X) : Answering m.requestFilter := by
  have hbody : Quiet m.bodyText := .of_evaluates fun _ hI => hI.respond_bodyText m
  exact .whenApplies m.celProgram (.bind hbody fun body => .writeResponse _ _ _ _ _)

theorem rewrite (m : RewriteMiddleware X) : Answering m.requestFilter := by
  have hpath (path : Str) : Quiet (m.rewritePath path) :=
    .of_evaluates fun _ hI => hI.rewrite_rewritePath m path
  refine .whenApplies m.celProgram (.bind .get fun s => .bind (hpath _) fun path => ?_)
  cases path with
  | none => exact .continues
  | some path =>
    exact .bind (.orInternalError _ _) fun uri => .of_quiet (.modifySession fun _ => rfl)

theorem rewriteMethod (m : RewriteMethodMiddleware X) : Answering m.requestFilter :=
  .whenApplies m.celProgram (.of_quiet (.modifySession fun _ => rfl))

end Answering

theorem Answering.requestFilter (m : Middleware X) : Answering m.requestFilter := by
  cases m with
  | basicAuth m => exact .basicAuth m
  | cors m => exact .cors m
  | interceptor m => exact .interceptor m
  | jwt m => exact .jwt m
  | rateLimit m => exact .rateLimit m
  | redirect m => exact .redirect m
  | redirectHttps m => exact .redirectHttps m
  | respond m => exact .respond m
  | rewrite m => exact .rewrite m
  | rewriteMethod m => exact .rewriteMethod m
  | setVariable m => exact .of_quiet (.of_evaluates fun _ hI => hI.setVariable_applyIn m trivial _)
  | _ => exact .continues

/-! ## The callbacks -/

namespace Quiet

theorem middlewares : Quiet (middlewares X) := .bind .get fun _ => .pure _

theorem throughMiddlewares {α : Type} {hook : α → Middleware X → ReqM X α}
    (hhook : ∀ a m, Quiet (hook a m)) (a : α) : Quiet (throughMiddlewares X hook a) := by
  refine .bind middlewares fun ms sent => .foldlM ms (fun a m _ => ?_) a
  exact .bind (of_evaluates (fun _ hI => hI.interleave) sent) fun _ => hhook a m sent

theorem earlyRequestFilter (m : Middleware X) : Quiet m.earlyRequestFilter := by
  cases m with
  | accessLog m => exact .bind (.of_evaluates fun _ hI => hI.tick) fun _ => .modifyCtx _
  | cache m =>
    exact .whenApplies m.celProgram (.bind .get fun _ => .ite (.throw _) (.modifyCtx _)) ()
  | compression m =>
    refine .whenApplies m.celProgram (.bind (.bind .get fun s => ?_) fun _ => ?_) ()
    · split
      · exact .throw _
      · exact .modifySession fun _ => rfl
    · exact .modifySession fun _ => rfl
  | healthCheck m => exact .bind .get fun _ => .ite (.throw _) (.modifyCtx _)
  | _ => exact .pure ()

theorem failToConnect (e : ProxyError) (m : Middleware X) : Quiet (m.failToConnect e) := by
  cases m with
  | healthCheck m =>
    refine .bind .get fun s => .bind (.of_evaluates fun _ hI => hI.tick) fun t => ?_
    refine .bind (.of_evaluates fun _ hI => hI.modifyShared _) fun _ => ?_
    exact .bind (.modifyCtx _) fun _ => .pure _
  | _ => exact .pure e

theorem select (proxy : LonesomeProxy X) : Quiet proxy.select := by
  refine .bind (.modifyCtx _) fun _ => .bind ?_ fun _ => ?_
  · exact .bind (.of_evaluates fun _ hI => hI.ensureSessionCelContext) fun _ => .pure _
  · refine .bind (.of_evaluates fun _ hI => hI.findFirstMatch _) fun route => ?_
    cases route with
    | none => exact .pure ()
    | some route => exact .modifyCtx _

theorem upstreamPeer : Quiet (LonesomeProxy.upstreamPeer X) := by
  refine .bind .get fun s => ?_
  split
  · exact .throw _
  · refine .bind (.of_evaluates fun _ hI => hI.selectionKey _) fun key => .bind .get fun s => ?_
    refine .bind (.of_evaluates fun _ hI => hI.tick) fun t => .bind (.modifyCtx _) fun _ => ?_
    split
    · exact .pure _
    · exact .throw _

end Quiet

/-! ## Runs -/

theorem answering_requestFilter (proxy : LonesomeProxy X) : Answering proxy.requestFilter := by
  refine .bind (.of_evaluates fun _ hI => hI.ensureSessionCelContext) fun c => ?_
  split
  · next status _ =>
    exact (triple_writeResponse status [] none none).bind fun _ => triple_pure fun _ hs => hs
  · refine .bind .middlewares fun ms => Triple.anyM ms fun m _ => ?_
    exact Answering.bind (.of_evaluates fun _ hI => hI.interleave) fun _ => .requestFilter m

/-- Nothing, the head of one response or one whole response has been sent. -/
def WellFramed (s : RequestState X) : Prop :=
  Interrupted s ∨ Answered s

theorem wellFramed_sent {s s' : RequestState X} (hsent : s'.sent = s.sent) (h : WellFramed s) :
    WellFramed s' := by
  unfold WellFramed Interrupted Unanswered Announced Answered at h ⊢
  rwa [hsent]

/-- `request_filter` and `fail_to_proxy` are called while nothing has been sent, and `pingora` does not
send a response itself. -/
def Phase.InTurn (s : RequestState X) : Phase X → Prop
  | .requestFilter => Unanswered s
  | .failToProxy _ => Unanswered s
  | .session f => ∀ session, (f session).written = session.written
  | _ => True

/-- Each phase is called in turn. -/
def InTurn (proxy : LonesomeProxy X) : RequestState X → List (Phase X) → Prop
  | _, [] => True
  | s, p :: rest => p.InTurn s ∧ InTurn proxy ((p.run proxy).exec s).2 rest

theorem Answering.wellFramed {m : ReqM X Bool} (h : Answering m) {s : RequestState X}
    (hs : Unanswered s) : WellFramed (m.exec s).2 := by
  rcases hexec : m.exec s with ⟨e | done, s'⟩
  · exact .inl (Triple.fails h s hs e s' hexec)
  · have hdone := h.returns s hs done s' hexec
    cases done with
    | true => exact .inr hdone
    | false => exact .inl (.inl hdone)

theorem failToProxy_wellFramed (e : ProxyError) {s : RequestState X} (hs : Unanswered s) :
    WellFramed ((LonesomeProxy.failToProxy X e).exec s).2 := by
  have h : Triple Unanswered (LonesomeProxy.failToProxy X e) (fun _ => WellFramed) WellFramed := by
    refine .ite (fun _ => ?_) fun _ => triple_pure fun _ hs => .inl (.inl hs)
    have hwrite (code : Nat) :
        Triple Unanswered (writeResponse X code [] none none) (fun _ => WellFramed) WellFramed :=
      (triple_writeResponse code [] none none).mono (fun _ hs => hs) (fun _ _ => .inr) fun _ => .inl
    refine .bind (.tryCatch (hwrite _) fun _ => ?_) fun _ => triple_pure fun _ hs => hs
    exact triple_pure fun _ hs => hs
  rcases hexec : (LonesomeProxy.failToProxy X e).exec s with ⟨e | code, s'⟩
  · exact h.fails s hs e s' hexec
  · exact h.returns s hs code s' hexec

theorem Quiet.wellFramed {α : Type} {m : ReqM X α} (h : Quiet m) {s : RequestState X}
    (hs : WellFramed s) : WellFramed (m.exec s).2 :=
  wellFramed_sent (h s.sent s rfl) hs

/-- One phase. -/
theorem Phase.wellFramed (proxy : LonesomeProxy X) (p : Phase X) {s : RequestState X}
    (hturn : p.InTurn s) (hs : WellFramed s) : WellFramed ((p.run proxy).exec s).2 := by
  cases p with
  | requestFilter =>
    rw [Phase.run, exec_discard]
    exact (answering_requestFilter proxy).wellFramed hturn
  | failToProxy e =>
    rw [Phase.run, exec_discard]
    exact failToProxy_wellFramed e hturn
  | session f => exact Quiet.wellFramed (.modifySession hturn) hs
  | upstreamPeer =>
    rw [Phase.run, exec_discard]
    exact Quiet.upstreamPeer.wellFramed hs
  | failToConnect e =>
    rw [Phase.run, exec_discard]
    refine Quiet.wellFramed (.throughMiddlewares (fun e m => ?_) e) hs
    exact .tryCatch (.failToConnect e m) fun _ => .pure _
  | _ =>
    refine Quiet.wellFramed (.of_observes proxy ?_) hs
    trivial

theorem wellFramed_phases (proxy : LonesomeProxy X) (phases : List (Phase X)) {s : RequestState X}
    (hturns : InTurn proxy s phases) (hs : WellFramed s) :
    WellFramed (phases.foldl (fun s p => ((p.run proxy).exec s).2) s) := by
  induction phases generalizing s with
  | nil => exact hs
  | cons p rest ih => exact ih hturns.2 (p.wellFramed proxy hturns.1 hs)

/-- **Answers.** A request to which nothing has been sent goes through `early_request_filter` and any
phases in turn, for any route, any middlewares and any failures of the writes. At every point nothing
has been sent, or the head of one response, or one whole response whose only `Content-Length` is the
length of its body. And `request_filter` returns `true` exactly when such a response has been sent, and
`false` when nothing has. -/
theorem requests_answered_once (proxy : LonesomeProxy X) (s : RequestState X) (hs : Unanswered s)
    (phases : List (Phase X)) (hturns : InTurn proxy (proxy.earlyRequestFilter.exec s).2 phases) :
    WellFramed (proxy.run s phases) ∧
      (Unanswered (proxy.run s phases) → ∀ done s',
        proxy.requestFilter.exec (proxy.run s phases) = (.ok done, s') →
          if done then Answered s' else Unanswered s') := by
  have hearly : Quiet proxy.earlyRequestFilter :=
    .bind (.select proxy) fun _ => .throughMiddlewares (fun _ m => .earlyRequestFilter m) ()
  refine ⟨wellFramed_phases proxy phases hturns (hearly.wellFramed (.inl (.inl hs))), ?_⟩
  exact fun hrun done s' => (answering_requestFilter proxy).returns _ hrun done s'

/-! The request to a route with a variable and a response: the second middleware answers, with the host
in the body, and the log comes after it. -/

theorem requests_answered_once_namedMiddlewares :
    WellFramed (plainRun namedMiddlewares [.requestFilter, .logging none]) ∧
      Answered ((plainProxy namedMiddlewares).requestFilter.exec (plainRun namedMiddlewares [])).2 := by
  have hincoming : Unanswered ((plainProxy namedMiddlewares).incoming .plain (.plain ⟨[]⟩) 0) := rfl
  have hrun := requests_answered_once (plainProxy namedMiddlewares) _ hincoming
    [.requestFilter, .logging none] ⟨rfl, trivial, trivial⟩
  have hanswer := requests_answered_once (plainProxy namedMiddlewares) _ hincoming [] trivial
  exact ⟨hrun.1, hanswer.2 rfl true _ rfl⟩

end Lonesome
