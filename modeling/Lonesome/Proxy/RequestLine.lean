import Lonesome.Proxy.CelStability
import Lonesome.Proxy.Frames
import Lonesome.Proxy.Turns

/-!
# What the middlewares make of the request line

`rewrite` and `rewrite_method` are the request filters that change the request itself, for the
middlewares after them and for the upstream. When `request_filter` lets the request go on, its method and
its URI are those it had, changed at the turns of these two and at no other: `request_line`. The fields,
the scheme and the authority are never touched.
-/

namespace Lonesome

open Lonesome.Lib

variable {X : Externals}

/-! ## One middleware -/

/-- The path that the middleware makes of another one, if it makes any. -/
def RewriteMiddleware.newPath (m : RewriteMiddleware X) (s : RequestState X) (path : Str) : Option Str :=
  match m.mode with
  | .regexRewrite regex replace =>
    if X.isMatch regex path then some (X.replace regex path replace) else none
  | .celRewrite program =>
    match X.execute s.time s.scope program with
    | .ok (.string v) => some v
    | _ => none

/-- What the middleware does to the request, if it has a new path for it. -/
def RewriteMiddleware.Rewrites (m : RewriteMiddleware X) (s : RequestState X)
    (req req' : RequestHeader X.H) : Prop :=
  match m.newPath s req.uri.pathText with
  | some path => ∃ uri, req.uri.withPath (RewriteMiddleware.withSlash path) = .ok uri ∧
      req' = { req with uri }
  | none => req' = req

/-- What a middleware that begins in the state does to the request. -/
def Middleware.OnRequest (m : Middleware X) (s : RequestState X) (req req' : RequestHeader X.H) : Prop :=
  match m with
  | .rewrite m =>
    if s.applies m.celProgram then m.Rewrites (s.ruled m.celProgram) req req' else req' = req
  | .rewriteMethod m =>
    req' = if s.applies m.celProgram then { req with method := String.ofList m.method } else req
  | _ => req' = req

/-- A turn of `request_filter`. -/
structure LineTurn (m : Middleware X) (s s' : RequestState X) : Prop where
  passes : Passes m s s'
  edits : m.OnRequest s.met s.session.reqHeader s'.session.reqHeader

section Turns

variable {s s' : RequestState X}

theorem newPath_of_rewritePath {m : RewriteMiddleware X} {path : Str} {found : Option Str}
    (h : (m.rewritePath path).exec s = (.ok found, s')) :
    found = m.newPath s path ∧ s'.session = s.session := by
  unfold RewriteMiddleware.rewritePath at h
  unfold RewriteMiddleware.newPath
  cases hmode : m.mode with
  | regexRewrite regex replace =>
    rw [hmode] at h
    dsimp only at h ⊢
    split at h
    · next hmatch =>
      cases h
      exact ⟨(if_pos hmatch).symm, rfl⟩
    · next hmatch =>
      cases h
      exact ⟨(if_neg hmatch).symm, rfl⟩
  | celRewrite program =>
    rw [hmode] at h
    dsimp only at h ⊢
    rw [exec_bind, exec_execute] at h
    dsimp only at h
    generalize X.execute s.time s.scope program = result at h ⊢
    cases result with
    | error e =>
      cases h
      exact ⟨rfl, rfl⟩
    | ok v =>
      cases v with
      | string v =>
        cases h
        exact ⟨rfl, rfl⟩
      | _ =>
        cases h
        exact ⟨rfl, rfl⟩

/-- The part of the filter after the rule. -/
theorem rewrites_of_body {m : RewriteMiddleware X}
    (h : (do
        let s ← get
        match ← m.rewritePath s.session.reqHeader.uri.pathText with
        | none => return false
        | some newPath =>
          let uri ← orInternalError X "rewrite builds invalid uri"
            (s.session.reqHeader.uri.withPath (RewriteMiddleware.withSlash newPath))
          RewriteMiddleware.setUri X uri
          return false : ReqM X Bool).exec s = (.ok false, s')) :
    m.Rewrites s s.session.reqHeader s'.session.reqHeader := by
  rw [exec_bind, exec_get] at h
  obtain ⟨found, s₁, hpath, h⟩ := exec_bind_eq_ok_iff.1 h
  obtain ⟨rfl, hsession⟩ := newPath_of_rewritePath hpath
  unfold RewriteMiddleware.Rewrites
  cases hnew : m.newPath s s.session.reqHeader.uri.pathText with
  | none =>
    rw [hnew] at h
    cases h
    dsimp only
    rw [hsession]
  | some path =>
    rw [hnew] at h
    obtain ⟨uri, s₂, huri, hset⟩ := exec_bind_eq_ok_iff.1 h
    obtain ⟨hbuilt, hsame⟩ := exec_orInternalError_eq_ok huri
    rw [hsame] at hset
    cases hset
    refine ⟨uri, hbuilt, ?_⟩
    rw [← hsession]

theorem rewrites_of_requestFilter {m : RewriteMiddleware X}
    (h : m.requestFilter.exec s = (.ok false, s')) :
    (Middleware.rewrite m).OnRequest s s.session.reqHeader s'.session.reqHeader := by
  show if s.applies m.celProgram then m.Rewrites (s.ruled m.celProgram) _ _ else _
  rcases exec_whenApplies_eq_ok h with ⟨hskipped, -, rfl⟩ | ⟨happlies, hbody⟩
  · rw [hskipped, if_neg Bool.false_ne_true, s.session_ruled]
  · rw [if_pos happlies, ← s.session_ruled m.celProgram]
    exact rewrites_of_body hbody

theorem rewrites_of_rewriteMethod {m : RewriteMethodMiddleware X}
    (h : m.requestFilter.exec s = (.ok false, s')) :
    (Middleware.rewriteMethod m).OnRequest s s.session.reqHeader s'.session.reqHeader := by
  show _ = if s.applies m.celProgram then _ else _
  rcases exec_whenApplies_eq_ok h with ⟨hskipped, -, rfl⟩ | ⟨happlies, hbody⟩
  · rw [hskipped, if_neg Bool.false_ne_true, s.session_ruled]
  · cases hbody
    rw [if_pos happlies, ← s.session_ruled m.celProgram]

/-- The other middlewares leave the request alone. -/
theorem unanswering_reqHeader (req : RequestHeader X.H) :
    Unanswering fun s : RequestState X => s.session.reqHeader = req where
  closed := by
    intro s s' hunheard hs
    rw [hunheard.session]
    exact hs
  session := fun f hf => keeps_modify fun s hs => (hf s.session).trans hs

theorem onRequest_of_passes {m : Middleware X} (h : m.requestFilter.exec s = (.ok false, s')) :
    m.OnRequest s s.session.reqHeader s'.session.reqHeader := by
  by_cases hm : m.RewritesRequest
  · cases m with
    | rewrite m => exact rewrites_of_requestFilter h
    | rewriteMethod m => exact rewrites_of_rewriteMethod h
    | _ => exact hm.elim
  · have hkept := (unanswering_reqHeader s.session.reqHeader).requestFilter hm s rfl
    rw [h] at hkept
    cases m with
    | rewrite m => exact (hm trivial).elim
    | rewriteMethod m => exact (hm trivial).elim
    | _ => exact hkept

end Turns

/-! ## The whole list -/

theorem withPath_eq_ok {H : HttpCrate} {u u' : Uri H} {path : Str} (h : u.withPath path = .ok u') :
    u'.scheme = u.scheme ∧ u'.authority = u.authority ∧ u'.pathText = path.beforeFirst '#' := by
  unfold Uri.withPath at h
  split at h
  · split at h
    · cases h
      exact ⟨rfl, rfl, rfl⟩
    · split at h <;> cases h
  · cases h

theorem head_beforeFirst_withSlash (path : Str) :
    ((RewriteMiddleware.withSlash path).beforeFirst '#').head? = some '/' := by
  have hslash : ∃ rest, RewriteMiddleware.withSlash path = '/' :: rest := by
    unfold RewriteMiddleware.withSlash
    cases path with
    | nil => exact ⟨[], rfl⟩
    | cons c rest =>
      by_cases hc : c = '/'
      · exact ⟨rest, by simp [hc]⟩
      · exact ⟨c :: rest, by simp [hc]⟩
  obtain ⟨rest, hrest⟩ := hslash
  rw [hrest]
  rfl

/-- A request that was made from another one: the same fields for the same server, and the same URI or a
path that starts with a slash. -/
structure MadeFrom (req req' : RequestHeader X.H) : Prop where
  headers : req'.headers = req.headers
  scheme : req'.uri.scheme = req.uri.scheme
  authority : req'.uri.authority = req.uri.authority
  path : req'.uri = req.uri ∨ req'.uri.pathText.head? = some '/'

theorem MadeFrom.refl (req : RequestHeader X.H) : MadeFrom req req :=
  ⟨rfl, rfl, rfl, .inl rfl⟩

theorem MadeFrom.trans {req req' req'' : RequestHeader X.H} (h : MadeFrom req req')
    (h' : MadeFrom req' req'') : MadeFrom req req'' := by
  refine ⟨h'.headers.trans h.headers, h'.scheme.trans h.scheme, h'.authority.trans h.authority, ?_⟩
  rcases h'.path with hsame | hslash
  · rw [hsame]
    exact h.path
  · exact .inr hslash

theorem RewriteMiddleware.Rewrites.madeFrom {m : RewriteMiddleware X} {s : RequestState X}
    {req req' : RequestHeader X.H} (h : m.Rewrites s req req') : MadeFrom req req' := by
  unfold RewriteMiddleware.Rewrites at h
  split at h
  · next path _ =>
    obtain ⟨uri, hbuilt, rfl⟩ := h
    obtain ⟨hscheme, hauthority, hpath⟩ := withPath_eq_ok hbuilt
    refine ⟨rfl, hscheme, hauthority, .inr ?_⟩
    rw [hpath]
    exact head_beforeFirst_withSlash path
  · rw [h]
    exact .refl req

theorem Middleware.OnRequest.madeFrom {m : Middleware X} {s : RequestState X}
    {req req' : RequestHeader X.H} (h : m.OnRequest s req req') : MadeFrom req req' := by
  unfold Middleware.OnRequest at h
  split at h
  · split at h
    · exact h.madeFrom
    · rw [h]
      exact .refl req
  · rw [h]
    split
    · exact ⟨rfl, rfl, rfl, .inl rfl⟩
    · exact .refl req
  · rw [h]
    exact .refl req

def Middleware.RewritesMethod : Middleware X → Prop
  | .rewriteMethod _ => True
  | _ => False

theorem Middleware.OnRequest.method {m : Middleware X} {s : RequestState X}
    {req req' : RequestHeader X.H} (h : m.OnRequest s req req') (hm : ¬ m.RewritesMethod) :
    req'.method = req.method := by
  cases m with
  | rewrite m =>
    change if s.applies m.celProgram then m.Rewrites _ req req' else req' = req at h
    split at h
    · unfold RewriteMiddleware.Rewrites at h
      split at h
      · obtain ⟨uri, -, rfl⟩ := h
        rfl
      · rw [h]
    · rw [h]
  | rewriteMethod m => exact (hm trivial).elim
  | _ => exact congrArg RequestHeader.method h

/-- **The request line.** When `request_filter` lets a request go on, it went through the middlewares one
by one, and each `rewrite` and `rewrite_method` that applied at its turn changed the path or the method of
what the ones before it had left, as its expressions evaluated then; nothing else changed the request. So
the fields, the scheme and the authority are those that came in, a URI that is not has a path with a slash
in front, and the last `rewrite_method` decides the method if it has no rule. -/
theorem request_line (proxy : LonesomeProxy X) {s s' : RequestState X} {route : Route X}
    (hroute : s.ctx.currentRoute = some route) (h : proxy.requestFilter.exec s = (.ok false, s')) :
    Through LineTurn route.content.middlewares s.withScope s' ∧
      MadeFrom s.session.reqHeader s'.session.reqHeader ∧
      ∀ before m after, route.content.middlewares = before ++ .rewriteMethod m :: after →
        m.celProgram = none → (∀ m' ∈ after, ¬ m'.RewritesMethod) →
        s'.session.reqHeader.method = String.ofList m.method := by
  have hthrough : Through LineTurn route.content.middlewares s.withScope s' :=
    (passes_of_requestFilter hroute h).map (g := id) fun m _ _ hm => ⟨hm, onRequest_of_passes hm⟩
  refine ⟨hthrough, ?_, fun before m after hlist hrule hafter => ?_⟩
  · exact hthrough.invariant (I := fun s₁ => MadeFrom s.session.reqHeader s₁.session.reqHeader)
      (fun _ _ _ hm hs => hs.trans hm.edits.madeFrom) (.refl _)
  · rw [hlist] at hthrough
    obtain ⟨s₁, s₂, -, hm, hlast⟩ := hthrough.last (g := fun s => s.session.reqHeader.method)
      (fun _ _ _ hm => hm.edits.method) hafter
    have hset : s₂.session.reqHeader = _ := hm.edits
    rw [show s'.session.reqHeader.method = _ from hlast, hset, hrule]
    rfl

/-! The request is turned into a `GET` of another path. -/

def turnedMiddlewares : List (Middleware Externals.plain) := [
  .rewriteMethod ⟨"GET".toList, none⟩,
  .rewrite ⟨.celRewrite (.string "b".toList), none⟩]

theorem request_line_turnedMiddlewares :
    ∃ s', (plainProxy turnedMiddlewares).requestFilter.exec (plainRun turnedMiddlewares []) =
        (.ok false, s') ∧
      s'.session.reqHeader.method = "GET" ∧ s'.session.reqHeader.uri.pathText = "/b".toList ∧
      MadeFrom (plainRun turnedMiddlewares []).session.reqHeader s'.session.reqHeader := by
  have hroute : (plainRun turnedMiddlewares []).ctx.currentRoute = some (plainRoute turnedMiddlewares) :=
    rfl
  obtain ⟨-, hmade, hmethod⟩ := request_line (plainProxy turnedMiddlewares) hroute rfl
  refine ⟨_, rfl, hmethod [] ⟨"GET".toList, none⟩ _ rfl rfl ?_, rfl, hmade⟩
  simp only [List.forall_mem_cons]
  exact ⟨id, fun _ hm => (nomatch hm)⟩

end Lonesome
