import Lonesome.Proxy.CelStability
import Lonesome.Proxy.Turns

/-!
# Framing of rewritten error pages

`rewrite_error_page` replaces the header of an upstream error in one callback, and the proxy swaps the
body in another: `upstream_response_body_filter` gives out the page for the first chunk and drops the
others. `pingora` calls it once for each chunk of the upstream body, and not at all for a response
without a body.

The loop of `upstream_response_filter` is run with the page that the last replacing middleware served
noted beside the header (`Served`). Step by step the note agrees with the override that the body
filter will find (`Matching`), so the two callbacks agree on every sequence of chunks but the empty
one. Without a chunk they agree when no middleware replaces the header, or the last one that does has a
page without a body (`LastReplaced`): `error_page_framing_iff`.
-/

namespace Lonesome

open Lonesome.Lib

variable {X : Externals}

/-! ## The page beside the header -/

/-- The header on its way through the middlewares, and the page that it was last replaced by. -/
structure Served where
  header : ResponseHeader
  page : Option RenderedErrorPage

/-- The hook with the page noted. -/
def RewriteErrorPageMiddleware.serve (m : RewriteErrorPageMiddleware X) (served : Served) :
    ReqM X Served := do
  if ← m.shouldApply then
    if m.intercepts served.header then
      match ← resolveErrorPage X served.header.status with
      | none => return served
      | some page =>
        let resp ← replaceWith served.header (some page)
        return ⟨resp, some page⟩
    else return served
  else return served

def Middleware.serve (served : Served) : Middleware X → ReqM X Served
  | .rewriteErrorPage m => m.serve served
  | m => (fun resp => { served with header := resp }) <$> m.upstreamResponseFilter served.header

namespace LonesomeProxy

variable (X)

/-- `upstream_response_filter` with the page noted. -/
def serveUpstreamResponse (upstreamResponse : ResponseHeader) : ReqM X Served := do
  let s ← get
  match s.ctx.currentRoute with
  | none => return ⟨upstreamResponse, none⟩
  | some _ =>
    setUpstreamResHeader X upstreamResponse
    throughMiddlewares X (fun served m => m.serve served) ⟨upstreamResponse, none⟩

/-- The body filter, called once for each chunk. -/
def bodyPieces (chunks : List (Option Str)) : ReqM X (List (Option Str)) :=
  chunks.mapM (upstreamResponseBodyFilter X)

end LonesomeProxy

open LonesomeProxy (serveUpstreamResponse bodyPieces)

theorem RewriteErrorPageMiddleware.header_serve (m : RewriteErrorPageMiddleware X) (served : Served) :
    Served.header <$> m.serve served = m.upstreamResponseFilter served.header := by
  unfold serve upstreamResponseFilter
  rw [map_bind]
  refine bind_congr fun applies => ?_
  cases applies with
  | false => simp
  | true =>
    simp only [if_true]
    split
    · rw [map_bind]
      refine bind_congr fun page => ?_
      cases page with
      | none => simp [replaceWith]
      | some page => simp
    · simp

theorem Middleware.header_serve (served : Served) (m : Middleware X) :
    Served.header <$> m.serve served = m.upstreamResponseFilter served.header := by
  cases m with
  | rewriteErrorPage m => exact m.header_serve served
  | _ =>
    rw [serve, Functor.map_map]
    · exact id_map _
    · nofun

/-- The note changes nothing: the header is that of `upstream_response_filter`. -/
theorem header_serveUpstreamResponse (resp : ResponseHeader) :
    Served.header <$> serveUpstreamResponse X resp = LonesomeProxy.upstreamResponseFilter X resp := by
  unfold serveUpstreamResponse LonesomeProxy.upstreamResponseFilter
  rw [map_bind]
  refine bind_congr fun s => ?_
  cases s.ctx.currentRoute with
  | none => simp
  | some route =>
    simp only [map_bind]
    refine bind_congr fun _ => ?_
    unfold throughMiddlewares
    rw [map_bind]
    refine bind_congr fun ms => ?_
    refine map_foldlM (fun served m => ?_) ms _
    rw [map_bind]
    exact bind_congr fun _ => m.header_serve served

/-! ## The body filter -/

/-- What the override makes of the chunks. -/
def filterBody : Option ResponseBodyOverride → List (Option Str) → List (Option Str)
  | none, chunks => chunks
  | some (.replace _), [] => []
  | some (.replace body), _ :: rest => some body :: rest.map fun _ => none
  | some .dropRemaining, chunks => chunks.map fun _ => none

theorem exec_upstreamResponseBodyFilter (chunk : Option Str) (s : RequestState X) :
    (LonesomeProxy.upstreamResponseBodyFilter X chunk).exec s =
      match s.ctx.responseBodyOverride with
      | none => (.ok chunk, s)
      | some (.replace body) =>
        (.ok (some body), { s with ctx := { s.ctx with responseBodyOverride := some .dropRemaining } })
      | some .dropRemaining => (.ok none, s) := by
  unfold LonesomeProxy.upstreamResponseBodyFilter
  rw [exec_bind, exec_get]
  rcases h : s.ctx.responseBodyOverride with _ | _ | _ <;> simp only [h] <;> rfl

/-- The pieces that come out depend on the override and the chunks only. -/
theorem exec_bodyPieces (chunks : List (Option Str)) (s : RequestState X) :
    ((bodyPieces X chunks).exec s).1 = .ok (filterBody s.ctx.responseBodyOverride chunks) := by
  induction chunks generalizing s with
  | nil =>
    rcases h : s.ctx.responseBodyOverride with _ | _ | _ <;> rfl
  | cons chunk rest ih =>
    have hcons (a : Option Str) (s : RequestState X) :
        (Eff.exec (do return a :: (← bodyPieces X rest)) s).1 =
          .ok (a :: filterBody s.ctx.responseBodyOverride rest) := by
      have hrest := ih s
      rw [exec_bind]
      rcases hexec : (bodyPieces X rest).exec s with ⟨result, s'⟩
      rw [hexec] at hrest
      obtain rfl : result = _ := hrest
      rfl
    unfold bodyPieces at hcons ⊢
    rw [List.mapM_cons, exec_bind, exec_upstreamResponseBodyFilter]
    rcases h : s.ctx.responseBodyOverride with _ | _ | _
    · rw [hcons, h]
      rfl
    · rw [hcons]
      rfl
    · rw [hcons, h]
      rfl

/-- The bytes of the body that the pieces make up. -/
def joined (pieces : List (Option Str)) : Str :=
  pieces.flatMap (·.getD [])

theorem joined_replaced (body : Str) (n : List (Option Str)) :
    joined (some body :: n.map fun _ => none) = body := by
  have hnone : joined (n.map fun _ => none) = [] := by
    induction n with
    | nil => rfl
    | cons _ n ih => exact ih
  show body ++ joined (n.map fun _ => none) = body
  rw [hnone, List.append_nil]

/-! ## The header of a page -/

/-- The header announces a body of this length, and no other. -/
def Announces (header : ResponseHeader) (body : Str) : Prop :=
  (header.headers.getAll "content-length").map (·.toStr) = [some (contentLength body)]

theorem contentLength_visible (body : Str) : (contentLength body).all isVisibleAscii = true := by
  unfold contentLength
  generalize (HeaderValue.utf8Bytes body).length = n
  rw [List.all_eq_true]
  intro c hc
  have hdigit : c.isDigit = true :=
    Nat.isDigit_of_mem_toDigits (by decide) (by decide) (Nat.toList_repr ▸ hc)
  simp only [Char.isDigit, Bool.and_eq_true, decide_eq_true_eq, UInt32.le_iff_toNat_le] at hdigit
  have hrange : 48 ≤ c.toNat ∧ c.toNat ≤ 57 := hdigit
  simp only [isVisibleAscii, visibleCode, Bool.or_eq_true, Bool.and_eq_true, decide_eq_true_eq]
  omega

theorem announces_of_build {page : RenderedErrorPage} {resp : ResponseHeader}
    (h : buildErrorPageHeader page (contentLength page.body) = .ok resp) :
    Announces resp page.body := by
  obtain ⟨v, hv, hread⟩ := HeaderValue.exists_fromStr (contentLength_visible page.body)
  unfold buildErrorPageHeader at h
  obtain ⟨_, -, h⟩ := bind_eq_ok_iff.1 h
  obtain ⟨_, -, h⟩ := bind_eq_ok_iff.1 h
  -- both branches of the content type go on to the content length
  obtain ⟨before, h⟩ : ∃ before : ResponseHeader, (before.insertHeader "content-length"
      (HeaderValue.fromStr (contentLength page.body))).mapError
        (fun e => s!"invalid content-length: {e}") = .ok resp := by
    dsimp only at h
    split at h <;>
    · obtain ⟨before, -, h⟩ := bind_eq_ok_iff.1 h
      exact ⟨before, h⟩
  rw [hv] at h
  have hresp : resp = { before with headers := before.headers.insert "content-length" v } :=
    (Except.ok.inj h).symm
  rw [Announces, hresp, HeaderMap.getAll_insert, List.map_singleton, hread]

/-! ## One middleware after the other -/

/-- The note and the override of the body agree: both stand for the same page, which the header
announces, or no middleware has replaced the header that came. -/
def Matching (header : ResponseHeader) (served : Served) (o : Option ResponseBodyOverride) : Prop :=
  match served.page with
  | none => served.header = header ∧ o = none
  | some page => Announces served.header page.body ∧ o = some (.replace page.body)

/-- What is about the override alone is kept by the steps of all hooks. -/
theorem routine_bodyOverride (P : Option ResponseBodyOverride → Prop) :
    Routine X (fun _ => True) fun s => P s.ctx.responseBodyOverride where
  frame := fun s s' hagree h => by rwa [hagree.bodyOverride]
  makesScope := fun _ h => h
  evaluates := fun _ _ h => h
  addsVariable := fun _ _ _ _ h => h
  setsHeader := fun _ _ h => h
  begins := fun _ _ _ h => h

theorem RewriteErrorPageMiddleware.status_of_intercepts (m : RewriteErrorPageMiddleware X)
    {header : ResponseHeader} (h : m.intercepts header = true) : 400 ≤ header.status := by
  simp only [intercepts, Bool.and_eq_true, decide_eq_true_eq] at h
  exact h.1.1

section Steps

variable {header : ResponseHeader} {P : RequestState X → Prop}

theorem replaceWith_matching (header resp : ResponseHeader) (page : RenderedErrorPage) :
    Ensures P (RewriteErrorPageMiddleware.replaceWith (X := X) resp (some page))
      fun resp s => Matching header ⟨resp, some page⟩ s.ctx.responseBodyOverride := by
  intro s hs resp' s' hexec
  unfold RewriteErrorPageMiddleware.replaceWith at hexec
  rw [exec_bind] at hexec
  cases hbuild : buildErrorPageHeader page (contentLength page.body) with
  | error e =>
    rw [hbuild] at hexec
    cases hexec
  | ok built =>
    rw [hbuild] at hexec
    cases hexec
    exact ⟨announces_of_build hbuild, rfl⟩

theorem rewriteErrorPage_serve (m : RewriteErrorPageMiddleware X) (served : Served) :
    Ensures (fun s => Matching header served s.ctx.responseBodyOverride) (m.serve served)
      fun served s => Matching header served s.ctx.responseBodyOverride := by
  have hroutine := routine_bodyOverride (X := X) (Matching header served)
  refine .bind (hroutine.responds.shouldApply m.celProgram).ensures fun _ => ?_
  refine .ite (fun _ => ?_) fun _ => ensures_pure fun _ h => h
  refine .ite (fun hintercepts => ?_) fun _ => ensures_pure fun _ h => h
  have hstatus := m.status_of_intercepts hintercepts
  refine .bind (hroutine.responds.resolves served.header.status hstatus).ensures fun page => ?_
  cases page with
  | none => exact ensures_pure fun _ h => h
  | some page =>
    refine .bind (replaceWith_matching header served.header page) fun resp => ?_
    exact ensures_pure fun _ h => h

/-- The other middlewares pass the header on. -/
theorem upstreamResponseFilter_passes (hP : Routine X (fun _ => True) P) (resp : ResponseHeader)
    (m : Middleware X) (hm : ∀ m', m ≠ .rewriteErrorPage m') :
    Ensures P (m.upstreamResponseFilter resp) fun resp' s => resp' = resp ∧ P s := by
  have hpure : Ensures P (pure resp : ReqM X ResponseHeader) fun resp' s => resp' = resp ∧ P s :=
    ensures_pure fun _ h => ⟨rfl, h⟩
  cases m with
  | healthCheck m => exact .bind (hP.responds.healthCheck_observe _).ensures fun _ => hpure
  | setVariable m => exact .bind (hP.responds.setVariable_applyIn m trivial _).ensures fun _ => hpure
  | rewriteErrorPage m => exact absurd rfl (hm m)
  | _ => exact hpure

theorem middleware_serve (served : Served) (m : Middleware X) :
    Ensures (fun s => Matching header served s.ctx.responseBodyOverride) (m.serve served)
      fun served s => Matching header served s.ctx.responseBodyOverride := by
  by_cases hm : ∃ m', m = .rewriteErrorPage m'
  · obtain ⟨m, rfl⟩ := hm
    exact rewriteErrorPage_serve m served
  · have hserve : m.serve served =
        (m.upstreamResponseFilter served.header >>= fun resp => pure { served with header := resp }) := by
      rw [← map_eq_pure_bind]
      cases m <;> first | rfl | exact absurd ⟨_, rfl⟩ hm
    rw [hserve]
    refine .bind (upstreamResponseFilter_passes (routine_bodyOverride _) served.header m
      fun m' heq => hm ⟨m', heq⟩) fun resp => ?_
    rintro s ⟨rfl, h⟩ _ _ ⟨⟩
    exact h

/-- **The two callbacks agree**: after `upstream_response_filter` the override stands for the page
that the header announces, or the header is the one that came. -/
theorem serveUpstreamResponse_matching (header : ResponseHeader) :
    Ensures (fun s : RequestState X => s.ctx.responseBodyOverride = none)
      (serveUpstreamResponse X header)
      fun served s => Matching header served s.ctx.responseBodyOverride := by
  have hnone := routine_bodyOverride (X := X) (· = none)
  have hstart : Ensures (fun s : RequestState X => s.ctx.responseBodyOverride = none)
      (pure ⟨header, none⟩ : ReqM X Served)
      fun served s => Matching header served s.ctx.responseBodyOverride :=
    ensures_pure fun _ h => ⟨rfl, h⟩
  refine .bind keeps_get.ensures fun s => ?_
  split
  · exact hstart
  · refine .bind (hnone.setUpstreamResHeader (some header)).ensures fun _ => ?_
    refine .bind (Keeps.bind keeps_get fun _ => keeps_pure _).ensures fun ms => ?_
    have hloop := Ensures.foldlM (R := fun served s => Matching header served s.ctx.responseBodyOverride)
      (f := fun served (m : Middleware X) => do interleave X; m.serve served)
      ms (fun served m _ => .bind (routine_bodyOverride (Matching header served)).responds.interleave.ensures
        fun _ => middleware_serve served m) ⟨header, none⟩
    exact fun s h => hloop s ⟨rfl, h⟩

end Steps

/-! ## Framing -/

/-- The response that goes downstream, when the upstream sends this header and then these chunks: a
replaced header announces the page that the pieces of the body make up, otherwise header and chunks
are those of the upstream. -/
def Framed (s : RequestState X) (header : ResponseHeader) (chunks : List (Option Str)) : Prop :=
  ∀ served s', (serveUpstreamResponse X header).exec s = (.ok served, s') →
    ∀ pieces, ((bodyPieces X chunks).exec s').1 = .ok pieces →
      match served.page with
      | some page => joined pieces = page.body ∧ Announces served.header (joined pieces)
      | none => served.header = header ∧ pieces = chunks

/-! ## The page that is served -/

/-- One turn of `upstream_response_filter`. -/
abbrev HeaderTurn (m : Middleware X) (p p' : ResponseHeader × RequestState X) : Prop :=
  Turn (fun resp m => m.upstreamResponseFilter resp) m p p'

/-- The page by which the middleware replaces the header, at a turn that begins in the state: its rule
applies, the header is an error of one of its statuses with a body, as far as it tells, and the store
has a page for it. -/
def Middleware.replacement (m : Middleware X) (s : RequestState X) (header : ResponseHeader) :
    Option RenderedErrorPage :=
  match m with
  | .rewriteErrorPage m =>
    if s.applies m.celProgram && m.intercepts header then
      ((resolveErrorPage X header.status).exec (s.ruled m.celProgram)).1.toOption.join
    else none
  | _ => none

/-- A turn in which the header is not replaced. -/
def PassingTurn (m : Middleware X) (p p' : ResponseHeader × RequestState X) : Prop :=
  HeaderTurn m p p' ∧ m.replacement p.2.met p.1 = none

/-- The state in which the loop over the middlewares begins. -/
def RequestState.heard (s : RequestState X) (header : ResponseHeader) : RequestState X :=
  ((LonesomeProxy.setUpstreamResHeader X header).exec s).2

/-- The page that the last middleware to replace the header serves, after those before it have had their
turns and with none after it that replaces the header again. -/
def LastReplaced (s : RequestState X) (header : ResponseHeader) (page : RenderedErrorPage) : Prop :=
  ∃ route before m after p p' p'', s.ctx.currentRoute = some route ∧
    route.content.middlewares = before ++ m :: after ∧
    Through HeaderTurn before (header, s.heard header) p ∧
    m.replacement p.2.met p.1 = some page ∧ HeaderTurn m p p' ∧ Through PassingTurn after p' p''

section Notes

variable {s s' : RequestState X} {header header' : ResponseHeader} {note note' : Option RenderedErrorPage}

theorem RewriteErrorPageMiddleware.note_of_serve {m : RewriteErrorPageMiddleware X}
    (h : (m.serve ⟨header, note⟩).exec s = (.ok ⟨header', note'⟩, s')) :
    note' = ((Middleware.rewriteErrorPage m).replacement s header).or note := by
  unfold Middleware.replacement
  dsimp only
  rcases exec_whenApplies_eq_ok h with ⟨hskipped, hsame, -⟩ | ⟨happlies, hbody⟩
  · cases hsame
    rw [hskipped]
    rfl
  · rw [happlies, Bool.true_and]
    by_cases hintercepts : m.intercepts header = true
    · rw [if_pos hintercepts] at hbody ⊢
      obtain ⟨page, s₁, hresolve, hbody⟩ := exec_bind_eq_ok_iff.1 hbody
      rw [hresolve]
      cases page with
      | none =>
        cases hbody
        rfl
      | some page =>
        obtain ⟨_, _, -, hreturn⟩ := exec_bind_eq_ok_iff.1 hbody
        cases hreturn
        rfl
    · rw [if_neg hintercepts] at hbody ⊢
      cases hbody
      rfl

theorem note_of_serve {m : Middleware X}
    (h : (m.serve ⟨header, note⟩).exec s = (.ok ⟨header', note'⟩, s')) :
    note' = (m.replacement s header).or note := by
  cases m with
  | rewriteErrorPage m => exact RewriteErrorPageMiddleware.note_of_serve h
  | _ =>
    obtain ⟨_, -, hserved⟩ := exec_map_eq_ok_iff.1 h
    cases hserved
    rfl

/-- A turn with the page noted is a turn, and the note is the page of the last replacement. -/
theorem turn_serve_iff {m : Middleware X} :
    Turn (fun served m => m.serve served) m (⟨header, note⟩, s) (⟨header', note'⟩, s') ↔
      HeaderTurn m (header, s) (header', s') ∧ note' = (m.replacement s.met header).or note := by
  unfold HeaderTurn Turn
  dsimp only
  have hheader := m.header_serve ⟨header, note⟩
  dsimp only at hheader
  rw [← hheader, exec_map_eq_ok_iff]
  constructor
  · intro h
    exact ⟨⟨_, h, rfl⟩, note_of_serve h⟩
  · rintro ⟨⟨⟨_, page⟩, h, rfl⟩, rfl⟩
    obtain rfl := note_of_serve h
    exact h

/-- The turns of `upstream_response_filter`, with the pages noted. -/
theorem exec_serveUpstreamResponse_eq_ok_iff {route : Route X} {served : Served}
    (hroute : s.ctx.currentRoute = some route) :
    (serveUpstreamResponse X header).exec s = (.ok served, s') ↔
      Through (Turn fun served m => m.serve served) route.content.middlewares
        (⟨header, none⟩, s.heard header) (served, s') := by
  have hheard : (s.heard header).ctx.currentRoute = some route := hroute
  rw [← exec_throughMiddlewares_eq_ok_iff hheard, serveUpstreamResponse, exec_bind, exec_get]
  dsimp only
  rw [hroute]
  rfl

/-- What is noted along the list: the page of the last replacement, or what was noted before. -/
theorem last_or_kept {ms : List (Middleware X)} {served served' : Served}
    (h : Through (Turn fun served m => m.serve served) ms (served, s) (served', s')) :
    (served'.page = served.page ∧ Through PassingTurn ms (served.header, s) (served'.header, s')) ∨
      ∃ page before m after p p', served'.page = some page ∧ ms = before ++ m :: after ∧
        Through HeaderTurn before (served.header, s) p ∧ m.replacement p.2.met p.1 = some page ∧
        HeaderTurn m p p' ∧ Through PassingTurn after p' (served'.header, s') := by
  generalize hstart : (served, s) = start, hstop : (served', s') = stop at h
  induction h generalizing served s with
  | nil b =>
    cases hstart
    cases hstop
    exact .inl ⟨rfl, .nil _⟩
  | @cons m ms b b₁ b₂ hstep _ ih =>
    cases hstart
    obtain ⟨hturn, hnote⟩ := turn_serve_iff.1 hstep
    rcases ih rfl hstop with ⟨hkept, hpassing⟩ | ⟨page, before, m', after, p, p', hpage, rfl, hrest⟩
    · cases hreplaced : m.replacement s.met served.header with
      | none =>
        rw [hreplaced] at hnote
        exact .inl ⟨hkept.trans hnote, .cons ⟨hturn, hreplaced⟩ hpassing⟩
      | some page =>
        rw [hreplaced] at hnote
        exact .inr ⟨page, [], m, ms, _, _, hkept.trans hnote, rfl, .nil _, hreplaced, hturn, hpassing⟩
    · obtain ⟨hbefore, hlast⟩ := hrest
      exact .inr ⟨page, m :: before, m', after, p, p', hpage, rfl, .cons hturn hbefore, hlast⟩

/-- The page that is noted in the end is that of the last replacement. -/
theorem lastReplaced_of_serve {served : Served} {page : RenderedErrorPage}
    (h : (serveUpstreamResponse X header).exec s = (.ok served, s')) (hpage : served.page = some page) :
    LastReplaced s header page := by
  cases hroute : s.ctx.currentRoute with
  | none =>
    rw [serveUpstreamResponse, exec_bind, exec_get] at h
    dsimp only at h
    rw [hroute] at h
    cases h
    cases hpage
  | some route =>
    rcases last_or_kept ((exec_serveUpstreamResponse_eq_ok_iff hroute).1 h) with
      ⟨hkept, -⟩ | ⟨page', before, m, after, p, p', hpage', hms, hbefore, hreplaced, hturn, hafter⟩
    · rw [hpage] at hkept
      cases hkept
    · obtain rfl : page = page' := Option.some.inj (hpage.symm.trans hpage')
      exact ⟨route, before, m, after, p, p', _, hroute, hms, hbefore, hreplaced, hturn, hafter⟩

/-- The last replacement is noted in the end. -/
theorem serve_of_lastReplaced {page : RenderedErrorPage} (h : LastReplaced s header page) :
    ∃ served s', (serveUpstreamResponse X header).exec s = (.ok served, s') ∧ served.page = some page := by
  obtain ⟨route, before, m, after, p, ⟨header₁, s₁⟩, p'', hroute, hms, hbefore, hreplaced, hturn, hafter⟩ := h
  -- the turns before it, whatever is noted there
  obtain ⟨⟨⟨header₀, note₀⟩, s₀⟩, hserve₀, hp⟩ := hbefore.follow
    (T := Turn fun served (m : Middleware X) => m.serve served) (R := fun p c => (c.1.header, c.2) = p)
    (c := (⟨header, none⟩, s.heard header))
    (by
      rintro m b ⟨header', s'⟩ ⟨⟨header, note⟩, s⟩ hturn rfl
      exact ⟨(⟨header', _⟩, s'), turn_serve_iff.2 ⟨hturn, rfl⟩, rfl⟩)
    rfl
  subst hp
  have hserve₁ := turn_serve_iff.2 ⟨hturn, (congrArg (Option.or · note₀) hreplaced).symm⟩
  -- the turns after it keep the note
  obtain ⟨⟨served, s'⟩, hserve, -, hpage⟩ := hafter.follow
    (T := Turn fun served (m : Middleware X) => m.serve served)
    (R := fun p c => (c.1.header, c.2) = p ∧ c.1.page = some page) (c := (⟨header₁, some page⟩, s₁))
    (by
      rintro m b ⟨header', s'⟩ ⟨⟨header, note⟩, s⟩ ⟨hturn, hpasses⟩ ⟨rfl, rfl⟩
      refine ⟨(⟨header', some page⟩, s'), turn_serve_iff.2 ⟨hturn, ?_⟩, rfl, rfl⟩
      rw [hpasses]
      rfl)
    ⟨rfl, rfl⟩
  refine ⟨served, s', (exec_serveUpstreamResponse_eq_ok_iff hroute).2 ?_, hpage⟩
  rw [hms]
  exact hserve₀.append (.cons hserve₁ hserve)

end Notes

/-- The response of a header that has been replaced. -/
theorem framed_replaced_iff {header : ResponseHeader} {page : RenderedErrorPage}
    {chunks : List (Option Str)} (h : Announces header page.body) :
    (joined (filterBody (some (.replace page.body)) chunks) = page.body ∧
      Announces header (joined (filterBody (some (.replace page.body)) chunks))) ↔
      (chunks = [] → page.body = []) := by
  cases chunks with
  | nil =>
    constructor
    · intro hframed _
      exact hframed.1.symm
    · intro hempty
      have hbody : page.body = joined (filterBody (some (.replace page.body)) []) := hempty rfl
      rw [← hbody]
      exact ⟨rfl, h⟩
  | cons chunk rest =>
    rw [filterBody, joined_replaced]
    exact iff_of_true ⟨rfl, h⟩ fun hnil => (nomatch hnil)

/-- **Framing of rewritten error pages.** For every route, store and request that has not replaced a
response yet, and for every upstream header and the chunks that follow it, the response is framed if and
only if a chunk follows, or no middleware replaces the header, or the page of the last one that does is
empty. The header is that of `upstream_response_filter`. -/
theorem error_page_framing_iff {s : RequestState X} (hs : s.ctx.responseBodyOverride = none)
    (header : ResponseHeader) (chunks : List (Option Str)) :
    Served.header <$> serveUpstreamResponse X header = LonesomeProxy.upstreamResponseFilter X header ∧
    (Framed s header chunks ↔ (chunks = [] → ∀ page, LastReplaced s header page → page.body = [])) := by
  refine ⟨header_serveUpstreamResponse header, ?_⟩
  constructor
  · intro hframed hnil page hlast
    obtain ⟨served, s', hserve, hpage⟩ := serve_of_lastReplaced hlast
    have hmatch : Matching header served s'.ctx.responseBodyOverride :=
      serveUpstreamResponse_matching header s hs served s' hserve
    have hpieces := hframed served s' hserve _ (exec_bodyPieces chunks s')
    unfold Matching at hmatch
    rw [hpage] at hmatch hpieces
    rw [hmatch.2] at hpieces
    exact (framed_replaced_iff hmatch.1).1 hpieces hnil
  · intro h served s' hserve pieces hpieces
    have hmatch : Matching header served s'.ctx.responseBodyOverride :=
      serveUpstreamResponse_matching header s hs served s' hserve
    rw [exec_bodyPieces, Except.ok.injEq] at hpieces
    subst hpieces
    unfold Matching at hmatch
    cases hpage : served.page with
    | none =>
      rw [hpage] at hmatch
      rw [hmatch.2]
      exact ⟨hmatch.1, rfl⟩
    | some page =>
      rw [hpage] at hmatch
      rw [hmatch.2]
      exact (framed_replaced_iff hmatch.1).2 fun hnil => h hnil page (lastReplaced_of_serve hserve hpage)

/-! A store with one page for every error, and a route that serves it. -/

def downPage : ErrorPages.ErrorPageEntry (Cel.Expr Empty) where
  id := "down".toList
  statuses := []
  matcher := none
  body := some "down".toList
  bodyProgram := none
  contentType := none
  headers := []
  statusOverride := some 502
  priority := 0

def downPageConfig : ErrorPages.ErrorPageConfig where
  id := "down".toList
  status := none
  matcher := none
  body := some "down".toList
  bodyExpression := none
  contentType := none
  headers := []
  statusOverride := some 502
  priority := 0

/-- A request to the route, before the upstream answers. -/
def downState : RequestState Externals.plain :=
  let proxy := plainProxy [.rewriteErrorPage ⟨[], none⟩]
  proxy.run (proxy.incoming .plain (.plain ⟨[downPage]⟩) 0) [.requestFilter, .upstreamPeer]

/-- The page, rendered. -/
def downRendered : RenderedErrorPage where
  status := 502
  headers := []
  contentType := some "text/html; charset=utf-8".toList
  body := "down".toList

def downHeader : ResponseHeader where
  status := 502
  headers := [("content-type", .ofAscii "text/html; charset=utf-8".toList), ("content-length", .ofAscii "4".toList)]

theorem downState_serves :
    ((serveUpstreamResponse Externals.plain ⟨502, []⟩).exec downState).1 =
      .ok ⟨downHeader, some downRendered⟩ := rfl

/-- With a chunk of the upstream behind it, the page comes out. -/
theorem error_page_framing_downState : Framed downState ⟨502, []⟩ [some "upstream".toList] :=
  (error_page_framing_iff rfl ⟨502, []⟩ [some "upstream".toList]).2.2 fun h => (nomatch h)

/-- A `502` that ends with its header, without a content length: the page is announced, and nothing
comes out. -/
theorem bodiless_error_announces_page :
    ErrorPages.ErrorPageStore.new.update Externals.plain.crates downPageConfig = (⟨[downPage]⟩, .ok ()) ∧
    ((serveUpstreamResponse Externals.plain ⟨502, []⟩).exec downState).1 =
      .ok ⟨downHeader, some downRendered⟩ ∧
    Announces downHeader downRendered.body ∧ ¬ Framed downState ⟨502, []⟩ [] := by
  have hannounces : buildErrorPageHeader downRendered (contentLength downRendered.body) = .ok downHeader := rfl
  have hserves := downState_serves
  have hbuild : downPageConfig.build Externals.plain.crates = .ok downPage := rfl
  refine ⟨?_, hserves, announces_of_build hannounces, fun h => ?_⟩
  · rw [ErrorPages.ErrorPageStore.update, hbuild]
    exact congrArg (fun l => ((⟨l⟩, .ok ()) : ErrorPages.ErrorPageStore (Cel.Expr Empty) × Except String Unit))
      (List.mergeSort_singleton _)
  rcases hexec : (serveUpstreamResponse Externals.plain ⟨502, []⟩).exec downState with ⟨result, s'⟩
  rw [hexec] at hserves
  obtain rfl : result = _ := hserves
  exact absurd (h _ s' hexec [] rfl).1 (by decide)

end Lonesome
