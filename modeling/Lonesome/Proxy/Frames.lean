import Lonesome.Proxy.Proxy

/-!
# What the hooks leave alone

Most steps of a hook change no more than the scope, the time, the history and what the requests of the
process share. A property of a request that does not look at these (`Indifferent`) is kept by all hooks that
only evaluate (`Evaluates`); when it does not look at the response either (`Unanswering`), it is kept by
those that answer (`Responds`), too. What else a hook writes is left to the property at hand.
-/

namespace Lonesome

open Lonesome.Lib

variable {X : Externals}

/-- The later state differs in the scope, the time, the history and the process only. -/
structure Unheard (s s' : RequestState X) : Prop where
  session : s'.session = s.session
  ctx : s'.ctx = { s.ctx with sessionCelContext := s'.ctx.sessionCelContext }

/-- A property of the rest. -/
structure Indifferent (I : RequestState X → Prop) : Prop where
  closed : ∀ s s', Unheard s s' → I s → I s'

/-- The property does not look at the response, nor at the other parts of the session beside the
request. -/
structure Unanswering (I : RequestState X → Prop) : Prop extends Indifferent I where
  session : ∀ f : Session X.H → Session X.H, KeepsRequest f → Keeps I (modifySession X f)

namespace Indifferent

variable {I : RequestState X → Prop} (hI : Indifferent I)
include hI

/-- A write to the scope. -/
theorem modifyScope {f : ProxyCtx X → ProxyCtx X}
    (hf : ∀ ctx, f ctx = { ctx with sessionCelContext := (f ctx).sessionCelContext }) :
    Keeps I (modifyCtx X f) :=
  keeps_modify fun s => hI.closed s _ ⟨rfl, hf s.ctx⟩

theorem ensureSessionCelContext : Keeps I (ensureSessionCelContext X) := by
  intro s h
  rw [exec_ensureSessionCelContext]
  exact hI.closed s _ ⟨rfl, rfl⟩ h

theorem executeIn (inside : Bool) (program : X.Program) : Keeps I (executeIn X inside program) := by
  intro s h
  rw [exec_executeIn]
  exact hI.closed s _ ⟨rfl, rfl⟩ h

theorem evaluates : Evaluates X (fun _ => True) I where
  tick := fun s => hI.closed s _ ⟨rfl, rfl⟩
  modifyShared := fun _ => keeps_modify fun s => hI.closed s _ ⟨rfl, rfl⟩
  ensureSessionCelContext := hI.ensureSessionCelContext
  executeIn := hI.executeIn
  addVariable := fun _ _ _ => .bind hI.ensureSessionCelContext fun _ => hI.modifyScope fun _ => rfl
  setsHeader := fun _ => hI.modifyScope fun _ => rfl
  resolves := fun status _ s h =>
    resolveErrorPage_induct (hI.executeIn true) status (hI.closed s _ ⟨rfl, rfl⟩ h)

theorem jwt_authorize (m : JwtMiddleware X) : Keeps I m.authorize := by
  refine hI.evaluates.jwt_authorize trivial (fun _ => ?_) m
  exact .bind hI.ensureSessionCelContext fun _ => hI.modifyScope fun _ => rfl

theorem authorizes (m : Middleware X) : m.Authorizes I := by
  cases m with
  | jwt m => exact hI.jwt_authorize m
  | _ => trivial

theorem phase (hbody : ∀ o, Keeps I (modifyCtx X fun ctx => { ctx with responseBodyOverride := o }))
    (proxy : LonesomeProxy X) {p : Phase X} (hp : p.Observes) : Keeps I (p.run proxy) :=
  hI.evaluates.phase (ofRoute_writesOnly I) hbody proxy hp

end Indifferent

theorem Unanswering.requestFilter {I : RequestState X → Prop} (hI : Unanswering I) {m : Middleware X}
    (hm : ¬ m.RewritesRequest) : Keeps I m.requestFilter := by
  have hresponds : Responds X (fun _ => True) I := ⟨hI.evaluates, hI.session⟩
  exact hresponds.filter m.writesOnly_any (hI.authorizes m) hm

/-! ## Properties that do not look at the session -/

namespace Indifferent

variable {I : RequestState X → Prop} (hI : Indifferent I)
  (hsession : ∀ f, Keeps I (modifySession X f))
include hI hsession

theorem responds : Responds X (fun _ => True) I :=
  ⟨hI.evaluates, fun f _ => hsession f⟩

theorem proxy_requestFilter (proxy : LonesomeProxy X) : Keeps I proxy.requestFilter :=
  (hI.responds hsession).proxy_requestFilter (fun f _ => hsession f) (ofRoute_writesOnly I)
    (fun _ _ _ _ m _ => hI.authorizes m) proxy

end Indifferent

end Lonesome
