import VibeScript.Proofs.Rpc.Dispatch

/-!
What the replies of a peer depend on.

A view of the state shows a part of it.  If every handler of a peer goes by what the view
shows, and no report changes that, then contexts that agree in this part get the same
replies, and agree in it afterwards (`Peer.GoesBy.handle`).
-/

namespace VibeScript

variable {σ τ : Type} {view : σ → τ}

/-- Contexts that agree wherever it matters: what one state holds besides what the view
shows, the other need not. -/
structure Context.Agrees (view : σ → τ) (ctx other : Context σ) : Prop where
  state : view ctx.state = view other.state
  outbox : ctx.outbox = other.outbox
  running : ctx.running = other.running

/-- A handler that goes by what the view shows: contexts that agree get the same result,
and agree afterwards. -/
def Handler.GoesBy (view : σ → τ) (handler : Handler σ) : Prop :=
  ∀ params ctx other, Context.Agrees view ctx other →
    (handler params ctx).1 = (handler params other).1 ∧
      Context.Agrees view (handler params ctx).2 (handler params other).2

/-- A peer whose handlers go by what the view shows, and whose reports do not change it. -/
structure Peer.GoesBy (view : σ → τ) (peer : Peer σ) : Prop where
  requests : ∀ entry ∈ peer.requests, Handler.GoesBy view entry.2
  notifications : ∀ entry ∈ peer.notifications, Handler.GoesBy view entry.2
  report : ∀ report state, view (peer.report report state) = view state

namespace Context.Agrees

variable {ctx other : Context σ}

theorem refl (ctx : Context σ) : Context.Agrees view ctx ctx := ⟨rfl, rfl, rfl⟩

theorem symm (h : Context.Agrees view ctx other) : Context.Agrees view other ctx :=
  ⟨h.state.symm, h.outbox.symm, h.running.symm⟩

theorem trans {third : Context σ} (h : Context.Agrees view ctx other)
    (h' : Context.Agrees view other third) : Context.Agrees view ctx third :=
  ⟨h.state.trans h'.state, h.outbox.trans h'.outbox, h.running.trans h'.running⟩

theorem send (h : Context.Agrees view ctx other) (message : Json) :
    Context.Agrees view (ctx.send message) (other.send message) :=
  ⟨h.state, congrArg (· ++ [message]) h.outbox, h.running⟩

theorem stop (h : Context.Agrees view ctx other) :
    Context.Agrees view ctx.stop other.stop := ⟨h.state, h.outbox, rfl⟩

/-- With nothing queued, contexts that agree still agree. -/
theorem emptied (h : Context.Agrees view ctx other) :
    Context.Agrees view { ctx with outbox := [] } { other with outbox := [] } :=
  ⟨h.state, rfl, h.running⟩

end Context.Agrees

theorem Handler.GoesBy.exists_outcome {handler : Handler σ} (hhandler : handler.GoesBy view)
    {ctx other : Context σ} (h : Context.Agrees view ctx other) (params : Json) :
    ∃ result after after', handler params ctx = (result, after) ∧
      handler params other = (result, after') ∧ Context.Agrees view after after' := by
  obtain ⟨hresult, hafter⟩ := hhandler params ctx other h
  exact ⟨_, _, (handler params other).2, rfl, Prod.ext hresult.symm rfl, hafter⟩

namespace Peer.GoesBy

variable {peer : Peer σ} {ctx other : Context σ}

/-- A report leaves a context as it was, as far as the view shows. -/
theorem reporting (hpeer : peer.GoesBy view) (report : Text) (ctx : Context σ) :
    Context.Agrees view (peer.reporting report ctx) ctx :=
  ⟨hpeer.report report ctx.state, rfl, rfl⟩

/-- Reports keep contexts in agreement. -/
theorem both_reporting (hpeer : peer.GoesBy view) (h : Context.Agrees view ctx other)
    (report : Text) :
    Context.Agrees view (peer.reporting report ctx) (peer.reporting report other) :=
  (hpeer.reporting report ctx).trans (h.trans (hpeer.reporting report other).symm)

theorem respond (hpeer : peer.GoesBy view) {handler : Handler σ}
    (hhandler : handler.GoesBy view) (h : Context.Agrees view ctx other) (method : Text)
    (id params : Json) :
    Context.Agrees view (peer.respond handler method id params ctx)
      (peer.respond handler method id params other) := by
  obtain ⟨result, after, after', hctx, hother, hafter⟩ := hhandler.exists_outcome h params
  rw [Peer.respond, Peer.respond, hctx, hother]
  cases result with
  | ok value => exact hafter.send _
  | error failure =>
      cases failure with
      | crash message => exact (hpeer.both_reporting hafter _).send _
      | _ => exact hafter.send _

theorem observe (hpeer : peer.GoesBy view) {handler : Handler σ}
    (hhandler : handler.GoesBy view) (h : Context.Agrees view ctx other) (method : Text)
    (params : Json) :
    Context.Agrees view (peer.observe handler method params ctx)
      (peer.observe handler method params other) := by
  obtain ⟨result, after, after', hctx, hother, hafter⟩ := hhandler.exists_outcome h params
  rw [Peer.observe, Peer.observe, hctx, hother]
  cases result with
  | ok value => exact hafter
  | error failure => cases failure <;> exact hpeer.both_reporting hafter _

theorem dispatch (hpeer : peer.GoesBy view) (h : Context.Agrees view ctx other)
    (method : Text) (id params : Json) :
    Context.Agrees view (peer.dispatch method id params ctx)
      (peer.dispatch method id params other) := by
  unfold Peer.dispatch
  split
  · next handler hrequest =>
      split
      · exact h
      · exact hpeer.respond (hpeer.requests _ (mem_of_handler? hrequest)) h method id params
  · split
    · next handler hnotification =>
        exact hpeer.observe (hpeer.notifications _ (mem_of_handler? hnotification)) h
          method params
    · split
      · exact h
      · exact h.send _

/-- Contexts that agree get the same replies to an envelope, and agree behind it. -/
theorem handle (hpeer : peer.GoesBy view) (h : Context.Agrees view ctx other)
    (envelope : Members) :
    (peer.handle envelope ctx).1 = (peer.handle envelope other).1 ∧
      Context.Agrees view (peer.handle envelope ctx).2 (peer.handle envelope other).2 := by
  cases hmethod : envelope.method? with
  | none =>
      rw [peer.handle_of_no_method hmethod, peer.handle_of_no_method hmethod]
      exact ⟨rfl, h.emptied⟩
  | some method =>
      have hdispatch := hpeer.dispatch h.emptied method (envelope.getD "id")
        (envelope.getD "params")
      rw [peer.handle_of_method hmethod, peer.handle_of_method hmethod]
      exact ⟨hdispatch.outbox, hdispatch.emptied⟩

end Peer.GoesBy

end VibeScript
