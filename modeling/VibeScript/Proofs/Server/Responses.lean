import VibeScript.Proofs.Rpc.Dispatch
import VibeScript.Server.Session

/-!
The responses of the server.

Every handler of the server talks through notifications only, so whatever is sent to it,
the ids of its responses are those of the requests, each once and in their order.
-/

namespace VibeScript

namespace Server

variable (server : Server)

/-- Whether the log takes a line. -/
def canLog (line : Text) : Bool := server.sink = .anyText || (surrogateRun? line).isNone

/-- A line without a lone surrogate can be logged anywhere. -/
theorem canLog_of_no_surrogate {line : Text} (h : surrogateRun? line = none) :
    server.canLog line = true := by
  rw [canLog, h, Option.isNone_none, Bool.or_true]

theorem loggingThen_of_canLog {line : Text} (h : server.canLog line = true)
    (next : Context Session → Except Failure Json × Context Session) (ctx : Context Session) :
    server.loggingThen line next ctx = next (ctx.modify (·.log line)) := by
  have hlogging : server.logging line ctx = (.ok (), ctx.modify (·.log line)) := by
    unfold logging
    split
    · next e hsink hrun => simp [canLog, hsink, hrun] at h
    · rfl
  rw [loggingThen, hlogging]

/-- A line that cannot be logged fails in the same way wherever it stands. -/
theorem exists_logging_eq_of_not_canLog {line : Text} (h : server.canLog line = false) :
    ∃ message, ∀ ctx, server.logging line ctx = (.error (.crash message), ctx) := by
  simp only [canLog, Bool.or_eq_false_iff, decide_eq_false_iff_not] at h
  obtain ⟨hsink, hrun⟩ := h
  cases hsurrogates : surrogateRun? line with
  | none => simp [hsurrogates] at hrun
  | some e =>
      refine ⟨e.message, fun ctx => ?_⟩
      cases hserver : server.sink with
      | anyText => exact absurd hserver hsink
      | utf8File => rw [logging, hserver, hsurrogates]

theorem loggingThen_of_not_canLog {line : Text} (h : server.canLog line = false)
    (next : Context Session → Except Failure Json × Context Session) (ctx : Context Session) :
    (server.loggingThen line next ctx).2 = ctx := by
  obtain ⟨message, hlogging⟩ := server.exists_logging_eq_of_not_canLog h
  rw [loggingThen, hlogging]

/-- What holds of a context and of what is done behind the line in the log, holds
whether or not the line can be logged. -/
theorem loggingThen_cases {line : Text} {ctx : Context Session}
    {next : Context Session → Except Failure Json × Context Session}
    (holds : Context Session → Prop) (hrefused : holds ctx)
    (hlogged : holds (next (ctx.modify (·.log line))).2) :
    holds (server.loggingThen line next ctx).2 := by
  cases h : server.canLog line with
  | true =>
      rw [server.loggingThen_of_canLog h]
      exact hlogged
  | false =>
      rw [server.loggingThen_of_not_canLog h]
      exact hrefused

theorem extends_publish (uri content : Text) {ctx before : Context Session}
    (h : ctx.outbox = before.outbox) :
    (server.publish uri content ctx).2.Extends before := by
  unfold publish
  split
  · exact Context.extends_of_outbox_eq h
  · exact (Context.extends_of_outbox_eq h).notify _ _

theorem onInitialize_notifies : Handler.Notifies server.onInitialize := by
  intro params ctx
  apply server.loggingThen_cases (·.Extends ctx)
  · exact .refl ctx
  · exact Context.extends_of_outbox_eq rfl

theorem onInitialized_notifies : Handler.Notifies server.onInitialized := by
  intro params ctx
  apply server.loggingThen_cases (·.Extends ctx)
  · exact .refl ctx
  · exact Context.extends_of_outbox_eq rfl

theorem onShutdown_notifies : Handler.Notifies server.onShutdown := by
  intro params ctx
  apply server.loggingThen_cases (·.Extends ctx)
  · exact .refl ctx
  · exact Context.extends_of_outbox_eq rfl

theorem onExit_notifies : Handler.Notifies server.onExit := by
  intro params ctx
  apply server.loggingThen_cases (·.Extends ctx)
  · exact .refl ctx
  · exact Context.extends_of_outbox_eq rfl

theorem onOpen_notifies : Handler.Notifies server.onOpen := by
  intro params ctx
  unfold onOpen
  split
  · exact Context.Extends.refl ctx
  · exact server.loggingThen_cases (·.Extends ctx) (.refl ctx) (server.extends_publish _ _ rfl)

theorem onChange_notifies : Handler.Notifies server.onChange := by
  intro params ctx
  unfold onChange
  split
  · exact Context.Extends.refl ctx
  · exact Context.Extends.refl ctx
  · exact server.extends_publish _ _ rfl

theorem onClose_notifies : Handler.Notifies server.onClose := by
  intro params ctx
  unfold onClose
  split
  · exact Context.Extends.refl ctx
  · refine server.loggingThen_cases (·.Extends ctx) (.refl ctx) ?_
    split
    · exact Context.extends_of_outbox_eq rfl
    · exact Context.Extends.notify (Context.extends_of_outbox_eq rfl) _ _

theorem onCompletion_notifies : Handler.Notifies onCompletion := fun _ ctx =>
  Context.Extends.refl ctx

theorem onHover_notifies : Handler.Notifies server.onHover := by
  intro params ctx
  unfold onHover
  split <;> exact Context.Extends.refl ctx

/-- The handlers of the server, each with its method. -/
inductive Handles : Text → Handler Session → Prop
  | onInitialize : Handles "initialize" server.onInitialize
  | onShutdown : Handles "shutdown" server.onShutdown
  | onCompletion : Handles "textDocument/completion" onCompletion
  | onHover : Handles "textDocument/hover" server.onHover
  | onInitialized : Handles "initialized" server.onInitialized
  | onExit : Handles "exit" server.onExit
  | onOpen : Handles "textDocument/didOpen" server.onOpen
  | onChange : Handles "textDocument/didChange" server.onChange
  | onClose : Handles "textDocument/didClose" server.onClose

theorem handles_of_mem {method : Text} {handler : Handler Session}
    (h : (method, handler) ∈ server.peer.requests ∨
      (method, handler) ∈ server.peer.notifications) : server.Handles method handler := by
  simp only [peer, List.mem_cons, Prod.mk.injEq, List.not_mem_nil, or_false] at h
  rcases h with (⟨rfl, rfl⟩ | ⟨rfl, rfl⟩ | ⟨rfl, rfl⟩ | ⟨rfl, rfl⟩) |
    (⟨rfl, rfl⟩ | ⟨rfl, rfl⟩ | ⟨rfl, rfl⟩ | ⟨rfl, rfl⟩ | ⟨rfl, rfl⟩)
  · exact .onInitialize
  · exact .onShutdown
  · exact .onCompletion
  · exact .onHover
  · exact .onInitialized
  · exact .onExit
  · exact .onOpen
  · exact .onChange
  · exact .onClose

theorem handles_of_called {envelope : Members} {handler : Handler Session}
    (h : server.peer.called? envelope = some handler) :
    ∃ method, envelope.method? = some method ∧ server.Handles method handler := by
  obtain ⟨method, hmethod, hmem⟩ := Peer.mem_of_called h
  exact ⟨method, hmethod, server.handles_of_mem hmem⟩

theorem notifies_of_handles {method : Text} {handler : Handler Session}
    (h : server.Handles method handler) : handler.Notifies := by
  cases h with
  | onInitialize => exact server.onInitialize_notifies
  | onShutdown => exact server.onShutdown_notifies
  | onCompletion => exact onCompletion_notifies
  | onHover => exact server.onHover_notifies
  | onInitialized => exact server.onInitialized_notifies
  | onExit => exact server.onExit_notifies
  | onOpen => exact server.onOpen_notifies
  | onChange => exact server.onChange_notifies
  | onClose => exact server.onClose_notifies

theorem peer_notifies : server.peer.Notifies where
  requests := fun _ h => server.notifies_of_handles (server.handles_of_mem (Or.inl h))
  notifications := fun _ h => server.notifies_of_handles (server.handles_of_mem (Or.inr h))

/-- The methods that the server handles without an answer. -/
def notificationMethods : List Text :=
  ["initialized", "exit", "textDocument/didOpen", "textDocument/didChange",
    "textDocument/didClose"]

/-- The id of a message that the server has to answer. -/
def askedId? (envelope : Members) : Option Json :=
  envelope.method?.bind fun method =>
    if method ∈ notificationMethods then none else envelope.requestId?

theorem handler?_notifications_eq_none_iff (method : Text) :
    Peer.handler? server.peer.notifications method = none ↔ method ∉ notificationMethods :=
  Peer.handler?_eq_none_iff

theorem handler?_requests_of_mem {method : Text} (h : method ∈ notificationMethods) :
    Peer.handler? server.peer.requests method = none := by
  have hdisjoint : ∀ method ∈ notificationMethods,
      method ∉ (["initialize", "shutdown", "textDocument/completion",
        "textDocument/hover"] : List Text) := by
    decide +kernel
  exact Peer.handler?_eq_none_iff.mpr (hdisjoint method h)

theorem handler?_of_notification {method : Text} {handler : Handler Session}
    (hmem : (method, handler) ∈ server.peer.notifications) :
    Peer.handler? server.peer.requests method = none ∧
      Peer.handler? server.peer.notifications method = some handler := by
  have hdistinct : notificationMethods.Nodup := by decide +kernel
  have hlisted : method ∈ server.peer.notifications.map (·.1) :=
    List.mem_map.mpr ⟨(method, handler), hmem, rfl⟩
  exact ⟨server.handler?_requests_of_mem hlisted, Peer.handler?_eq_some_of_mem hdistinct hmem⟩

theorem handler?_of_request {method : Text} {handler : Handler Session}
    (hmem : (method, handler) ∈ server.peer.requests) :
    Peer.handler? server.peer.requests method = some handler := by
  have hdistinct : (["initialize", "shutdown", "textDocument/completion",
      "textDocument/hover"] : List Text).Nodup := by decide +kernel
  exact Peer.handler?_eq_some_of_mem hdistinct hmem

/-- The handler of a notification runs whenever its method comes. -/
theorem called?_of_notification {envelope : Members} {method : Text}
    {handler : Handler Session} (hmethod : envelope.get? "method" = some (.str method))
    (hmem : (method, handler) ∈ server.peer.notifications) :
    server.peer.called? envelope = some handler := by
  obtain ⟨hrequest, hnotification⟩ := server.handler?_of_notification hmem
  rw [Peer.called?, Members.method?_eq_some_iff.mpr hmethod, Option.bind_some, hrequest]
  exact hnotification

/-- The handler of a request runs if there is an id. -/
theorem called?_of_request {envelope : Members} {method : Text} {handler : Handler Session}
    (hmethod : envelope.get? "method" = some (.str method))
    (hmem : (method, handler) ∈ server.peer.requests) :
    server.peer.called? envelope = envelope.requestId?.map fun _ => handler := by
  rw [Peer.called?, Members.method?_eq_some_iff.mpr hmethod, Option.bind_some,
    server.handler?_of_request hmem]

theorem answeredId?_peer (envelope : Members) :
    server.peer.answeredId? envelope = askedId? envelope := by
  unfold Peer.answeredId? askedId?
  refine congrArg envelope.method?.bind (funext fun method => ?_)
  by_cases h : method ∈ notificationMethods
  · have hnotification : Peer.handler? server.peer.notifications method ≠ none := by
      intro hnone
      exact (server.handler?_notifications_eq_none_iff method).mp hnone h
    simp [h, hnotification, server.handler?_requests_of_mem h]
  · simp [h, (server.handler?_notifications_eq_none_iff method).mpr h]

end Server

/-- Whatever the handlers of a peer do, it sends for an envelope the notifications of its
own handler and then the one answer that is asked for.  The ids of the responses of the
server are those of the messages that it has to answer, in their order. -/
theorem replies_own_and_ids_in_order :
    (∀ {σ : Type} (peer : Peer σ), peer.Notifies → ∀ (envelope : Members) (ctx : Context σ),
      ∃ queued answer, peer.Handled envelope ctx queued answer) ∧
    ∀ (server : Server) (envelopes : List Members) (ctx : Context Session),
      (server.peer.exchange envelopes ctx).1.flatten.filterMap Json.responseId? =
        envelopes.filterMap Server.askedId? := by
  refine ⟨fun peer hpeer envelope ctx => Peer.exists_handled hpeer envelope ctx, ?_⟩
  intro server envelopes ctx
  rw [Peer.responseIds_exchange server.peer_notifies]
  exact congrArg (envelopes.filterMap ·) (funext server.answeredId?_peer)

/-- A request to a server that has something else in its outbox. -/
theorem replies_own_shutdown : Server.standard.peer.Notifies ∧
    ∃ queued answer, Server.standard.peer.Handled
      [("id", .int 7), ("method", .str "shutdown")]
      { Server.initial with outbox := [.null] } queued answer :=
  ⟨Server.standard.peer_notifies,
    replies_own_and_ids_in_order.1 Server.standard.peer Server.standard.peer_notifies _ _⟩

end VibeScript
