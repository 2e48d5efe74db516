import VibeScript.Proofs.Server.Params
import VibeScript.Proofs.Server.Responses

/-!
What a message does to the open documents, and what is published for it.

A message that is not about documents, or is malformed, leaves the documents alone and
publishes nothing (`Server.handle_of_no_event`).  One that means something for a document
has the effect of its event, unless the server cannot log it (`Server.handle_of_event`).
-/

namespace VibeScript

/-- What a message publishes: a name and the diagnostics that are shown for it. -/
def Json.published? (message : Json) : Option (Text × Json) := do
  let members ← message.members?
  let method ← (members.getD "method").str?
  let params ← (members.getD "params").members?
  let uri ← (params.getD "uri").str?
  if method = Server.publishMethod then some (uri, params.getD "diagnostics") else none

/-- The message that publishes diagnostics. -/
def publication (uri : Text) (diagnostics : List Diagnostic) : Json :=
  notification Server.publishMethod (Server.publishParams uri diagnostics)

theorem published?_publication (uri : Text) (diagnostics : List Diagnostic) :
    (publication uri diagnostics).published? =
      some (uri, .arr (diagnostics.map Diagnostic.toJson)) := rfl

theorem Answer.published?_response (id : Json) (answer : Answer) :
    (answer.response id).published? = none := by
  cases answer <;> rfl

/-- The open documents after an event. -/
def DocumentEvent.apply (documents : Documents) : DocumentEvent → Documents
  | .opened document => documents.insert document
  | .changed document => documents.update document.uri document.content document.version
  | .closed uri => documents.erase uri

theorem Documents.erase_of_get?_eq_none {documents : Documents} {uri : Text}
    (h : documents.get? uri = none) : documents.erase uri = documents := by
  rw [get?, List.find?_eq_none] at h
  rw [erase, List.filter_eq_self]
  simpa using h

/-- A text that was set is found under its name. -/
theorem Documents.exists_get?_update_self (documents : Documents) (uri content : Text)
    (version : Option Version) : ∃ stored,
      (documents.update uri content version).get? uri = some stored ∧
        stored.content = content :=
  ⟨⟨uri, _, content⟩, documents.get?_insert_self _, rfl⟩

theorem Documents.get?_update_of_ne (documents : Documents) {uri other : Text}
    (h : other ≠ uri) (content : Text) (version : Option Version) :
    (documents.update uri content version).get? other = documents.get? other := by
  rw [update]
  exact documents.get?_insert_of_ne h

/-- A context with the documents and the outbox of another one. -/
def Context.KeepsDocuments (ctx before : Context Session) : Prop :=
  ctx.outbox = before.outbox ∧ ctx.state.documents = before.state.documents

/-- A handler that has nothing to do with documents. -/
def Handler.Quiet (handler : Handler Session) : Prop :=
  ∀ params ctx, (handler params ctx).2.KeepsDocuments ctx

namespace Server

variable (server : Server)

/-- Whether the server goes through with an event: what it logs before must be writable. -/
def accepts : DocumentEvent → Bool
  | .opened document => server.canLog ("Document opened: " ++ document.uri)
  | .changed _ => true
  | .closed uri => server.canLog ("Document closed: " ++ uri)

/-- What is shown for a document: nothing if its diagnostics cannot be computed. -/
def diagnosed (document : Document) : List (Text × List Diagnostic) :=
  match diagnose server.compiler server.template server.source document.content with
  | .ok diagnostics => [(document.uri, diagnostics)]
  | .error _ => []

/-- What is shown for an event.  Closing clears what is shown, if the document is open. -/
def shown (documents : Documents) : DocumentEvent → List (Text × List Diagnostic)
  | .opened document | .changed document => server.diagnosed document
  | .closed uri => if (documents.get? uri).isSome then [(uri, [])] else []

theorem onInitialize_quiet : Handler.Quiet server.onInitialize := by
  intro params ctx
  apply server.loggingThen_cases (·.KeepsDocuments ctx)
  · exact ⟨rfl, rfl⟩
  · exact ⟨rfl, rfl⟩

theorem onInitialized_quiet : Handler.Quiet server.onInitialized := by
  intro params ctx
  apply server.loggingThen_cases (·.KeepsDocuments ctx)
  · exact ⟨rfl, rfl⟩
  · exact ⟨rfl, rfl⟩

theorem onShutdown_quiet : Handler.Quiet server.onShutdown := by
  intro params ctx
  apply server.loggingThen_cases (·.KeepsDocuments ctx)
  · exact ⟨rfl, rfl⟩
  · exact ⟨rfl, rfl⟩

theorem onExit_quiet : Handler.Quiet server.onExit := by
  intro params ctx
  apply server.loggingThen_cases (·.KeepsDocuments ctx)
  · exact ⟨rfl, rfl⟩
  · exact ⟨rfl, rfl⟩

theorem onCompletion_quiet : Handler.Quiet onCompletion := fun _ _ => ⟨rfl, rfl⟩

theorem onHover_quiet : Handler.Quiet server.onHover := by
  intro params ctx
  unfold onHover
  split <;> exact ⟨rfl, rfl⟩

/-- The handlers of other methods than the three about documents are quiet. -/
theorem quiet_of_called {envelope : Members} {handler : Handler Session}
    (hcalled : server.peer.called? envelope = some handler)
    (hopen : envelope.method? ≠ some "textDocument/didOpen")
    (hchange : envelope.method? ≠ some "textDocument/didChange")
    (hclose : envelope.method? ≠ some "textDocument/didClose") : handler.Quiet := by
  obtain ⟨method, hmethod, hhandles⟩ := server.handles_of_called hcalled
  rw [hmethod] at hopen hchange hclose
  cases hhandles with
  | onInitialize => exact server.onInitialize_quiet
  | onShutdown => exact server.onShutdown_quiet
  | onCompletion => exact onCompletion_quiet
  | onHover => exact server.onHover_quiet
  | onInitialized => exact server.onInitialized_quiet
  | onExit => exact server.onExit_quiet
  | onOpen => exact absurd rfl hopen
  | onChange => exact absurd rfl hchange
  | onClose => exact absurd rfl hclose

/-- The documents after an envelope are those after its handler. -/
theorem documents_of_called {envelope : Members} {handler : Handler Session}
    (hcalled : server.peer.called? envelope = some handler) (ctx : Context Session) :
    (server.peer.handle envelope ctx).2.state.documents =
      (handler (envelope.getD "params") { ctx with outbox := [] }).2.state.documents := by
  rcases (Peer.handle_follows hcalled ctx).state with hstate | ⟨report, hstate⟩
  · rw [hstate]
  · rw [hstate]
    rfl

/-- What an envelope publishes is what its handler queues. -/
theorem published_of_called {envelope : Members} {handler : Handler Session}
    (hcalled : server.peer.called? envelope = some handler) (ctx : Context Session) :
    (server.peer.handle envelope ctx).1.filterMap Json.published? =
      (handler (envelope.getD "params") { ctx with outbox := [] }).2.outbox.filterMap
        Json.published? := by
  obtain ⟨queued, answer, hhandled⟩ := Peer.exists_handled server.peer_notifies envelope ctx
  rw [hhandled.replies, hhandled.own handler hcalled, List.filterMap_append]
  cases hid : server.peer.answeredId? envelope with
  | none => rw [hhandled.unanswered hid, Option.toList_none, List.filterMap_nil, List.append_nil]
  | some id =>
      obtain ⟨a, rfl, _⟩ := hhandled.answered id hid
      simp [Answer.published?_response]

/-- An envelope whose handler is quiet, or that has none, publishes nothing and leaves the
documents alone. -/
theorem handle_of_quiet {envelope : Members} {ctx : Context Session}
    (hquiet : ∀ handler, server.peer.called? envelope = some handler →
      (handler (envelope.getD "params") { ctx with outbox := [] }).2.outbox = [] ∧
        (handler (envelope.getD "params") { ctx with outbox := [] }).2.state.documents =
          ctx.state.documents) :
    (server.peer.handle envelope ctx).1.filterMap Json.published? = [] ∧
      (server.peer.handle envelope ctx).2.state.documents = ctx.state.documents := by
  cases hcalled : server.peer.called? envelope with
  | some handler =>
      obtain ⟨houtbox, hdocuments⟩ := hquiet handler hcalled
      rw [server.published_of_called hcalled, server.documents_of_called hcalled, houtbox]
      exact ⟨rfl, hdocuments⟩
  | none =>
      obtain ⟨queued, answer, hhandled⟩ :=
        Peer.exists_handled server.peer_notifies envelope ctx
      obtain ⟨rfl, hafter⟩ := hhandled.idle hcalled
      rw [hafter, hhandled.replies]
      refine ⟨?_, rfl⟩
      cases hid : server.peer.answeredId? envelope with
      | none =>
          rw [hhandled.unanswered hid]
          rfl
      | some id =>
          obtain ⟨a, rfl, _⟩ := hhandled.answered id hid
          simp [Answer.published?_response]

section Calls

variable {envelope : Members}

theorem called?_of_open (h : envelope.get? "method" = some (.str "textDocument/didOpen")) :
    server.peer.called? envelope = some server.onOpen :=
  server.called?_of_notification h (.tail _ (.tail _ (.head _)))

theorem called?_of_change (h : envelope.get? "method" = some (.str "textDocument/didChange")) :
    server.peer.called? envelope = some server.onChange :=
  server.called?_of_notification h (.tail _ (.tail _ (.tail _ (.head _))))

theorem called?_of_close (h : envelope.get? "method" = some (.str "textDocument/didClose")) :
    server.peer.called? envelope = some server.onClose :=
  server.called?_of_notification h (.tail _ (.tail _ (.tail _ (.tail _ (.head _)))))

end Calls

/-- A message that means nothing for a document publishes nothing and changes none. -/
theorem handle_of_no_event {envelope : Members} (h : envelope.documentEvent? = none)
    (ctx : Context Session) :
    (server.peer.handle envelope ctx).1.filterMap Json.published? = [] ∧
      (server.peer.handle envelope ctx).2.state.documents = ctx.state.documents := by
  refine server.handle_of_quiet fun handler hcalled => ?_
  by_cases hopen : envelope.method? = some "textDocument/didOpen"
  · have hmethod := Members.method?_eq_some_iff.mp hopen
    rw [server.called?_of_open hmethod] at hcalled
    rw [Members.documentEvent?_of_open hmethod, Option.map_eq_none_iff] at h
    rw [← Option.some.inj hcalled, onOpen]
    split
    · exact ⟨rfl, rfl⟩
    · next document hread =>
        rw [hread] at h
        cases h
  by_cases hchange : envelope.method? = some "textDocument/didChange"
  · have hmethod := Members.method?_eq_some_iff.mp hchange
    rw [server.called?_of_change hmethod] at hcalled
    rw [Members.documentEvent?_of_change hmethod, Option.map_eq_none_iff] at h
    rw [← Option.some.inj hcalled, onChange]
    split
    · exact ⟨rfl, rfl⟩
    · exact ⟨rfl, rfl⟩
    · next document hread =>
        rw [hread] at h
        cases h
  by_cases hclose : envelope.method? = some "textDocument/didClose"
  · have hmethod := Members.method?_eq_some_iff.mp hclose
    rw [server.called?_of_close hmethod] at hcalled
    rw [Members.documentEvent?_of_close hmethod, Option.map_eq_none_iff] at h
    rw [← Option.some.inj hcalled, onClose]
    split
    · exact ⟨rfl, rfl⟩
    · next uri hread =>
        rw [hread] at h
        cases h
  · exact server.quiet_of_called hcalled hopen hchange hclose _ _

/-- The messages that publish what is shown. -/
def publications (shown : List (Text × List Diagnostic)) : List Json :=
  shown.map fun entry => publication entry.1 entry.2

theorem outbox_publish (document : Document) (ctx : Context Session) :
    (server.publish document.uri document.content ctx).2.outbox =
      ctx.outbox ++ publications (server.diagnosed document) := by
  unfold publish diagnosed
  cases diagnose server.compiler server.template server.source document.content with
  | error e => simp [publications]
  | ok diagnostics => rfl

theorem documents_publish (uri content : Text) (ctx : Context Session) :
    (server.publish uri content ctx).2.state.documents = ctx.state.documents := by
  unfold publish
  split <;> rfl

/-- What a handler does on an event: it queues what is shown, and the documents are those
after the event. -/
structure Performs (handler : Handler Session) (params : Json) (event : DocumentEvent) :
    Prop where
  accepted : server.accepts event = true → ∀ ctx : Context Session, ctx.outbox = [] →
    (handler params ctx).2.outbox = publications (server.shown ctx.state.documents event) ∧
      (handler params ctx).2.state.documents = event.apply ctx.state.documents
  refused : server.accepts event = false → ∀ ctx : Context Session,
    (handler params ctx).2 = ctx

theorem onOpen_performs {params : Json} {document : Document}
    (h : openParams params = .ok document) :
    server.Performs server.onOpen params (.opened document) := by
  constructor
  · intro haccepts ctx houtbox
    simp only [onOpen, h]
    rw [server.loggingThen_of_canLog haccepts, outbox_publish, documents_publish]
    simp only [Context.modify, houtbox, List.nil_append]
    exact ⟨rfl, rfl⟩
  · intro haccepts ctx
    simp only [onOpen, h]
    exact server.loggingThen_of_not_canLog haccepts _ ctx

theorem onChange_performs {params : Json} {document : Document}
    (h : changeParams params = .ok (some document)) :
    server.Performs server.onChange params (.changed document) := by
  constructor
  · intro _ ctx houtbox
    simp only [onChange, h]
    rw [outbox_publish, documents_publish]
    simp only [Context.modify, houtbox, List.nil_append]
    exact ⟨rfl, rfl⟩
  · intro haccepts
    cases haccepts

theorem onClose_performs {params : Json} {uri : Text} (h : closeParams params = .ok uri) :
    server.Performs server.onClose params (.closed uri) := by
  constructor
  · intro haccepts ctx houtbox
    simp only [onClose, h]
    rw [server.loggingThen_of_canLog haccepts]
    simp only [Context.modify, Session.log, shown, DocumentEvent.apply]
    cases hget : ctx.state.documents.get? uri with
    | none =>
        rw [Documents.erase_of_get?_eq_none hget]
        exact ⟨houtbox, rfl⟩
    | some document =>
        simp only [Context.notify, Context.send, houtbox]
        exact ⟨rfl, rfl⟩
  · intro haccepts ctx
    simp only [onClose, h]
    exact server.loggingThen_of_not_canLog haccepts _ ctx

/-- A message that means something for a document runs a handler that performs it, and
is not answered. -/
theorem exists_performs {envelope : Members} {event : DocumentEvent}
    (h : envelope.documentEvent? = some event) : ∃ handler,
      server.peer.called? envelope = some handler ∧ server.peer.answeredId? envelope = none ∧
        server.Performs handler (envelope.getD "params") event := by
  have hasked {method : Text} (hmethod : envelope.get? "method" = some (.str method))
      (hmem : method ∈ notificationMethods) : server.peer.answeredId? envelope = none := by
    rw [answeredId?_peer, askedId?, Members.method?_eq_some_iff.mpr hmethod]
    exact if_pos hmem
  have hcarries := Members.carries_iff.mpr h
  cases hcarries with
  | opened hmethod hparams hitem huri htext hversion =>
      refine ⟨_, server.called?_of_open hmethod, hasked hmethod (by decide +kernel),
        server.onOpen_performs (openParams_eq_ok_iff.mpr ?_)⟩
      exact ⟨_, _, Members.getD_of_get? hparams, hitem, huri, htext, hversion⟩
  | changed hmethod hparams hitem huri hchanges hlatest htext hversion =>
      refine ⟨_, server.called?_of_change hmethod, hasked hmethod (by decide +kernel),
        server.onChange_performs (changeParams_eq_ok_some_iff.mpr ?_)⟩
      exact ⟨_, _, _, _, Members.getD_of_get? hparams, hitem, huri, hchanges, hlatest, htext,
        hversion⟩
  | closed hmethod hparams hitem huri =>
      refine ⟨_, server.called?_of_close hmethod, hasked hmethod (by decide +kernel),
        server.onClose_performs (closeParams_eq_ok_iff.mpr ?_)⟩
      exact ⟨_, _, Members.getD_of_get? hparams, hitem, huri⟩

/-- A message that means something for a document has the effect of its event, and what is
shown for it is all that is sent. -/
theorem handle_of_event {envelope : Members} {event : DocumentEvent}
    (h : envelope.documentEvent? = some event) (haccepts : server.accepts event = true)
    (ctx : Context Session) :
    (server.peer.handle envelope ctx).1 =
        publications (server.shown ctx.state.documents event) ∧
      (server.peer.handle envelope ctx).2.state.documents =
        event.apply ctx.state.documents := by
  obtain ⟨handler, hcalled, hasked, hperforms⟩ := server.exists_performs h
  obtain ⟨houtbox, hdocuments⟩ :=
    hperforms.accepted haccepts { ctx with outbox := [] } rfl
  obtain ⟨queued, answer, hhandled⟩ := Peer.exists_handled server.peer_notifies envelope ctx
  rw [hhandled.replies, ← hhandled.own handler hcalled, hhandled.unanswered hasked,
    server.documents_of_called hcalled, houtbox, hdocuments]
  exact ⟨List.append_nil _, rfl⟩

/-- A message that the server cannot log has no effect. -/
theorem handle_of_refused {envelope : Members} {event : DocumentEvent}
    (h : envelope.documentEvent? = some event) (haccepts : server.accepts event = false)
    (ctx : Context Session) :
    (server.peer.handle envelope ctx).1 = [] ∧
      (server.peer.handle envelope ctx).2.state.documents = ctx.state.documents := by
  obtain ⟨handler, hcalled, hasked, hperforms⟩ := server.exists_performs h
  have hcall := hperforms.refused haccepts { ctx with outbox := [] }
  obtain ⟨queued, answer, hhandled⟩ := Peer.exists_handled server.peer_notifies envelope ctx
  rw [hhandled.replies, ← hhandled.own handler hcalled, hhandled.unanswered hasked,
    server.documents_of_called hcalled, hcall]
  exact ⟨rfl, rfl⟩

end Server

end VibeScript
