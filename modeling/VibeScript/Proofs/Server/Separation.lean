import VibeScript.Proofs.Server.LastWriter

/-!
Documents do not interfere.

Two servers that hold the same under a name are told apart neither by messages about the
document of that name nor by messages about none (`Server.replies_eq_of_get?_eq`), and every
message leaves them in agreement (`Server.get?_handle_congr`).  A message that writes another
document changes nothing there (`Server.get?_handle_of_writesOther`), so a session goes on in
the same way, as far as one document is concerned, if such messages are left out of it
(`transcript_of_leavesOut`).
-/

namespace VibeScript

/-! Messages about other documents. -/

/-- The methods of the messages that open, change and close a document. -/
def documentMethods : List Text :=
  ["textDocument/didOpen", "textDocument/didChange", "textDocument/didClose"]

/-- The name of the document that a message has in its params. -/
def Members.namedUri? (envelope : Members) : Option Text := do
  let params ← (envelope.getD "params").members?
  let item ← (params.getD "textDocument").members?
  (item.getD "uri").str?

/-- A message that opens, changes or closes a document, but not the given one. -/
def Members.writesOther (uri : Text) (envelope : Members) : Bool :=
  envelope.method?.any (· ∈ documentMethods) && envelope.namedUri? ≠ some uri

/-- A hover on another document than the given one. -/
def Members.readsOther (uri : Text) (envelope : Members) : Bool :=
  envelope.method? = some (text "textDocument/hover") &&
    (hoverParams (envelope.getD "params")).toOption.any (·.uri ≠ uri)

/-- A message about another document than the given one. -/
def Members.aboutOther (uri : Text) (envelope : Members) : Bool :=
  envelope.writesOther uri || envelope.readsOther uri

theorem Json.members?_eq_some_iff {value : Json} {members : Members} :
    value.members? = some members ↔ value = .obj members := by
  cases value <;> simp [members?]

theorem Json.str?_eq_some_iff {value : Json} {t : Text} :
    value.str? = some t ↔ value = .str t := by
  cases value <;> simp [str?]

theorem Members.namedUri?_eq_some_iff {envelope : Members} {uri : Text} :
    envelope.namedUri? = some uri ↔ ∃ params item : Members,
      envelope.getD "params" = .obj params ∧
      params.get? "textDocument" = some (.obj item) ∧
      item.get? "uri" = some (.str uri) := by
  simp only [namedUri?, Option.bind_eq_bind, Option.bind_eq_some_iff,
    Json.members?_eq_some_iff, Json.str?_eq_some_iff]
  constructor
  · rintro ⟨params, hparams, item, hitem, huri⟩
    exact ⟨params, item, hparams, get?_of_getD hitem rfl, get?_of_getD huri rfl⟩
  · rintro ⟨params, item, hparams, hitem, huri⟩
    exact ⟨params, hparams, item, getD_of_get? hitem, getD_of_get? huri⟩

section Messages

variable {envelope : Members} {uri : Text}

/-- A message means something for the document that it names. -/
theorem Members.namedUri?_of_event {event : DocumentEvent}
    (h : envelope.documentEvent? = some event) : envelope.namedUri? = some event.uri := by
  have hcarries := carries_iff.mpr h
  rw [namedUri?_eq_some_iff]
  cases hcarries with
  | opened _ hparams hitem huri _ => exact ⟨_, _, getD_of_get? hparams, hitem, huri⟩
  | changed _ hparams hitem huri _ _ _ => exact ⟨_, _, getD_of_get? hparams, hitem, huri⟩
  | closed _ hparams hitem huri => exact ⟨_, _, getD_of_get? hparams, hitem, huri⟩

theorem Members.event_uri_ne_of_writesOther {event : DocumentEvent}
    (h : envelope.writesOther uri = true) (hevent : envelope.documentEvent? = some event) :
    event.uri ≠ uri := by
  rintro rfl
  simp [writesOther, namedUri?_of_event hevent] at h

/-- A closing that is about no other document closes the given one. -/
theorem closed_of_not_aboutOther {name : Text} (h : envelope.aboutOther uri = false)
    (hmethod : envelope.method? = some (text "textDocument/didClose"))
    (hread : closeParams (envelope.getD "params") = .ok name) : name = uri := by
  have hnamed : envelope.namedUri? = some name :=
    Members.namedUri?_eq_some_iff.mpr (closeParams_eq_ok_iff.mp hread)
  have hlisted : (text "textDocument/didClose") ∈ documentMethods := by decide +kernel
  have hboth : name = uri ∧ envelope.readsOther uri = false := by
    simpa [Members.aboutOther, Members.writesOther, hmethod, hlisted, hnamed] using h
  exact hboth.1

/-- A hover that is about no other document asks about the given one. -/
theorem asked_of_not_aboutOther {asked : HoverParams} (h : envelope.aboutOther uri = false)
    (hmethod : envelope.method? = some (text "textDocument/hover"))
    (hread : hoverParams (envelope.getD "params") = .ok asked) : asked.uri = uri := by
  have hboth : envelope.writesOther uri = false ∧ asked.uri = uri := by
    simpa [Members.aboutOther, Members.readsOther, hmethod, hread, Except.toOption] using h
  exact hboth.2

/-- A hover asks about the document that its params name. -/
theorem asked_eq_of_named {asked : HoverParams} (h : envelope.namedUri? = some uri)
    (hread : hoverParams (envelope.getD "params") = .ok asked) : asked.uri = uri := by
  obtain ⟨params, item, hparams, hitem, huri⟩ := Members.namedUri?_eq_some_iff.mp h
  have hposition : readHoverParams (envelope.getD "params") = .ok asked := by
    rw [hoverParams] at hread
    split at hread
    · next hfound => exact hfound.trans hread
    · cases hread
  rw [hparams] at hposition
  obtain ⟨found, hfound, hrest⟩ := exists_of_bind_eq_ok hposition
  obtain rfl : item = found := by
    rw [textDocument_obj hitem] at hfound
    exact Except.ok.inj hfound
  obtain ⟨name, hname, hrest⟩ := exists_of_bind_eq_ok hrest
  obtain rfl : uri = name := by
    rw [requireString, huri] at hname
    exact Except.ok.inj hname
  obtain ⟨_, _, hrest⟩ := exists_of_bind_eq_ok hrest
  obtain ⟨_, _, hrest⟩ := exists_of_bind_eq_ok hrest
  obtain ⟨_, _, hrest⟩ := exists_of_bind_eq_ok hrest
  obtain ⟨_, _, hrest⟩ := exists_of_bind_eq_ok hrest
  cases hrest
  rfl

/-- A message that names a document is about no other one. -/
theorem not_aboutOther_of_named (h : envelope.namedUri? = some uri) :
    envelope.aboutOther uri = false := by
  rw [Members.aboutOther, Bool.or_eq_false_iff]
  constructor
  · simp [Members.writesOther, h]
  · rw [Members.readsOther]
    cases hread : hoverParams (envelope.getD "params") with
    | error fault => exact Bool.and_false _
    | ok asked => simp [Except.toOption, asked_eq_of_named h hread]

end Messages

/-! What a peer sends depends on what its handler gives. -/

/-- What a handler gives and queues, the same in two contexts. -/
structure SameOutcome {σ : Type} (first second : Except Failure Json × Context σ) : Prop where
  result : first.1 = second.1
  outbox : first.2.outbox = second.2.outbox

theorem Peer.replies_congr {σ : Type} {peer : Peer σ} (hpeer : peer.Notifies)
    {envelope : Members} {ctx other : Context σ}
    (h : ∀ handler, peer.called? envelope = some handler → SameOutcome
      (handler (envelope.getD "params") { ctx with outbox := [] })
      (handler (envelope.getD "params") { other with outbox := [] })) :
    (peer.handle envelope ctx).1 = (peer.handle envelope other).1 := by
  obtain ⟨queued, answer, hctx⟩ := Peer.exists_handled hpeer envelope ctx
  obtain ⟨queued', answer', hother⟩ := Peer.exists_handled hpeer envelope other
  have hqueued : (queued.map fun n => notification n.1 n.2) =
      queued'.map fun n => notification n.1 n.2 := by
    cases hcalled : peer.called? envelope with
    | none => rw [(hctx.idle hcalled).1, (hother.idle hcalled).1]
    | some handler =>
        rw [← hctx.own handler hcalled, ← hother.own handler hcalled]
        exact (h handler hcalled).outbox
  have hanswer : answer = answer' := by
    cases hasked : peer.answeredId? envelope with
    | none => rw [hctx.unanswered hasked, hother.unanswered hasked]
    | some id =>
        obtain ⟨a, rfl, ha⟩ := hctx.answered id hasked
        obtain ⟨a', rfl, ha'⟩ := hother.answered id hasked
        cases hcalled : peer.called? envelope with
        | none =>
            rw [hcalled] at ha ha'
            rw [ha, ha']
        | some handler =>
            rw [hcalled] at ha ha'
            rw [ha, ha', (h handler hcalled).result]
  rw [hctx.replies, hother.replies, hqueued, hanswer]

/-! The documents of two servers. -/

/-- What one event does to the document of a name depends on that document only. -/
theorem DocumentEvent.get?_apply_congr {documents others : Documents} {uri : Text}
    (h : documents.get? uri = others.get? uri) (event : DocumentEvent) :
    (event.apply documents).get? uri = (event.apply others).get? uri := by
  by_cases huri : event.uri = uri
  · subst huri
    cases event with
    | opened document =>
        exact (documents.get?_insert_self document).trans (others.get?_insert_self document).symm
    | changed document =>
        have hversion : documents.get? document.uri = others.get? document.uri := h
        simp only [apply, Documents.update, hversion]
        exact (documents.get?_insert_self _).trans (others.get?_insert_self _).symm
    | closed name =>
        exact (documents.get?_erase_self name).trans (others.get?_erase_self name).symm
  · rw [event.get?_apply_of_ne huri, event.get?_apply_of_ne huri, h]

namespace Server

variable (server : Server)

section Steps

variable {uri : Text} {ctx other : Context Session}

/-- Where two servers hold the same under a name, they do so after any message. -/
theorem get?_handle_congr
    (h : ctx.state.documents.get? uri = other.state.documents.get? uri) (envelope : Members) :
    (server.peer.handle envelope ctx).2.state.documents.get? uri =
      (server.peer.handle envelope other).2.state.documents.get? uri := by
  rw [documents_handle, documents_handle]
  cases server.event? envelope with
  | none => exact h
  | some event => exact event.get?_apply_congr h

/-- A message that writes another document leaves this one as it is. -/
theorem get?_handle_of_writesOther {envelope : Members}
    (h : envelope.writesOther uri = true) (ctx : Context Session) :
    (server.peer.handle envelope ctx).2.state.documents.get? uri =
      ctx.state.documents.get? uri := by
  rw [documents_handle]
  cases hevent : server.event? envelope with
  | none => rfl
  | some event =>
      have hread := Members.carries_iff.mp (server.event?_eq_some_iff.mp hevent).1
      exact event.get?_apply_of_ne (Members.event_uri_ne_of_writesOther h hread) _

/-- What is done behind a line in the log is the same if it is the same with the line in the
journals. -/
theorem loggingThen_sameOutcome {line : Text}
    {next : Context Session → Except Failure Json × Context Session}
    (houtbox : ctx.outbox = other.outbox)
    (hnext : SameOutcome (next (ctx.modify (·.log line))) (next (other.modify (·.log line)))) :
    SameOutcome (server.loggingThen line next ctx) (server.loggingThen line next other) := by
  cases hlogs : server.canLog line with
  | true =>
      rw [server.loggingThen_of_canLog hlogs, server.loggingThen_of_canLog hlogs]
      exact hnext
  | false =>
      obtain ⟨message, hlogging⟩ := server.exists_logging_eq_of_not_canLog hlogs
      rw [loggingThen, loggingThen, hlogging, hlogging]
      exact ⟨rfl, houtbox⟩

theorem publish_sameOutcome (name content : Text) (houtbox : ctx.outbox = other.outbox) :
    SameOutcome (server.publish name content ctx) (server.publish name content other) := by
  unfold publish
  split
  · exact ⟨rfl, houtbox⟩
  · exact ⟨rfl, congrArg (· ++ _) houtbox⟩

theorem onOpen_sameOutcome (params : Json) (houtbox : ctx.outbox = other.outbox) :
    SameOutcome (server.onOpen params ctx) (server.onOpen params other) := by
  simp only [onOpen]
  cases openParams params with
  | error fault => exact ⟨rfl, houtbox⟩
  | ok document =>
      exact server.loggingThen_sameOutcome houtbox (server.publish_sameOutcome _ _ houtbox)

theorem onChange_sameOutcome (params : Json) (houtbox : ctx.outbox = other.outbox) :
    SameOutcome (server.onChange params ctx) (server.onChange params other) := by
  simp only [onChange]
  cases changeParams params with
  | error fault => exact ⟨rfl, houtbox⟩
  | ok change =>
      cases change with
      | none => exact ⟨rfl, houtbox⟩
      | some document => exact server.publish_sameOutcome _ _ houtbox

/-- A closing looks up the document that it names. -/
theorem onClose_sameOutcome {params : Json} (houtbox : ctx.outbox = other.outbox)
    (h : ∀ name, closeParams params = .ok name →
      ctx.state.documents.get? name = other.state.documents.get? name) :
    SameOutcome (server.onClose params ctx) (server.onClose params other) := by
  simp only [onClose]
  cases hread : closeParams params with
  | error fault => exact ⟨rfl, houtbox⟩
  | ok name =>
      refine server.loggingThen_sameOutcome houtbox ?_
      have hname : (ctx.modify (·.log ("Document closed: " ++ name))).state.documents.get? name =
          (other.modify (·.log ("Document closed: " ++ name))).state.documents.get? name :=
        h name hread
      simp only [hname]
      split
      · exact ⟨rfl, houtbox⟩
      · exact ⟨rfl, congrArg (· ++ _) houtbox⟩

/-- A hover looks up the document that it asks about. -/
theorem onHover_sameOutcome {params : Json} (houtbox : ctx.outbox = other.outbox)
    (h : ∀ asked, hoverParams params = .ok asked →
      ctx.state.documents.get? asked.uri = other.state.documents.get? asked.uri) :
    SameOutcome (server.onHover params ctx) (server.onHover params other) := by
  simp only [onHover]
  cases hread : hoverParams params with
  | error fault => exact ⟨rfl, houtbox⟩
  | ok asked =>
      have hshown : server.hover ctx.state.documents asked =
          server.hover other.state.documents asked := by
        rw [hover, hover, h asked hread]
      exact ⟨congrArg Except.ok hshown, houtbox⟩

/-- A message about no other document is handled alike where the servers hold the same under
this name. -/
theorem sameOutcome_of_handles {method : Text} {handler : Handler Session}
    {envelope : Members} (hhandles : server.Handles method handler)
    (hmethod : envelope.method? = some method) (habout : envelope.aboutOther uri = false)
    (h : ctx.state.documents.get? uri = other.state.documents.get? uri)
    (houtbox : ctx.outbox = other.outbox) :
    SameOutcome (handler (envelope.getD "params") ctx)
      (handler (envelope.getD "params") other) := by
  cases hhandles with
  | onInitialize => exact server.loggingThen_sameOutcome houtbox ⟨rfl, houtbox⟩
  | onShutdown => exact server.loggingThen_sameOutcome houtbox ⟨rfl, houtbox⟩
  | onCompletion => exact ⟨rfl, houtbox⟩
  | onInitialized => exact server.loggingThen_sameOutcome houtbox ⟨rfl, houtbox⟩
  | onExit => exact server.loggingThen_sameOutcome houtbox ⟨rfl, houtbox⟩
  | onOpen => exact server.onOpen_sameOutcome _ houtbox
  | onChange => exact server.onChange_sameOutcome _ houtbox
  | onClose =>
      refine server.onClose_sameOutcome houtbox fun name hread => ?_
      rw [closed_of_not_aboutOther habout hmethod hread, h]
  | onHover =>
      refine server.onHover_sameOutcome houtbox fun asked hread => ?_
      rw [asked_of_not_aboutOther habout hmethod hread, h]

/-- Servers that hold the same under a name send the same for a message about no other
document. -/
theorem replies_eq_of_get?_eq {envelope : Members} (habout : envelope.aboutOther uri = false)
    (h : ctx.state.documents.get? uri = other.state.documents.get? uri) :
    (server.peer.handle envelope ctx).1 = (server.peer.handle envelope other).1 := by
  refine Peer.replies_congr server.peer_notifies fun handler hcalled => ?_
  obtain ⟨method, hmethod, hhandles⟩ := server.handles_of_called hcalled
  exact server.sameOutcome_of_handles hhandles hmethod habout h rfl

end Steps

end Server

/-! Sessions with messages left out. -/

/-- Messages, and the same without some of those that may be left out. -/
inductive LeavesOut (may : Members → Bool) : List Members → List Members → Prop
  | nil : LeavesOut may [] []
  | keep (envelope : Members) {all kept : List Members} (h : LeavesOut may all kept) :
      LeavesOut may (envelope :: all) (envelope :: kept)
  | drop {envelope : Members} {all kept : List Members} (hmay : may envelope = true)
      (h : LeavesOut may all kept) : LeavesOut may (envelope :: all) kept

/-- Each message with what is sent for it. -/
def Server.transcript (server : Server) (envelopes : List Members) (ctx : Context Session) :
    List (Members × List Json) :=
  envelopes.zip (server.peer.exchange envelopes ctx).1

theorem Server.transcript_cons (server : Server) (envelope : Members) (rest : List Members)
    (ctx : Context Session) : server.transcript (envelope :: rest) ctx =
      (envelope, (server.peer.handle envelope ctx).1) ::
        server.transcript rest (server.peer.handle envelope ctx).2 := rfl

/-- Two servers that hold the same under a name, one of them without some messages that write
other documents. -/
theorem transcript_of_leavesOut (server : Server) {uri : Text} {envelopes kept : List Members}
    (h : LeavesOut (·.writesOther uri) envelopes kept) {ctx other : Context Session}
    (hstored : ctx.state.documents.get? uri = other.state.documents.get? uri) :
    (server.transcript envelopes ctx).filter (!·.1.aboutOther uri) =
        (server.transcript kept other).filter (!·.1.aboutOther uri) ∧
      (server.peer.exchange envelopes ctx).2.state.documents.get? uri =
        (server.peer.exchange kept other).2.state.documents.get? uri := by
  induction h generalizing ctx other with
  | nil => exact ⟨rfl, hstored⟩
  | keep envelope _ ih =>
      obtain ⟨hreplies, hdocument⟩ := ih (server.get?_handle_congr hstored envelope)
      rw [server.transcript_cons, server.transcript_cons, Peer.exchange_cons, Peer.exchange_cons,
        List.filter_cons, List.filter_cons, hreplies]
      refine ⟨?_, hdocument⟩
      cases habout : envelope.aboutOther uri with
      | true => rfl
      | false => rw [server.replies_eq_of_get?_eq habout hstored]
  | @drop envelope _ _ hother _ ih =>
      have hunchanged := server.get?_handle_of_writesOther hother ctx
      obtain ⟨hreplies, hdocument⟩ := ih (hunchanged.trans hstored)
      have habout : envelope.aboutOther uri = true := by
        rw [Members.aboutOther, hother, Bool.true_or]
      rw [server.transcript_cons, Peer.exchange_cons, List.filter_cons_of_neg (by simp [habout])]
      exact ⟨hreplies, hdocument⟩

/-- Documents do not interfere.  If messages that open, change or close other documents are
left out, then the same is sent for every message that stays, but for those about other
documents, and the document has the same text and version afterwards.  The messages that name
the document are all among them. -/
theorem documents_do_not_interfere (server : Server) (uri : Text)
    {envelopes kept : List Members} (h : LeavesOut (·.writesOther uri) envelopes kept)
    (ctx : Context Session) :
    (server.transcript envelopes ctx).filter (!·.1.aboutOther uri) =
        (server.transcript kept ctx).filter (!·.1.aboutOther uri) ∧
      (server.peer.exchange envelopes ctx).2.state.documents.get? uri =
        (server.peer.exchange kept ctx).2.state.documents.get? uri ∧
      ∀ envelope : Members, envelope.namedUri? = some uri → envelope.aboutOther uri = false := by
  obtain ⟨hreplies, hdocument⟩ := transcript_of_leavesOut server h rfl
  exact ⟨hreplies, hdocument, fun _ => not_aboutOther_of_named⟩

/-- A request for the word at the start of a document. -/
def hoverRequest (uri : Text) : Members :=
  [("id", .int 1), ("method", .str "textDocument/hover"),
    ("params", .obj [("textDocument", .obj [("uri", .str uri)])])]

/-- A document is opened while another one comes and goes, or only goes. -/
theorem documents_do_not_interfere_two :
    let all : List Members := [openMessage "a" "end", openMessage "b" "x", hoverRequest "a",
      closeMessage "b", closeMessage "a"]
    let kept : List Members := [openMessage "a" "end", hoverRequest "a", closeMessage "b",
      closeMessage "a"]
    LeavesOut (·.writesOther "a") all kept ∧
      ((Server.standard.transcript all Server.initial).filter (!·.1.aboutOther "a") =
          (Server.standard.transcript kept Server.initial).filter (!·.1.aboutOther "a") ∧
        (Server.standard.peer.exchange all Server.initial).2.state.documents.get? "a" =
          (Server.standard.peer.exchange kept Server.initial).2.state.documents.get? "a") ∧
      (hoverRequest "a").aboutOther "a" = false := by
  intro all kept
  have hother : (openMessage "b" "x").writesOther "a" = true := by decide +kernel
  have hkept : LeavesOut (·.writesOther "a") all kept :=
    .keep _ (.drop hother (.keep _ (.keep _ (.keep _ .nil))))
  obtain ⟨hreplies, hdocument, habout⟩ :=
    documents_do_not_interfere Server.standard "a" hkept Server.initial
  exact ⟨hkept, ⟨hreplies, hdocument⟩, habout (hoverRequest "a") rfl⟩

end VibeScript
