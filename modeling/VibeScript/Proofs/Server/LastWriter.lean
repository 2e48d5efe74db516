import Mathlib.Data.List.Induction
import VibeScript.Proofs.Server.Publishing

/-!
The open documents as a map in which the last writer wins.

A session is known by the events that the server went through with.  For each name the
events since its last close say all there is to say: the text is the one written last, and
the version the one set last (`lastWritten?`).  The documents stand in the order in which
they were first written since they were last closed (`InsertedAt`).

Both are stated from the whole history, without a store; what the store does is one lemma
for each kind of event, and `documents_refine_last_writers` is the run.
-/

namespace VibeScript

namespace DocumentEvent

/-- The name of the document that an event is about. -/
def uri : DocumentEvent → Text
  | .opened document | .changed document => document.uri
  | .closed uri => uri

/-- Whether an event says which version its document has.  An opening does in any case; a
change does only if it brings a version. -/
def setsVersion : DocumentEvent → Bool
  | .opened _ => true
  | .changed document => document.version.isSome
  | .closed _ => false

end DocumentEvent

/-- The events that wrote a document since it was last closed, the latest one first. -/
def writesSince (uri : Text) (events : List DocumentEvent) : List DocumentEvent :=
  (events.reverse.filter (·.uri = uri)).takeWhile (·.written?.isSome)

/-- A document as its last writers have left it. -/
def lastWritten? (uri : Text) (events : List DocumentEvent) : Option Document :=
  ((writesSince uri events).head?.bind (·.written?)).map fun latest =>
    ⟨uri, ((writesSince uri events).find? (·.setsVersion)).bind (·.written?.bind (·.version)),
      latest.content⟩

/-- The place in a history at which a document came to be open for good: it was written
there, it was not open before, and it was not closed later. -/
def InsertedAt (events : List DocumentEvent) (uri : Text) (place : Nat) : Prop :=
  ∃ before event after, events = before ++ event :: after ∧ before.length = place ∧
    event.uri = uri ∧ event.written?.isSome = true ∧ writesSince uri before = [] ∧
    .closed uri ∉ after

/-- Of two documents the first one has been open for longer. -/
def InsertedBefore (events : List DocumentEvent) (first second : Text) : Prop :=
  ∃ i j, i < j ∧ InsertedAt events first i ∧ InsertedAt events second j

section Histories

variable {events : List DocumentEvent} {event : DocumentEvent} {uri : Text}

theorem isSome_written?_of_ne_closed (h : event ≠ .closed event.uri) :
    event.written?.isSome = true := by
  cases event with
  | opened document => rfl
  | changed document => rfl
  | closed uri => exact absurd rfl h

theorem writesSince_concat_of_ne (h : event.uri ≠ uri) :
    writesSince uri (events ++ [event]) = writesSince uri events := by
  simp [writesSince, h]

theorem writesSince_concat_of_written (hwritten : event.written?.isSome = true) :
    writesSince event.uri (events ++ [event]) = event :: writesSince event.uri events := by
  simp [writesSince, hwritten]

theorem writesSince_concat_closed :
    writesSince uri (events ++ [.closed uri]) = [] := by
  simp [writesSince, DocumentEvent.uri, DocumentEvent.written?]

/-- As long as a document is not closed, every write is kept. -/
theorem writesSince_append {later : List DocumentEvent} (h : .closed uri ∉ later) :
    writesSince uri (events ++ later) =
      later.reverse.filter (·.uri = uri) ++ writesSince uri events := by
  have hwritten : ∀ event ∈ later.reverse.filter (·.uri = uri),
      event.written?.isSome = true := by
    intro event hevent
    simp only [List.mem_filter, List.mem_reverse, decide_eq_true_eq] at hevent
    obtain ⟨hmem, rfl⟩ := hevent
    exact isSome_written?_of_ne_closed fun heq => h (heq ▸ hmem)
  rw [writesSince, List.reverse_append, List.filter_append,
    List.takeWhile_append_of_pos hwritten, writesSince]

theorem isSome_written?_of_mem_writesSince (h : event ∈ writesSince uri events) :
    event.written?.isSome = true :=
  List.all_eq_true.mp List.all_takeWhile event h

/-- A document is known exactly if it was written since it was last closed. -/
theorem lastWritten?_eq_none_iff : lastWritten? uri events = none ↔
    writesSince uri events = [] := by
  rw [lastWritten?, Option.map_eq_none_iff]
  cases hwrites : writesSince uri events with
  | nil => simp
  | cons latest earlier =>
      have hwritten : latest.written?.isSome = true :=
        isSome_written?_of_mem_writesSince (hwrites ▸ List.mem_cons_self)
      cases hlatest : latest.written? with
      | none =>
          rw [hlatest] at hwritten
          cases hwritten
      | some document => simp [hlatest]

theorem version_lastWritten? :
    (lastWritten? uri events).bind (·.version) =
      ((writesSince uri events).find? (·.setsVersion)).bind (·.written?.bind (·.version)) := by
  cases hknown : lastWritten? uri events with
  | none =>
      rw [lastWritten?_eq_none_iff.mp hknown]
      rfl
  | some document =>
      rw [lastWritten?, Option.map_eq_some_iff] at hknown
      obtain ⟨latest, _, rfl⟩ := hknown
      rfl

/-- A write brings a text, and it may leave the version as it was. -/
theorem lastWritten?_concat_of_written {document : Document}
    (hwritten : event.written? = some document) :
    lastWritten? event.uri (events ++ [event]) = some ⟨event.uri,
      if event.setsVersion then document.version
      else (lastWritten? event.uri events).bind (·.version), document.content⟩ := by
  have hsome : event.written?.isSome = true := by rw [hwritten, Option.isSome_some]
  rw [version_lastWritten?, lastWritten?, writesSince_concat_of_written hsome, List.head?_cons,
    Option.bind_some, hwritten, Option.map_some, List.find?_cons]
  cases event.setsVersion with
  | true => simp only [Option.bind_some, hwritten, ↓reduceIte]
  | false => rfl

theorem lastWritten?_concat_of_ne (h : event.uri ≠ uri) :
    lastWritten? uri (events ++ [event]) = lastWritten? uri events := by
  rw [lastWritten?, writesSince_concat_of_ne h, ← lastWritten?]

theorem lastWritten?_concat_closed : lastWritten? uri (events ++ [.closed uri]) = none :=
  lastWritten?_eq_none_iff.mpr writesSince_concat_closed

theorem InsertedAt.lt_length {place : Nat} (h : InsertedAt events uri place) :
    place < events.length := by
  obtain ⟨before, event, after, rfl, rfl, _⟩ := h
  simp

/-- A document stays where it is until it is closed. -/
theorem InsertedAt.concat {place : Nat} (h : InsertedAt events uri place)
    (hopen : event ≠ .closed uri) : InsertedAt (events ++ [event]) uri place := by
  obtain ⟨before, first, after, rfl, hplace, huri, hwritten, hbefore, hafter⟩ := h
  refine ⟨before, first, after ++ [event], by simp, hplace, huri, hwritten, hbefore, ?_⟩
  rw [List.mem_append, List.mem_singleton, not_or]
  exact ⟨hafter, Ne.symm hopen⟩

/-- A document that is written while it is not open comes behind all others. -/
theorem insertedAt_length (hwritten : event.written?.isSome = true)
    (hnew : writesSince event.uri events = []) :
    InsertedAt (events ++ [event]) event.uri events.length :=
  ⟨events, event, [], rfl, rfl, rfl, hwritten, hnew, List.not_mem_nil⟩

/-- There is only one place at which a document came to be open for good. -/
theorem InsertedAt.not_lt {i j : Nat} (hi : InsertedAt events uri i)
    (hj : InsertedAt events uri j) : ¬ i < j := by
  intro hlt
  obtain ⟨before, event, after, heq, rfl, huri, _, _, hafter⟩ := hi
  obtain ⟨before', event', after', heq', rfl, _, _, hbefore', _⟩ := hj
  obtain ⟨between, rfl⟩ : ∃ between, before' = before ++ event :: between := by
    have hprefix : before ++ [event] <+: before' := by
      have hshort : before ++ [event] <+: events := ⟨after, by simp [heq]⟩
      have hlong : before' <+: events := ⟨event' :: after', heq'.symm⟩
      refine List.prefix_of_prefix_length_le hshort hlong ?_
      rw [List.length_append, List.length_singleton]
      exact hlt
    obtain ⟨between, rfl⟩ := hprefix
    exact ⟨between, by simp⟩
  have hbetween : .closed uri ∉ between := by
    intro hmem
    rw [heq, List.append_assoc, List.append_cancel_left_eq, List.cons_append,
      List.cons.injEq] at heq'
    exact hafter (heq'.2 ▸ List.mem_append_left _ hmem)
  have hkept : event ∈ writesSince uri (before ++ event :: between) := by
    have hsplit : before ++ event :: between = before ++ [event] ++ between := by simp
    rw [hsplit, writesSince_append hbetween, ← huri, writesSince_concat_of_written ‹_›]
    exact List.mem_append_right _ List.mem_cons_self
  rw [hbefore'] at hkept
  cases hkept

end Histories

namespace Documents

/-- A document that is put in keeps the place of its name; a new one comes last. -/
theorem uris_insert (documents : Documents) (document : Document) :
    (documents.insert document).map (·.uri) =
      if document.uri ∈ documents.map (·.uri) then documents.map (·.uri)
      else documents.map (·.uri) ++ [document.uri] := by
  induction documents with
  | nil => simp [insert]
  | cons first rest ih =>
      by_cases h : first.uri = document.uri
      · simp [insert, h]
      · have hne : document.uri ≠ first.uri := Ne.symm h
        simp only [insert, h, ↓reduceIte, List.map_cons, ih, List.mem_cons, hne, false_or]
        split <;> simp

theorem uris_erase (documents : Documents) (uri : Text) :
    (documents.erase uri).map (·.uri) = (documents.map (·.uri)).filter (· ≠ uri) := by
  rw [erase, List.filter_map]
  rfl

theorem not_mem_uris_iff {documents : Documents} {uri : Text} :
    uri ∉ documents.map (·.uri) ↔ documents.get? uri = none := by
  rw [get?, List.find?_eq_none]
  simp

end Documents

/-- The documents after some events, starting with none. -/
def recorded (events : List DocumentEvent) : Documents :=
  events.foldl DocumentEvent.apply []

theorem recorded_concat (events : List DocumentEvent) (event : DocumentEvent) :
    recorded (events ++ [event]) = event.apply (recorded events) := by
  simp [recorded, List.foldl_append]

/-- An event leaves the documents of other names alone. -/
theorem DocumentEvent.get?_apply_of_ne {event : DocumentEvent} {uri : Text}
    (h : event.uri ≠ uri) (documents : Documents) :
    (event.apply documents).get? uri = documents.get? uri := by
  cases event with
  | opened document => exact documents.get?_insert_of_ne (Ne.symm h)
  | changed document => exact documents.get?_update_of_ne (Ne.symm h) _ _
  | closed name => exact documents.get?_erase_of_ne (Ne.symm h)

/-- What one event does to the document of a name. -/
theorem get?_apply {documents : Documents} {events : List DocumentEvent} {uri : Text}
    (h : documents.get? uri = lastWritten? uri events) (event : DocumentEvent) :
    (event.apply documents).get? uri = lastWritten? uri (events ++ [event]) := by
  by_cases huri : event.uri = uri
  · subst huri
    cases event with
    | opened document =>
        have hwritten : (DocumentEvent.opened document).written? = some document := rfl
        rw [lastWritten?_concat_of_written hwritten]
        exact documents.get?_insert_self document
    | changed document =>
        have hwritten : (DocumentEvent.changed document).written? = some document := rfl
        rw [lastWritten?_concat_of_written hwritten, ← h]
        refine (documents.get?_insert_self _).trans ?_
        -- without a version of its own the change keeps the one that was set before
        cases hbrings : document.version <;> simp [DocumentEvent.setsVersion,
          DocumentEvent.uri, hbrings]
    | closed name =>
        exact (documents.get?_erase_self name).trans lastWritten?_concat_closed.symm
  · rw [lastWritten?_concat_of_ne huri, ← h]
    exact event.get?_apply_of_ne huri documents

/-- The documents hold what the last writers have left. -/
theorem get?_recorded (events : List DocumentEvent) (uri : Text) :
    (recorded events).get? uri = lastWritten? uri events := by
  induction events using List.reverseRecOn with
  | nil => rfl
  | append_singleton events event ih =>
      rw [recorded_concat]
      exact get?_apply ih event

/-- Names in the order in which their documents came to be open for good. -/
structure InOrder (events : List DocumentEvent) (uris : List Text) : Prop where
  inserted : ∀ uri ∈ uris, ∃ place, InsertedAt events uri place
  pairwise : uris.Pairwise (InsertedBefore events)

namespace InOrder

variable {events : List DocumentEvent} {event : DocumentEvent} {uris : List Text}

theorem nodup (h : InOrder events uris) : uris.Nodup := by
  refine h.pairwise.imp fun {first second} hbefore heq => ?_
  obtain ⟨i, j, hlt, hi, hj⟩ := hbefore
  exact hi.not_lt (heq ▸ hj) hlt

/-- An event that closes none of the documents leaves them in order. -/
theorem concat (h : InOrder events uris) (hopen : ∀ uri ∈ uris, event ≠ .closed uri) :
    InOrder (events ++ [event]) uris := by
  constructor
  · intro uri huri
    obtain ⟨place, hplace⟩ := h.inserted uri huri
    exact ⟨place, hplace.concat (hopen uri huri)⟩
  · refine h.pairwise.imp_of_mem fun {first second} hfirst hsecond hbefore => ?_
    obtain ⟨i, j, hlt, hi, hj⟩ := hbefore
    exact ⟨i, j, hlt, hi.concat (hopen first hfirst), hj.concat (hopen second hsecond)⟩

theorem filter (h : InOrder events uris) (keep : Text → Bool) :
    InOrder events (uris.filter keep) :=
  ⟨fun uri huri => h.inserted uri (List.mem_filter.mp huri).1, h.pairwise.filter keep⟩

/-- A document that is written for the first time comes last. -/
theorem concat_new (h : InOrder events uris) (hwritten : event.written?.isSome = true)
    (hnew : writesSince event.uri events = []) :
    InOrder (events ++ [event]) (uris ++ [event.uri]) := by
  have hlast := insertedAt_length hwritten hnew
  have hopen : ∀ uri ∈ uris, event ≠ .closed uri := by
    rintro uri _ rfl
    cases hwritten
  have hothers := h.concat hopen
  constructor
  · intro uri huri
    rcases List.mem_append.mp huri with huri | huri
    · exact hothers.inserted uri huri
    · rw [List.mem_singleton.mp huri]
      exact ⟨events.length, hlast⟩
  · rw [List.pairwise_append]
    refine ⟨hothers.pairwise, List.pairwise_singleton _ _, fun uri huri last hmem => ?_⟩
    rw [List.mem_singleton.mp hmem]
    obtain ⟨place, hplace⟩ := h.inserted uri huri
    exact ⟨place, events.length, hplace.lt_length, hplace.concat (hopen uri huri), hlast⟩

/-- Writing a document keeps the order, whether the document is open already or not. -/
theorem insert {documents : Documents} (h : InOrder events (documents.map (·.uri)))
    (hstored : ∀ uri, documents.get? uri = lastWritten? uri events)
    (hwritten : event.written?.isSome = true) {document : Document}
    (huri : document.uri = event.uri) :
    InOrder (events ++ [event]) ((documents.insert document).map (·.uri)) := by
  rw [Documents.uris_insert, huri]
  split
  · refine h.concat ?_
    rintro uri _ rfl
    cases hwritten
  · next hnew =>
      refine h.concat_new hwritten (lastWritten?_eq_none_iff.mp ?_)
      rw [← hstored]
      exact Documents.not_mem_uris_iff.mp hnew

/-- What one event does to the order of the documents. -/
theorem apply {documents : Documents} (h : InOrder events (documents.map (·.uri)))
    (hstored : ∀ uri, documents.get? uri = lastWritten? uri events) (event : DocumentEvent) :
    InOrder (events ++ [event]) ((event.apply documents).map (·.uri)) := by
  cases event with
  | opened document => exact h.insert hstored rfl rfl
  | changed document => exact h.insert hstored rfl rfl
  | closed name =>
      rw [DocumentEvent.apply, Documents.uris_erase]
      refine (h.filter (· ≠ name)).concat fun uri huri heq => ?_
      cases heq
      simp at huri

end InOrder

/-- The documents stand in the order in which they came to be open. -/
theorem inOrder_recorded (events : List DocumentEvent) :
    InOrder events ((recorded events).map (·.uri)) := by
  induction events using List.reverseRecOn with
  | nil => exact ⟨fun _ h => absurd h List.not_mem_nil, .nil⟩
  | append_singleton events event ih =>
      rw [recorded_concat]
      exact ih.apply (get?_recorded events) event

namespace Server

variable (server : Server)

/-- What a message means for a document, if the server goes through with it. -/
def event? (envelope : Members) : Option DocumentEvent :=
  envelope.documentEvent?.filter server.accepts

theorem event?_eq_some_iff {envelope : Members} {event : DocumentEvent} :
    server.event? envelope = some event ↔
      envelope.Carries event ∧ server.accepts event = true := by
  rw [event?, Option.filter_eq_some_iff, Members.carries_iff]

/-- The documents after a message are those after its event. -/
theorem documents_handle (envelope : Members) (ctx : Context Session) :
    (server.peer.handle envelope ctx).2.state.documents =
      (server.event? envelope).toList.foldl DocumentEvent.apply ctx.state.documents := by
  rw [event?]
  cases hevent : envelope.documentEvent? with
  | none => exact (server.handle_of_no_event hevent ctx).2
  | some event =>
      cases haccepts : server.accepts event with
      | false =>
          rw [Option.filter_some_neg (by simp [haccepts])]
          exact (server.handle_of_refused hevent haccepts ctx).2
      | true =>
          rw [Option.filter_some_pos haccepts]
          exact (server.handle_of_event hevent haccepts ctx).2

theorem documents_exchange (envelopes : List Members) (ctx : Context Session) :
    (server.peer.exchange envelopes ctx).2.state.documents =
      (envelopes.filterMap server.event?).foldl DocumentEvent.apply ctx.state.documents := by
  induction envelopes generalizing ctx with
  | nil => rfl
  | cons envelope rest ih =>
      rw [Peer.exchange_cons, ih, documents_handle]
      cases hevent : server.event? envelope with
      | none => rw [List.filterMap_cons_none hevent, Option.toList_none, List.foldl_nil]
      | some event =>
          rw [List.filterMap_cons_some hevent, Option.toList_some, List.foldl_cons,
            List.foldl_cons, List.foldl_nil]

end Server

/-- After any messages, the open documents are those that were written since they were last
closed.  Each has the text that was written last and the version that was set last, and
they stand in the order in which they were first written since then.  The messages that
count are the well-formed ones that the server can log; no other message changes a
document. -/
theorem documents_refine_last_writers (server : Server) (envelopes : List Members) :
    let events := envelopes.filterMap server.event?
    let documents := (server.peer.exchange envelopes Server.initial).2.state.documents
    (∀ uri, documents.get? uri = lastWritten? uri events) ∧
    (documents.map (·.uri)).Nodup ∧
    (documents.map (·.uri)).Pairwise (InsertedBefore events) ∧
    (∀ envelope event, server.event? envelope = some event ↔
      envelope.Carries event ∧ server.accepts event = true) ∧
    ∀ envelope ctx, server.event? envelope = none →
      (server.peer.handle envelope ctx).2.state.documents = ctx.state.documents := by
  intro events documents
  have hdocuments : documents = recorded events :=
    server.documents_exchange envelopes Server.initial
  have horder := inOrder_recorded events
  rw [← hdocuments] at horder
  refine ⟨fun uri => ?_, horder.nodup, horder.pairwise,
    fun envelope event => server.event?_eq_some_iff, fun envelope ctx hevent => ?_⟩
  · rw [hdocuments]
    exact get?_recorded events uri
  · rw [server.documents_handle, hevent]
    rfl

end VibeScript
