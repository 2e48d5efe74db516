import VibeScript.Proofs.Diagnostic.Reports
import VibeScript.Proofs.Server.Documents

/-!
What a client sees of the documents.

A client shows for each name what was published for it last.  Over a session this is what
the diagnostics of the stored text are, and nothing for a document that was closed,
provided that there are diagnostics of every text.  There are none of a text with errors
that cannot be read back: it is stored, but nothing is published for it
(`handle_open_of_not_diagnosable`).
-/

namespace VibeScript

/-- What was published last for a name. -/
def lastPublished (uri : Text) (sent : List Json) : Option Json :=
  ((sent.filterMap Json.published?).filter (·.1 = uri)).getLast?.map (·.2)

theorem lastPublished_append (uri : Text) (earlier later : List Json) :
    lastPublished uri (earlier ++ later) =
      (lastPublished uri later).or (lastPublished uri earlier) := by
  simp only [lastPublished, List.filterMap_append, List.filter_append, List.getLast?_append]
  cases ((later.filterMap Json.published?).filter (·.1 = uri)).getLast? <;> rfl

theorem lastPublished_eq_none {sent : List Json} (uri : Text)
    (h : sent.filterMap Json.published? = []) : lastPublished uri sent = none := by
  rw [lastPublished, h]
  rfl

theorem lastPublished_publication (uri : Text) (diagnostics : List Diagnostic) :
    lastPublished uri [publication uri diagnostics] =
      some (.arr (diagnostics.map Diagnostic.toJson)) := by
  simp [lastPublished, published?_publication]

theorem lastPublished_publication_of_ne {uri other : Text} (h : other ≠ uri)
    (diagnostics : List Diagnostic) :
    lastPublished uri [publication other diagnostics] = none := by
  simp [lastPublished, published?_publication, h]

/-- The document that an event puts into the store. -/
def DocumentEvent.written? : DocumentEvent → Option Document
  | .opened document | .changed document => some document
  | .closed _ => none

namespace Server

variable (server : Server)

/-- What a message can do for a name: nothing, store a text and publish its diagnostics if
there are any, or close its document and clear what is shown. -/
inductive Affects (uri : Text) (before after : Documents) (sent : List Json) : Prop
  | untouched (hget : after.get? uri = before.get? uri) (hlast : lastPublished uri sent = none)
  | stored (document : Document) (hget : after.get? uri = some document)
      (hlast : ∀ diagnostics, diagnose server.compiler server.template server.source
        document.content = .ok diagnostics →
          lastPublished uri sent = some (.arr (diagnostics.map Diagnostic.toJson)))
  | closed (hget : after.get? uri = none) (hlast : lastPublished uri sent = some (.arr []))

theorem lastPublished_diagnosed_of_ne {uri : Text} {document : Document}
    (h : document.uri ≠ uri) :
    lastPublished uri (publications (server.diagnosed document)) = none := by
  unfold diagnosed
  split
  · exact lastPublished_publication_of_ne h _
  · rfl

theorem lastPublished_diagnosed {document : Document} {diagnostics : List Diagnostic}
    (h : diagnose server.compiler server.template server.source document.content =
      .ok diagnostics) :
    lastPublished document.uri (publications (server.diagnosed document)) =
      some (.arr (diagnostics.map Diagnostic.toJson)) := by
  rw [diagnosed, h]
  exact lastPublished_publication _ _

/-- Putting a document in affects its own name only. -/
theorem affects_insert (uri : Text) (documents : Documents) {stored shown : Document}
    (huri : stored.uri = shown.uri) (hcontent : stored.content = shown.content) :
    server.Affects uri documents (documents.insert stored)
      (publications (server.diagnosed shown)) := by
  by_cases h : shown.uri = uri
  · refine .stored stored ?_ fun diagnostics hdiagnose => ?_
    · rw [← h, ← huri]
      exact documents.get?_insert_self stored
    · rw [← h]
      exact server.lastPublished_diagnosed (hcontent ▸ hdiagnose)
  · refine .untouched ?_ (server.lastPublished_diagnosed_of_ne h)
    exact documents.get?_insert_of_ne fun heq => h (huri.symm.trans heq.symm)

/-- An event affects the name it is about, and no other. -/
theorem affects_of_event (uri : Text) (documents : Documents) (event : DocumentEvent) :
    server.Affects uri documents (event.apply documents)
      (publications (server.shown documents event)) := by
  cases event with
  | opened document => exact server.affects_insert uri documents rfl rfl
  | changed document => exact server.affects_insert uri documents rfl rfl
  | closed name =>
      by_cases h : name = uri
      · subst h
        cases hget : documents.get? name with
        | none =>
            refine .untouched ?_ ?_
            · rw [DocumentEvent.apply, Documents.erase_of_get?_eq_none hget]
            · rw [shown, hget]
              rfl
        | some document =>
            refine .closed (documents.get?_erase_self name) ?_
            rw [shown, hget]
            exact lastPublished_publication name []
      · refine .untouched (documents.get?_erase_of_ne (Ne.symm h)) ?_
        rw [shown]
        split
        · exact lastPublished_publication_of_ne h []
        · rfl

/-- Every message affects a name in one of the three ways. -/
theorem affects_handle (uri : Text) (envelope : Members) (ctx : Context Session) :
    server.Affects uri ctx.state.documents
      (server.peer.handle envelope ctx).2.state.documents
      (server.peer.handle envelope ctx).1 := by
  cases hevent : envelope.documentEvent? with
  | none =>
      obtain ⟨hpublished, hdocuments⟩ := server.handle_of_no_event hevent ctx
      exact .untouched (by rw [hdocuments]) (lastPublished_eq_none uri hpublished)
  | some event =>
      cases haccepts : server.accepts event with
      | true =>
          obtain ⟨hreplies, hdocuments⟩ := server.handle_of_event hevent haccepts ctx
          rw [hreplies, hdocuments]
          exact server.affects_of_event uri _ event
      | false =>
          obtain ⟨hreplies, hdocuments⟩ := server.handle_of_refused hevent haccepts ctx
          rw [hreplies, hdocuments]
          exact .untouched rfl rfl

/-- What is shown for a name agrees with the store: it is what the diagnostics of the
stored text are, if there are any. -/
def ShowsStored (uri : Text) (documents : Documents) (sent : List Json) : Prop :=
  ∀ document diagnostics, documents.get? uri = some document →
    diagnose server.compiler server.template server.source document.content =
      .ok diagnostics →
    lastPublished uri sent = some (.arr (diagnostics.map Diagnostic.toJson))

/-- Nothing is shown any more for a name whose document is not open. -/
def ShowsClosed (uri : Text) (documents : Documents) (sent : List Json) : Prop :=
  documents.get? uri = none → lastPublished uri sent = some (.arr [])

variable {server}

theorem ShowsStored.step {uri : Text} {before after : Documents} {earlier sent : List Json}
    (h : server.ShowsStored uri before earlier)
    (hstep : server.Affects uri before after sent) :
    server.ShowsStored uri after (earlier ++ sent) := by
  intro document diagnostics hget hdiagnose
  rw [lastPublished_append]
  cases hstep with
  | untouched hsame hlast =>
      rw [hlast, Option.none_or]
      exact h document diagnostics (hsame ▸ hget) hdiagnose
  | stored stored hstored hlast =>
      obtain rfl : stored = document := Option.some.inj (hstored.symm.trans hget)
      rw [hlast diagnostics hdiagnose, Option.some_or]
  | closed hnone hlast =>
      rw [hnone] at hget
      cases hget

theorem ShowsClosed.step {uri : Text} {before after : Documents} {earlier sent : List Json}
    (h : ShowsClosed uri before earlier) (hstep : server.Affects uri before after sent) :
    ShowsClosed uri after (earlier ++ sent) := by
  intro hget
  rw [lastPublished_append]
  cases hstep with
  | untouched hsame hlast =>
      rw [hlast, Option.none_or]
      exact h (hsame ▸ hget)
  | stored stored hstored hlast =>
      rw [hstored] at hget
      cases hget
  | closed hnone hlast => rw [hlast, Option.some_or]

theorem ShowsStored.exchange {uri : Text} (envelopes : List Members) {ctx : Context Session}
    {earlier : List Json} (h : server.ShowsStored uri ctx.state.documents earlier) :
    server.ShowsStored uri (server.peer.exchange envelopes ctx).2.state.documents
      (earlier ++ (server.peer.exchange envelopes ctx).1.flatten) :=
  Peer.exchange_preserves (fun ctx => server.ShowsStored uri ctx.state.documents)
    (fun envelope ctx _ hshows => hshows.step (server.affects_handle uri envelope ctx))
    envelopes h

theorem ShowsClosed.exchange {uri : Text} (envelopes : List Members) {ctx : Context Session}
    {earlier : List Json} (h : ShowsClosed uri ctx.state.documents earlier) :
    ShowsClosed uri (server.peer.exchange envelopes ctx).2.state.documents
      (earlier ++ (server.peer.exchange envelopes ctx).1.flatten) :=
  Peer.exchange_preserves (fun ctx => ShowsClosed uri ctx.state.documents)
    (fun envelope ctx _ hshows => hshows.step (server.affects_handle uri envelope ctx))
    envelopes h

/-- A document that an accepted message writes is stored. -/
theorem exists_stored_of_written {envelope : Members} {event : DocumentEvent}
    {document : Document} (hevent : envelope.Carries event)
    (hwritten : event.written? = some document) (haccepts : server.accepts event = true)
    (ctx : Context Session) : ∃ stored,
      (server.peer.handle envelope ctx).2.state.documents.get? document.uri = some stored := by
  rw [(server.handle_of_event (Members.carries_iff.mp hevent) haccepts ctx).2]
  cases event with
  | opened opened =>
      cases hwritten
      exact ⟨_, Documents.get?_insert_self _ _⟩
  | changed changed =>
      cases hwritten
      obtain ⟨stored, hstored, _⟩ := Documents.exists_get?_update_self _ _ _ _
      exact ⟨stored, hstored⟩
  | closed uri => cases hwritten

/-- A name without a document stays so until a message writes one. -/
theorem get?_handle_eq_none {uri : Text} {envelope : Members}
    (hwrites : ∀ event document, envelope.Carries event → event.written? = some document →
      document.uri ≠ uri) {ctx : Context Session}
    (h : ctx.state.documents.get? uri = none) :
    (server.peer.handle envelope ctx).2.state.documents.get? uri = none := by
  cases hevent : envelope.documentEvent? with
  | none => rw [(server.handle_of_no_event hevent ctx).2, h]
  | some event =>
      cases haccepts : server.accepts event with
      | false => rw [(server.handle_of_refused hevent haccepts ctx).2, h]
      | true =>
          rw [(server.handle_of_event hevent haccepts ctx).2]
          have hcarries := Members.carries_iff.mpr hevent
          cases event with
          | opened document =>
              have hne := hwrites _ document hcarries rfl
              exact (Documents.get?_insert_of_ne _ (Ne.symm hne)).trans h
          | changed document =>
              have hne := hwrites _ document hcarries rfl
              exact (Documents.get?_update_of_ne _ (Ne.symm hne) _ _).trans h
          | closed name =>
              by_cases hname : uri = name
              · rw [hname]
                exact Documents.get?_erase_self _ _
              · exact (Documents.get?_erase_of_ne _ hname).trans h

theorem get?_exchange_eq_none {uri : Text} {envelopes : List Members}
    (hwrites : ∀ envelope ∈ envelopes, ∀ event document, envelope.Carries event →
      event.written? = some document → document.uri ≠ uri) {ctx : Context Session}
    (h : ctx.state.documents.get? uri = none) :
    (server.peer.exchange envelopes ctx).2.state.documents.get? uri = none := by
  induction envelopes generalizing ctx with
  | nil => exact h
  | cons envelope rest ih =>
      exact ih (fun e he => hwrites e (List.mem_cons_of_mem envelope he))
        (get?_handle_eq_none (hwrites envelope List.mem_cons_self) h)

/-- After a document was opened and then closed for good, nothing is shown for it. -/
theorem lastPublished_of_closed {opening closing : Members} {event : DocumentEvent}
    {document : Document} (hopening : opening.Carries event)
    (hwritten : event.written? = some document) (hopens : server.accepts event = true)
    (hclosing : closing.Carries (.closed document.uri))
    (hcloses : server.accepts (.closed document.uri) = true) {after : List Members}
    (hafter : ∀ envelope ∈ after, ∀ event later, envelope.Carries event →
      event.written? = some later → later.uri ≠ document.uri)
    (before between : List Members) (ctx : Context Session) :
    lastPublished document.uri (server.peer.exchange
      (before ++ opening :: between ++ closing :: after) ctx).1.flatten = some (.arr []) := by
  rw [List.append_assoc, List.cons_append, Peer.exchange_append, Peer.exchange_cons]
  simp only [List.flatten_append, List.flatten_cons]
  generalize (server.peer.exchange before ctx).2 = ready
  obtain ⟨stored, hstored⟩ :=
    exists_stored_of_written hopening hwritten hopens ready
  rw [← List.append_assoc]
  -- right behind the opening the document is open, so there is nothing to be shown yet
  refine ShowsClosed.exchange (between ++ closing :: after) (fun hnone => ?_) ?_
  · rw [hstored] at hnone
    cases hnone
  · rw [Peer.exchange_append, Peer.exchange_cons]
    refine get?_exchange_eq_none hafter ?_
    rw [(server.handle_of_event (Members.carries_iff.mp hclosing) hcloses _).2]
    exact Documents.get?_erase_self _ _

/-- What is sent for a message that writes a document is what is shown for the document. -/
theorem handle_of_written {envelope : Members} {event : DocumentEvent} {document : Document}
    (hevent : envelope.Carries event) (hwritten : event.written? = some document)
    (ctx : Context Session) :
    (server.peer.handle envelope ctx).1 =
      if server.accepts event then publications (server.diagnosed document) else [] := by
  have hread := Members.carries_iff.mp hevent
  cases haccepts : server.accepts event with
  | false => exact (server.handle_of_refused hread haccepts ctx).1
  | true =>
      rw [(server.handle_of_event hread haccepts ctx).1]
      cases event with
      | opened opened => cases hwritten; rfl
      | changed changed => cases hwritten; rfl
      | closed uri => cases hwritten

/-- The server with the compiler and the template that it usually has. -/
structure Ordinary (server : Server) : Prop where
  compiler : server.compiler = scriptCompiler
  template : server.template = defaultTemplate

end Server

/-- A well-formed message publishes the diagnostics of the text that it brings, and what is
shown for a document is what the diagnostics of the stored text are, exactly if there are
any; whatever the texts are, nothing is shown for a document that was opened and then
closed for good.  An opening and a closing count only if they can be logged. -/
theorem shows_stored_iff_diagnosable (server : Server) (hserver : server.Ordinary) :
    (∀ (envelope : Members) (event : DocumentEvent) (document : Document)
        (ctx : Context Session), envelope.Carries event → event.written? = some document →
      ((∃ diagnostics,
        diagnose scriptCompiler defaultTemplate server.source document.content =
            .ok diagnostics ∧
          (server.peer.handle envelope ctx).1 = [publication document.uri diagnostics]) ↔
        server.accepts event = true ∧ Diagnosable document.content)) ∧
    (∀ (envelopes : List Members) (uri : Text) (document : Document),
      (server.peer.exchange envelopes Server.initial).2.state.documents.get? uri =
          some document →
      ((∃ diagnostics,
        diagnose scriptCompiler defaultTemplate server.source document.content =
            .ok diagnostics ∧
          lastPublished uri (server.peer.exchange envelopes Server.initial).1.flatten =
            some (.arr (diagnostics.map Diagnostic.toJson))) ↔
        Diagnosable document.content)) ∧
    ∀ (before between after : List Members) (opening closing : Members)
      (event : DocumentEvent) (document : Document) (ctx : Context Session),
      opening.Carries event → event.written? = some document → server.accepts event = true →
      closing.Carries (.closed document.uri) →
      server.accepts (.closed document.uri) = true →
      (∀ envelope ∈ after, ∀ event later, envelope.Carries event →
        event.written? = some later → later.uri ≠ document.uri) →
      lastPublished document.uri (server.peer.exchange
        (before ++ opening :: between ++ closing :: after) ctx).1.flatten =
          some (.arr []) := by
  obtain ⟨hcompiler, htemplate⟩ := hserver
  refine ⟨?_, ?_, ?_⟩
  · intro envelope event document ctx hcarries hwritten
    rw [Server.handle_of_written hcarries hwritten ctx,
      ← exists_diagnose_iff document.content server.source]
    constructor
    · rintro ⟨diagnostics, hdiagnose, hreplies⟩
      refine ⟨?_, diagnostics, hdiagnose⟩
      cases haccepts : server.accepts event with
      | true => rfl
      | false =>
          rw [haccepts] at hreplies
          cases hreplies
    · rintro ⟨haccepts, diagnostics, hdiagnose⟩
      refine ⟨diagnostics, hdiagnose, ?_⟩
      rw [if_pos haccepts, Server.diagnosed, hcompiler, htemplate, hdiagnose]
      rfl
  · intro envelopes uri document hget
    rw [← exists_diagnose_iff document.content server.source]
    constructor
    · rintro ⟨diagnostics, hdiagnose, _⟩
      exact ⟨diagnostics, hdiagnose⟩
    · rintro ⟨diagnostics, hdiagnose⟩
      have hshows : server.ShowsStored uri Server.initial.state.documents [] :=
        fun _ _ hnone => by cases hnone
      refine ⟨diagnostics, hdiagnose, ?_⟩
      rw [← hcompiler, ← htemplate] at hdiagnose
      exact hshows.exchange envelopes document diagnostics hget hdiagnose
  · intro before between after opening closing event document ctx hopening hwritten hopens
      hclosing hcloses hafter
    exact Server.lastPublished_of_closed hopening hwritten hopens hclosing hcloses hafter
      before between ctx

/-- A message that opens a document. -/
def openMessage (uri content : Text) : Members :=
  [("method", .str "textDocument/didOpen"),
    ("params", .obj [("textDocument", .obj [("uri", .str uri), ("text", .str content)])])]

/-- A message that closes a document. -/
def closeMessage (uri : Text) : Members :=
  [("method", .str "textDocument/didClose"),
    ("params", .obj [("textDocument", .obj [("uri", .str uri)])])]

theorem carries_openMessage (uri content : Text) :
    (openMessage uri content).Carries (.opened ⟨uri, none, content⟩) :=
  .opened rfl rfl rfl rfl rfl .absent

theorem carries_closeMessage (uri : Text) : (closeMessage uri).Carries (.closed uri) :=
  .closed rfl rfl rfl rfl

theorem standard_ordinary : Server.standard.Ordinary := ⟨rfl, rfl⟩

theorem standard_accepts (event : DocumentEvent) : Server.standard.accepts event = true := by
  cases event <;> rfl

/-- A document with an error is opened, shown, and then closed. -/
theorem shows_stored_open_close :
    (∃ diagnostics, diagnose scriptCompiler defaultTemplate defaultSource "end" =
        .ok diagnostics ∧
      (Server.standard.peer.handle (openMessage "a" "end") Server.initial).1 =
        [publication "a" diagnostics]) ∧
    (∃ diagnostics, diagnose scriptCompiler defaultTemplate defaultSource "end" =
        .ok diagnostics ∧
      lastPublished "a" (Server.standard.peer.exchange [openMessage "a" "end"]
        Server.initial).1.flatten = some (.arr (diagnostics.map Diagnostic.toJson))) ∧
    lastPublished "a" (Server.standard.peer.exchange
      ([] ++ openMessage "a" "end" :: [] ++ closeMessage "a" :: []) Server.initial).1.flatten =
        some (.arr []) := by
  have hdiagnosable : Diagnosable "end" := by decide +kernel
  have hshows := shows_stored_iff_diagnosable Server.standard standard_ordinary
  have hopening := carries_openMessage "a" "end"
  have hstored : (Server.standard.peer.exchange [openMessage "a" "end"]
      Server.initial).2.state.documents.get? "a" = some ⟨"a", none, "end"⟩ := by
    decide +kernel
  refine ⟨?_, ?_, ?_⟩
  · exact (hshows.1 _ _ _ Server.initial hopening rfl).mpr ⟨standard_accepts _, hdiagnosable⟩
  · exact (hshows.2.1 [openMessage "a" "end"] "a" _ hstored).mpr hdiagnosable
  · exact hshows.2.2 [] [] [] _ _ _ ⟨"a", none, "end"⟩ Server.initial hopening rfl
      (standard_accepts _) (carries_closeMessage "a") (standard_accepts _) fun _ h => by cases h

/-- A closing bracket with a comment behind it has one error. -/
theorem errors_of_comment {comment : Text} (h : CodePoint.newline ∉ comment) :
    (check (")#" ++ comment)).errors =
      [⟨.unexpected (.delimiter .paren), Position.start⟩] := by
  have hsource : (")#" : Text) ++ comment =
      CodePoint.ofChar ')' :: CodePoint.ofChar '#' :: comment := rfl
  have hbracket : lexeme ')' (CodePoint.ofChar '#' :: comment) = ⟨some (.closing .paren), 0⟩ :=
    rfl
  have htokens : ∃ pos, tokenize (")#" ++ comment) =
      [⟨.closing .paren, Position.start⟩, ⟨.eof, pos⟩] := by
    rw [hsource, tokenize, tokensFrom, hbracket]
    simp only [List.drop_zero]
    rw [tokensFrom, lexeme_comment h]
    simp only [List.drop_length]
    rw [tokensFrom]
    exact ⟨_, rfl⟩
  obtain ⟨pos, htokens⟩ := htokens
  rw [check, htokens]
  rfl

/-- A comment that reads like an error with more digits than can be read. -/
theorem not_diagnosable_of_comment {numeral : Text} (hnumeral : IsNumeral numeral)
    (hlong : digitLimit < numeral.length) :
    ¬ Diagnosable (")#" ++ defaultWording.spell numeral "1" "x") := by
  have hnewline : CodePoint.newline ∉ defaultWording.spell numeral "1" "x" := by
    have hdigits : CodePoint.newline ∉ numeral := by
      intro hmem
      exact absurd (hnumeral.2 _ hmem) (by decide)
    simp only [Wording.spell, List.mem_append, not_or]
    exact ⟨by decide, hdigits, by decide, by decide, by decide, by decide⟩
  have hmatches : matchesIn defaultTemplate (")#" ++ defaultWording.spell numeral "1" "x") =
      [defaultWording.spellMatch numeral "1" "x"] := by
    have hskip : CodePoint.ofChar 'p' ∉ (")#" : Text) := by decide
    exact (matchesIn_append_of_not_mem hskip _).trans
      (Wording.matchesIn_spell defaultWording_separated hnumeral ⟨by decide, by decide⟩
        (by decide) (by decide))
  have hline : Text.lines (")#" ++ defaultWording.spell numeral "1" "x") =
      [")#" ++ defaultWording.spell numeral "1" "x"] := by
    refine Text.lines_eq_singleton ?_
    rw [List.mem_append, not_or]
    exact ⟨by decide, hnewline⟩
  intro hdiagnosable
  have herror := hdiagnosable ⟨.unexpected (.delimiter .paren), Position.start⟩
    (by rw [errors_of_comment hnewline]; exact List.mem_singleton_self _)
  have hread := herror.2.2 (defaultWording.spellMatch numeral "1" "x") (by
    rw [SyntaxError.lineText, hline]
    change _ ∈ matchesIn defaultTemplate (")#" ++ defaultWording.spell numeral "1" "x")
    rw [hmatches]
    exact List.mem_singleton_self _)
  exact absurd hread.1 (Nat.not_le.mpr hlong)

/-- A text without diagnostics is stored when it is opened, but nothing is shown for it. -/
theorem handle_open_of_not_diagnosable {content : Text} (h : ¬ Diagnosable content)
    (uri : Text) :
    (Server.standard.peer.handle (openMessage uri content) Server.initial).1 = [] ∧
      (Server.standard.peer.handle (openMessage uri content)
        Server.initial).2.state.documents.get? uri = some ⟨uri, none, content⟩ := by
  have hnone : Server.standard.diagnosed ⟨uri, none, content⟩ = [] := by
    rw [Server.diagnosed]
    cases hdiagnose : diagnose Server.standard.compiler Server.standard.template
        Server.standard.source content with
    | error e => rfl
    | ok diagnostics =>
        exact absurd ((exists_diagnose_iff content defaultSource).mp ⟨_, hdiagnose⟩) h
  have hevent := Members.carries_iff.mp (carries_openMessage uri content)
  obtain ⟨hreplies, hdocuments⟩ :=
    Server.standard.handle_of_event hevent (standard_accepts _) Server.initial
  rw [hreplies, hdocuments]
  refine ⟨?_, Documents.get?_insert_self [] ⟨uri, none, content⟩⟩
  change Server.publications (Server.standard.diagnosed ⟨uri, none, content⟩) = []
  rw [hnone]
  rfl

/-- A comment with a number of 4301 digits: the document is stored and nothing is shown. -/
theorem unread_number_not_published :
    let content : Text := ")#" ++ defaultWording.spell
      (List.replicate 4301 (CodePoint.ofChar '1')) "1" "x"
    (Server.standard.peer.handle (openMessage "a" content) Server.initial).1 = [] ∧
      (Server.standard.peer.handle (openMessage "a" content)
        Server.initial).2.state.documents.get? "a" = some ⟨"a", none, content⟩ := by
  have hlength : (List.replicate 4301 (CodePoint.ofChar '1')).length = 4301 :=
    List.length_replicate
  have hnumeral : IsNumeral (List.replicate 4301 (CodePoint.ofChar '1')) := by
    refine ⟨fun hnil => ?_, fun c hc => ?_⟩
    · rw [hnil] at hlength
      cases hlength
    · rw [List.eq_of_mem_replicate hc]
      decide
  have hlong : digitLimit < (List.replicate 4301 (CodePoint.ofChar '1')).length := by
    rw [hlength]
    decide
  exact handle_open_of_not_diagnosable (not_diagnosable_of_comment hnumeral hlong) "a"

end VibeScript
