import VibeScript.Proofs.Server.Separation

/-!
Messages with malformed params.

What malformed params look like is said without the readers of the server, and the readers
refuse exactly these (`openParams_fails_iff`, `changeParams_fails_iff`,
`closeParams_fails_iff`, `hoverParams_fails_iff`).  A message about a document that is
refused leaves a line in the journal and nothing else, and a hover that is refused leaves
nothing at all behind its error (`malformed_params_change_nothing`).
-/

namespace VibeScript

/-- Params that name no document: they are no object, have no `textDocument` that is an
object, or there is no text under its `uri`. -/
inductive Json.Unnamed (params : Json) : Prop
  | notObject (hparams : ∀ members, params ≠ .obj members)
  | noItem {members : Members} (hparams : params = .obj members)
      (hitem : ∀ item, members.get? "textDocument" ≠ some (.obj item))
  | noUri {members item : Members} (hparams : params = .obj members)
      (hitem : members.get? "textDocument" = some (.obj item))
      (huri : ∀ uri, item.get? "uri" ≠ some (.str uri))

/-- Params with which no document can be opened: they name none, or give no text for it. -/
inductive Json.MalformedOpen (params : Json) : Prop
  | unnamed (h : params.Unnamed)
  | noText {members item : Members} (hparams : params = .obj members)
      (hitem : members.get? "textDocument" = some (.obj item))
      (htext : ∀ content, item.get? "text" ≠ some (.str content))

/-- Params with which no document can be changed: they name none, have no list of changes,
or the last change is no object with a text.  The other changes do not matter. -/
inductive Json.MalformedChange (params : Json) : Prop
  | unnamed (h : params.Unnamed)
  | noChanges {members : Members} (hparams : params = .obj members)
      (hchanges : ∀ changes, members.get? "contentChanges" ≠ some (.arr changes))
  | noText {members : Members} {changes : List Json} {last : Json}
      (hparams : params = .obj members)
      (hchanges : members.get? "contentChanges" = some (.arr changes))
      (hlast : changes.getLast? = some last)
      (htext : ∀ (latest : Members) (content : Text), last = .obj latest →
        latest.get? "text" ≠ some (.str content))

/-- Params that ask for no hover.  Members that are missing are forgiven, and so are
`textDocument` and `position` if they are null; a truth value is no integer. -/
inductive Json.MalformedHover (params : Json) : Prop
  | notObject (hparams : ∀ members, params ≠ .obj members)
  | noObject {members : Members} {key : Text} {value : Json}
      (hparams : params = .obj members) (hkey : key = "textDocument" ∨ key = "position")
      (hvalue : members.get? key = some value) (hnull : value ≠ .null)
      (hobject : ∀ item, value ≠ .obj item)
  | noUri {members item : Members} {value : Json} (hparams : params = .obj members)
      (hitem : members.get? "textDocument" = some (.obj item))
      (hvalue : item.get? "uri" = some value) (hstring : ∀ uri, value ≠ .str uri)
  | noInteger {members position : Members} {key : Text} {value : Json}
      (hparams : params = .obj members)
      (hposition : members.get? "position" = some (.obj position))
      (hkey : key = "line" ∨ key = "character")
      (hvalue : position.get? key = some value) (hinteger : ∀ n, value ≠ .int n)

/-- A message about a document with malformed params. -/
inductive Members.Malformed (envelope : Members) : Prop
  | opened (hmethod : envelope.get? "method" = some (.str "textDocument/didOpen"))
      (h : (envelope.getD "params").MalformedOpen)
  | changed (hmethod : envelope.get? "method" = some (.str "textDocument/didChange"))
      (h : (envelope.getD "params").MalformedChange)
  | closed (hmethod : envelope.get? "method" = some (.str "textDocument/didClose"))
      (h : (envelope.getD "params").Unnamed)

section Readers

variable {params : Json} {members item : Members} {key uri : Text}

theorem exists_error_iff {α : Type} {x : Except ParamsFault α} :
    (∃ fault, x = .error fault) ↔ ∀ a, x ≠ .ok a := by
  cases x <;> simp

/-- Params that are not unnamed name a document. -/
theorem Json.exists_named (h : ¬ params.Unnamed) : ∃ members item : Members, ∃ uri : Text,
    params = .obj members ∧ members.get? "textDocument" = some (.obj item) ∧
      item.get? "uri" = some (.str uri) := by
  obtain ⟨members, hparams⟩ : ∃ members : Members, params = .obj members := by
    by_contra hnone
    exact h (.notObject fun members heq => hnone ⟨members, heq⟩)
  obtain ⟨item, hitem⟩ : ∃ item : Members, members.get? "textDocument" = some (.obj item) := by
    by_contra hnone
    exact h (.noItem hparams fun item heq => hnone ⟨item, heq⟩)
  obtain ⟨uri, huri⟩ : ∃ uri, item.get? "uri" = some (.str uri) := by
    by_contra hnone
    exact h (.noUri hparams hitem fun uri heq => hnone ⟨uri, heq⟩)
  exact ⟨members, item, uri, hparams, hitem, huri⟩

theorem Json.not_unnamed (hitem : members.get? "textDocument" = some (.obj item))
    (huri : item.get? "uri" = some (.str uri)) : ¬ (Json.obj members).Unnamed := by
  intro h
  cases h with
  | notObject hparams => exact hparams members rfl
  | noItem hparams hnone =>
      cases hparams
      exact hnone item hitem
  | noUri hparams hfound hnone =>
      cases hparams
      rw [hitem] at hfound
      cases hfound
      exact hnone uri huri

theorem closeParams_fails_iff :
    (∃ fault, closeParams params = .error fault) ↔ params.Unnamed := by
  rw [exists_error_iff]
  constructor
  · intro h
    by_contra hnamed
    obtain ⟨members, item, uri, hparams, hitem, huri⟩ := Json.exists_named hnamed
    exact h uri (closeParams_eq_ok_iff.mpr ⟨members, item, hparams, hitem, huri⟩)
  · intro h uri hread
    obtain ⟨members, item, rfl, hitem, huri⟩ := closeParams_eq_ok_iff.mp hread
    exact Json.not_unnamed hitem huri h

theorem openParams_fails_iff :
    (∃ fault, openParams params = .error fault) ↔ params.MalformedOpen := by
  rw [exists_error_iff]
  constructor
  · intro h
    by_contra hwell
    obtain ⟨members, item, uri, hparams, hitem, huri⟩ :=
      Json.exists_named fun hunnamed => hwell (.unnamed hunnamed)
    obtain ⟨content, htext⟩ : ∃ content, item.get? "text" = some (.str content) := by
      by_contra hnone
      exact hwell (.noText hparams hitem fun content heq => hnone ⟨content, heq⟩)
    exact h ⟨uri, versionOf (item.getD "version"), content⟩
      (openParams_eq_ok_iff.mpr ⟨members, item, hparams, hitem, huri, htext,
        givesVersion_iff.mpr rfl⟩)
  · intro h document hread
    obtain ⟨members, item, rfl, hitem, huri, htext, _⟩ := openParams_eq_ok_iff.mp hread
    cases h with
    | unnamed hunnamed => exact Json.not_unnamed hitem huri hunnamed
    | noText hparams hfound hnone =>
        cases hparams
        rw [hitem] at hfound
        cases hfound
        exact hnone _ htext

/-- How the changes of a document that is named are read. -/
theorem changeParams_of_named (hitem : members.get? "textDocument" = some (.obj item))
    (huri : item.get? "uri" = some (.str uri)) :
    changeParams (.obj members) =
      match members.getD "contentChanges" with
      | .arr changes =>
          match changes.getLast? with
          | none => .ok none
          | some change => do
              let latest ← requireObject "content change" change
              let content ← requireString latest "text" .null
              return some ⟨uri, versionOf (item.getD "version"), content⟩
      | _ => .error (.notArray "contentChanges") := by
  rw [changeParams, textDocument_obj hitem]
  simp only [bind, Except.bind, requireObject, requireString_eq_ok_iff.mpr huri]
  rfl

/-- Changes are read only for a document that is named. -/
theorem exists_named_of_changeParams {result : Option Document}
    (h : changeParams params = .ok result) : ∃ members item : Members, ∃ uri : Text,
    params = .obj members ∧ members.get? "textDocument" = some (.obj item) ∧
      item.get? "uri" = some (.str uri) := by
  obtain ⟨item, hread, hnext⟩ := exists_of_bind_eq_ok h
  obtain ⟨uri, hname, _⟩ := exists_of_bind_eq_ok hnext
  have huri := requireString_eq_ok_iff.mp hname
  obtain ⟨members, hparams, hitem⟩ := textDocument_of_get? hread huri
  exact ⟨members, item, uri, hparams, hitem, huri⟩

theorem changeParams_fails_iff :
    (∃ fault, changeParams params = .error fault) ↔ params.MalformedChange := by
  constructor
  · rintro ⟨fault, hread⟩
    by_contra hwell
    obtain ⟨members, item, uri, rfl, hitem, huri⟩ :=
      Json.exists_named fun hunnamed => hwell (.unnamed hunnamed)
    obtain ⟨changes, hchanges⟩ :
        ∃ changes, members.get? "contentChanges" = some (.arr changes) := by
      by_contra hnone
      exact hwell (.noChanges rfl fun changes heq => hnone ⟨changes, heq⟩)
    rw [changeParams_of_named hitem huri, Members.getD_of_get? hchanges] at hread
    cases hlast : changes.getLast? with
    | none => simp [hlast] at hread
    | some last =>
        obtain ⟨latest, content, hlatest, htext⟩ : ∃ (latest : Members) (content : Text),
            last = .obj latest ∧ latest.get? "text" = some (.str content) := by
          by_contra hnone
          exact hwell (.noText rfl hchanges hlast fun latest content hlatest htext =>
            hnone ⟨latest, content, hlatest, htext⟩)
        simp only [hlast, hlatest, requireObject, bind, Except.bind,
          requireString_eq_ok_iff.mpr htext] at hread
        cases hread
  · rw [exists_error_iff]
    intro h result hread
    obtain ⟨members, item, uri, rfl, hitem, huri⟩ := exists_named_of_changeParams hread
    rw [changeParams_of_named hitem huri] at hread
    cases h with
    | unnamed hunnamed => exact Json.not_unnamed hitem huri hunnamed
    | noChanges hparams hnone =>
        cases hparams
        split at hread
        · next changes hchanges => exact hnone changes (Members.get?_of_getD hchanges rfl)
        · cases hread
    | noText hparams hchanges hlast hnone =>
        cases hparams
        rw [Members.getD_of_get? hchanges] at hread
        simp only [hlast] at hread
        obtain ⟨latest, hlatest, hnext⟩ := exists_of_bind_eq_ok hread
        obtain ⟨content, htext, _⟩ := exists_of_bind_eq_ok hnext
        exact hnone latest content (requireObject_eq_ok_iff.mp hlatest)
          (requireString_eq_ok_iff.mp htext)

/-- A member that has to be an object if it is there is refused if it is something else. -/
theorem optionalObject_fails_iff : (∀ item, optionalObject members key ≠ .ok item) ↔
    ∃ value, members.get? key = some value ∧ value ≠ .null ∧ ∀ item, value ≠ .obj item := by
  rw [optionalObject, Members.getD]
  cases members.get? key with
  | none => simp
  | some value => cases value <;> simp [requireObject]

theorem requireString_fails_iff {fallback : Text} :
    (∀ t, requireString members key (.str fallback) ≠ .ok t) ↔
      ∃ value, members.get? key = some value ∧ ∀ t, value ≠ .str t := by
  rw [requireString]
  cases members.get? key with
  | none => simp
  | some value => cases value <;> simp

theorem requireInteger_fails_iff : (∀ n, requireInteger members key ≠ .ok n) ↔
    ∃ value, members.get? key = some value ∧ ∀ n, value ≠ .int n := by
  rw [requireInteger]
  cases members.get? key with
  | none => simp
  | some value => cases value <;> simp

/-- An object that has a member is one that is there. -/
theorem optionalObject_of_get? {name : Text} {value : Json}
    (h : optionalObject members key = .ok item) (hvalue : item.get? name = some value) :
    members.get? key = some (.obj item) := by
  unfold optionalObject at h
  split at h
  · cases h
    simp at hvalue
  · exact Members.get?_of_getD (requireObject_eq_ok_iff.mp h) rfl

/-- The parts that a hover is read from. -/
theorem readHoverParams_eq_ok_iff {asked : HoverParams} :
    readHoverParams params = .ok asked ↔ ∃ members item position : Members,
      params = .obj members ∧ optionalObject members "textDocument" = .ok item ∧
      requireString item "uri" (.str []) = .ok asked.uri ∧
      optionalObject members "position" = .ok position ∧
      requireInteger position "line" = .ok asked.line ∧
      requireInteger position "character" = .ok asked.character := by
  constructor
  · intro h
    obtain ⟨item, hdocument, h⟩ := exists_of_bind_eq_ok h
    obtain ⟨members, hparams, hitem⟩ := exists_of_bind_eq_ok hdocument
    obtain ⟨uri, huri, h⟩ := exists_of_bind_eq_ok h
    obtain ⟨again, hagain, h⟩ := exists_of_bind_eq_ok h
    obtain rfl : again = members := Except.ok.inj (hagain.symm.trans hparams)
    obtain ⟨position, hposition, h⟩ := exists_of_bind_eq_ok h
    obtain ⟨line, hline, h⟩ := exists_of_bind_eq_ok h
    obtain ⟨character, hcharacter, h⟩ := exists_of_bind_eq_ok h
    cases h
    exact ⟨again, item, position, requireObject_eq_ok_iff.mp hparams, hitem, huri, hposition,
      hline, hcharacter⟩
  · rintro ⟨members, item, position, rfl, hitem, huri, hposition, hline, hcharacter⟩
    simp only [readHoverParams, textDocument, requireObject, bind, Except.bind, hitem, huri,
      hposition, hline, hcharacter]
    rfl

/-- Whatever is wrong with the params of a hover, it is reported alike. -/
theorem fault_of_hoverParams {fault : ParamsFault} (h : hoverParams params = .error fault) :
    fault = .invalidHover := by
  unfold hoverParams at h
  split at h
  · cases h
  · exact (Except.error.inj h).symm

theorem hoverParams_fails_iff :
    hoverParams params = .error .invalidHover ↔ params.MalformedHover := by
  have hread : hoverParams params = .error .invalidHover ↔
      ∀ asked, readHoverParams params ≠ .ok asked := by
    rw [hoverParams]
    cases readHoverParams params <;> simp
  rw [hread]
  constructor
  · intro h
    by_contra hwell
    obtain ⟨members, rfl⟩ : ∃ members : Members, params = .obj members := by
      by_contra hnone
      exact hwell (.notObject fun members heq => hnone ⟨members, heq⟩)
    have hobject {key : Text} (hkey : key = "textDocument" ∨ key = "position") :
        ∃ item, optionalObject members key = .ok item := by
      by_contra hnone
      obtain ⟨value, hvalue, hnull, hobject⟩ :=
        optionalObject_fails_iff.mp fun item heq => hnone ⟨item, heq⟩
      exact hwell (.noObject rfl hkey hvalue hnull hobject)
    obtain ⟨item, hitem⟩ := hobject (Or.inl rfl)
    obtain ⟨position, hposition⟩ := hobject (Or.inr rfl)
    obtain ⟨uri, huri⟩ : ∃ uri, requireString item "uri" (.str []) = .ok uri := by
      by_contra hnone
      obtain ⟨value, hvalue, hstring⟩ :=
        requireString_fails_iff.mp fun uri heq => hnone ⟨uri, heq⟩
      exact hwell (.noUri rfl (optionalObject_of_get? hitem hvalue) hvalue hstring)
    have hinteger {key : Text} (hkey : key = "line" ∨ key = "character") :
        ∃ n, requireInteger position key = .ok n := by
      by_contra hnone
      obtain ⟨value, hvalue, hinteger⟩ :=
        requireInteger_fails_iff.mp fun n heq => hnone ⟨n, heq⟩
      exact hwell (.noInteger rfl (optionalObject_of_get? hposition hvalue) hkey hvalue hinteger)
    obtain ⟨line, hline⟩ := hinteger (Or.inl rfl)
    obtain ⟨character, hcharacter⟩ := hinteger (Or.inr rfl)
    exact h ⟨uri, line, character⟩ (readHoverParams_eq_ok_iff.mpr
      ⟨members, item, position, rfl, hitem, huri, hposition, hline, hcharacter⟩)
  · intro h asked hasked
    obtain ⟨members, item, position, rfl, hitem, huri, hposition, hline, hcharacter⟩ :=
      readHoverParams_eq_ok_iff.mp hasked
    cases h with
    | notObject hparams => exact hparams members rfl
    | noObject hparams hkey hvalue hnull hobject =>
        cases hparams
        have hfails := optionalObject_fails_iff.mpr ⟨_, hvalue, hnull, hobject⟩
        rcases hkey with rfl | rfl
        · exact hfails item hitem
        · exact hfails position hposition
    | noUri hparams hfound hvalue hstring =>
        cases hparams
        rw [optionalObject, Members.getD_of_get? hfound] at hitem
        cases hitem
        exact requireString_fails_iff.mpr ⟨_, hvalue, hstring⟩ asked.uri huri
    | noInteger hparams hfound hkey hvalue hinteger =>
        cases hparams
        rw [optionalObject, Members.getD_of_get? hfound] at hposition
        cases hposition
        have hfails := requireInteger_fails_iff.mpr ⟨_, hvalue, hinteger⟩
        rcases hkey with rfl | rfl
        · exact hfails asked.line hline
        · exact hfails asked.character hcharacter

end Readers

/-- A session that has gone on from an earlier one without ignoring a message: none of the
entries that were written since then says so. -/
def Session.IgnoredNothing (session before : Session) : Prop :=
  ∃ entries, session.journal = before.journal ++ entries ∧
    ∀ reason : Text, JournalEntry.line ("ignoring " ++ reason) ∉ entries

/-- What a handler leaves that takes the params of a message for valid ones. -/
structure NotRefused (outcome : Except Failure Json × Context Session) (before : Session) :
    Prop where
  result : ∀ message, outcome.1 ≠ .error (.invalidParams message)
  journal : outcome.2.state.IgnoredNothing before

theorem Session.IgnoredNothing.of_eq {session before : Session}
    (h : session.journal = before.journal) : session.IgnoredNothing before :=
  ⟨[], by rw [h, List.append_nil], fun _ => List.not_mem_nil⟩

theorem Session.IgnoredNothing.trans {first second third : Session}
    (h : third.IgnoredNothing second) (h' : second.IgnoredNothing first) :
    third.IgnoredNothing first := by
  obtain ⟨later, hlater, hnot⟩ := h
  obtain ⟨earlier, hearlier, hnot'⟩ := h'
  refine ⟨earlier ++ later, by rw [hlater, hearlier, List.append_assoc], fun reason hmem => ?_⟩
  rcases List.mem_append.mp hmem with hmem | hmem
  · exact hnot' reason hmem
  · exact hnot reason hmem

/-- A line that starts with another letter does not say that a message is ignored. -/
theorem Session.IgnoredNothing.log {session before : Session}
    (h : session.IgnoredNothing before) {line : Text}
    (hline : line.head? ≠ some (CodePoint.ofChar 'i')) :
    (session.log line).IgnoredNothing before := by
  refine .trans ⟨[.line line], rfl, fun reason hmem => hline ?_⟩ h
  obtain rfl := JournalEntry.line.inj (List.mem_singleton.mp hmem)
  rfl

namespace Server

variable (server : Server)

theorem loggingThen_notRefused {line : Text}
    (hline : line.head? ≠ some (CodePoint.ofChar 'i'))
    {next : Context Session → Except Failure Json × Context Session}
    (hnext : ∀ ctx, NotRefused (next ctx) ctx.state) (ctx : Context Session) :
    NotRefused (server.loggingThen line next ctx) ctx.state := by
  cases hlogs : server.canLog line with
  | true =>
      rw [server.loggingThen_of_canLog hlogs]
      obtain ⟨hresult, hjournal⟩ := hnext (ctx.modify (·.log line))
      exact ⟨hresult, hjournal.trans (.log (.of_eq rfl) hline)⟩
  | false =>
      obtain ⟨message, hlogging⟩ := server.exists_logging_eq_of_not_canLog hlogs
      rw [loggingThen, hlogging]
      exact ⟨by simp, .of_eq rfl⟩

theorem publish_notRefused (uri content : Text) {ctx : Context Session} {before : Session}
    (h : ctx.state.journal = before.journal) :
    NotRefused (server.publish uri content ctx) before := by
  unfold publish
  split
  · exact ⟨by simp, .of_eq h⟩
  · exact ⟨by simp, .of_eq h⟩

theorem onOpen_notRefused {params : Json} {document : Document}
    (h : openParams params = .ok document) (ctx : Context Session) :
    NotRefused (server.onOpen params ctx) ctx.state := by
  simp only [onOpen, h]
  refine server.loggingThen_notRefused ?_ (fun ctx => ?_) ctx
  · exact fun hhead => absurd (Option.some.inj hhead) (by decide)
  · exact server.publish_notRefused _ _ rfl

theorem onChange_notRefused {params : Json} {change : Option Document}
    (h : changeParams params = .ok change) (ctx : Context Session) :
    NotRefused (server.onChange params ctx) ctx.state := by
  simp only [onChange, h]
  cases change with
  | none => exact ⟨by simp, .of_eq rfl⟩
  | some document => exact server.publish_notRefused _ _ rfl

theorem onClose_notRefused {params : Json} {uri : Text} (h : closeParams params = .ok uri)
    (ctx : Context Session) : NotRefused (server.onClose params ctx) ctx.state := by
  simp only [onClose, h]
  refine server.loggingThen_notRefused ?_ (fun ctx => ?_) ctx
  · exact fun hhead => absurd (Option.some.inj hhead) (by decide)
  · split <;> exact ⟨by simp, .of_eq rfl⟩

/-- What a notification comes to is what its handler and the report of a failure make. -/
theorem handle_of_notification {envelope : Members} {method : Text}
    {handler : Handler Session} (hmethod : envelope.get? "method" = some (.str method))
    (hmem : (method, handler) ∈ server.peer.notifications) (ctx : Context Session) :
    server.peer.handle envelope ctx =
      let after := server.peer.observe handler method (envelope.getD "params")
        { ctx with outbox := [] }
      (after.outbox, { after with outbox := [] }) := by
  obtain ⟨hrequest, hnotification⟩ := server.handler?_of_notification hmem
  rw [Peer.handle_of_method _ (Members.method?_eq_some_iff.mpr hmethod), Peer.dispatch, hrequest]
  simp only [hnotification]

/-- A notification whose params are refused leaves a line in the journal, and nothing
else. -/
theorem handle_of_refused_params {envelope : Members} {method : Text}
    {handler : Handler Session} (hmethod : envelope.get? "method" = some (.str method))
    (hmem : (method, handler) ∈ server.peer.notifications) {message : Text}
    (hrefused : ∀ ctx, handler (envelope.getD "params") ctx =
      (.error (.invalidParams message), ctx)) (ctx : Context Session) :
    server.peer.handle envelope ctx = ([], { ctx with
      outbox := [], state := ctx.state.log ("ignoring " ++ method ++ ": " ++ message) }) := by
  rw [server.handle_of_notification hmethod hmem, Peer.observe, hrefused]
  rfl

/-- No message is ignored whose params are taken for valid ones. -/
theorem ignoredNothing_handle {envelope : Members} {method : Text}
    {handler : Handler Session} (hmethod : envelope.get? "method" = some (.str method))
    (hmem : (method, handler) ∈ server.peer.notifications)
    (htaken : ∀ ctx, NotRefused (handler (envelope.getD "params") ctx) ctx.state)
    (ctx : Context Session) :
    (server.peer.handle envelope ctx).2.state.IgnoredNothing ctx.state := by
  rw [server.handle_of_notification hmethod hmem, Peer.observe]
  have hcall := htaken { ctx with outbox := [] }
  generalize handler (envelope.getD "params") { ctx with outbox := [] } = outcome at hcall ⊢
  obtain ⟨failure | value, after⟩ := outcome
  · have hline (message : Text) : ("error handling " ++ method ++ ": " ++ message : Text).head? ≠
        some (CodePoint.ofChar 'i') :=
      fun hhead => absurd (Option.some.inj hhead) (by decide)
    cases failure with
    | invalidParams message => exact absurd rfl (hcall.result message)
    | rpc e => exact hcall.journal.log (hline e.message)
    | crash message => exact hcall.journal.log (hline message)
  · exact hcall.journal

/-- What a request with an id comes to. -/
theorem handle_of_request {envelope : Members} {method : Text} {id : Json}
    {handler : Handler Session} (hmethod : envelope.get? "method" = some (.str method))
    (hid : envelope.requestId? = some id) (hmem : (method, handler) ∈ server.peer.requests)
    (ctx : Context Session) :
    server.peer.handle envelope ctx =
      let after := server.peer.respond handler method id (envelope.getD "params")
        { ctx with outbox := [] }
      (after.outbox, { after with outbox := [] }) := by
  obtain ⟨hvalue, hnull⟩ := Members.id_of_some hid
  rw [Peer.handle_of_method _ (Members.method?_eq_some_iff.mpr hmethod), Peer.dispatch,
    server.handler?_of_request hmem]
  simp only [hvalue, hnull, Bool.false_eq_true, ↓reduceIte]

/-- A hover request is answered, and nothing changes. -/
theorem handle_of_hover {envelope : Members} {id : Json}
    (hmethod : envelope.get? "method" = some (.str "textDocument/hover"))
    (hid : envelope.requestId? = some id) (ctx : Context Session) :
    server.peer.handle envelope ctx =
      ([(match hoverParams (envelope.getD "params") with
        | .error fault => Answer.error ⟨-32602, fault.message, .null⟩
        | .ok asked => Answer.result (server.hover ctx.state.documents asked)).response id],
        { ctx with outbox := [] }) := by
  have hmem : (("textDocument/hover" : Text), server.onHover) ∈ server.peer.requests := by
    simp [peer]
  rw [server.handle_of_request hmethod hid hmem, Peer.respond, onHover]
  cases hoverParams (envelope.getD "params") <;> rfl

end Server

/-- Malformed params change nothing.  A message about a document is refused exactly if its
params are malformed: it is not answered, a line in the journal says what is wrong, and
everything else stays as it was.  Other params are never called invalid.  A hover request
with malformed params, and no other, is answered by an error; a hover changes nothing in any
case. -/
theorem malformed_params_change_nothing (server : Server) (envelope : Members)
    (ctx : Context Session) :
    (envelope.Malformed → ∃ (method : Text) (fault : ParamsFault), method ∈ documentMethods ∧
      envelope.get? "method" = some (.str method) ∧
      server.peer.handle envelope ctx = ([], { ctx with
        outbox := [], state := ctx.state.log ("ignoring " ++ method ++ ": " ++ fault.message) })) ∧
    (∀ method ∈ documentMethods, envelope.get? "method" = some (.str method) →
      ¬ envelope.Malformed →
      (server.peer.handle envelope ctx).2.state.IgnoredNothing ctx.state) ∧
    ∀ id, envelope.get? "method" = some (.str "textDocument/hover") →
      envelope.requestId? = some id →
      (server.peer.handle envelope ctx).2 = { ctx with outbox := [] } ∧
      ((server.peer.handle envelope ctx).1 =
          [(Answer.error ⟨-32602, "invalid hover params", .null⟩).response id] ↔
        (envelope.getD "params").MalformedHover) ∧
      (¬ (envelope.getD "params").MalformedHover → ∃ value,
        (server.peer.handle envelope ctx).1 = [(Answer.result value).response id]) := by
  have hopen : (("textDocument/didOpen" : Text), server.onOpen) ∈ server.peer.notifications := by
    simp [Server.peer]
  have hchange : (("textDocument/didChange" : Text), server.onChange) ∈
      server.peer.notifications := by simp [Server.peer]
  have hclose : (("textDocument/didClose" : Text), server.onClose) ∈
      server.peer.notifications := by simp [Server.peer]
  refine ⟨fun hmalformed => ?_, fun method hlisted hmethod hwell => ?_, fun id hmethod hid => ?_⟩
  · cases hmalformed with
    | opened hmethod h =>
        obtain ⟨fault, hread⟩ := openParams_fails_iff.mpr h
        exact ⟨_, fault, by simp [documentMethods], hmethod,
          server.handle_of_refused_params hmethod hopen
            (fun ctx => by simp only [Server.onOpen, hread]) ctx⟩
    | changed hmethod h =>
        obtain ⟨fault, hread⟩ := changeParams_fails_iff.mpr h
        exact ⟨_, fault, by simp [documentMethods], hmethod,
          server.handle_of_refused_params hmethod hchange
            (fun ctx => by simp only [Server.onChange, hread]) ctx⟩
    | closed hmethod h =>
        obtain ⟨fault, hread⟩ := closeParams_fails_iff.mpr h
        exact ⟨_, fault, by simp [documentMethods], hmethod,
          server.handle_of_refused_params hmethod hclose
            (fun ctx => by simp only [Server.onClose, hread]) ctx⟩
  · simp only [documentMethods, List.mem_cons, List.not_mem_nil, or_false] at hlisted
    rcases hlisted with rfl | rfl | rfl
    · cases hread : openParams (envelope.getD "params") with
      | error fault => exact absurd (.opened hmethod (openParams_fails_iff.mp ⟨fault, hread⟩)) hwell
      | ok document =>
          exact server.ignoredNothing_handle hmethod hopen (server.onOpen_notRefused hread) ctx
    · cases hread : changeParams (envelope.getD "params") with
      | error fault =>
          exact absurd (.changed hmethod (changeParams_fails_iff.mp ⟨fault, hread⟩)) hwell
      | ok change =>
          exact server.ignoredNothing_handle hmethod hchange (server.onChange_notRefused hread) ctx
    · cases hread : closeParams (envelope.getD "params") with
      | error fault =>
          exact absurd (.closed hmethod (closeParams_fails_iff.mp ⟨fault, hread⟩)) hwell
      | ok uri =>
          exact server.ignoredNothing_handle hmethod hclose (server.onClose_notRefused hread) ctx
  · rw [server.handle_of_hover hmethod hid, ← hoverParams_fails_iff]
    refine ⟨rfl, ?_⟩
    cases hread : hoverParams (envelope.getD "params") with
    | error fault =>
        obtain rfl := fault_of_hoverParams hread
        exact ⟨by simp [ParamsFault.message], fun hwell => absurd rfl hwell⟩
    | ok asked =>
        have hkey : ("result" : Text) ≠ "error" := by decide
        exact ⟨by simp [Answer.response, hkey], fun _ => ⟨_, rfl⟩⟩

/-- A change with a good text in front of a bad one, and a hover on the line `true`. -/
theorem malformed_params_change_nothing_last :
    let change : Members := [("method", .str "textDocument/didChange"), ("params", .obj
      [("textDocument", .obj [("uri", .str "a")]),
        ("contentChanges", .arr [.obj [("text", .str "x")], .str "y"])])]
    let hover : Members := [("id", .int 1), ("method", .str "textDocument/hover"),
      ("params", .obj [("position", .obj [("line", .bool true)])])]
    change.Malformed ∧ (hover.getD "params").MalformedHover ∧
      (∃ fault : ParamsFault, Server.standard.peer.handle change Server.initial =
        ([], Server.initial.modify (·.log
          ("ignoring textDocument/didChange: " ++ fault.message)))) ∧
      Server.standard.peer.handle hover Server.initial =
        ([(Answer.error ⟨-32602, "invalid hover params", .null⟩).response (.int 1)],
          Server.initial) := by
  intro change hover
  have hchange : change.Malformed := .changed rfl
    (.noText rfl rfl rfl fun latest content hlatest => by cases hlatest)
  have hhover : (hover.getD "params").MalformedHover :=
    .noInteger rfl rfl (Or.inl rfl) rfl fun n h => by cases h
  obtain ⟨hrefused, _, hasked⟩ :=
    malformed_params_change_nothing Server.standard change Server.initial
  obtain ⟨_, _, hanswered⟩ :=
    malformed_params_change_nothing Server.standard hover Server.initial
  obtain ⟨method, fault, _, hmethod, hhandle⟩ := hrefused hchange
  obtain ⟨hafter, hreply, _⟩ := hanswered (.int 1) rfl rfl
  obtain rfl : _ = method := Json.str.inj (Option.some.inj hmethod)
  exact ⟨hchange, hhover, ⟨fault, hhandle⟩, Prod.ext (hreply.mpr hhover) hafter⟩

end VibeScript
