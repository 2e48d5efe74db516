import VibeScript.Proofs.Json.Echo
import VibeScript.Proofs.Json.Unambiguous
import VibeScript.Proofs.Server.Serving

/-!
The replies to standard JSON.

All that the server adds to its replies are texts and integers, so the doubles in a reply come
from the id of the request alone.  A notification is standard JSON, and so is a response unless
a number in the id is too great for a double.  The id is the same again if in addition each
number in it is an integer, or is what is written for its double
(`replies_standard_iff`).
-/

namespace VibeScript

section Finite

theorem elementsFinite_map {α : Type} {f : α → Json} (h : ∀ x, (f x).isFinite = true)
    (xs : List α) : elementsFinite (xs.map f) = true := by
  induction xs with
  | nil => rfl
  | cons x rest ih => rw [List.map_cons, elementsFinite, h, ih, Bool.true_and]

theorem membersFinite_unlessNull (key : Text) (value : Json) :
    membersFinite (Members.unlessNull key value) = value.isFinite := by
  rw [Members.unlessNull]
  split
  · next hnull => cases value <;> simp_all [Json.isNull, Json.isFinite, membersFinite]
  · simp [membersFinite]

theorem isFinite_notification (method : Text) (params : Json) :
    (notification method params).isFinite = params.isFinite := by
  simp [notification, Json.isFinite, membersFinite, membersFinite_unlessNull]

/-- An answer without doubles that are not finite. -/
def Answer.isFinite : Answer → Bool
  | .result value => value.isFinite
  | .error e => e.data.isFinite

/-- The doubles of a response are those of its id and of its answer. -/
theorem Answer.isFinite_response (id : Json) (a : Answer) :
    (a.response id).isFinite = (id.isFinite && a.isFinite) := by
  cases a with
  | result value => simp [response, Answer.isFinite, Json.isFinite, membersFinite]
  | error e =>
      have hdata : membersFinite (if e.data.isNull then [] else [("data", e.data)]) =
          e.data.isFinite := membersFinite_unlessNull "data" e.data
      simp [response, Answer.isFinite, Json.isFinite, membersFinite, hdata]

end Finite

/-- What a handler came to, with all its doubles finite: its answer and what it queued. -/
structure FiniteOutcome (outcome : Except Failure Json × Context Session) : Prop where
  answer : (Answer.ofOutcome outcome.1).isFinite = true
  outbox : ∀ message ∈ outcome.2.outbox, message.isFinite = true

/-- A handler that adds no double that is not finite. -/
def Handler.Finite (handler : Handler Session) : Prop :=
  ∀ params ctx, (∀ message ∈ ctx.outbox, message.isFinite = true) →
    FiniteOutcome (handler params ctx)

namespace Server

variable (server : Server) {ctx : Context Session}

/-- A failure to log adds nothing. -/
theorem finite_loggingThen {line : Text}
    {next : Context Session → Except Failure Json × Context Session}
    (h : ∀ message ∈ ctx.outbox, message.isFinite = true)
    (hnext : FiniteOutcome (next (ctx.modify (·.log line)))) :
    FiniteOutcome (server.loggingThen line next ctx) := by
  have hlogging : server.logging line ctx = (.ok (), ctx.modify (·.log line)) ∨
      ∃ message, server.logging line ctx = (.error (.crash message), ctx) := by
    unfold logging
    split
    · exact .inr ⟨_, rfl⟩
    · exact .inl rfl
  rw [loggingThen]
  rcases hlogging with hlogged | ⟨message, hfailed⟩
  · rw [hlogged]
    exact hnext
  · rw [hfailed]
    exact ⟨rfl, h⟩

theorem isFinite_publishParams (uri : Text) (diagnostics : List Diagnostic) :
    (publishParams uri diagnostics).isFinite = true := by
  have hdiagnostics := elementsFinite_map (f := Diagnostic.toJson) (fun _ => rfl) diagnostics
  simp [publishParams, Json.isFinite, membersFinite, hdiagnostics]

theorem finite_notify {method : Text} {params result : Json}
    (h : ∀ message ∈ ctx.outbox, message.isFinite = true) (hparams : params.isFinite = true)
    (hresult : result.isFinite = true) :
    FiniteOutcome (.ok result, ctx.notify method params) := by
  refine ⟨hresult, fun message hmem => ?_⟩
  rcases List.mem_append.mp hmem with hearlier | hnew
  · exact h message hearlier
  · rw [List.mem_singleton.mp hnew, isFinite_notification, hparams]

theorem finite_publish (uri content : Text)
    (h : ∀ message ∈ ctx.outbox, message.isFinite = true) :
    FiniteOutcome (server.publish uri content ctx) := by
  unfold publish
  split
  · exact ⟨rfl, h⟩
  · exact finite_notify h (isFinite_publishParams uri _) rfl

theorem onInitialize_finite : Handler.Finite server.onInitialize := fun _ _ h =>
  server.finite_loggingThen h ⟨rfl, h⟩

theorem onInitialized_finite : Handler.Finite server.onInitialized := fun _ _ h =>
  server.finite_loggingThen h ⟨rfl, h⟩

theorem onShutdown_finite : Handler.Finite server.onShutdown := fun _ _ h =>
  server.finite_loggingThen h ⟨rfl, h⟩

theorem onExit_finite : Handler.Finite server.onExit := fun _ _ h =>
  server.finite_loggingThen h ⟨rfl, h⟩

theorem onOpen_finite : Handler.Finite server.onOpen := by
  intro params ctx h
  unfold onOpen
  split
  · exact ⟨rfl, h⟩
  · exact server.finite_loggingThen h (server.finite_publish _ _ h)

theorem onChange_finite : Handler.Finite server.onChange := by
  intro params ctx h
  unfold onChange
  split
  · exact ⟨rfl, h⟩
  · exact ⟨rfl, h⟩
  · exact server.finite_publish _ _ h

theorem onClose_finite : Handler.Finite server.onClose := by
  intro params ctx h
  unfold onClose
  split
  · exact ⟨rfl, h⟩
  · refine server.finite_loggingThen h ?_
    split
    · exact ⟨rfl, h⟩
    · exact finite_notify h (isFinite_publishParams _ []) rfl

theorem isFinite_completions : completions.isFinite = true := by
  simp only [completions, Json.isFinite, membersFinite, Bool.true_and, Bool.and_true]
  exact elementsFinite_map (fun word => by split <;> rfl) completionWords

theorem onCompletion_finite : Handler.Finite onCompletion := fun _ _ h =>
  ⟨isFinite_completions, h⟩

theorem isFinite_hover (documents : Documents) (asked : HoverParams) :
    (server.hover documents asked).isFinite = true := by
  unfold hover
  split
  · rfl
  split
  · rfl
  · simp [hoverOn, hoverJson, Json.isFinite, membersFinite, membersFinite_unlessNull, rangeJson,
      positionJson]

theorem onHover_finite : Handler.Finite server.onHover := by
  intro params ctx h
  unfold onHover
  split
  · exact ⟨rfl, h⟩
  · exact ⟨server.isFinite_hover _ _, h⟩

theorem finite_of_handles {method : Text} {handler : Handler Session}
    (h : server.Handles method handler) : handler.Finite := by
  cases h with
  | onInitialize => exact server.onInitialize_finite
  | onShutdown => exact server.onShutdown_finite
  | onCompletion => exact onCompletion_finite
  | onHover => exact server.onHover_finite
  | onInitialized => exact server.onInitialized_finite
  | onExit => exact server.onExit_finite
  | onOpen => exact server.onOpen_finite
  | onChange => exact server.onChange_finite
  | onClose => exact server.onClose_finite

/-- A reply is a notification with finite doubles, or a response with no double but those of
the id that it answers. -/
theorem reply_cases {envelope : Members} {reply : Json}
    (h : reply ∈ (server.peer.handle envelope ctx).1) :
    (reply.responseId? = none ∧ reply.isFinite = true) ∨
      ∃ id a, envelope.requestId? = some id ∧ reply = Answer.response id a ∧
        a.isFinite = true := by
  obtain ⟨queued, answer, hhandled⟩ := Peer.exists_handled server.peer_notifies envelope ctx
  have houtcome : ∀ handler, server.peer.called? envelope = some handler →
      FiniteOutcome (handler (envelope.getD "params") { ctx with outbox := [] }) := by
    intro handler hcalled
    obtain ⟨method, _, hhandles⟩ := server.handles_of_called hcalled
    exact server.finite_of_handles hhandles _ _ fun _ hmem => by cases hmem
  rw [hhandled.replies, List.mem_append] at h
  rcases h with hqueued | hanswer
  · left
    constructor
    · obtain ⟨n, _, rfl⟩ := List.mem_map.mp hqueued
      exact responseId?_notification n.1 n.2
    · cases hcalled : server.peer.called? envelope with
      | none =>
          rw [(hhandled.idle hcalled).1] at hqueued
          cases hqueued
      | some handler =>
          refine (houtcome handler hcalled).outbox reply ?_
          rw [hhandled.own handler hcalled]
          exact hqueued
  · right
    cases hasked : server.peer.answeredId? envelope with
    | none =>
        rw [hhandled.unanswered hasked] at hanswer
        cases hanswer
    | some id =>
        obtain ⟨a, rfl, ha⟩ := hhandled.answered id hasked
        have hid : envelope.requestId? = some id := by
          obtain ⟨method, _, hid⟩ := Option.bind_eq_some_iff.mp hasked
          split at hid
          · exact hid
          · cases hid
        refine ⟨id, a, hid, by simpa using hanswer, ?_⟩
        cases hcalled : server.peer.called? envelope with
        | none =>
            rw [hcalled] at ha
            rw [ha]
            rfl
        | some handler =>
            rw [hcalled] at ha
            rw [ha]
            exact (houtcome handler hcalled).answer

end Server

/-- The numbers in the id of a message. -/
def JsonTree.idNumbers (request : JsonTree NumberLiteral) : List NumberLiteral :=
  ((request.merged.member? "id").map JsonTree.numbers).getD []

/-- What the body of a reply to a message is: standard JSON, and with the id of the message if
it is a response, as far as the numbers in that id allow. -/
structure StandardReply (request : JsonTree NumberLiteral) (reply : Json) (body : Bytes) :
    Prop where
  notification : reply.responseId? = none → ∃ tree, SpellsPayload tree body
  response : reply.responseId? ≠ none →
    ((∃ tree, SpellsPayload tree body) ↔ ∀ n ∈ request.idNumbers, n.InRange)
  echo : reply.responseId? ≠ none →
    ((∃ tree, SpellsPayload tree body ∧
      tree.value.member? "id" = request.value.member? "id") ↔ ∀ n ∈ request.idNumbers, n.Kept)

/-- The id of a request is read from the member of that name. -/
theorem exists_idTree {request : JsonTree NumberLiteral} {envelope : Members} {id : Json}
    (h : request.merged.read = .obj envelope) (hid : envelope.requestId? = some id) :
    ∃ tree, request.merged.member? "id" = some tree ∧ tree.read = id ∧ tree.merged = tree ∧
      request.idNumbers = tree.numbers := by
  obtain ⟨hget, _⟩ := Option.filter_eq_some_iff.mp hid
  rw [JsonTree.get?_of_read h] at hget
  obtain ⟨tree, htree, hread⟩ := Option.map_eq_some_iff.mp hget
  refine ⟨tree, htree, hread, JsonTree.merged_of_member? htree, ?_⟩
  rw [JsonTree.idNumbers, htree]
  rfl

theorem member?_id_merged {x y z : JsonTree ℚ} {name : Text}
    (hkeys : (["jsonrpc", "id", name] : List Text).Nodup) :
    (JsonTree.obj [("jsonrpc", x), ("id", y), (name, z)]).merged.member? "id" =
      some y.merged := by
  have hne : ¬ (text "jsonrpc" = text "id") := by decide
  have hmerged : mergeMembers
      (mergedMembers [((("jsonrpc" : Text)), x), ("id", y), (name, z)]) =
      [(("jsonrpc" : Text), x.merged), ("id", y.merged), (name, z.merged)] :=
    mergeMembers_of_nodup hkeys
  rw [JsonTree.merged, hmerged]
  simp [JsonTree.member?, hne]

/-- A response denotes its id as its member of that name. -/
theorem Answer.member?_denoted_response (id : Json) (a : Answer) :
    (a.response id).denoted.merged.member? "id" = some id.denoted.merged := by
  cases a with
  | result value => exact member?_id_merged (by decide)
  | error e => exact member?_id_merged (by decide)

/-- Whatever the body of a response is taken to spell, its id is that of the request with the
numbers echoed. -/
theorem Answer.member?_of_spellsPayload {a : Answer} {id t : JsonTree NumberLiteral}
    {body : Bytes} (hmerged : id.merged = id)
    (hbody : encodeEnvelope (a.response id.read) = .ok body) (ht : SpellsPayload t body) :
    t.value.member? "id" = some (id.map NumberLiteral.echoed) := by
  have hfinite := (spellsPayload_encodeEnvelope_iff hbody).mp ⟨t, ht⟩
  obtain ⟨written, hwritten, hvalue⟩ := exists_spellsPayload_encodeEnvelope hbody hfinite
  rw [spellsPayload_value_unique ht hwritten, JsonTree.value, ← JsonTree.merged_map, hvalue,
    Answer.member?_denoted_response, id.denoted_read, JsonTree.merged_map, hmerged]

/-- What a reply to a payload of standard JSON is. -/
theorem Server.standardReply (server : Server) {request : JsonTree NumberLiteral}
    {payload : Bytes} (hrequest : SpellsPayload request payload) {ctx : Context Session}
    {reply : Json} (hreply : reply ∈ (server.receive payload ctx).1.toOption.getD [])
    {body : Bytes} (hbody : encodeEnvelope reply = .ok body) :
    StandardReply request reply body := by
  have hstandard := spellsPayload_encodeEnvelope_iff hbody
  obtain ⟨envelope, hdecode, hhandled⟩ : ∃ envelope,
      decodeEnvelope payload = .ok (some envelope) ∧
        reply ∈ (server.peer.handle envelope ctx).1 := by
    unfold receive at hreply
    split at hreply
    · cases hreply
    · cases hreply
    · next envelope hdecode => exact ⟨envelope, hdecode, hreply⟩
  rcases server.reply_cases hhandled with ⟨hnotification, hfinite⟩ | ⟨id, a, hid, rfl, hfinite⟩
  · exact ⟨fun _ => hstandard.mpr hfinite, fun h => absurd hnotification h,
      fun h => absurd hnotification h⟩
  obtain ⟨tree, hmember, rfl, hmerged, hnumbers⟩ :=
    exists_idTree (decodeEnvelope_spells hrequest hdecode) hid
  have hresponse : (∃ tree, SpellsPayload tree body) ↔ ∀ n ∈ request.idNumbers, n.InRange := by
    rw [hstandard, Answer.isFinite_response, hfinite, Bool.and_true, tree.isFinite_read_iff,
      hnumbers]
  have hanswered := a.responseId?_response tree.read
  refine ⟨fun h => ?_, fun _ => hresponse, fun _ => ?_⟩
  · rw [hanswered] at h
    cases h
  have hasked : request.value.member? "id" = some (tree.map NumberLiteral.value) := by
    rw [JsonTree.value, JsonTree.member?_map, hmember]
    rfl
  have hsame : ∀ t, SpellsPayload t body →
      (t.value.member? "id" = request.value.member? "id" ↔
        ∀ n ∈ request.idNumbers, n.echoed = n.value) := by
    intro t ht
    rw [Answer.member?_of_spellsPayload hmerged hbody ht, hasked, Option.some_inj,
      JsonTree.map_eq_map_iff, hnumbers]
  constructor
  · rintro ⟨t, ht, hid⟩ n hn
    exact ⟨hresponse.mp ⟨t, ht⟩ n hn, (hsame t ht).mp hid n hn⟩
  · intro hkept
    obtain ⟨t, ht⟩ := hresponse.mpr fun n hn => (hkept n hn).1
    exact ⟨t, ht, (hsame t ht).mpr fun n hn => (hkept n hn).2⟩

section Numbered

variable (n : NumberLiteral)

/-- A request for a method that nobody handles, with a number as its id. -/
def numberedRequest : JsonTree NumberLiteral := .obj [("id", .number n), ("method", .str "x")]

def numberedText : Text :=
  [CodePoint.openBrace] ++ (jsonString "id" ++ ":" ++ n.text ++ "," ++
    (jsonString "method" ++ ":" ++ jsonString "x")) ++ [CodePoint.closeBrace]

def numberedPayload : Bytes := (numberedText n).flatMap CodePoint.utf8

theorem NumberLiteral.encodable_text : n.text.Encodable := by
  have hmarks : ∀ c ∈ ("-+.eE" : Text), c.isSurrogate = false := by decide
  intro c hc
  rcases n.of_mem_text hc with hdigit | hmark
  · exact CodePoint.isSurrogate_of_isAsciiDigit hdigit
  · exact hmarks c hmark

theorem spellsPayload_numbered : SpellsPayload (numberedRequest n) (numberedPayload n) := by
  have hspells : Spells (numberedRequest n) (numberedText n) :=
    .obj (.cons (spellsString_jsonString "id") (.number n)
      (.single (spellsString_jsonString "method") (.str (spellsString_jsonString "x"))))
  have hencodable : (numberedText n).Encodable := by
    simp only [numberedText, Text.encodable_append_iff, encodable_jsonString_iff,
      n.encodable_text]
    decide
  exact ⟨numberedText n, (decodeUtf8_encodeUtf8 hencodable).2, hspells.spellsText⟩

theorem merged_numbered : (numberedRequest n).merged = numberedRequest n := by
  have hkeys : (["id", "method"] : List Text).Nodup := by decide
  exact congrArg JsonTree.obj (mergeMembers_of_nodup hkeys)

theorem decodeEnvelope_numbered (hshort : n.Short) :
    decodeEnvelope (numberedPayload n) =
      .ok (some [("id", n.read), ("method", .str "x")]) := by
  have hwithin : (numberedRequest n).Within nestingLimit :=
    ⟨by decide, hshort, trivial, trivial⟩
  obtain ⟨t, htext, hspells⟩ := spellsPayload_numbered n
  simp only [decodeEnvelope, htext, (parseJson_spells hspells).1 hwithin,
    merged_numbered]
  rfl

/-- Such a request is answered, whatever the number is. -/
theorem Server.receive_numbered (server : Server) (hshort : n.Short) (ctx : Context Session) :
    (server.receive (numberedPayload n) ctx).1 =
      .ok [Answer.unknownMethod.response n.read] := by
  have hid : n.read.isNull = false := by rw [NumberLiteral.read]; split <;> rfl
  have hrequest : Peer.handler? server.peer.requests "x" = none := by
    have hother : text "x" ∉ (["initialize", "shutdown", "textDocument/completion",
        "textDocument/hover"] : List Text) := by decide
    exact Peer.handler?_eq_none_iff.mpr hother
  have hnotification : Peer.handler? server.peer.notifications "x" = none := by
    have hother : text "x" ∉ notificationMethods := by decide
    exact (server.handler?_notifications_eq_none_iff _).mpr hother
  have hmethod : Members.method? [("id", n.read), ("method", .str "x")] = some "x" := rfl
  have hmember : Members.getD [("id", n.read), ("method", .str "x")] "id" = n.read := rfl
  simp only [receive, decodeEnvelope_numbered n hshort, server.peer.handle_of_method hmethod,
    Peer.dispatch, hrequest, hnotification, hmember, hid, Bool.false_eq_true, ↓reduceIte]
  rfl

theorem Server.attend_numbered (server : Server) (hshort : n.Short) (ctx : Context Session) :
    (server.attend [numberedPayload n] ctx).1 = [[Answer.unknownMethod.response n.read]] := by
  rw [attend]
  simp only [server.receive_numbered n hshort, attend]
  rfl

theorem responseId?_numbered :
    (Answer.unknownMethod.response n.read).responseId? ≠ none := by
  rw [Answer.responseId?_response]
  exact Option.some_ne_none n.read

theorem idNumbers_numbered : (numberedRequest n).idNumbers = [n] := by
  rw [JsonTree.idNumbers, merged_numbered]
  rfl

theorem exists_body_numbered (hreal : ¬ n.IsInteger) :
    ∃ body, encodeEnvelope (Answer.unknownMethod.response n.read) = .ok body := by
  rw [encodeEnvelope_ok_iff, NumberLiteral.read, if_neg hreal]
  simp only [Answer.response, Answer.unknownMethod, Json.Encodable, membersEncodable,
    Json.isNull, ↓reduceIte]
  decide +kernel

end Numbered

/-- The literal `1.5`. -/
def oneAndAHalf : NumberLiteral :=
  ⟨false, "1", "5", none, by decide, by decide, by decide, by decide⟩

theorem kept_oneAndAHalf : oneAndAHalf.Kept := by
  have hreal : ¬ oneAndAHalf.IsInteger := by decide
  have hdigits : oneAndAHalf.digits = 15 := by decide
  have hpower : oneAndAHalf.power = -1 := by decide
  have hrounded : oneAndAHalf.rounded = .finite false (3 * twoTo 1073) := by decide +kernel
  have hunits : 3 * twoTo 1073 ≠ 0 := by decide +kernel
  have hshortest : Binary64.shortestDigits (3 * twoTo 1073) = (15, -1) := by decide +kernel
  refine ⟨.inr ?_, ?_⟩
  · rw [← NumberLiteral.isFinite_rounded_iff, hrounded]
    rfl
  · rw [NumberLiteral.echoed, if_neg hreal, hrounded, Binary64.writtenValue, if_neg hunits,
      hshortest, NumberLiteral.value_eq, hdigits, hpower]
    rfl

/-- The literal `1e999`. -/
def overflowing : NumberLiteral :=
  ⟨false, "1", [], some ⟨CodePoint.ofChar 'e', none, "999", by decide, by decide, by decide,
    by decide⟩, by decide, by decide, by decide, by decide⟩

theorem not_inRange_overflowing : ¬ overflowing.InRange := by
  have hreal : ¬ overflowing.IsInteger := by decide
  have hrounded : overflowing.rounded = .infinity false := by decide +kernel
  rw [NumberLiteral.InRange, ← NumberLiteral.isFinite_rounded_iff, hrounded]
  exact not_or.mpr ⟨hreal, by decide⟩

/-- Every reply to a payload of standard JSON is standard JSON, and every response has the id of
its request, as far as the numbers in that id are kept. -/
theorem replies_standard_iff (server : Server) {requests : List (JsonTree NumberLiteral)}
    {payloads : List Bytes} (hrequests : List.Forall₂ SpellsPayload requests payloads)
    (ctx : Context Session) :
    List.Forall₂ (fun request replies => ∀ reply ∈ replies, ∀ body,
        encodeEnvelope reply = .ok body → StandardReply request reply body)
      requests (server.attend payloads ctx).1 := by
  induction hrequests generalizing ctx with
  | nil => exact .nil
  | cons hrequest _ ih =>
      exact .cons (fun _ hreply _ hbody => server.standardReply hrequest hreply hbody) (ih _)

/-- An id of one and a half comes back as it was. -/
theorem replies_standard_fraction :
    List.Forall₂ SpellsPayload [numberedRequest oneAndAHalf] [numberedPayload oneAndAHalf] ∧
    ∃ reply body,
      (Server.standard.attend [numberedPayload oneAndAHalf] Server.initial).1 = [[reply]] ∧
      encodeEnvelope reply = .ok body ∧ StandardReply (numberedRequest oneAndAHalf) reply body ∧
      ∃ tree, SpellsPayload tree body ∧
        tree.value.member? "id" = (numberedRequest oneAndAHalf).value.member? "id" := by
  have hrequests : List.Forall₂ SpellsPayload [numberedRequest oneAndAHalf]
      [numberedPayload oneAndAHalf] := .cons (spellsPayload_numbered oneAndAHalf) .nil
  have hreplies := replies_standard_iff Server.standard hrequests Server.initial
  have hattend := Server.standard.attend_numbered oneAndAHalf (by decide) Server.initial
  obtain ⟨body, hbody⟩ := exists_body_numbered oneAndAHalf (by decide)
  rw [hattend] at hreplies
  cases hreplies with
  | cons hreply _ =>
      have hstandard := hreply _ List.mem_cons_self body hbody
      refine ⟨hrequests, _, body, hattend, hbody, hstandard, ?_⟩
      refine (hstandard.echo (responseId?_numbered oneAndAHalf)).mpr ?_
      rw [idNumbers_numbered, List.forall_mem_singleton]
      exact kept_oneAndAHalf

/-- The response to a request whose id overflows is not standard JSON. -/
theorem replies_not_standard_overflow :
    SpellsPayload (numberedRequest overflowing) (numberedPayload overflowing) ∧
    ∃ reply body,
      (Server.standard.attend [numberedPayload overflowing] Server.initial).1 = [[reply]] ∧
      encodeEnvelope reply = .ok body ∧ ¬ ∃ tree, SpellsPayload tree body := by
  have hrequest := spellsPayload_numbered overflowing
  have hattend := Server.standard.attend_numbered overflowing (by decide) Server.initial
  have hreceive := Server.standard.receive_numbered overflowing (by decide) Server.initial
  obtain ⟨body, hbody⟩ := exists_body_numbered overflowing (by decide)
  refine ⟨hrequest, _, body, hattend, hbody, ?_⟩
  have hstandard := Server.standard.standardReply hrequest
    (by rw [hreceive]; exact List.mem_cons_self) hbody
  rw [hstandard.response (responseId?_numbered overflowing), idNumbers_numbered,
    List.forall_mem_singleton]
  exact not_inRange_overflowing

end VibeScript
