import VibeScript.Rpc

/-!
What a peer sends for an envelope.

The replies are the notifications that the handler of the envelope queued, and behind
them the answer if the envelope asks for one (`Peer.exists_handled`).  What was queued
before is in none of them.
-/

namespace VibeScript

/-- The method of a message that has one. -/
def Members.method? (envelope : Members) : Option Text := (envelope.get? "method").bind Json.str?

theorem Members.method?_eq_some_iff {envelope : Members} {method : Text} :
    envelope.method? = some method ↔ envelope.get? "method" = some (.str method) := by
  rw [method?, Option.bind_eq_some_iff]
  constructor
  · rintro ⟨value, hvalue, hstr⟩
    cases value with
    | str t =>
        obtain rfl : t = method := Option.some.inj hstr
        exact hvalue
    | _ => cases hstr
  · intro h
    exact ⟨_, h, rfl⟩

/-- The id under which a message asks for an answer; null is none. -/
def Members.requestId? (envelope : Members) : Option Json :=
  (envelope.get? "id").filter fun id => !id.isNull

theorem Members.isNull_id_of_none {envelope : Members} (h : envelope.requestId? = none) :
    (envelope.getD "id").isNull = true := by
  rw [requestId?] at h
  rw [getD]
  cases hid : envelope.get? "id" with
  | none => rfl
  | some id =>
      rw [hid] at h
      simpa [Option.filter] using h

theorem Members.id_of_some {envelope : Members} {id : Json}
    (h : envelope.requestId? = some id) : envelope.getD "id" = id ∧ id.isNull = false := by
  obtain ⟨hid, hnull⟩ := Option.filter_eq_some_iff.mp h
  rw [getD, hid, Option.getD_some]
  exact ⟨rfl, by simpa using hnull⟩

/-- What a request is answered with: a result or an error, never both. -/
inductive Answer where
  | result (value : Json)
  | error (e : RpcError)

namespace Answer

/-- The answer to a request whose handler ended in this way. -/
def ofOutcome : Except Failure Json → Answer
  | .ok value => .result value
  | .error (.rpc e) => .error e
  | .error (.invalidParams message) => .error ⟨-32602, message, .null⟩
  | .error (.crash message) => .error ⟨-32603, message, .null⟩

/-- The answer to a request for a method that is in no table. -/
def unknownMethod : Answer := .error ⟨-32601, "method not found", .null⟩

/-- The response that carries an answer. -/
def response (id : Json) : Answer → Json
  | .result value => .obj [("jsonrpc", .str "2.0"), ("id", id), ("result", value)]
  | .error e =>
      .obj [("jsonrpc", .str "2.0"), ("id", id),
        ("error", .obj (("code", .int e.code) :: ("message", .str e.message) ::
          if e.data.isNull then [] else [("data", e.data)]))]

end Answer

section Handlers

variable {σ : Type}

/-- A context that queues nothing but notifications, behind what another one queues. -/
def Context.Extends (ctx before : Context σ) : Prop :=
  ∃ queued : List (Text × Json),
    ctx.outbox = before.outbox ++ queued.map fun n => notification n.1 n.2

/-- A handler that sends notifications only. -/
def Handler.Notifies (handler : Handler σ) : Prop :=
  ∀ params ctx, (handler params ctx).2.Extends ctx

/-- A peer whose handlers send notifications only. -/
structure Peer.Notifies (peer : Peer σ) : Prop where
  requests : ∀ entry ∈ peer.requests, Handler.Notifies entry.2
  notifications : ∀ entry ∈ peer.notifications, Handler.Notifies entry.2

theorem Context.Extends.refl (ctx : Context σ) : ctx.Extends ctx := ⟨[], by simp⟩

theorem Context.extends_of_outbox_eq {ctx before : Context σ}
    (h : ctx.outbox = before.outbox) : ctx.Extends before := ⟨[], by simp [h]⟩

theorem Context.Extends.notify {ctx before : Context σ} (h : ctx.Extends before)
    (method : Text) (params : Json) : (ctx.notify method params).Extends before := by
  obtain ⟨queued, hqueued⟩ := h
  exact ⟨queued ++ [(method, params)], by simp [Context.notify, Context.send, hqueued]⟩

theorem Peer.mem_of_handler? {table : List (Text × Handler σ)} {method : Text}
    {handler : Handler σ} (h : Peer.handler? table method = some handler) :
    (method, handler) ∈ table := by
  obtain ⟨⟨name, found⟩, hfind, rfl⟩ := Option.map_eq_some_iff.mp h
  have hname : name = method := by simpa using List.find?_some hfind
  exact hname ▸ List.mem_of_find?_eq_some hfind

/-- Where no method has two handlers, each handler is found under its method. -/
theorem Peer.handler?_eq_some_of_mem {table : List (Text × Handler σ)} {method : Text}
    {handler : Handler σ} (hdistinct : (table.map (·.1)).Nodup)
    (h : (method, handler) ∈ table) : Peer.handler? table method = some handler := by
  induction table with
  | nil => cases h
  | cons entry rest ih =>
      rw [List.map_cons, List.nodup_cons] at hdistinct
      rcases List.mem_cons.mp h with rfl | hrest
      · rw [handler?, List.find?_cons_of_pos (by simp)]
        rfl
      · have hne : entry.1 ≠ method := by
          intro heq
          exact hdistinct.1 (List.mem_map.mpr ⟨_, hrest, heq.symm⟩)
        rw [handler?, List.find?_cons_of_neg (by simpa using hne)]
        exact ih hdistinct.2 hrest

theorem Peer.handler?_eq_none_iff {table : List (Text × Handler σ)} {method : Text} :
    Peer.handler? table method = none ↔ method ∉ table.map (·.1) := by
  rw [handler?, Option.map_eq_none_iff, List.find?_eq_none, List.mem_map]
  simp only [decide_eq_true_eq, not_exists, not_and]

end Handlers

namespace Peer

variable {σ : Type}

/-- The handler that an envelope runs.  That of a request runs only if there is an id. -/
def called? (peer : Peer σ) (envelope : Members) : Option (Handler σ) :=
  envelope.method?.bind fun method =>
    match handler? peer.requests method with
    | some handler => envelope.requestId?.map fun _ => handler
    | none => handler? peer.notifications method

/-- The id of an envelope that gets an answer: its method is that of a request, or of
nothing at all. -/
def answeredId? (peer : Peer σ) (envelope : Members) : Option Json :=
  envelope.method?.bind fun method =>
    if (handler? peer.requests method).isSome ∨ handler? peer.notifications method = none then
      envelope.requestId?
    else none

/-- What is sent for an envelope: the notifications `queued` of its own handler, then the
answer if there is one. -/
structure Handled (peer : Peer σ) (envelope : Members) (ctx : Context σ)
    (queued : List (Text × Json)) (answer : Option Json) : Prop where
  replies : (peer.handle envelope ctx).1 =
    (queued.map fun n => notification n.1 n.2) ++ answer.toList
  outbox : (peer.handle envelope ctx).2.outbox = []
  fresh : ∀ outbox, peer.handle envelope { ctx with outbox := outbox } = peer.handle envelope ctx
  own : ∀ handler, peer.called? envelope = some handler →
    (handler (envelope.getD "params") { ctx with outbox := [] }).2.outbox =
      queued.map fun n => notification n.1 n.2
  idle : peer.called? envelope = none →
    queued = [] ∧ (peer.handle envelope ctx).2 = { ctx with outbox := [] }
  unanswered : peer.answeredId? envelope = none → answer = none
  answered : ∀ id, peer.answeredId? envelope = some id → ∃ a : Answer,
    answer = some (a.response id) ∧
      match peer.called? envelope with
      | some handler => a =
          Answer.ofOutcome (handler (envelope.getD "params") { ctx with outbox := [] }).1
      | none => a = Answer.unknownMethod

theorem handle_of_no_method (peer : Peer σ) {envelope : Members}
    (h : envelope.method? = none) (ctx : Context σ) :
    peer.handle envelope ctx = ([], { ctx with outbox := [] }) := by
  rw [Members.method?] at h
  unfold handle
  split
  · next method hmethod =>
      rw [hmethod] at h
      simp [Json.str?] at h
  · rfl

theorem handle_of_method (peer : Peer σ) {envelope : Members} {method : Text}
    (h : envelope.method? = some method) (ctx : Context σ) :
    peer.handle envelope ctx =
      let after := peer.dispatch method (envelope.getD "id") (envelope.getD "params")
        { ctx with outbox := [] }
      (after.outbox, { after with outbox := [] }) := by
  obtain ⟨value, hvalue, hstr⟩ := Option.bind_eq_some_iff.mp h
  cases value with
  | str text =>
      obtain rfl : text = method := Option.some.inj hstr
      rw [handle, hvalue]
  | _ => cases hstr

/-- What is queued beforehand does not matter. -/
theorem handle_with_outbox (peer : Peer σ) (envelope : Members) (ctx : Context σ)
    (outbox : List Json) :
    peer.handle envelope { ctx with outbox := outbox } = peer.handle envelope ctx := rfl

/-- A response holds the error of a failed handler, whatever the failure. -/
theorem response_of_outcome (id : Json) (failure : Failure) :
    VibeScript.response id .null failure.toError.toJson =
      (Answer.ofOutcome (.error failure)).response id := by
  cases failure <;> rfl

/-- A request adds its answer, and nothing else, to what its handler queued. -/
theorem outbox_respond (peer : Peer σ) (handler : Handler σ) (method : Text)
    (id params : Json) (ctx : Context σ) :
    (peer.respond handler method id params ctx).outbox = (handler params ctx).2.outbox ++
      [(Answer.ofOutcome (handler params ctx).1).response id] := by
  rw [respond]
  rcases handler params ctx with ⟨failure | result, after⟩
  · rw [← response_of_outcome]
    cases failure <;> rfl
  · rfl

/-- A notification adds nothing to what its handler queued. -/
theorem outbox_observe (peer : Peer σ) (handler : Handler σ) (method : Text)
    (params : Json) (ctx : Context σ) :
    (peer.observe handler method params ctx).outbox = (handler params ctx).2.outbox := by
  rw [observe]
  rcases handler params ctx with ⟨failure | result, after⟩
  · cases failure <;> rfl
  · rfl

/-- A context that is another one up to the outbox and a report. -/
structure Follows (peer : Peer σ) (ctx before : Context σ) : Prop where
  running : ctx.running = before.running
  state : ctx.state = before.state ∨ ∃ report, ctx.state = peer.report report before.state

theorem respond_follows (peer : Peer σ) (handler : Handler σ) (method : Text)
    (id params : Json) (ctx : Context σ) :
    peer.Follows (peer.respond handler method id params ctx) (handler params ctx).2 := by
  rw [respond]
  rcases handler params ctx with ⟨failure | result, after⟩
  · cases failure with
    | crash message => exact ⟨rfl, Or.inr ⟨_, rfl⟩⟩
    | _ => exact ⟨rfl, Or.inl rfl⟩
  · exact ⟨rfl, Or.inl rfl⟩

theorem observe_follows (peer : Peer σ) (handler : Handler σ) (method : Text)
    (params : Json) (ctx : Context σ) :
    peer.Follows (peer.observe handler method params ctx) (handler params ctx).2 := by
  rw [observe]
  rcases handler params ctx with ⟨failure | result, after⟩
  · cases failure <;> exact ⟨rfl, Or.inr ⟨_, rfl⟩⟩
  · exact ⟨rfl, Or.inl rfl⟩

/-- What is left after an envelope is what its handler leaves. -/
theorem handle_follows {peer : Peer σ} {envelope : Members} {handler : Handler σ}
    (hcalled : peer.called? envelope = some handler) (ctx : Context σ) :
    peer.Follows (peer.handle envelope ctx).2
      (handler (envelope.getD "params") { ctx with outbox := [] }).2 := by
  obtain ⟨method, hmethod, hfound⟩ := Option.bind_eq_some_iff.mp hcalled
  rw [peer.handle_of_method hmethod ctx, dispatch]
  cases hrequest : handler? peer.requests method with
  | some found =>
      rw [hrequest] at hfound
      obtain ⟨id, hid, rfl⟩ := Option.map_eq_some_iff.mp hfound
      obtain ⟨hvalue, hnull⟩ := Members.id_of_some hid
      simp only [hvalue, hnull, Bool.false_eq_true, ↓reduceIte]
      have hfollows := peer.respond_follows found method id (envelope.getD "params")
        { ctx with outbox := [] }
      exact ⟨hfollows.running, hfollows.state⟩
  | none =>
      rw [hrequest] at hfound
      simp only [hfound]
      have hfollows := peer.observe_follows handler method (envelope.getD "params")
        { ctx with outbox := [] }
      exact ⟨hfollows.running, hfollows.state⟩

/-- The handler that an envelope runs is in one of the tables, under the method. -/
theorem mem_of_called {peer : Peer σ} {envelope : Members} {handler : Handler σ}
    (h : peer.called? envelope = some handler) : ∃ method, envelope.method? = some method ∧
      ((method, handler) ∈ peer.requests ∨ (method, handler) ∈ peer.notifications) := by
  obtain ⟨method, hmethod, hfound⟩ := Option.bind_eq_some_iff.mp h
  refine ⟨method, hmethod, ?_⟩
  cases hrequest : handler? peer.requests method with
  | some found =>
      rw [hrequest] at hfound
      obtain ⟨_, _, rfl⟩ := Option.map_eq_some_iff.mp hfound
      exact Or.inl (mem_of_handler? hrequest)
  | none =>
      rw [hrequest] at hfound
      exact Or.inr (mem_of_handler? hfound)

theorem Notifies.called {peer : Peer σ} (hpeer : peer.Notifies) {envelope : Members}
    {handler : Handler σ} (h : peer.called? envelope = some handler) : handler.Notifies := by
  obtain ⟨method, _, hrequest | hnotification⟩ := mem_of_called h
  · exact hpeer.requests _ hrequest
  · exact hpeer.notifications _ hnotification

/-- What is queued by a handler that starts with an empty outbox. -/
theorem Notifies.exists_queued {peer : Peer σ} (hpeer : peer.Notifies) {envelope : Members}
    {handler : Handler σ} (h : peer.called? envelope = some handler) (params : Json)
    (ctx : Context σ) : ∃ queued : List (Text × Json),
      (handler params { ctx with outbox := [] }).2.outbox =
        queued.map fun n => notification n.1 n.2 := by
  obtain ⟨queued, hqueued⟩ := hpeer.called h params { ctx with outbox := [] }
  exact ⟨queued, by rw [hqueued, List.nil_append]⟩

/-- A request with an id runs its handler and is answered. -/
theorem handled_of_request {peer : Peer σ} (hpeer : peer.Notifies) {envelope : Members}
    {method : Text} {id : Json} {handler : Handler σ}
    (hmethod : envelope.method? = some method) (hid : envelope.requestId? = some id)
    (hrequest : handler? peer.requests method = some handler) (ctx : Context σ) :
    ∃ queued answer, peer.Handled envelope ctx queued answer := by
  have hcalled : peer.called? envelope = some handler := by
    simp [called?, hmethod, hrequest, hid]
  have hasked : peer.answeredId? envelope = some id := by
    simp [answeredId?, hmethod, hrequest, hid]
  obtain ⟨hvalue, hnull⟩ := Members.id_of_some hid
  have hhandle := peer.handle_of_method hmethod ctx
  simp only [dispatch, hrequest, hnull, hvalue, Bool.false_eq_true, ↓reduceIte,
    outbox_respond] at hhandle
  obtain ⟨queued, hqueued⟩ := hpeer.exists_queued hcalled (envelope.getD "params") ctx
  rw [hqueued] at hhandle
  exact ⟨queued, some _, {
    replies := by rw [hhandle]; rfl
    outbox := by rw [hhandle]
    fresh := peer.handle_with_outbox envelope ctx
    own := fun found hfound => by
      rw [hcalled] at hfound
      rw [← Option.some.inj hfound, hqueued]
    idle := fun hnone => by simp [hcalled] at hnone
    unanswered := fun hnone => by simp [hasked] at hnone
    answered := fun found hfound => by
      rw [hasked] at hfound
      rw [← Option.some.inj hfound, hcalled]
      exact ⟨_, rfl, rfl⟩ }⟩

/-- A notification runs its handler and is not answered, with an id or without. -/
theorem handled_of_notification {peer : Peer σ} (hpeer : peer.Notifies) {envelope : Members}
    {method : Text} {handler : Handler σ} (hmethod : envelope.method? = some method)
    (hrequest : handler? peer.requests method = none)
    (hnotification : handler? peer.notifications method = some handler) (ctx : Context σ) :
    ∃ queued answer, peer.Handled envelope ctx queued answer := by
  have hcalled : peer.called? envelope = some handler := by
    simp [called?, hmethod, hrequest, hnotification]
  have hasked : peer.answeredId? envelope = none := by
    simp [answeredId?, hmethod, hrequest, hnotification]
  have hhandle := peer.handle_of_method hmethod ctx
  simp only [dispatch, hrequest, hnotification, outbox_observe] at hhandle
  obtain ⟨queued, hqueued⟩ := hpeer.exists_queued hcalled (envelope.getD "params") ctx
  rw [hqueued] at hhandle
  exact ⟨queued, none, {
    replies := by rw [hhandle]; simp
    outbox := by rw [hhandle]
    fresh := peer.handle_with_outbox envelope ctx
    own := fun found hfound => by
      rw [hcalled] at hfound
      rw [← Option.some.inj hfound, hqueued]
    idle := fun hnone => by simp [hcalled] at hnone
    unanswered := fun _ => rfl
    answered := fun found hfound => by simp [hasked] at hfound }⟩

/-- An envelope that runs no handler changes nothing; if it asks for an answer, it is told
that nobody knows the method. -/
theorem handled_of_idle {peer : Peer σ} {envelope : Members}
    (hcalled : peer.called? envelope = none) (ctx : Context σ) :
    ∃ queued answer, peer.Handled envelope ctx queued answer := by
  have hhandle : peer.handle envelope ctx =
      ((peer.answeredId? envelope).toList.map fun id => Answer.unknownMethod.response id,
        { ctx with outbox := [] }) := by
    cases hmethod : envelope.method? with
    | none =>
        rw [peer.handle_of_no_method hmethod ctx, answeredId?, hmethod]
        rfl
    | some method =>
        rw [peer.handle_of_method hmethod ctx, dispatch]
        cases hrequest : handler? peer.requests method with
        | some handler =>
            -- a request that runs no handler has no id
            have hid : envelope.requestId? = none := by
              simpa [called?, hmethod, hrequest] using hcalled
            have hasked : peer.answeredId? envelope = none := by
              simp [answeredId?, hmethod, hid]
            simp [Members.isNull_id_of_none hid, hasked]
        | none =>
            have hnotification : handler? peer.notifications method = none := by
              simpa [called?, hmethod, hrequest] using hcalled
            have hasked : peer.answeredId? envelope = envelope.requestId? := by
              simp [answeredId?, hmethod, hnotification]
            rw [hasked]
            cases hid : envelope.requestId? with
            | none => simp [hnotification, Members.isNull_id_of_none hid]
            | some id =>
                obtain ⟨hvalue, hnull⟩ := Members.id_of_some hid
                simp only [hnotification, hvalue, hnull, Bool.false_eq_true, ↓reduceIte]
                rfl
  refine ⟨[], (peer.answeredId? envelope).map fun id => Answer.unknownMethod.response id, {
    replies := ?_
    outbox := by rw [hhandle]
    fresh := peer.handle_with_outbox envelope ctx
    own := fun found hfound => by simp [hcalled] at hfound
    idle := fun _ => ⟨rfl, by rw [hhandle]⟩
    unanswered := fun hnone => by rw [hnone]; rfl
    answered := fun id hid => ⟨Answer.unknownMethod, by rw [hid]; rfl, by rw [hcalled]⟩ }⟩
  rw [hhandle]
  cases peer.answeredId? envelope <;> rfl

/-- Every envelope is handled, and its replies are its own. -/
theorem exists_handled {peer : Peer σ} (hpeer : peer.Notifies) (envelope : Members)
    (ctx : Context σ) : ∃ queued answer, peer.Handled envelope ctx queued answer := by
  cases hcalled : peer.called? envelope with
  | none => exact handled_of_idle hcalled ctx
  | some handler =>
      obtain ⟨method, hmethod, hfound⟩ := Option.bind_eq_some_iff.mp hcalled
      cases hrequest : handler? peer.requests method with
      | none =>
          rw [hrequest] at hfound
          exact handled_of_notification hpeer hmethod hrequest hfound ctx
      | some found =>
          rw [hrequest] at hfound
          obtain ⟨id, hid, _⟩ := Option.map_eq_some_iff.mp hfound
          exact handled_of_request hpeer hmethod hid hrequest ctx

/-- Handle envelopes one after the other: what is sent for each of them, and the context
behind the last. -/
def exchange (peer : Peer σ) : List Members → Context σ → List (List Json) × Context σ
  | [], ctx => ([], ctx)
  | envelope :: rest, ctx =>
      let (replies, ctx) := peer.handle envelope ctx
      let (later, ctx) := peer.exchange rest ctx
      (replies :: later, ctx)

end Peer

/-- The id of a message that is a response. -/
def Json.responseId? (message : Json) : Option Json :=
  message.members?.bind fun members =>
    if (members.get? "method").isSome then none else members.get? "id"

theorem responseId?_notification (method : Text) (params : Json) :
    (notification method params).responseId? = none := by
  rw [notification, Members.unlessNull]
  split <;> rfl

theorem Answer.responseId?_response (id : Json) (answer : Answer) :
    (answer.response id).responseId? = some id := by
  cases answer <;> rfl

namespace Peer

variable {σ : Type}

/-- The only response for an envelope is the answer to it. -/
theorem Handled.responseIds {peer : Peer σ} {envelope : Members} {ctx : Context σ}
    {queued : List (Text × Json)} {answer : Option Json}
    (h : peer.Handled envelope ctx queued answer) :
    (peer.handle envelope ctx).1.filterMap Json.responseId? =
      (peer.answeredId? envelope).toList := by
  have hqueued : (queued.map fun n => notification n.1 n.2).filterMap Json.responseId? = [] := by
    rw [List.filterMap_map, List.filterMap_eq_nil_iff]
    exact fun n _ => responseId?_notification n.1 n.2
  rw [h.replies, List.filterMap_append, hqueued, List.nil_append]
  cases hid : peer.answeredId? envelope with
  | none =>
      rw [h.unanswered hid]
      rfl
  | some id =>
      obtain ⟨a, rfl, _⟩ := h.answered id hid
      simp [Answer.responseId?_response]

/-- What every envelope preserves, given all that was sent before, a whole exchange
preserves. -/
theorem exchange_preserves {peer : Peer σ} (holds : Context σ → List Json → Prop)
    (hstep : ∀ envelope ctx earlier, holds ctx earlier →
      holds (peer.handle envelope ctx).2 (earlier ++ (peer.handle envelope ctx).1))
    (envelopes : List Members) {ctx : Context σ} {earlier : List Json}
    (h : holds ctx earlier) :
    holds (peer.exchange envelopes ctx).2
      (earlier ++ (peer.exchange envelopes ctx).1.flatten) := by
  induction envelopes generalizing ctx earlier with
  | nil =>
      rw [exchange, List.flatten_nil, List.append_nil]
      exact h
  | cons envelope rest ih =>
      have hrest := ih (hstep envelope ctx earlier h)
      rw [List.append_assoc] at hrest
      exact hrest

theorem exchange_cons (peer : Peer σ) (envelope : Members) (rest : List Members)
    (ctx : Context σ) : peer.exchange (envelope :: rest) ctx =
      ((peer.handle envelope ctx).1 :: (peer.exchange rest (peer.handle envelope ctx).2).1,
        (peer.exchange rest (peer.handle envelope ctx).2).2) := rfl

theorem exchange_append (peer : Peer σ) (first second : List Members) (ctx : Context σ) :
    peer.exchange (first ++ second) ctx =
      ((peer.exchange first ctx).1 ++ (peer.exchange second (peer.exchange first ctx).2).1,
        (peer.exchange second (peer.exchange first ctx).2).2) := by
  induction first generalizing ctx with
  | nil => rfl
  | cons envelope rest ih => simp only [List.cons_append, exchange_cons, ih]

/-- A peer answers what it is asked, in the order of the questions. -/
theorem responseIds_exchange {peer : Peer σ} (hpeer : peer.Notifies)
    (envelopes : List Members) (ctx : Context σ) :
    (peer.exchange envelopes ctx).1.flatten.filterMap Json.responseId? =
      envelopes.filterMap peer.answeredId? := by
  induction envelopes generalizing ctx with
  | nil => rfl
  | cons envelope rest ih =>
      obtain ⟨queued, answer, hhandled⟩ := exists_handled hpeer envelope ctx
      simp only [exchange, List.flatten_cons, List.filterMap_append, hhandled.responseIds, ih]
      cases h : peer.answeredId? envelope with
      | none => simp [h]
      | some id => simp [h]

end Peer

end VibeScript
