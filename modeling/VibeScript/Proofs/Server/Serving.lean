import VibeScript.Proofs.Framing.Messages
import VibeScript.Proofs.Json.Nesting
import VibeScript.Proofs.Server.Responses

/-!
Serving a stream of whole frames.

The server takes the frames one after the other, and what it writes for each is what
`Server.attend` says message by message (`Server.serveFrom_frame`).  It goes on like that up
to the first `exit` message (`Server.serveFrom_frames`), or to the end of the stream
(`Server.serveFrom_of_servesAll`).  A frame that it cannot decode for its depth, or an
answer that it cannot encode, ends the session instead
(`Server.serveFrom_of_not_servesAll`).
-/

namespace VibeScript

/-- A context that is still in the session that another one is in. -/
structure Context.GoesOn (ctx before : Context Session) : Prop where
  running : ctx.running = before.running
  lifecycle : ctx.state.lifecycle = .exited → before.state.lifecycle = .exited

/-- A handler that does not end the session. -/
def Handler.GoesOn (handler : Handler Session) : Prop :=
  ∀ params ctx, (handler params ctx).2.GoesOn ctx

theorem Context.GoesOn.refl (ctx : Context Session) : ctx.GoesOn ctx := ⟨rfl, id⟩

theorem Context.GoesOn.trans {first second third : Context Session} (h : third.GoesOn second)
    (h' : second.GoesOn first) : third.GoesOn first :=
  ⟨h.running.trans h'.running, fun hexited => h'.lifecycle (h.lifecycle hexited)⟩

namespace Server

variable (server : Server)

theorem goesOn_publish (uri content : Text) {ctx before : Context Session}
    (h : ctx.GoesOn before) : (server.publish uri content ctx).2.GoesOn before := by
  unfold publish
  split
  · exact h
  · exact ⟨h.running, h.lifecycle⟩

theorem onInitialize_goesOn : Handler.GoesOn server.onInitialize := by
  intro params ctx
  apply server.loggingThen_cases (·.GoesOn ctx)
  · exact .refl ctx
  · exact ⟨rfl, fun h => by cases h⟩

theorem onInitialized_goesOn : Handler.GoesOn server.onInitialized := by
  intro params ctx
  apply server.loggingThen_cases (·.GoesOn ctx)
  · exact .refl ctx
  · exact ⟨rfl, id⟩

theorem onShutdown_goesOn : Handler.GoesOn server.onShutdown := by
  intro params ctx
  apply server.loggingThen_cases (·.GoesOn ctx)
  · exact .refl ctx
  · exact ⟨rfl, fun h => by cases h⟩

theorem onOpen_goesOn : Handler.GoesOn server.onOpen := by
  intro params ctx
  unfold onOpen
  split
  · exact .refl ctx
  · exact server.loggingThen_cases (·.GoesOn ctx) (.refl ctx)
      (server.goesOn_publish _ _ ⟨rfl, id⟩)

theorem onChange_goesOn : Handler.GoesOn server.onChange := by
  intro params ctx
  unfold onChange
  split
  · exact .refl ctx
  · exact .refl ctx
  · exact server.goesOn_publish _ _ ⟨rfl, id⟩

theorem onClose_goesOn : Handler.GoesOn server.onClose := by
  intro params ctx
  unfold onClose
  split
  · exact .refl ctx
  · refine server.loggingThen_cases (·.GoesOn ctx) (.refl ctx) ?_
    split <;> exact ⟨rfl, id⟩

theorem onCompletion_goesOn : Handler.GoesOn onCompletion := fun _ ctx => .refl ctx

theorem onHover_goesOn : Handler.GoesOn server.onHover := by
  intro params ctx
  unfold onHover
  split <;> exact .refl ctx

/-- Only an `exit` message ends the session. -/
theorem goesOn_handle {envelope : Members}
    (hexit : envelope.get? "method" ≠ some (.str "exit")) (ctx : Context Session) :
    (server.peer.handle envelope ctx).2.GoesOn ctx := by
  cases hcalled : server.peer.called? envelope with
  | none =>
      obtain ⟨queued, answer, hhandled⟩ := Peer.exists_handled server.peer_notifies envelope ctx
      rw [(hhandled.idle hcalled).2]
      exact ⟨rfl, id⟩
  | some handler =>
      have hgoesOn : handler.GoesOn := by
        obtain ⟨method, hmethod, hhandles⟩ := server.handles_of_called hcalled
        cases hhandles with
        | onInitialize => exact server.onInitialize_goesOn
        | onShutdown => exact server.onShutdown_goesOn
        | onCompletion => exact onCompletion_goesOn
        | onHover => exact server.onHover_goesOn
        | onInitialized => exact server.onInitialized_goesOn
        | onExit => exact absurd (Members.method?_eq_some_iff.mp hmethod) hexit
        | onOpen => exact server.onOpen_goesOn
        | onChange => exact server.onChange_goesOn
        | onClose => exact server.onClose_goesOn
      have hfollows := Peer.handle_follows hcalled ctx
      have hcall := hgoesOn (envelope.getD "params") { ctx with outbox := [] }
      refine ⟨hfollows.running.trans hcall.running, fun hexited => hcall.lifecycle ?_⟩
      rcases hfollows.state with hstate | ⟨report, hstate⟩
      · rw [← hstate]
        exact hexited
      · rw [hstate] at hexited
        exact hexited

/-- A payload that does not carry an `exit` message. -/
def NoExit (payload : Bytes) : Prop :=
  ∀ envelope, decodeEnvelope payload = .ok (some envelope) →
    envelope.get? "method" ≠ some (.str "exit")

theorem goesOn_receive {payload : Bytes} (hexit : NoExit payload) (ctx : Context Session) :
    (server.receive payload ctx).2.GoesOn ctx := by
  unfold receive
  split
  · exact .refl ctx
  · exact ⟨rfl, id⟩
  · next envelope hdecode => exact server.goesOn_handle (hexit envelope hdecode) ctx

/-- The envelope that a payload holds, if it holds one. -/
def envelope? (payload : Bytes) : Option Members :=
  match decodeEnvelope payload with
  | .ok envelope => envelope
  | .error _ => none

theorem envelope?_eq_some_iff {payload : Bytes} {envelope : Members} :
    envelope? payload = some envelope ↔ decodeEnvelope payload = .ok (some envelope) := by
  rw [envelope?]
  cases decodeEnvelope payload <;> simp

/-- Whether a payload carries an `exit` message. -/
def endsSession (payload : Bytes) : Bool :=
  (envelope? payload).bind Members.method? = some ("exit" : Text)

theorem endsSession_iff {payload : Bytes} :
    endsSession payload = true ↔ ∃ envelope, decodeEnvelope payload = .ok (some envelope) ∧
      envelope.get? "method" = some (.str "exit") := by
  simp only [endsSession, decide_eq_true_eq, Option.bind_eq_some_iff, envelope?_eq_some_iff,
    Members.method?_eq_some_iff]

theorem noExit_iff {payload : Bytes} : NoExit payload ↔ endsSession payload = false := by
  rw [← Bool.not_eq_true, endsSession_iff]
  simp only [NoExit, not_exists, not_and, ne_eq]

/-- The payloads that a server hears: those up to the first `exit` message, and that one. -/
def heard : List Bytes → List Bytes
  | [] => []
  | payload :: rest => payload :: if endsSession payload then [] else heard rest

/-- The payloads that a server leaves unread: those behind the first `exit` message. -/
def unheard : List Bytes → List Bytes
  | [] => []
  | payload :: rest => if endsSession payload then rest else unheard rest

theorem heard_of_noExit {payloads : List Bytes} (hexit : ∀ payload ∈ payloads, NoExit payload) :
    heard payloads = payloads ∧ unheard payloads = [] := by
  induction payloads with
  | nil => exact ⟨rfl, rfl⟩
  | cons payload rest ih =>
      obtain ⟨hpayload, hrest⟩ := List.forall_mem_cons.mp hexit
      obtain ⟨hheard, hunheard⟩ := ih hrest
      simp [heard, unheard, noExit_iff.mp hpayload, hheard, hunheard]

/-- The replies to payloads that come one after the other, and the context behind the
last.  A payload that is no envelope has none. -/
def attend : List Bytes → Context Session → List (List Json) × Context Session
  | [], ctx => ([], ctx)
  | payload :: rest, ctx =>
      let (received, ctx) := server.receive payload ctx
      let (later, ctx) := attend rest ctx
      (received.toOption.getD [] :: later, ctx)

/-- Served to the end, a session without an `exit` message is not ended by the client. -/
theorem goesOn_attend {payloads : List Bytes} (hexit : ∀ payload ∈ payloads, NoExit payload)
    (ctx : Context Session) : (server.attend payloads ctx).2.GoesOn ctx := by
  induction payloads generalizing ctx with
  | nil => exact .refl ctx
  | cons payload rest ih =>
      exact (ih (fun p hp => hexit p (List.mem_cons_of_mem payload hp)) _).trans
        (server.goesOn_receive (hexit payload List.mem_cons_self) ctx)

/-- A payload that can be read and decoded. -/
def Decodes (payload : Bytes) : Prop :=
  payload.length ≤ lengthLimit ∧ ∃ envelope, decodeEnvelope payload = .ok envelope

/-- A payload that is served: it can be read and decoded, and all that is sent for it can
be encoded. -/
def Serves (payload : Bytes) (ctx : Context Session) : Prop :=
  Decodes payload ∧
    ∀ reply ∈ (server.receive payload ctx).1.toOption.getD [], reply.Encodable

/-- Payloads that are served one after the other. -/
def ServesAll : List Bytes → Context Session → Prop
  | [], _ => True
  | payload :: rest, ctx =>
      server.Serves payload ctx ∧ ServesAll rest (server.receive payload ctx).2

theorem servesAll_iff (payloads : List Bytes) (ctx : Context Session) :
    server.ServesAll payloads ctx ↔ (∀ payload ∈ payloads, Decodes payload) ∧
      ∀ reply ∈ (server.attend payloads ctx).1.flatten, reply.Encodable := by
  induction payloads generalizing ctx with
  | nil => simp [ServesAll, attend]
  | cons payload rest ih =>
      simp only [ServesAll, Serves, attend, ih, List.mem_cons, List.flatten_cons,
        List.mem_append, or_imp, forall_and, forall_eq]
      exact ⟨fun ⟨⟨hfirst, hreplies⟩, hrest, hlater⟩ => ⟨⟨hfirst, hrest⟩, hreplies, hlater⟩,
        fun ⟨⟨hfirst, hrest⟩, hreplies, hlater⟩ => ⟨⟨hfirst, hreplies⟩, hrest, hlater⟩⟩

theorem exists_receive_of_decodes {payload : Bytes} (h : Decodes payload)
    (ctx : Context Session) : ∃ replies, (server.receive payload ctx).1 = .ok replies := by
  obtain ⟨_, envelope, hdecode⟩ := h
  cases envelope with
  | none => exact ⟨[], by simp only [receive, hdecode]⟩
  | some envelope =>
      exact ⟨(server.peer.handle envelope ctx).1, by simp only [receive, hdecode]⟩

/-- The replies to a payload that is served are written. -/
theorem answer_of_serves {payload : Bytes} {ctx : Context Session}
    (h : server.Serves payload ctx) (writes : List Bytes) :
    ∃ bodies : List Bytes,
      ((server.receive payload ctx).1.toOption.getD []).map encodeEnvelope = bodies.map .ok ∧
      server.answer payload ctx ⟨writes, none⟩ =
        (.ok (), (server.receive payload ctx).2, ⟨writes ++ bodies.flatMap frameCalls, none⟩) := by
  obtain ⟨replies, hreplies⟩ := server.exists_receive_of_decodes h.1 ctx
  obtain ⟨bodies, hbodies, hwrite⟩ := writeMessages_of_encodable h.2 writes
  refine ⟨bodies, hbodies, ?_⟩
  rw [hreplies] at hwrite
  have hreceive : server.receive payload ctx = (.ok replies, (server.receive payload ctx).2) := by
    rw [← hreplies]
  rw [answer, hreceive]
  simp only [Except.toOption, Option.getD_some] at hwrite
  simp only [hwrite]

/-- A payload that can be read but not served ends the session. -/
theorem answer_of_not_serves {payload : Bytes} {ctx : Context Session}
    (h : ¬ server.Serves payload ctx) (hlength : payload.length ≤ lengthLimit)
    (writes : List Bytes) :
    ∃ reason after output, server.answer payload ctx ⟨writes, none⟩ =
      (.error (.failed reason), after, output) := by
  cases hdecode : decodeEnvelope payload with
  | error e =>
      refine ⟨e.message, ctx, ⟨writes, none⟩, ?_⟩
      simp only [answer, receive, hdecode]
  | ok envelope =>
      have hdecodes : Decodes payload := ⟨hlength, envelope, hdecode⟩
      obtain ⟨replies, hreplies⟩ := server.exists_receive_of_decodes hdecodes ctx
      obtain ⟨reply, hreply⟩ : ∃ reply, reply ∈ replies ∧ ¬ reply.Encodable := by
        simpa [Serves, hdecodes, hreplies, Except.toOption] using h
      obtain ⟨reason, output, hwrite⟩ :=
        writeMessages_of_not_encodable hreply.1 hreply.2 writes
      refine ⟨reason, (server.receive payload ctx).2, output, ?_⟩
      have hreceive : server.receive payload ctx =
          (.ok replies, (server.receive payload ctx).2) := by rw [← hreplies]
      rw [answer, hreceive]
      simp only [hwrite]

/-- A server that is not running reads and writes nothing. -/
theorem serveFrom_of_stopped {ctx : Context Session} (hstopped : ctx.running = false)
    (input : Input) (output : Output) :
    server.serveFrom ctx input output = ⟨ctx, input, output, .finished⟩ := by
  rw [serveFrom, hstopped]
  rfl

/-- How a server that is running goes on with what it reads next. -/
theorem serveFrom_of_running {ctx : Context Session} (hrunning : ctx.running = true)
    (input : Input) (output : Output) :
    server.serveFrom ctx input output =
      match readPayload input with
      | (.endOfStream, rest) => ⟨ctx.stop, rest, output, .finished⟩
      | (.failed e, rest) => ⟨ctx, rest, output, e.ending⟩
      | (.payload payload, rest) =>
          match server.answer payload ctx output with
          | (.error ending, ctx, output) => ⟨ctx, rest, output, ending⟩
          | (.ok (), ctx, output) => server.serveFrom ctx rest output := by
  rw [serveFrom, hrunning]
  simp only [Bool.not_true, Bool.false_eq_true, ↓reduceIte]
  split
  · next rest hread => exact hread ▸ rfl
  · next e rest hread => exact hread ▸ rfl
  · next payload rest hread => exact hread ▸ rfl

/-- A server that is running ends in good order at the end of the stream. -/
theorem serveFrom_nil {ctx : Context Session} (hrunning : ctx.running = true) (output : Output) :
    server.serveFrom ctx (Input.ofBytes []) output =
      ⟨ctx.stop, Input.ofBytes [], output, .finished⟩ := by
  rw [server.serveFrom_of_running hrunning, readPayload_nil]

/-- The frame of a payload that is served is read, the replies are written, and only then
the server goes on with what comes behind the frame. -/
theorem serveFrom_frame {ctx : Context Session} (hrunning : ctx.running = true)
    {payload : Bytes} (h : server.Serves payload ctx) (rest : Bytes) (writes : List Bytes) :
    ∃ bodies : List Bytes,
      ((server.receive payload ctx).1.toOption.getD []).map encodeEnvelope = bodies.map .ok ∧
      server.serveFrom ctx (Input.ofBytes (frame payload ++ rest)) ⟨writes, none⟩ =
        server.serveFrom (server.receive payload ctx).2 (Input.ofBytes rest)
          ⟨writes ++ bodies.flatMap frameCalls, none⟩ := by
  obtain ⟨bodies, hbodies, hanswer⟩ := server.answer_of_serves h writes
  refine ⟨bodies, hbodies, ?_⟩
  rw [server.serveFrom_of_running hrunning, readPayload_frame h.1.1]
  simp only [hanswer]

/-- The frames of payloads that are served are read up to the first `exit` message, all
replies are written, and the server is left with what comes behind them. -/
theorem serveFrom_frames {payloads : List Bytes} {ctx : Context Session}
    (hrunning : ctx.running = true) (h : server.ServesAll (heard payloads) ctx)
    (rest : Bytes) (writes : List Bytes) :
    ∃ bodies : List Bytes,
      (server.attend (heard payloads) ctx).1.flatten.map encodeEnvelope = bodies.map .ok ∧
      server.serveFrom ctx (Input.ofBytes (payloads.flatMap frame ++ rest)) ⟨writes, none⟩ =
        server.serveFrom (server.attend (heard payloads) ctx).2
          (Input.ofBytes ((unheard payloads).flatMap frame ++ rest))
          ⟨writes ++ bodies.flatMap frameCalls, none⟩ := by
  induction payloads generalizing ctx writes with
  | nil => exact ⟨[], rfl, by simp [heard, unheard, attend]⟩
  | cons payload later ih =>
      obtain ⟨hserves, hlater⟩ := h
      obtain ⟨first, hfirst, hserve⟩ :=
        server.serveFrom_frame hrunning hserves (later.flatMap frame ++ rest) writes
      rw [List.flatMap_cons, List.append_assoc, hserve, heard, unheard]
      cases hends : endsSession payload with
      | true =>
          refine ⟨first, ?_, rfl⟩
          simpa only [attend, ↓reduceIte, List.flatten_cons, List.flatten_nil,
            List.append_nil] using hfirst
      | false =>
          have hgoesOn := server.goesOn_receive (noExit_iff.mpr hends) ctx
          rw [hends] at hlater
          obtain ⟨bodies, hbodies, hserves⟩ := ih (hgoesOn.running.trans hrunning) hlater
            (writes ++ first.flatMap frameCalls)
          refine ⟨first ++ bodies, ?_, ?_⟩
          · simp only [attend, Bool.false_eq_true, ↓reduceIte, List.flatten_cons,
              List.map_append, hfirst, hbodies]
          · simp only [hserves, attend, Bool.false_eq_true, ↓reduceIte, List.flatMap_append,
              List.append_assoc]

/-- Payloads that are served are all read, and all replies to them are written. -/
theorem serveFrom_of_servesAll {payloads : List Bytes}
    (hexit : ∀ payload ∈ payloads, NoExit payload) {ctx : Context Session}
    (hrunning : ctx.running = true) (h : server.ServesAll payloads ctx) (writes : List Bytes) :
    ∃ bodies : List Bytes,
      (server.attend payloads ctx).1.flatten.map encodeEnvelope = bodies.map .ok ∧
      server.serveFrom ctx (Input.ofBytes (payloads.flatMap frame)) ⟨writes, none⟩ =
        ⟨(server.attend payloads ctx).2.stop, Input.ofBytes [],
          ⟨writes ++ bodies.flatMap frameCalls, none⟩, .finished⟩ := by
  obtain ⟨hheard, hunheard⟩ := heard_of_noExit hexit
  obtain ⟨bodies, hbodies, hserve⟩ := server.serveFrom_frames hrunning
    (hheard.symm ▸ h) [] writes
  rw [hheard] at hbodies hserve
  refine ⟨bodies, hbodies, ?_⟩
  have hafter := (server.goesOn_attend hexit ctx).running.trans hrunning
  rw [List.append_nil, hunheard, List.flatMap_nil, List.append_nil,
    server.serveFrom_nil hafter] at hserve
  exact hserve

/-- If some payload is not served, the session does not end in good order. -/
theorem serveFrom_of_not_servesAll {payloads : List Bytes}
    (hexit : ∀ payload ∈ payloads, NoExit payload) {ctx : Context Session}
    (hrunning : ctx.running = true) (h : ¬ server.ServesAll payloads ctx)
    (writes : List Bytes) :
    (server.serveFrom ctx (Input.ofBytes (payloads.flatMap frame)) ⟨writes, none⟩).ending ≠
      .finished := by
  induction payloads generalizing ctx writes with
  | nil => exact absurd trivial h
  | cons payload rest ih =>
      rw [List.flatMap_cons]
      by_cases hserves : server.Serves payload ctx
      · obtain ⟨first, _, hserve⟩ :=
          server.serveFrom_frame hrunning hserves (rest.flatMap frame) writes
        have hgoesOn := server.goesOn_receive (hexit payload List.mem_cons_self) ctx
        rw [hserve]
        exact ih (fun p hp => hexit p (List.mem_cons_of_mem payload hp))
          (hgoesOn.running.trans hrunning) (fun hrest => h ⟨hserves, hrest⟩) _
      · by_cases hlength : payload.length ≤ lengthLimit
        · obtain ⟨reason, after, output, hanswer⟩ :=
            server.answer_of_not_serves hserves hlength writes
          rw [server.serveFrom_of_running hrunning, readPayload_frame hlength]
          simp [hanswer]
        · obtain ⟨e, left, hread⟩ :=
            readPayload_of_long (Nat.lt_of_not_le hlength) (rest.flatMap frame)
          rw [server.serveFrom_of_running hrunning, hread]
          cases e <;> simp [ReadError.ending]

/-- The replies to a payload are those that its place in the stream gives it. -/
theorem getElem?_attend {payloads : List Bytes} {i : Nat} {payload : Bytes}
    (h : payloads[i]? = some payload) (ctx : Context Session) :
    (server.attend payloads ctx).1[i]? = some ((server.receive payload
      (server.attend (payloads.take i) ctx).2).1.toOption.getD []) := by
  induction payloads generalizing i ctx with
  | nil => cases h
  | cons first rest ih =>
      cases i with
      | zero =>
          cases h
          rfl
      | succ i => exact ih h (server.receive first ctx).2

/-- The context that a server starts with. -/
def opening : Context Session := initial.modify (·.log serverStarting)

/-- A server that serves all payloads of a stream returns zero. -/
theorem run_of_servesAll {payloads : List Bytes} (hexit : ∀ payload ∈ payloads, NoExit payload)
    (h : server.ServesAll payloads opening) :
    let served := server.run (Input.ofBytes (payloads.flatMap frame)) .empty
    served.exitStatus = 0 ∧ served.input.bytes = [] ∧ ∃ bodies : List Bytes,
      (server.attend payloads opening).1.flatten.map encodeEnvelope = bodies.map .ok ∧
        served.output.bytes = bodies.flatMap frame := by
  intro served
  obtain ⟨bodies, hbodies, hserve⟩ := server.serveFrom_of_servesAll hexit rfl h []
  have hlifecycle : (server.attend payloads opening).2.state.lifecycle ≠ .exited :=
    fun hexited => by cases (server.goesOn_attend hexit opening).lifecycle hexited
  have hserved : served = ⟨(server.attend payloads opening).2.stop.modify
      (·.record Ending.finished.entries), Input.ofBytes [],
        ⟨bodies.flatMap frameCalls, none⟩, .finished⟩ := by
    rw [opening] at hserve
    change server.run _ ⟨[], none⟩ = _
    rw [run, hserve]
    rfl
  rw [hserved]
  exact ⟨if_neg fun hexited => hlifecycle hexited.1, rfl, bodies, hbodies,
    flatten_frameCalls bodies⟩

/-- A server that cannot serve some payload of a stream stops with an error. -/
theorem run_of_not_servesAll {payloads : List Bytes}
    (hexit : ∀ payload ∈ payloads, NoExit payload) (h : ¬ server.ServesAll payloads opening) :
    (server.run (Input.ofBytes (payloads.flatMap frame)) .empty).exitStatus = 1 := by
  have hending := server.serveFrom_of_not_servesAll hexit rfl h []
  change (server.serveFrom opening (Input.ofBytes (payloads.flatMap frame))
    ⟨[], none⟩).ending.exitStatus _ = 1
  unfold Ending.exitStatus
  split
  · next hfinished => exact absurd hfinished hending
  · rfl

end Server

/-- A server returns zero at the end of a stream of whole frames, none of them an `exit`
message, exactly if it can decode every payload and encode every reply.  Then it has read
the whole stream and written the replies to every envelope, and none to any other
payload. -/
theorem run_returns_zero_iff (server : Server) {payloads : List Bytes}
    (hexit : ∀ payload ∈ payloads, Server.NoExit payload) :
    let served := server.run (Input.ofBytes (payloads.flatMap frame)) .empty
    let replies := (server.attend payloads Server.opening).1
    (served.exitStatus = 0 ↔ (∀ payload ∈ payloads, Server.Decodes payload) ∧
      ∀ reply ∈ replies.flatten, reply.Encodable) ∧
    (served.exitStatus = 0 → served.input.bytes = [] ∧
      ∃ bodies : List Bytes, replies.flatten.map encodeEnvelope = bodies.map .ok ∧
        served.output.bytes = bodies.flatMap frame) ∧
    ∀ i payload, payloads[i]? = some payload →
      (decodeEnvelope payload = .ok none → replies[i]? = some []) ∧
      ∀ envelope, decodeEnvelope payload = .ok (some envelope) →
        replies[i]? = some (server.peer.handle envelope
          (server.attend (payloads.take i) Server.opening).2).1 := by
  intro served replies
  have hiff : served.exitStatus = 0 ↔ server.ServesAll payloads Server.opening := by
    constructor
    · intro hzero
      by_cases h : server.ServesAll payloads Server.opening
      · exact h
      · cases hzero.symm.trans (server.run_of_not_servesAll hexit h)
    · intro h
      exact (server.run_of_servesAll hexit h).1
  refine ⟨hiff.trans (server.servesAll_iff payloads Server.opening), ?_, ?_⟩
  · intro hzero
    exact (server.run_of_servesAll hexit (hiff.mp hzero)).2
  · intro i payload hpayload
    have hreplies := server.getElem?_attend hpayload Server.opening
    constructor
    · intro hdecode
      exact hreplies.trans (by simp only [Server.receive, hdecode]; rfl)
    · intro envelope hdecode
      exact hreplies.trans (by simp only [Server.receive, hdecode]; rfl)

/-- A request to shut down, and a byte that is no text. -/
theorem run_returns_zero_shutdown :
    let payloads := [asciiBytes "\x7b\"id\":1,\"method\":\"shutdown\"\x7d", [0xFF]]
    (∀ payload ∈ payloads, Server.NoExit payload) ∧
      (Server.standard.run (Input.ofBytes (payloads.flatMap frame)) .empty).exitStatus = 0 := by
  intro payloads
  have hshutdown : decodeEnvelope (asciiBytes "\x7b\"id\":1,\"method\":\"shutdown\"\x7d") =
      .ok (some [("id", .int 1), ("method", .str "shutdown")]) := by with_unfolding_all rfl
  have hbyte : decodeEnvelope [0xFF] = .ok none := by with_unfolding_all rfl
  have hpayloads : ∀ payload ∈ payloads, Server.NoExit payload ∧ Server.Decodes payload := by
    simp only [payloads, List.forall_mem_cons]
    refine ⟨⟨fun envelope hdecode hmethod => ?_, by decide, _, hshutdown⟩,
      ⟨fun envelope hdecode => ?_, by decide, _, hbyte⟩, fun _ h => absurd h List.not_mem_nil⟩
    · rw [hshutdown] at hdecode
      cases hdecode
      exact absurd (Members.method?_eq_some_iff.mpr hmethod) (by decide)
    · rw [hbyte] at hdecode
      cases hdecode
  have hexit := fun payload h => (hpayloads payload h).1
  have hreplies : (Server.standard.attend payloads Server.opening).1.flatten =
      [.obj [("jsonrpc", .str "2.0"), ("id", .int 1), ("result", .null)]] := by
    with_unfolding_all rfl
  refine ⟨hexit, (run_returns_zero_iff Server.standard hexit).1.mpr
    ⟨fun payload h => (hpayloads payload h).2, fun reply hreply => ?_⟩⟩
  rw [hreplies] at hreply
  rw [List.mem_singleton.mp hreply]
  simp only [Json.Encodable, membersEncodable]
  decide +kernel

/-- Many opening brackets are no object, but the server does not drop them. -/
theorem deep_payload_ends_session :
    let payload : Bytes := List.replicate 20000 0x5B
    Server.NoExit payload ∧ payload.length ≤ lengthLimit ∧
      (Server.standard.run (Input.ofBytes (frame payload)) .empty).exitStatus = 1 := by
  intro payload
  have hdecode : decodeEnvelope payload = .error ⟨.array⟩ :=
    decodeEnvelope_openBrackets (by decide)
  have hlength : payload.length = 20000 := List.length_replicate
  have hexit : Server.NoExit payload := fun envelope h => by
    rw [hdecode] at h
    cases h
  have hserves : ¬ Server.standard.ServesAll [payload] Server.opening := by
    rintro ⟨⟨⟨_, envelope, h⟩, _⟩, _⟩
    rw [hdecode] at h
    cases h
  have hrun := Server.standard.run_of_not_servesAll
    (fun p hp => List.mem_singleton.mp hp ▸ hexit) hserves
  rw [List.flatMap_cons, List.flatMap_nil, List.append_nil] at hrun
  exact ⟨hexit, by rw [hlength]; decide, hrun⟩

end VibeScript
