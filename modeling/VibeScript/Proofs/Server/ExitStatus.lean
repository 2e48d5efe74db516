import VibeScript.Proofs.Server.Course

/-!
The exit status of a server.

What a session is to end with is known from the payloads of its course: it runs as long as
none of them is an `exit` message (`Server.Course.running_iff`), and a shutdown was requested
if one of them is a request for it (`Server.Course.shutdownRequested_iff`), whatever the
others do.  So a server returns zero at the end of the stream, or at an `exit` message with
such a request before it, and one in every other case (`exitStatus_eq_zero_iff`).
-/

namespace VibeScript

theorem Served.exitStatus_eq_zero_or_one (served : Served) :
    served.exitStatus = 0 ∨ served.exitStatus = 1 := by
  unfold Served.exitStatus Ending.exitStatus Session.exitCode
  split
  · split
    · exact Or.inr rfl
    · exact Or.inl rfl
  · exact Or.inr rfl

/-- A handler that does not touch the flag of a requested shutdown. -/
def Handler.KeepsRequest (handler : Handler Session) : Prop :=
  ∀ params ctx, (handler params ctx).2.state.shutdownRequested = ctx.state.shutdownRequested

/-- A context that has stopped exactly if its lifecycle says that the client ended the
session. -/
def Context.Settled (ctx : Context Session) : Prop :=
  ctx.running = false ↔ ctx.state.lifecycle = .exited

namespace Server

variable (server : Server)

/-- A payload that requests a shutdown: it holds a message of that method with an id. -/
def RequestsShutdown (payload : Bytes) : Prop :=
  ∃ envelope id, decodeEnvelope payload = .ok (some envelope) ∧
    envelope.get? "method" = some (.str "shutdown") ∧ envelope.get? "id" = some id ∧
    id.isNull = false

/-- No payload both requests a shutdown and ends the session. -/
theorem RequestsShutdown.endsSession_eq {payload : Bytes} (h : RequestsShutdown payload) :
    endsSession payload = false := by
  obtain ⟨envelope, id, hdecode, hmethod, _⟩ := h
  refine noExit_iff.mp fun found hfound hexit => ?_
  obtain rfl : envelope = found := by
    rw [hdecode] at hfound
    exact Option.some.inj (Except.ok.inj hfound)
  rw [hmethod] at hexit
  exact absurd (Json.str.inj (Option.some.inj hexit)) (by decide)

/-- A line in the log does not matter to the flag. -/
theorem keepsRequest_loggingThen {line : Text}
    {next : Context Session → Except Failure Json × Context Session}
    (hnext : ∀ ctx, (next ctx).2.state.shutdownRequested = ctx.state.shutdownRequested)
    (ctx : Context Session) :
    (server.loggingThen line next ctx).2.state.shutdownRequested =
      ctx.state.shutdownRequested :=
  server.loggingThen_cases
    (fun after => after.state.shutdownRequested = ctx.state.shutdownRequested) rfl (hnext _)

theorem onInitialize_keepsRequest : Handler.KeepsRequest server.onInitialize :=
  fun _ => server.keepsRequest_loggingThen fun _ => rfl

theorem onInitialized_keepsRequest : Handler.KeepsRequest server.onInitialized :=
  fun _ => server.keepsRequest_loggingThen fun _ => rfl

theorem onExit_keepsRequest : Handler.KeepsRequest server.onExit :=
  fun _ => server.keepsRequest_loggingThen fun _ => rfl

theorem shutdownRequested_publish (uri content : Text) (ctx : Context Session) :
    (server.publish uri content ctx).2.state.shutdownRequested =
      ctx.state.shutdownRequested := by
  unfold publish
  split <;> rfl

theorem onOpen_keepsRequest : Handler.KeepsRequest server.onOpen := by
  intro params ctx
  unfold onOpen
  split
  · rfl
  · refine server.keepsRequest_loggingThen (fun ctx => ?_) ctx
    exact server.shutdownRequested_publish _ _ _

theorem onChange_keepsRequest : Handler.KeepsRequest server.onChange := by
  intro params ctx
  unfold onChange
  split
  · rfl
  · rfl
  · exact server.shutdownRequested_publish _ _ _

theorem onClose_keepsRequest : Handler.KeepsRequest server.onClose := by
  intro params ctx
  unfold onClose
  split
  · rfl
  · refine server.keepsRequest_loggingThen (fun ctx => ?_) ctx
    split <;> rfl

theorem onCompletion_keepsRequest : Handler.KeepsRequest onCompletion := fun _ _ => rfl

theorem onHover_keepsRequest : Handler.KeepsRequest server.onHover := by
  intro params ctx
  unfold onHover
  split <;> rfl

/-- The line that a shutdown logs can be logged anywhere, so the request is noted. -/
theorem shutdownRequested_onShutdown (params : Json) (ctx : Context Session) :
    (server.onShutdown params ctx).2.state.shutdownRequested = true := by
  have hlogs : server.canLog "Shutdown requested" = true :=
    server.canLog_of_no_surrogate (by decide)
  rw [onShutdown, server.loggingThen_of_canLog hlogs]
  rfl

/-- What is left of an envelope is, up to its journal, what its handler leaves. -/
theorem handle_unlogged_of_called {envelope : Members} {handler : Handler Session}
    (hcalled : server.peer.called? envelope = some handler) (ctx : Context Session) :
    (server.peer.handle envelope ctx).2.state.unlogged =
      (handler (envelope.getD "params") { ctx with outbox := [] }).2.state.unlogged := by
  rcases (Peer.handle_follows hcalled ctx).state with hstate | ⟨report, hstate⟩
  · rw [hstate]
  · rw [hstate]
    rfl

/-- A shutdown is requested by a message of that method with an id, and by no other. -/
theorem shutdownRequested_handle (envelope : Members) (ctx : Context Session) :
    (server.peer.handle envelope ctx).2.state.shutdownRequested = true ↔
      ctx.state.shutdownRequested = true ∨
        envelope.get? "method" = some (.str "shutdown") ∧ envelope.requestId?.isSome = true := by
  have hmem : (("shutdown" : Text), server.onShutdown) ∈ server.peer.requests := by simp [peer]
  cases hcalled : server.peer.called? envelope with
  | none =>
      obtain ⟨queued, answer, hhandled⟩ := Peer.exists_handled server.peer_notifies envelope ctx
      rw [(hhandled.idle hcalled).2]
      refine ⟨Or.inl, fun h => h.resolve_right ?_⟩
      rintro ⟨hmethod, hid⟩
      rw [server.called?_of_request hmethod hmem, Option.map_eq_none_iff] at hcalled
      rw [hcalled] at hid
      cases hid
  | some handler =>
      have hflag : (server.peer.handle envelope ctx).2.state.shutdownRequested =
          (handler (envelope.getD "params") { ctx with outbox := [] }).2.state.shutdownRequested :=
        (congrArg Session.shutdownRequested (server.handle_unlogged_of_called hcalled ctx) :)
      rw [hflag]
      by_cases hmethod : envelope.get? "method" = some (.str "shutdown")
      · rw [server.called?_of_request hmethod hmem] at hcalled
        obtain ⟨id, hid, rfl⟩ := Option.map_eq_some_iff.mp hcalled
        simp [server.shutdownRequested_onShutdown, hmethod, hid]
      · have hkeeps : handler.KeepsRequest := by
          obtain ⟨method, hfound, hhandles⟩ := server.handles_of_called hcalled
          cases hhandles with
          | onInitialize => exact server.onInitialize_keepsRequest
          | onShutdown => exact absurd (Members.method?_eq_some_iff.mp hfound) hmethod
          | onCompletion => exact onCompletion_keepsRequest
          | onHover => exact server.onHover_keepsRequest
          | onInitialized => exact server.onInitialized_keepsRequest
          | onExit => exact server.onExit_keepsRequest
          | onOpen => exact server.onOpen_keepsRequest
          | onChange => exact server.onChange_keepsRequest
          | onClose => exact server.onClose_keepsRequest
        rw [hkeeps]
        simp [hmethod]

theorem shutdownRequested_receive (payload : Bytes) (ctx : Context Session) :
    (server.receive payload ctx).2.state.shutdownRequested = true ↔
      ctx.state.shutdownRequested = true ∨ RequestsShutdown payload := by
  cases hpayload : envelope? payload with
  | none =>
      have hsame := (server.receive_of_no_envelope hpayload ctx).2
      have hflag : (server.receive payload ctx).2.state.shutdownRequested =
          ctx.state.shutdownRequested := (congrArg Session.shutdownRequested hsame.state :)
      rw [hflag]
      refine ⟨Or.inl, fun h => h.resolve_right ?_⟩
      rintro ⟨envelope, _, hdecode, _⟩
      rw [envelope?_eq_some_iff.mpr hdecode] at hpayload
      cases hpayload
  | some envelope =>
      rw [server.receive_of_envelope hpayload, server.shutdownRequested_handle]
      refine or_congr_right ⟨?_, ?_⟩
      · rintro ⟨hmethod, hid⟩
        obtain ⟨id, hid⟩ := Option.isSome_iff_exists.mp hid
        obtain ⟨hget, hnull⟩ := Option.filter_eq_some_iff.mp hid
        exact ⟨envelope, id, envelope?_eq_some_iff.mp hpayload, hmethod, hget,
          by simpa using hnull⟩
      · rintro ⟨found, id, hdecode, hmethod, hid, hnull⟩
        obtain rfl : envelope = found := by
          rw [envelope?_eq_some_iff.mpr hdecode] at hpayload
          exact (Option.some.inj hpayload).symm
        have hrequest : envelope.requestId? = some id := by
          rw [Members.requestId?, Option.filter_eq_some_iff]
          exact ⟨hid, by simpa using hnull⟩
        exact ⟨hmethod, by rw [hrequest]; rfl⟩

theorem exited_onExit (params : Json) (ctx : Context Session) :
    (server.onExit params ctx).2.state.lifecycle = .exited := by
  have hlogs : server.canLog "Exit notification received" = true :=
    server.canLog_of_no_surrogate (by decide)
  rw [onExit, server.loggingThen_of_canLog hlogs]
  rfl

/-- Behind an `exit` message the lifecycle says so. -/
theorem exited_receive {payload : Bytes} (hends : endsSession payload = true)
    (ctx : Context Session) : (server.receive payload ctx).2.state.lifecycle = .exited := by
  obtain ⟨envelope, hdecode, hmethod⟩ := endsSession_iff.mp hends
  have hmem : (("exit" : Text), server.onExit) ∈ server.peer.notifications := by simp [peer]
  have hcalled := server.called?_of_notification hmethod hmem
  rw [server.receive_of_envelope (envelope?_eq_some_iff.mpr hdecode)]
  exact (congrArg Session.lifecycle (server.handle_unlogged_of_called hcalled ctx) :).trans
    (server.exited_onExit _ _)

variable {server} {first last before after : Stage} {payload : Bytes} {payloads : List Bytes}

/-- A server goes on behind a turn unless the payload ended the session. -/
theorem Turn.running_iff (h : server.Turn before payload after) :
    after.context.running = true ↔ endsSession payload = false := by
  rw [h.context_eq]
  cases hends : endsSession payload with
  | true => simp [server.stopped_receive hends]
  | false =>
      have hgoesOn := server.goesOn_receive (noExit_iff.mpr hends) before.context
      simp [hgoesOn.running, h.running]

theorem Turn.settled (h : server.Turn before payload after) (hsettled : before.context.Settled) :
    after.context.Settled := by
  have hbefore : before.context.state.lifecycle ≠ .exited := by
    intro hexited
    have hstopped := hsettled.mpr hexited
    rw [h.running] at hstopped
    cases hstopped
  cases hends : endsSession payload with
  | true =>
      have hexited := server.exited_receive hends before.context
      rw [← h.context_eq] at hexited
      have hstopped : ¬ after.context.running = true := by simp [h.running_iff, hends]
      exact ⟨fun _ => hexited, fun _ => by simpa using hstopped⟩
  | false =>
      have hgoesOn := server.goesOn_receive (noExit_iff.mpr hends) before.context
      rw [← h.context_eq] at hgoesOn
      refine ⟨fun hstopped => ?_, fun hexited => absurd (hgoesOn.lifecycle hexited) hbefore⟩
      rw [hgoesOn.running, h.running] at hstopped
      cases hstopped

/-- A session runs until a payload ends it. -/
theorem Course.running_iff (h : server.Course first payloads last) :
    last.context.running = true ↔
      first.context.running = true ∧ ∀ payload ∈ payloads, endsSession payload = false := by
  induction h with
  | nil => simp
  | cons turn rest ih => simp [ih, turn.running_iff, turn.running]

theorem Course.settled (h : server.Course first payloads last)
    (hsettled : first.context.Settled) : last.context.Settled := by
  induction h with
  | nil => exact hsettled
  | cons turn _ ih => exact ih (turn.settled hsettled)

/-- A shutdown was requested if one of the payloads requests it, whatever the others do. -/
theorem Course.shutdownRequested_iff (h : server.Course first payloads last) :
    last.context.state.shutdownRequested = true ↔
      first.context.state.shutdownRequested = true ∨
        ∃ payload ∈ payloads, RequestsShutdown payload := by
  induction h with
  | nil => simp
  | cons turn _ ih =>
      rw [ih, turn.context_eq, server.shutdownRequested_receive, List.exists_mem_cons_iff, or_assoc]

theorem eq_of_writeFrame_error {body : Bytes} {output written : Output} {ending : Ending}
    (h : writeFrame body output = (.error ending, written)) : ending = .failed writeFailed := by
  unfold writeFrame at h
  split at h
  · cases h
    rfl
  · split at h
    · cases h
      rfl
    · cases h

/-- A message that cannot be written ends a session in disorder. -/
theorem exists_failed_of_writeMessages {messages : List Json} {output written : Output}
    {ending : Ending} (h : writeMessages messages output = (.error ending, written)) :
    ∃ reason, ending = .failed reason := by
  induction messages generalizing output with
  | nil => cases h
  | cons message rest ih =>
      unfold writeMessages at h
      split at h
      · cases h
        exact ⟨_, rfl⟩
      · split at h
        · next hframe =>
            cases h
            exact ⟨_, eq_of_writeFrame_error hframe⟩
        · exact ih h

theorem exists_failed_of_answer {ctx after : Context Session} {output written : Output}
    {ending : Ending}
    (h : server.answer payload ctx output = (.error ending, after, written)) :
    ∃ reason, ending = .failed reason := by
  unfold answer at h
  split at h
  · cases h
    exact ⟨_, rfl⟩
  · next replies received _ =>
      simp only [Prod.mk.injEq] at h
      obtain ⟨hresult, _⟩ := h
      exact exists_failed_of_writeMessages (Prod.ext hresult rfl)

/-- A server that returns zero was stopped by its session, or came to the end of the stream. -/
theorem Close.returns_zero_iff {served : Served} (h : server.Close last served)
    (hsettled : last.context.Settled) : served.exitStatus = 0 ↔
      last.context.running = false ∧ last.context.state.shutdownRequested = true ∨
        last.context.running = true ∧ (readPayload last.input).1 = .endOfStream := by
  cases h with
  | stopped hstopped =>
      have hexited := hsettled.mp hstopped
      simp [Served.exitStatus, Ending.exitStatus, Session.exitCode, hstopped, hexited]
  | atEnd hrunning hread =>
      have hopen : last.context.state.lifecycle ≠ .exited := by
        intro hexited
        rw [hsettled.mpr hexited] at hrunning
        cases hrunning
      simp [Served.exitStatus, Ending.exitStatus, Session.exitCode, Context.stop, hrunning, hread,
        hopen]
  | unread hrunning hread =>
      next e _ =>
        cases e <;> simp [Served.exitStatus, Ending.exitStatus, ReadError.ending, hrunning, hread]
  | unanswered hrunning hread hanswer =>
      obtain ⟨reason, rfl⟩ := exists_failed_of_answer hanswer
      simp [Served.exitStatus, Ending.exitStatus, hrunning, hread]

theorem settled_opening : opening.Settled := by
  constructor <;> (intro h; cases h)

end Server

/-- What a server returns.  It returns zero exactly if it comes to the end of the stream,
with no frame begun and no `exit` message among the payloads before, or if it takes an `exit`
message and one of the payloads before is a request to shut down, whatever the others are.
In every other case it returns one; a reading that is interrupted where the stream ends is no
end of the stream. -/
theorem exitStatus_eq_zero_iff (server : Server) (input : Input) (output : Output) :
    let start : Stage := ⟨Server.opening, input, output⟩
    let status := (server.run input output).exitStatus
    (status = 0 ↔
      (∃ payloads last, server.Course start payloads last ∧
        (∀ payload ∈ payloads, Server.endsSession payload = false) ∧
        last.input.bytes = [] ∧ last.input.patience ≠ some 0) ∨
      ∃ payloads exit last, server.Course start (payloads ++ [exit]) last ∧
        Server.endsSession exit = true ∧
        ∃ payload ∈ payloads, Server.RequestsShutdown payload) ∧
    (status = 0 ∨ status = 1) := by
  intro start status
  have hstart : start.context.Settled := Server.settled_opening
  have hstatus : status = (server.serve start).exitStatus :=
    (server.run_agrees input output).exitStatus_eq
  refine ⟨⟨fun hzero => ?_, ?_⟩, ?_⟩
  · obtain ⟨payloads, last, hcourse, hclose⟩ := server.exists_course start
    rw [hstatus, hclose.returns_zero_iff (hcourse.settled hstart)] at hzero
    rcases hzero with ⟨hstopped, hrequested⟩ | ⟨hrunning, hend⟩
    · -- the session ran before its last payload, so that one is an `exit` message
      right
      rcases List.eq_nil_or_concat' payloads with rfl | ⟨earlier, exit, rfl⟩
      · cases hcourse
        cases hstopped
      · obtain ⟨before, _, hturn⟩ := hcourse.exists_of_concat
        have hexit : Server.endsSession exit = true := by
          simpa [hstopped] using hturn.running_iff
        refine ⟨earlier, exit, last, hcourse, hexit, ?_⟩
        obtain ⟨payload, hmem, hrequests⟩ :=
          (hcourse.shutdownRequested_iff.mp hrequested).resolve_left nofun
        rcases List.mem_append.mp hmem with hearlier | hlast
        · exact ⟨payload, hearlier, hrequests⟩
        · obtain rfl := List.mem_singleton.mp hlast
          rw [hrequests.endsSession_eq] at hexit
          cases hexit
    · left
      exact ⟨payloads, last, hcourse, (hcourse.running_iff.mp hrunning).2,
        readPayload_eq_endOfStream_iff.mp hend⟩
  · rw [hstatus]
    rintro (⟨payloads, last, hcourse, hgoes, hend⟩ |
      ⟨payloads, exit, last, hcourse, hexit, payload, hmem, hrequests⟩)
    · have hrunning := hcourse.running_iff.mpr ⟨rfl, hgoes⟩
      have hread := readPayload_eq_endOfStream_iff.mpr hend
      have hclose := hcourse.close fun payload after hturn => by simp [hturn.read] at hread
      exact (hclose.returns_zero_iff (hcourse.settled hstart)).mpr
        (Or.inr ⟨hrunning, hread⟩)
    · obtain ⟨before, _, hlast⟩ := hcourse.exists_of_concat
      have hstopped : last.context.running = false := by
        simpa [hexit] using hlast.running_iff
      have hrequested := hcourse.shutdownRequested_iff.mpr
        (Or.inr ⟨payload, List.mem_append_left _ hmem, hrequests⟩)
      have hclose := hcourse.close fun payload after hturn => by
        rw [hturn.running] at hstopped
        cases hstopped
      exact (hclose.returns_zero_iff (hcourse.settled hstart)).mpr
        (Or.inl ⟨hstopped, hrequested⟩)
  · exact Served.exitStatus_eq_zero_or_one _

end VibeScript
