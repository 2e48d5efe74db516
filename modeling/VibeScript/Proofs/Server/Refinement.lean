import VibeScript.Proofs.Server.Journal

/-!
The stream of bytes and the messages in it.

A server that reads frames and writes frames does what a server does that is handed one
envelope after the other: it hears the payloads up to the first `exit` message, and sends
the replies to the envelopes among them.  What comes behind that message stays unread
(`run_refines_exchange`).
-/

namespace VibeScript

/-- An output as it would be if something had been written before. -/
def Output.after (earlier : List Bytes) (output : Output) : Output :=
  { output with writes := earlier ++ output.writes }

theorem Output.empty_after (earlier : List Bytes) :
    Output.empty.after earlier = ⟨earlier, none⟩ := by
  rw [Output.after, Output.empty, List.append_nil]

theorem Output.bytes_after (earlier : List Bytes) (output : Output) :
    (output.after earlier).bytes = earlier.flatten ++ output.bytes := List.flatten_append

/-- What has become of a server if something had been written before. -/
def Served.after (earlier : List Bytes) (served : Served) : Served :=
  { served with output := served.output.after earlier }

section Written

variable (earlier : List Bytes)

theorem Output.write?_after (bytes : Bytes) (output : Output) :
    (output.after earlier).write? bytes = (output.write? bytes).map (Output.after earlier) := by
  obtain ⟨writes, allowance⟩ := output
  rcases allowance with _ | _ | n <;> simp [Output.after, Output.write?]

theorem writeFrame_after (body : Bytes) (output : Output) :
    writeFrame body (output.after earlier) =
      ((writeFrame body output).1, (writeFrame body output).2.after earlier) := by
  unfold writeFrame
  rw [Output.write?_after]
  cases output.write? (frameHeader body.length) with
  | none => rfl
  | some written =>
      simp only [Option.map_some, Output.write?_after]
      cases written.write? body <;> rfl

theorem writeMessages_after (messages : List Json) (output : Output) :
    writeMessages messages (output.after earlier) =
      ((writeMessages messages output).1, (writeMessages messages output).2.after earlier) := by
  induction messages generalizing output with
  | nil => rfl
  | cons message rest ih =>
      unfold writeMessages
      cases encodeEnvelope message with
      | error e => rfl
      | ok body =>
          simp only [writeFrame_after]
          rcases writeFrame body output with ⟨ending | _, written⟩
          · rfl
          · exact ih written

end Written

namespace Server

variable (server : Server)

theorem answer_after (earlier : List Bytes) (payload : Bytes) (ctx : Context Session)
    (output : Output) :
    server.answer payload ctx (output.after earlier) =
      ((server.answer payload ctx output).1, (server.answer payload ctx output).2.1,
        (server.answer payload ctx output).2.2.after earlier) := by
  unfold answer
  rcases server.receive payload ctx with ⟨e | replies, after⟩
  · rfl
  · simp only [writeMessages_after]

/-- What was written before does not matter to a server. -/
theorem serveFrom_after (earlier : List Bytes) (ctx : Context Session) (input : Input)
    (output : Output) :
    server.serveFrom ctx input (output.after earlier) =
      (server.serveFrom ctx input output).after earlier := by
  fun_induction server.serveFrom ctx input output with
  | case1 ctx input output hstopped =>
      rw [server.serveFrom_of_stopped (by simpa using hstopped)]
      rfl
  | case2 ctx input output hrunning rest hread =>
      rw [server.serveFrom_of_running (by simpa using hrunning), hread]
      rfl
  | case3 ctx input output hrunning e rest hread =>
      rw [server.serveFrom_of_running (by simpa using hrunning), hread]
      rfl
  | case4 ctx input output hrunning payload rest hread ending after written hanswer =>
      rw [server.serveFrom_of_running (by simpa using hrunning), hread]
      simp only [server.answer_after, hanswer]
      rfl
  | case5 ctx input output hrunning payload rest hread after written hanswer ih =>
      rw [server.serveFrom_of_running (by simpa using hrunning), hread]
      simp only [server.answer_after, hanswer]
      exact ih

/-- The handler of `exit` ends the session: the line that it logs can be logged anywhere. -/
theorem stopped_onExit (params : Json) (ctx : Context Session) :
    (server.onExit params ctx).2.running = false := by
  have hlogs : server.canLog "Exit notification received" = true :=
    server.canLog_of_no_surrogate (by decide)
  rw [onExit, server.loggingThen_of_canLog hlogs]
  rfl

/-- A server is stopped behind the first `exit` message, whatever came before it. -/
theorem stopped_receive {payload : Bytes} (hends : endsSession payload = true)
    (ctx : Context Session) : (server.receive payload ctx).2.running = false := by
  obtain ⟨envelope, hdecode, hmethod⟩ := endsSession_iff.mp hends
  have hmem : (("exit" : Text), server.onExit) ∈ server.peer.notifications := by simp [peer]
  have hcalled := server.called?_of_notification hmethod hmem
  rw [receive, hdecode]
  exact (Peer.handle_follows hcalled ctx).running.trans (server.stopped_onExit _ _)

theorem stopped_attend_heard {payloads : List Bytes}
    (hends : ∃ payload ∈ payloads, endsSession payload = true) (ctx : Context Session) :
    (server.attend (heard payloads) ctx).2.running = false := by
  induction payloads generalizing ctx with
  | nil => simp at hends
  | cons payload rest ih =>
      rw [heard, attend]
      cases hpayload : endsSession payload with
      | true => exact server.stopped_receive hpayload ctx
      | false =>
          refine ih ?_ (server.receive payload ctx).2
          simpa [hpayload] using hends

/-- A payload that holds an envelope is received as the envelope is handled. -/
theorem receive_of_envelope {payload : Bytes} {envelope : Members}
    (h : envelope? payload = some envelope) (ctx : Context Session) :
    server.receive payload ctx =
      (.ok (server.peer.handle envelope ctx).1, (server.peer.handle envelope ctx).2) := by
  rw [receive, envelope?_eq_some_iff.mp h]

/-- A payload that holds no envelope has no replies and leaves nothing but a line in the
journal. -/
theorem receive_of_no_envelope {payload : Bytes} (h : envelope? payload = none)
    (ctx : Context Session) : (server.receive payload ctx).1.toOption.getD [] = [] ∧
      (server.receive payload ctx).2.SameButJournal ctx := by
  rw [receive]
  rw [envelope?] at h
  cases hdecode : decodeEnvelope payload with
  | error e => exact ⟨rfl, .refl ctx⟩
  | ok envelope =>
      obtain rfl : envelope = none := by simpa [hdecode] using h
      exact ⟨rfl, server.peer_ignoresJournal.reporting _ ctx⟩

/-- Payloads are attended to as their envelopes are handled. -/
theorem attend_agrees (payloads : List Bytes) {ctx other : Context Session}
    (h : ctx.SameButJournal other) :
    (server.attend payloads ctx).1.flatten =
        (server.peer.exchange (payloads.filterMap envelope?) other).1.flatten ∧
      (server.attend payloads ctx).2.SameButJournal
        (server.peer.exchange (payloads.filterMap envelope?) other).2 := by
  induction payloads generalizing ctx other with
  | nil => exact ⟨rfl, h⟩
  | cons payload rest ih =>
      rw [attend]
      cases hpayload : envelope? payload with
      | none =>
          obtain ⟨hnothing, hsame⟩ := server.receive_of_no_envelope hpayload ctx
          rw [List.filterMap_cons_none hpayload, List.flatten_cons, hnothing, List.nil_append]
          exact ih (hsame.trans h)
      | some envelope =>
          obtain ⟨hreplies, hafter⟩ := server.peer_ignoresJournal.handle h envelope
          obtain ⟨hlater, hsession⟩ := ih hafter
          rw [server.receive_of_envelope hpayload, List.filterMap_cons_some hpayload,
            Peer.exchange_cons, List.flatten_cons, List.flatten_cons, ← hreplies, ← hlater]
          exact ⟨rfl, hsession⟩

theorem opening_agrees : opening.SameButJournal initial := ⟨rfl, rfl, rfl⟩

/-- Handled one after the other, the envelopes that are heard end the session if there is an
`exit` message. -/
theorem stopped_exchange_heard {payloads : List Bytes}
    (hends : ∃ payload ∈ payloads, endsSession payload = true) :
    (server.peer.exchange ((heard payloads).filterMap envelope?) initial).2.running = false := by
  rw [← (server.attend_agrees (heard payloads) opening_agrees).2.running]
  exact server.stopped_attend_heard hends opening

/-- A server that is run logs a line before it serves, and some when it stops; apart from
that it serves like one whose session starts with an empty journal. -/
theorem run_agrees (input : Input) (output : Output) :
    (server.run input output).SameButJournal (server.serveFrom opening input output) :=
  ⟨⟨rfl, rfl, rfl⟩, rfl, rfl, rfl⟩

/-- A server that is run on frames answers the payloads that it hears as it would answer
their envelopes.  Then it serves what is left of the stream, in the session that they have
left. -/
theorem run_agrees_exchange {payloads : List Bytes} (rest : Bytes)
    (hdecodes : ∀ payload ∈ heard payloads, Decodes payload)
    (hencodes : ∀ reply ∈
      (server.peer.exchange ((heard payloads).filterMap envelope?) initial).1.flatten,
      reply.Encodable) :
    let exchanged := server.peer.exchange ((heard payloads).filterMap envelope?) initial
    ∃ bodies : List Bytes, exchanged.1.flatten.map encodeEnvelope = bodies.map .ok ∧
      (server.run (Input.ofBytes (payloads.flatMap frame ++ rest)) .empty).SameButJournal
        ((server.serveFrom exchanged.2
          (Input.ofBytes ((unheard payloads).flatMap frame ++ rest)) .empty).after
            (bodies.flatMap frameCalls)) := by
  intro exchanged
  obtain ⟨hreplies, hsession⟩ := server.attend_agrees (heard payloads) opening_agrees
  have hserves : server.ServesAll (heard payloads) opening :=
    (server.servesAll_iff _ _).mpr ⟨hdecodes, hreplies ▸ hencodes⟩
  obtain ⟨bodies, hbodies, hserve⟩ := server.serveFrom_frames rfl hserves rest []
  refine ⟨bodies, hreplies ▸ hbodies, ?_⟩
  have hrun := server.run_agrees (Input.ofBytes (payloads.flatMap frame ++ rest)) .empty
  have hresumed := server.serveFrom_agrees hsession
    (Input.ofBytes ((unheard payloads).flatMap frame ++ rest))
    (Output.empty.after (bodies.flatMap frameCalls))
  rw [Output.empty, hserve, List.nil_append] at hrun
  rw [server.serveFrom_after _ exchanged.2, Output.empty_after] at hresumed
  exact hrun.trans hresumed

end Server

/-- What a server that is run on frames makes of them, up to the first `exit` message, is
what a server makes of the envelopes in them, one after the other; a payload that holds no
envelope counts for nothing.  The replies are written in order and no more than that.

With an `exit` message among the payloads the session is over there: all that comes behind
it is left unread.  Without one the server goes on with what comes behind the frames, in
the session and with the output that the replies have left. -/
theorem run_refines_exchange (server : Server) {payloads : List Bytes} (rest : Bytes)
    (hdecodes : ∀ payload ∈ Server.heard payloads, Server.Decodes payload)
    (hencodes : ∀ reply ∈ (server.peer.exchange
      ((Server.heard payloads).filterMap Server.envelope?) Server.initial).1.flatten,
      ∃ body, encodeEnvelope reply = .ok body) :
    let exchanged := server.peer.exchange
      ((Server.heard payloads).filterMap Server.envelope?) Server.initial
    let served := server.run (Input.ofBytes (payloads.flatMap frame ++ rest)) .empty
    ∃ bodies : List Bytes, exchanged.1.flatten.map encodeEnvelope = bodies.map .ok ∧
      ((∃ payload ∈ payloads, Server.endsSession payload = true) →
        served.output.bytes = bodies.flatMap frame ∧
        served.input = Input.ofBytes ((Server.unheard payloads).flatMap frame ++ rest) ∧
        served.ending = .finished ∧ served.context.SameButJournal exchanged.2) ∧
      ((∀ payload ∈ payloads, Server.endsSession payload = false) →
        let resumed := server.serveFrom exchanged.2 (Input.ofBytes rest) .empty
        served.output.bytes = bodies.flatMap frame ++ resumed.output.bytes ∧
        served.input = resumed.input ∧
        served.ending = resumed.ending ∧ served.context.SameButJournal resumed.context) := by
  intro exchanged served
  obtain ⟨bodies, hbodies, hserved⟩ := server.run_agrees_exchange rest hdecodes
    fun reply hreply => (encodeEnvelope_ok_iff reply).mp (hencodes reply hreply)
  refine ⟨bodies, hbodies, ?_, ?_⟩
  · intro hends
    rw [server.serveFrom_of_stopped (server.stopped_exchange_heard hends)] at hserved
    refine ⟨?_, hserved.input, hserved.ending, hserved.context⟩
    rw [hserved.output]
    change (Output.empty.after _).bytes = _
    rw [Output.bytes_after, flatten_frameCalls]
    exact List.append_nil _
  · intro hgoes resumed
    obtain ⟨_, hunheard⟩ := Server.heard_of_noExit
      fun payload h => Server.noExit_iff.mpr (hgoes payload h)
    rw [hunheard, List.flatMap_nil, List.nil_append] at hserved
    refine ⟨?_, hserved.input, hserved.ending, hserved.context⟩
    rw [hserved.output]
    change (resumed.output.after _).bytes = _
    rw [Output.bytes_after, flatten_frameCalls]

/-- A request to shut down, a byte that is no text, the `exit` message and one more request,
with half a frame behind them. -/
theorem run_refines_exchange_exit :
    let shutdown := asciiBytes "\x7b\"id\":1,\"method\":\"shutdown\"\x7d"
    let payloads := [shutdown, [0xFF], asciiBytes "\x7b\"method\":\"exit\"\x7d", shutdown]
    let served := Server.standard.run
      (Input.ofBytes (payloads.flatMap frame ++ frameHeader 3)) .empty
    (∀ payload ∈ Server.heard payloads, Server.Decodes payload) ∧
      (∀ reply ∈ (Server.standard.peer.exchange
          ((Server.heard payloads).filterMap Server.envelope?) Server.initial).1.flatten,
        ∃ body, encodeEnvelope reply = .ok body) ∧
      served.output.bytes =
        frame (asciiBytes "\x7b\"jsonrpc\":\"2.0\",\"id\":1,\"result\":null\x7d") ∧
      served.input = Input.ofBytes (frame shutdown ++ frameHeader 3) ∧
      served.ending = .finished := by
  intro shutdown payloads served
  have hshutdown : decodeEnvelope shutdown =
      .ok (some [("id", .int 1), ("method", .str "shutdown")]) := by with_unfolding_all rfl
  have hbyte : decodeEnvelope [0xFF] = .ok none := by with_unfolding_all rfl
  have hexit : decodeEnvelope (asciiBytes "\x7b\"method\":\"exit\"\x7d") =
      .ok (some [("method", .str "exit")]) := by with_unfolding_all rfl
  have hends : Server.endsSession (asciiBytes "\x7b\"method\":\"exit\"\x7d") = true :=
    Server.endsSession_iff.mpr ⟨_, hexit, rfl⟩
  have hgoes : Server.endsSession shutdown = false ∧ Server.endsSession [0xFF] = false := by
    simp only [Server.endsSession, Server.envelope?, hshutdown, hbyte]
    decide
  have hheard : Server.heard payloads = payloads.take 3 := by
    simp only [payloads, Server.heard, hgoes, hends]
    rfl
  have hunheard : Server.unheard payloads = [shutdown] := by
    simp only [payloads, Server.unheard, hgoes, hends]
    rfl
  have hdecodes : ∀ payload ∈ Server.heard payloads, Server.Decodes payload := by
    rw [hheard]
    simp only [payloads, List.take_succ_cons, List.take_zero, List.forall_mem_cons]
    exact ⟨⟨by decide, _, hshutdown⟩, ⟨by decide, _, hbyte⟩, ⟨by decide, _, hexit⟩,
      fun _ h => absurd h List.not_mem_nil⟩
  have henvelopes : (Server.heard payloads).filterMap Server.envelope? =
      ([[("id", .int 1), ("method", .str "shutdown")], [("method", .str "exit")]] :
        List Members) := by
    rw [hheard]
    simp only [payloads, List.take_succ_cons, List.take_zero, List.filterMap, Server.envelope?,
      hshutdown, hbyte, hexit]
  have hreplies : (Server.standard.peer.exchange ((Server.heard payloads).filterMap
      Server.envelope?) Server.initial).1.flatten =
        [.obj [("jsonrpc", .str "2.0"), ("id", .int 1), ("result", .null)]] := by
    rw [henvelopes]
    with_unfolding_all rfl
  have hencode :
      encodeEnvelope (.obj [("jsonrpc", .str "2.0"), ("id", .int 1), ("result", .null)]) =
        .ok (asciiBytes "\x7b\"jsonrpc\":\"2.0\",\"id\":1,\"result\":null\x7d") := by
    rw [encodeEnvelope, if_pos]
    · with_unfolding_all rfl
    · simp only [Json.isWritable, membersWritable]
      decide +kernel
  have hencodes : ∀ reply ∈ (Server.standard.peer.exchange
      ((Server.heard payloads).filterMap Server.envelope?) Server.initial).1.flatten,
      ∃ body, encodeEnvelope reply = .ok body := by
    intro reply hreply
    rw [hreplies] at hreply
    rw [List.mem_singleton.mp hreply]
    exact ⟨_, hencode⟩
  obtain ⟨bodies, hbodies, hserved, _⟩ :=
    run_refines_exchange Server.standard (frameHeader 3) hdecodes hencodes
  rw [hreplies] at hbodies
  obtain ⟨houtput, hinput, hending, _⟩ :=
    hserved ⟨asciiBytes "\x7b\"method\":\"exit\"\x7d", by simp [payloads], hends⟩
  refine ⟨hdecodes, hencodes, ?_, ?_, hending⟩
  · obtain ⟨body, rfl⟩ : ∃ body, bodies = [body] := by
      simpa [List.length_eq_one_iff] using congrArg List.length hbodies.symm
    obtain rfl : _ = body := by simpa [hencode] using hbodies
    rw [houtput]
    exact List.append_nil _
  · rw [hinput, hunheard, List.flatMap_singleton]

end VibeScript
