import VibeScript.Proofs.Rpc.Agreement
import VibeScript.Proofs.Server.Serving

/-!
The journal of a server.

Nobody reads the journal back: servers in sessions that differ in their journals alone send
the same and stop alike (`Server.serveFrom_agrees`).
-/

namespace VibeScript

/-- A session without its journal. -/
def Session.unlogged (session : Session) : Session := { session with journal := [] }

/-- Contexts that differ in the journals of their sessions at most. -/
abbrev Context.SameButJournal : Context Session → Context Session → Prop :=
  Context.Agrees Session.unlogged

/-- A handler that does not read the journal. -/
abbrev Handler.IgnoresJournal : Handler Session → Prop := Handler.GoesBy Session.unlogged

namespace Context.Agrees

variable {ctx other : Context Session}

theorem documents (h : ctx.SameButJournal other) : ctx.state.documents = other.state.documents :=
  (congrArg Session.documents h.state :)

/-- A change of the session that does not read the journal either. -/
theorem modify (h : ctx.SameButJournal other) (f : Session → Session)
    (hf : ∀ session, (f session).unlogged = (f session.unlogged).unlogged) :
    (ctx.modify f).SameButJournal (other.modify f) :=
  ⟨(hf ctx.state).trans ((congrArg (fun session => (f session).unlogged) h.state).trans
    (hf other.state).symm), h.outbox, h.running⟩

end Context.Agrees

namespace Server

variable (server : Server)

/-- What is done behind a line in the log does not go by what was logged before. -/
theorem loggingThen_agrees {ctx other : Context Session} (h : ctx.SameButJournal other)
    {line : Text} {next : Context Session → Except Failure Json × Context Session}
    (hnext : ∀ {ctx other}, Context.SameButJournal ctx other →
      (next ctx).1 = (next other).1 ∧ (next ctx).2.SameButJournal (next other).2) :
    (server.loggingThen line next ctx).1 = (server.loggingThen line next other).1 ∧
      (server.loggingThen line next ctx).2.SameButJournal
        (server.loggingThen line next other).2 := by
  cases hlogs : server.canLog line with
  | true =>
      rw [server.loggingThen_of_canLog hlogs, server.loggingThen_of_canLog hlogs]
      exact hnext (h.modify _ fun _ => rfl)
  | false =>
      obtain ⟨message, hlogging⟩ := server.exists_logging_eq_of_not_canLog hlogs
      rw [loggingThen, loggingThen, hlogging, hlogging]
      exact ⟨rfl, h⟩

theorem publish_agrees (uri content : Text) {ctx other : Context Session}
    (h : ctx.SameButJournal other) :
    (server.publish uri content ctx).1 = (server.publish uri content other).1 ∧
      (server.publish uri content ctx).2.SameButJournal
        (server.publish uri content other).2 := by
  unfold publish
  split
  · exact ⟨rfl, h⟩
  · exact ⟨rfl, h.send _⟩

theorem onInitialize_ignoresJournal : Handler.IgnoresJournal server.onInitialize :=
  fun _ _ _ h => server.loggingThen_agrees h fun h =>
    ⟨rfl, h.modify (·.enter .initialized) fun _ => rfl⟩

theorem onInitialized_ignoresJournal : Handler.IgnoresJournal server.onInitialized :=
  fun _ _ _ h => server.loggingThen_agrees h fun h => ⟨rfl, h⟩

theorem onShutdown_ignoresJournal : Handler.IgnoresJournal server.onShutdown :=
  fun _ _ _ h => server.loggingThen_agrees h fun h =>
    ⟨rfl, h.modify (fun session =>
      { session.enter .shuttingDown with shutdownRequested := true }) fun _ => rfl⟩

theorem onExit_ignoresJournal : Handler.IgnoresJournal server.onExit :=
  fun _ _ _ h => server.loggingThen_agrees h fun h =>
    ⟨rfl, (h.modify (·.enter .exited) fun _ => rfl).stop⟩

theorem onOpen_ignoresJournal : Handler.IgnoresJournal server.onOpen := by
  intro params ctx other h
  unfold onOpen
  split
  · exact ⟨rfl, h⟩
  · exact server.loggingThen_agrees h fun h =>
      server.publish_agrees _ _ (h.modify _ fun _ => rfl)

theorem onChange_ignoresJournal : Handler.IgnoresJournal server.onChange := by
  intro params ctx other h
  unfold onChange
  split
  · exact ⟨rfl, h⟩
  · exact ⟨rfl, h⟩
  · exact server.publish_agrees _ _ (h.modify _ fun _ => rfl)

theorem onClose_ignoresJournal : Handler.IgnoresJournal server.onClose := by
  intro params ctx other h
  unfold onClose
  split
  · exact ⟨rfl, h⟩
  · next uri _ =>
    refine server.loggingThen_agrees h fun {ctx other} h => ?_
    rw [h.documents]
    split
    · exact ⟨rfl, h⟩
    · exact ⟨rfl, (h.modify (·.edit (·.erase uri)) fun _ => rfl).send _⟩

theorem onCompletion_ignoresJournal : Handler.IgnoresJournal onCompletion :=
  fun _ _ _ h => ⟨rfl, h⟩

theorem onHover_ignoresJournal : Handler.IgnoresJournal server.onHover := by
  intro params ctx other h
  unfold onHover
  split
  · exact ⟨rfl, h⟩
  · rw [h.documents]
    exact ⟨rfl, h⟩

theorem ignoresJournal_of_handles {method : Text} {handler : Handler Session}
    (h : server.Handles method handler) : handler.IgnoresJournal := by
  cases h with
  | onInitialize => exact server.onInitialize_ignoresJournal
  | onShutdown => exact server.onShutdown_ignoresJournal
  | onCompletion => exact onCompletion_ignoresJournal
  | onHover => exact server.onHover_ignoresJournal
  | onInitialized => exact server.onInitialized_ignoresJournal
  | onExit => exact server.onExit_ignoresJournal
  | onOpen => exact server.onOpen_ignoresJournal
  | onChange => exact server.onChange_ignoresJournal
  | onClose => exact server.onClose_ignoresJournal

theorem peer_ignoresJournal : server.peer.GoesBy Session.unlogged where
  requests := fun _ h => server.ignoresJournal_of_handles (server.handles_of_mem (Or.inl h))
  notifications := fun _ h =>
    server.ignoresJournal_of_handles (server.handles_of_mem (Or.inr h))
  report := fun _ _ => rfl

end Server

/-- Servers that stopped alike, with nothing but their journals to tell them apart. -/
structure Served.SameButJournal (served other : Served) : Prop where
  context : served.context.SameButJournal other.context
  input : served.input = other.input
  output : served.output = other.output
  ending : served.ending = other.ending

theorem Served.SameButJournal.trans {first second third : Served}
    (h : first.SameButJournal second) (h' : second.SameButJournal third) :
    first.SameButJournal third :=
  ⟨h.context.trans h'.context, h.input.trans h'.input, h.output.trans h'.output,
    h.ending.trans h'.ending⟩

/-- What a server returns does not go by its journal. -/
theorem Served.SameButJournal.exitStatus_eq {served other : Served}
    (h : served.SameButJournal other) : served.exitStatus = other.exitStatus := by
  have hcode : served.context.state.exitCode = other.context.state.exitCode :=
    (congrArg Session.exitCode h.context.state :)
  unfold Served.exitStatus Ending.exitStatus
  rw [h.ending, hcode]

namespace Server

variable (server : Server)

theorem receive_agrees {ctx other : Context Session} (h : ctx.SameButJournal other)
    (payload : Bytes) :
    (server.receive payload ctx).1 = (server.receive payload other).1 ∧
      (server.receive payload ctx).2.SameButJournal (server.receive payload other).2 := by
  unfold receive
  split
  · exact ⟨rfl, h⟩
  · exact ⟨rfl, server.peer_ignoresJournal.both_reporting h _⟩
  · next envelope _ =>
      obtain ⟨hreplies, hafter⟩ := server.peer_ignoresJournal.handle h envelope
      exact ⟨congrArg Except.ok hreplies, hafter⟩

theorem answer_agrees {ctx other after : Context Session} (h : ctx.SameButJournal other)
    {payload : Bytes} {output written : Output} {result : Except Ending Unit}
    (hanswer : server.answer payload ctx output = (result, after, written)) :
    ∃ after', server.answer payload other output = (result, after', written) ∧
      after.SameButJournal after' := by
  obtain ⟨hreceived, hafter⟩ := server.receive_agrees h payload
  rcases hctx : server.receive payload ctx with ⟨received, received_after⟩
  rcases hother : server.receive payload other with ⟨received', other_after⟩
  rw [hctx, hother] at hreceived hafter
  obtain rfl : received = received' := hreceived
  rw [answer, hctx] at hanswer
  rw [answer, hother]
  cases received with
  | error e =>
      cases hanswer
      exact ⟨other_after, rfl, hafter⟩
  | ok replies =>
      cases hanswer
      exact ⟨other_after, rfl, hafter⟩

/-- Servers whose sessions differ in their journals alone read and write the same, and stop
alike. -/
theorem serveFrom_agrees {ctx other : Context Session} (h : ctx.SameButJournal other)
    (input : Input) (output : Output) :
    (server.serveFrom ctx input output).SameButJournal
      (server.serveFrom other input output) := by
  fun_induction server.serveFrom ctx input output generalizing other with
  | case1 ctx input output hstopped =>
      have hother : other.running = false := by simpa [h.running] using hstopped
      rw [server.serveFrom_of_stopped hother]
      exact ⟨h, rfl, rfl, rfl⟩
  | case2 ctx input output hrunning rest hread =>
      have hother : other.running = true := by simpa [h.running] using hrunning
      rw [server.serveFrom_of_running hother, hread]
      exact ⟨h.stop, rfl, rfl, rfl⟩
  | case3 ctx input output hrunning e rest hread =>
      have hother : other.running = true := by simpa [h.running] using hrunning
      rw [server.serveFrom_of_running hother, hread]
      exact ⟨h, rfl, rfl, rfl⟩
  | case4 ctx input output hrunning payload rest hread ending after written hanswer =>
      have hother : other.running = true := by simpa [h.running] using hrunning
      obtain ⟨after', hanswer', hafter⟩ := server.answer_agrees h hanswer
      rw [server.serveFrom_of_running hother, hread]
      simp only [hanswer']
      exact ⟨hafter, rfl, rfl, rfl⟩
  | case5 ctx input output hrunning payload rest hread after written hanswer ih =>
      have hother : other.running = true := by simpa [h.running] using hrunning
      obtain ⟨after', hanswer', hafter⟩ := server.answer_agrees h hanswer
      rw [server.serveFrom_of_running hother, hread]
      simp only [hanswer']
      exact ih hafter

end Server

end VibeScript
