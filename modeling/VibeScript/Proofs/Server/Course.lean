import VibeScript.Proofs.Server.Refinement

/-!
The course of a session.

A server stands between two payloads with a context, the input that is left and the output
that is written.  `Server.Turn` takes it from one such stage to the next: a payload is read
whole and answered.  Every session is a course of turns that goes on as long as it can, and
then a close (`Server.exists_course`); what holds of the stages of a session is proved for
one turn and follows for the course.
-/

namespace VibeScript

/-- Where a server stands between two payloads. -/
structure Stage where
  context : Context Session
  input : Input
  output : Output

namespace Server

/-- Serve until the end, from a stage on. -/
def serve (server : Server) (stage : Stage) : Served :=
  server.serveFrom stage.context stage.input stage.output

variable (server : Server)

/-- A payload is read whole, and answered. -/
structure Turn (before : Stage) (payload : Bytes) (after : Stage) : Prop where
  running : before.context.running = true
  read : readPayload before.input = (.payload payload, after.input)
  answered : server.answer payload before.context before.output =
    (.ok (), after.context, after.output)

/-- The payloads that are answered one after the other on the way between two stages. -/
inductive Course : Stage → List Bytes → Stage → Prop
  | nil (stage : Stage) : Course stage [] stage
  | cons {first middle last : Stage} {payload : Bytes} {payloads : List Bytes}
      (turn : server.Turn first payload middle) (rest : Course middle payloads last) :
      Course first (payload :: payloads) last

/-- How a server ends at a stage, without another turn. -/
inductive Close (stage : Stage) : Served → Prop
  | stopped (hstopped : stage.context.running = false) :
      Close stage ⟨stage.context, stage.input, stage.output, .finished⟩
  | atEnd {rest : Input} (hrunning : stage.context.running = true)
      (hread : readPayload stage.input = (.endOfStream, rest)) :
      Close stage ⟨stage.context.stop, rest, stage.output, .finished⟩
  | unread {e : ReadError} {rest : Input} (hrunning : stage.context.running = true)
      (hread : readPayload stage.input = (.failed e, rest)) :
      Close stage ⟨stage.context, rest, stage.output, e.ending⟩
  | unanswered {payload : Bytes} {rest : Input} {ending : Ending} {after : Context Session}
      {written : Output} (hrunning : stage.context.running = true)
      (hread : readPayload stage.input = (.payload payload, rest))
      (hanswer : server.answer payload stage.context stage.output =
        (.error ending, after, written)) :
      Close stage ⟨after, rest, written, ending⟩

variable {server : Server} {first last before after : Stage} {payload : Bytes}
  {payloads : List Bytes}

/-- A turn does not change what becomes of the server. -/
theorem Turn.serve_eq (h : server.Turn before payload after) :
    server.serve before = server.serve after := by
  rw [serve, server.serveFrom_of_running h.running, h.read]
  simp only [h.answered]
  rfl

theorem Course.serve_eq (h : server.Course first payloads last) :
    server.serve first = server.serve last := by
  induction h with
  | nil => rfl
  | cons turn _ ih => exact turn.serve_eq.trans ih

/-- A server stops where it cannot read on. -/
theorem Course.exists_serve_of_failed {e : ReadError} (h : server.Course first payloads last)
    (hrunning : last.context.running = true)
    (hfailed : (readPayload last.input).1 = .failed e) :
    ∃ rest, server.serve first = ⟨last.context, rest, last.output, e.ending⟩ := by
  obtain ⟨rest, hread⟩ : ∃ rest, readPayload last.input = (.failed e, rest) :=
    ⟨_, Prod.ext hfailed rfl⟩
  refine ⟨rest, h.serve_eq.trans ?_⟩
  rw [serve, server.serveFrom_of_running hrunning, hread]

/-- A course that is not empty has a last turn. -/
theorem Course.exists_of_concat (h : server.Course first (payloads ++ [payload]) last) :
    ∃ middle, server.Course first payloads middle ∧ server.Turn middle payload last := by
  induction payloads generalizing first with
  | nil =>
      cases h with
      | cons turn rest =>
          cases rest
          exact ⟨first, .nil first, turn⟩
  | cons _ _ ih =>
      cases h with
      | cons turn rest =>
          obtain ⟨middle, hcourse, hlast⟩ := ih rest
          exact ⟨middle, .cons turn hcourse, hlast⟩

/-- Every session takes its course, and then it closes. -/
theorem exists_course (server : Server) (stage : Stage) : ∃ payloads last,
    server.Course stage payloads last ∧ server.Close last (server.serve stage) := by
  obtain ⟨ctx, input, output⟩ := stage
  change ∃ payloads last, server.Course ⟨ctx, input, output⟩ payloads last ∧
    server.Close last (server.serveFrom ctx input output)
  fun_induction server.serveFrom ctx input output with
  | case1 ctx input output hstopped => exact ⟨[], _, .nil _, .stopped (by simpa using hstopped)⟩
  | case2 ctx input output hrunning rest hread =>
      exact ⟨[], _, .nil _, .atEnd (by simpa using hrunning) hread⟩
  | case3 ctx input output hrunning e rest hread =>
      exact ⟨[], _, .nil _, .unread (by simpa using hrunning) hread⟩
  | case4 ctx input output hrunning payload rest hread ending after written hanswer =>
      exact ⟨[], _, .nil _, .unanswered (by simpa using hrunning) hread hanswer⟩
  | case5 ctx input output hrunning payload rest hread after written hanswer ih =>
      obtain ⟨payloads, last, hcourse, hclose⟩ := ih
      exact ⟨payload :: payloads, last,
        .cons ⟨by simpa using hrunning, hread, hanswer⟩ hcourse, hclose⟩

/-- Where there is no turn to follow, the session closes. -/
theorem Course.close (h : server.Course first payloads last)
    (hlast : ∀ payload after, ¬ server.Turn last payload after) :
    server.Close last (server.serve first) := by
  obtain ⟨later, final, hcourse, hclose⟩ := server.exists_course last
  rw [h.serve_eq]
  cases hcourse with
  | nil => exact hclose
  | cons turn _ => exact absurd turn (hlast _ _)

/-- What is answered for a payload was received and then written. -/
theorem exists_received_of_answer {ctx after : Context Session} {output written : Output}
    (h : server.answer payload ctx output = (.ok (), after, written)) :
    ∃ replies, server.receive payload ctx = (.ok replies, after) ∧
      writeMessages replies output = (.ok (), written) := by
  unfold answer at h
  rcases hreceive : server.receive payload ctx with ⟨e | replies, received⟩
  · rw [hreceive] at h
    cases h
  · rw [hreceive] at h
    simp only [Prod.mk.injEq] at h
    obtain ⟨hresult, rfl, houtput⟩ := h
    exact ⟨replies, rfl, Prod.ext hresult houtput⟩

/-- The context behind a turn is the one that the payload leaves. -/
theorem Turn.context_eq (h : server.Turn before payload after) :
    after.context = (server.receive payload before.context).2 := by
  obtain ⟨replies, hreceive, _⟩ := exists_received_of_answer h.answered
  rw [hreceive]

end Server

end VibeScript
