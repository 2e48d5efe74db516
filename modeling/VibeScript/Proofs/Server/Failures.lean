import VibeScript.Proofs.Framing.Failures
import VibeScript.Proofs.Server.Course

/-!
Servers whose calls fail.

A call that fails does not change what went before it.  A server whose output fails makes
the same calls until then, and does not go on to the next message
(`Server.exists_writesOut`); one that is interrupted has sent the replies to all messages
that it had read (`Server.exists_readsIn`).
-/

namespace VibeScript

namespace Server

variable (server : Server)

/-- Which calls the reply to a payload takes does not depend on what was written before; the
payload is received in any case. -/
theorem exists_calls_answer (payload : Bytes) (ctx : Context Session) :
    ∃ result calls write, Calls write result calls ∧ ∀ output,
      server.answer payload ctx output =
        ((write output).1, (server.receive payload ctx).2, (write output).2) := by
  rcases hreceive : server.receive payload ctx with ⟨e | replies, after⟩
  · refine ⟨_, [], _, .nothing (.error (.failed e.message)), fun output => ?_⟩
    rw [answer, hreceive]
  · obtain ⟨result, calls, hcalls⟩ := exists_calls_writeMessages replies
    refine ⟨result, calls, _, hcalls, fun output => ?_⟩
    rw [answer, hreceive]

/-- A server comes from a stage to a payload that it reads whole, with what is left behind
it, and in answering it makes the call behind the first `count`. -/
def AnswersAt (start : Stage) (count : Nat) (rest : Input) : Prop :=
  ∃ payloads payload before, server.Course start payloads before ∧
    readPayload before.input = (.payload payload, rest) ∧
    before.output.writes.length ≤ count ∧
    count < (server.answer payload before.context before.output).2.2.writes.length

/-- The calls that a server makes, behind those that were made before.  If they are limited
it makes as many of them, and stops in the answer to which the next one belongs. -/
structure WritesOut (ctx : Context Session) (input : Input) (writes calls : List Bytes) :
    Prop where
  unlimited : (server.serveFrom ctx input ⟨writes, none⟩).output = ⟨writes ++ calls, none⟩
  enough : ∀ n, server.serveFrom ctx input ⟨writes, some (calls.length + n)⟩ =
    { server.serveFrom ctx input ⟨writes, none⟩ with output := ⟨writes ++ calls, some n⟩ }
  short : ∀ n < calls.length, ∃ after rest,
    server.serveFrom ctx input ⟨writes, some n⟩ =
      ⟨after, rest, ⟨writes ++ calls.take n, some 0⟩, .failed writeFailed⟩ ∧
    server.AnswersAt ⟨ctx, input, ⟨writes, none⟩⟩ (writes.length + n) rest

variable {server} {ctx after : Context Session} {input rest : Input} {payload : Bytes}
  {writes calls later : List Bytes} {result : Except Ending Unit}
  {write : Output → Except Ending Unit × Output}

theorem WritesOut.nothing {ending : Ending}
    (h : ∀ output, server.serveFrom ctx input output = ⟨after, rest, output, ending⟩) :
    server.WritesOut ctx input writes [] where
  unlimited := by simp [h]
  enough := by simp [h]
  short := by simp

section Answering

variable (hrunning : ctx.running = true)
  (hread : readPayload input = (.payload payload, rest))
  (hanswer : ∀ output, server.answer payload ctx output =
    ((write output).1, after, (write output).2))

include hrunning hread hanswer

/-- A call that fails in an answer. -/
theorem exists_stop_of_short (hcalls : Calls write result calls) {n : Nat}
    (hn : n < calls.length) :
    server.serveFrom ctx input ⟨writes, some n⟩ =
        ⟨after, rest, ⟨writes ++ calls.take n, some 0⟩, .failed writeFailed⟩ ∧
      server.AnswersAt ⟨ctx, input, ⟨writes, none⟩⟩ (writes.length + n) rest := by
  constructor
  · rw [server.serveFrom_of_running hrunning, hread]
    simp only [hanswer, hcalls.short writes n hn]
  · refine ⟨[], payload, _, .nil _, hread, Nat.le_add_right _ _, ?_⟩
    simp only [hanswer, hcalls.unlimited, List.length_append]
    omega

theorem WritesOut.of_failed {ending : Ending} (hcalls : Calls write (.error ending) calls) :
    server.WritesOut ctx input writes calls where
  unlimited := by
    rw [server.serveFrom_of_running hrunning, hread]
    simp only [hanswer, hcalls.unlimited]
  enough n := by
    rw [server.serveFrom_of_running hrunning, server.serveFrom_of_running hrunning, hread]
    simp only [hanswer, hcalls.unlimited, hcalls.enough]
  short n hn := ⟨_, _, exists_stop_of_short hrunning hread hanswer hcalls hn⟩

/-- An answer that is written, and what the server writes behind it. -/
theorem WritesOut.of_answered (hcalls : Calls write (.ok ()) calls)
    (hlater : server.WritesOut after rest (writes ++ calls) later) :
    server.WritesOut ctx input writes (calls ++ later) where
  unlimited := by
    rw [server.serveFrom_of_running hrunning, hread]
    simp only [hanswer, hcalls.unlimited, hlater.unlimited, List.append_assoc]
  enough n := by
    rw [server.serveFrom_of_running hrunning, server.serveFrom_of_running hrunning, hread,
      List.length_append, Nat.add_assoc]
    simp only [hanswer, hcalls.unlimited, hcalls.enough, hlater.enough, List.append_assoc]
  short n hn := by
    -- the call that fails belongs to this answer, or to one of those behind it
    by_cases hshort : n < calls.length
    · rw [List.take_append_of_le_length (Nat.le_of_lt hshort)]
      exact ⟨_, _, exists_stop_of_short hrunning hread hanswer hcalls hshort⟩
    · obtain ⟨m, rfl⟩ := Nat.exists_eq_add_of_le (Nat.not_lt.mp hshort)
      have hm : m < later.length := by
        rw [List.length_append] at hn
        omega
      obtain ⟨last, left, hserve, payloads, final, before, hcourse, hreads⟩ := hlater.short m hm
      refine ⟨last, left, ?_, payload :: payloads, final, before,
        .cons ⟨hrunning, hread, ?_⟩ hcourse, ?_⟩
      · rw [server.serveFrom_of_running hrunning, hread]
        simp only [hanswer, hcalls.enough, hserve, List.take_length_add_append,
          List.append_assoc]
      · simp only [hanswer, hcalls.unlimited]
      · rwa [List.length_append, Nat.add_assoc] at hreads

end Answering

/-- A server whose output fails makes the calls that it would have made, until then. -/
theorem exists_writesOut (server : Server) (ctx : Context Session) (input : Input)
    (writes : List Bytes) : ∃ calls, server.WritesOut ctx input writes calls := by
  generalize houtput : (⟨writes, none⟩ : Output) = output
  fun_induction server.serveFrom ctx input output generalizing writes with
  | case1 ctx input output hstopped =>
      exact ⟨[], .nothing (server.serveFrom_of_stopped (by simpa using hstopped) input)⟩
  | case2 ctx input output hrunning rest hread =>
      have hserve (output) : server.serveFrom ctx input output =
          ⟨ctx.stop, rest, output, .finished⟩ := by
        rw [server.serveFrom_of_running (by simpa using hrunning), hread]
      exact ⟨[], .nothing hserve⟩
  | case3 ctx input output hrunning e rest hread =>
      have hserve (output) : server.serveFrom ctx input output =
          ⟨ctx, rest, output, e.ending⟩ := by
        rw [server.serveFrom_of_running (by simpa using hrunning), hread]
      exact ⟨[], .nothing hserve⟩
  | case4 ctx input output hrunning payload rest hread ending after written hfree =>
      obtain ⟨result, calls, write, hcalls, hanswer⟩ := server.exists_calls_answer payload ctx
      rw [← houtput, hanswer, hcalls.unlimited] at hfree
      cases hfree
      exact ⟨calls, .of_failed (by simpa using hrunning) hread hanswer hcalls⟩
  | case5 ctx input output hrunning payload rest hread after written hfree ih =>
      obtain ⟨result, calls, write, hcalls, hanswer⟩ := server.exists_calls_answer payload ctx
      rw [← houtput, hanswer, hcalls.unlimited] at hfree
      cases hfree
      obtain ⟨later, hlater⟩ := ih (writes ++ calls) rfl
      exact ⟨calls ++ later, .of_answered (by simpa using hrunning) hread hanswer hcalls hlater⟩

/-- The lines that a server asks for, of these bytes.  If it is interrupted it has taken the
same course until then, and it is within the header of a frame. -/
structure ReadsIn (server : Server) (ctx : Context Session) (bytes : Bytes) (output : Output)
    (lines : Nat) : Prop where
  enough : ∀ n, server.serveFrom ctx ⟨bytes, some (lines + n)⟩ output =
    { server.serveFrom ctx (.ofBytes bytes) output with
      input := ⟨(server.serveFrom ctx (.ofBytes bytes) output).input.bytes, some n⟩ }
  short : ∀ n < lines, ∃ payloads last,
    server.Course ⟨ctx, ⟨bytes, some n⟩, output⟩ payloads last ∧
      last.context.running = true ∧ (readPayload last.input).1 = .failed .interrupted ∧
      server.Course ⟨ctx, .ofBytes bytes, output⟩ payloads
        { last with input := .ofBytes last.input.bytes }

variable {bytes : Bytes} {output written : Output} {lines : Nat}

theorem ReadsIn.of_stopped (hstopped : ctx.running = false) :
    server.ReadsIn ctx bytes output 0 where
  enough n := by
    simp only [server.serveFrom_of_stopped hstopped, Nat.zero_add]
    rfl
  short := by simp

/-- An interruption before a frame has been read. -/
theorem exists_interrupted_of_short (hrunning : ctx.running = true)
    (hasks : AsksFor readPayload (.failed .interrupted) bytes lines) {n : Nat} (hn : n < lines) :
    ∃ payloads last, server.Course ⟨ctx, ⟨bytes, some n⟩, output⟩ payloads last ∧
      last.context.running = true ∧ (readPayload last.input).1 = .failed .interrupted ∧
      server.Course ⟨ctx, .ofBytes bytes, output⟩ payloads
        { last with input := .ofBytes last.input.bytes } :=
  ⟨[], _, .nil _, hrunning, hasks.short n hn, .nil _⟩

/-- A server that stops behind what it reads next. -/
theorem ReadsIn.of_stops (hrunning : ctx.running = true)
    (hasks : AsksFor readPayload (.failed .interrupted) bytes lines) {reading : Reading}
    (hread : readPayload (.ofBytes bytes) = (reading, rest)) {ending : Ending}
    (hstops : ∀ input left, readPayload input = (reading, left) →
      server.serveFrom ctx input output = ⟨after, left, written, ending⟩) :
    server.ReadsIn ctx bytes output lines where
  enough n := by
    have henough := hasks.enough n
    rw [hread] at henough
    rw [hstops _ _ henough, hstops _ _ hread]
  short _ hn := exists_interrupted_of_short hrunning hasks hn

/-- A payload that is answered, and what the server reads behind it. -/
theorem ReadsIn.of_answered (hrunning : ctx.running = true)
    (hasks : AsksFor readPayload (.failed .interrupted) bytes lines) {left : Bytes}
    (hread : readPayload (.ofBytes bytes) = (.payload payload, .ofBytes left))
    (hanswer : server.answer payload ctx output = (.ok (), after, written)) {further : Nat}
    (hlater : server.ReadsIn after left written further) :
    server.ReadsIn ctx bytes output (lines + further) := by
  have hpatient (n) : readPayload ⟨bytes, some (lines + n)⟩ =
      (.payload payload, ⟨left, some n⟩) := by
    rw [hasks.enough, hread]
    rfl
  refine ⟨fun n => ?_, fun n hn => ?_⟩
  · rw [server.serveFrom_of_running hrunning, server.serveFrom_of_running hrunning, hread,
      Nat.add_assoc, hpatient]
    simp only [hanswer, hlater.enough]
  · by_cases hshort : n < lines
    · exact exists_interrupted_of_short hrunning hasks hshort
    · obtain ⟨m, rfl⟩ := Nat.exists_eq_add_of_le (Nat.not_lt.mp hshort)
      obtain ⟨payloads, last, hcourse, hlast, hinterrupted, hfree⟩ :=
        hlater.short m (Nat.add_lt_add_iff_left.mp hn)
      exact ⟨payload :: payloads, last, .cons ⟨hrunning, hpatient m, hanswer⟩ hcourse, hlast,
        hinterrupted, .cons ⟨hrunning, hread, hanswer⟩ hfree⟩

/-- A server that is interrupted has answered all payloads that it had read. -/
theorem exists_readsIn (server : Server) (ctx : Context Session) (bytes : Bytes)
    (output : Output) : ∃ lines, server.ReadsIn ctx bytes output lines := by
  generalize hinput : Input.ofBytes bytes = input
  fun_induction server.serveFrom ctx input output generalizing bytes with
  | case1 ctx input output hstopped => exact ⟨0, .of_stopped (by simpa using hstopped)⟩
  | case2 ctx input output hrunning rest hread =>
      obtain ⟨lines, hasks⟩ := exists_asksFor_readPayload bytes
      have hrunning : ctx.running = true := by simpa using hrunning
      have hstops (input left) (h : readPayload input = (.endOfStream, left)) :
          server.serveFrom ctx input output = ⟨ctx.stop, left, output, .finished⟩ := by
        rw [server.serveFrom_of_running hrunning, h]
      exact ⟨lines, .of_stops hrunning hasks (hinput ▸ hread) hstops⟩
  | case3 ctx input output hrunning e rest hread =>
      obtain ⟨lines, hasks⟩ := exists_asksFor_readPayload bytes
      have hrunning : ctx.running = true := by simpa using hrunning
      have hstops (input left) (h : readPayload input = (.failed e, left)) :
          server.serveFrom ctx input output = ⟨ctx, left, output, e.ending⟩ := by
        rw [server.serveFrom_of_running hrunning, h]
      exact ⟨lines, .of_stops hrunning hasks (hinput ▸ hread) hstops⟩
  | case4 ctx input output hrunning payload rest hread ending after written hanswer =>
      obtain ⟨lines, hasks⟩ := exists_asksFor_readPayload bytes
      have hrunning : ctx.running = true := by simpa using hrunning
      have hstops (input left) (h : readPayload input = (.payload payload, left)) :
          server.serveFrom ctx input output = ⟨after, left, written, ending⟩ := by
        rw [server.serveFrom_of_running hrunning, h]
        simp only [hanswer]
      exact ⟨lines, .of_stops hrunning hasks (hinput ▸ hread) hstops⟩
  | case5 ctx input output hrunning payload rest hread after written hanswer ih =>
      subst hinput
      obtain ⟨lines, hasks⟩ := exists_asksFor_readPayload bytes
      obtain ⟨left, hleft⟩ : ∃ left, Input.ofBytes left = rest := by
        have hpatience := hasks.unlimited
        rw [hread] at hpatience
        exact ⟨rest.bytes, by rw [Input.ofBytes, ← hpatience]⟩
      obtain ⟨further, hlater⟩ := ih left hleft
      subst hleft
      exact ⟨lines + further, .of_answered (by simpa using hrunning) hasks hread hanswer hlater⟩

/-- On its course a server has answered the payloads one after the other, and written the
frames of all replies. -/
theorem Course.attended {first last : Stage} {payloads : List Bytes}
    (h : server.Course first payloads last) :
    last.context = (server.attend payloads first.context).2 ∧
      ∃ bodies : List Bytes,
        (server.attend payloads first.context).1.flatten.map encodeEnvelope = bodies.map .ok ∧
        last.output.bytes = first.output.bytes ++ bodies.flatMap frame := by
  induction h with
  | nil => exact ⟨rfl, [], rfl, by simp⟩
  | cons turn _ ih =>
      obtain ⟨replies, hreceive, hwrite⟩ := exists_received_of_answer turn.answered
      obtain ⟨bodies, hbodies, hbytes⟩ := exists_bodies_of_writeMessages hwrite
      obtain ⟨hcontext, later, hlater, hwritten⟩ := ih
      rw [attend, hreceive]
      refine ⟨hcontext, bodies ++ later, ?_, ?_⟩
      · simp only [Except.toOption, Option.getD_some, List.flatten_cons, List.map_append,
          hbodies, hlater]
      · rw [hwritten, hbytes, List.flatMap_append, List.append_assoc]

/-- A server stops where it is interrupted. -/
theorem Course.exists_serve_of_interrupted {payloads : List Bytes} {last : Stage}
    (h : server.Course ⟨ctx, input, output⟩ payloads last) (hrunning : last.context.running = true)
    (hinterrupted : (readPayload last.input).1 = .failed .interrupted) :
    ∃ rest, server.serveFrom ctx input output =
      ⟨last.context, rest, last.output, .interrupted⟩ :=
  h.exists_serve_of_failed hrunning hinterrupted

end Server

/-- What a call that fails makes of a server.

If the output fails behind `n` calls, a server that makes no more of them does what it does
in any case.  Else it makes the first `n` calls and returns one, and its input ends behind
the frame of the payload that it was answering.

If the reading is interrupted behind `n` lines, a server that asks for no more of them does
what it does in any case; how many it asks for shows in the patience that is left.  Else it
returns one, and it has written the replies to all payloads that it had read, which are the
payloads that it reads first in any case. -/
theorem run_of_failing_call (server : Server) (bytes : Bytes) :
    let start : Stage := ⟨Server.opening, .ofBytes bytes, .empty⟩
    let free := server.run (.ofBytes bytes) .empty
    (∀ n, let cut := server.run (.ofBytes bytes) ⟨[], some n⟩
      (free.output.writes.length ≤ n → cut =
        { free with output := ⟨free.output.writes, some (n - free.output.writes.length)⟩ }) ∧
      (n < free.output.writes.length →
        cut.output.writes = free.output.writes.take n ∧ cut.exitStatus = 1 ∧
        ∃ payloads payload before, server.Course start payloads before ∧
          readPayload before.input = (.payload payload, cut.input) ∧
          before.output.writes.length ≤ n ∧
          n < (server.answer payload before.context before.output).2.2.writes.length)) ∧
    ∃ lines, ∀ n, let held := server.run ⟨bytes, some n⟩ .empty
      (lines ≤ n → held = { free with input := ⟨free.input.bytes, some (n - lines)⟩ }) ∧
      (n < lines → held.exitStatus = 1 ∧
        ∃ (payloads : List Bytes) (last : Stage) (bodies : List Bytes),
          server.Course ⟨Server.opening, ⟨bytes, some n⟩, .empty⟩ payloads last ∧
          (readPayload last.input).1 = .failed .interrupted ∧
          server.Course start payloads { last with input := .ofBytes last.input.bytes } ∧
          (server.attend payloads Server.opening).1.flatten.map encodeEnvelope =
            bodies.map .ok ∧
          held.output.bytes = bodies.flatMap frame) := by
  intro start free
  have hrun (input output) : server.run input output =
      let served := server.serveFrom Server.opening input output
      { served with context := served.context.modify (·.record served.ending.entries) } := rfl
  refine ⟨fun n => ?_, ?_⟩
  · obtain ⟨calls, hwrites⟩ := server.exists_writesOut Server.opening (.ofBytes bytes) []
    have hfree : free.output.writes = calls := by
      simp only [free, hrun]
      exact congrArg Output.writes hwrites.unlimited
    rw [hfree]
    refine ⟨fun hle => ?_, fun hlt => ?_⟩
    · obtain ⟨m, rfl⟩ := Nat.exists_eq_add_of_le hle
      rw [hrun, hwrites.enough, Nat.add_sub_cancel_left]
      rfl
    · obtain ⟨after, rest, hcut, hanswers⟩ := hwrites.short n hlt
      rw [List.length_nil, Nat.zero_add] at hanswers
      simp only [hrun, hcut]
      exact ⟨rfl, rfl, hanswers⟩
  · obtain ⟨lines, hreads⟩ := server.exists_readsIn Server.opening bytes .empty
    refine ⟨lines, fun n => ⟨fun hle => ?_, fun hlt => ?_⟩⟩
    · obtain ⟨m, rfl⟩ := Nat.exists_eq_add_of_le hle
      rw [hrun, hreads.enough, Nat.add_sub_cancel_left]
      rfl
    · obtain ⟨payloads, last, hcourse, hrunning, hinterrupted, hfree⟩ := hreads.short n hlt
      obtain ⟨_, bodies, hbodies, hbytes⟩ := hcourse.attended
      obtain ⟨rest, hheld⟩ := hcourse.exists_serve_of_interrupted hrunning hinterrupted
      simp only [hrun, hheld]
      exact ⟨rfl, payloads, last, bodies, hcourse, hinterrupted, hfree, hbodies, hbytes⟩

end VibeScript
