import VibeScript.Proofs.Framing.Refusals
import VibeScript.Proofs.Server.Failures

/-!
What a server reports about a stream that it cannot read on.

A stream that breaks the framing is reported as such.  A length that is out of range is reported
as a failure of the server, with a trace; nothing else is (`broken_framing_reported_iff`).
-/

namespace VibeScript

namespace Server

variable {server : Server} {first last before after : Stage} {payload : Bytes}
  {payloads : List Bytes}

/-- A reader that is never interrupted stays so. -/
theorem Turn.patience_eq_none (h : server.Turn before payload after)
    (hbefore : before.input.patience = none) : after.input.patience = none := by
  obtain ⟨_, hasks⟩ := exists_asksFor_readPayload before.input.bytes
  have hinput : Input.ofBytes before.input.bytes = before.input := by
    rw [Input.ofBytes, ← hbefore]
  have hpatience := hasks.unlimited
  rwa [hinput, h.read] at hpatience

theorem Course.patience_eq_none (h : server.Course first payloads last)
    (hfirst : first.input.patience = none) : last.input.patience = none := by
  induction h with
  | nil => exact hfirst
  | cons turn _ ih => exact ih (turn.patience_eq_none hfirst)

/-- A server that cannot read on stops with the status one, and the end of its journal says why. -/
theorem Course.run_of_failed {stream : Bytes} {output : Output} {e : ReadError}
    (h : server.Course ⟨opening, .ofBytes stream, output⟩ payloads last)
    (hrunning : last.context.running = true)
    (hfailed : (readPayload last.input).1 = .failed e) :
    (server.run (.ofBytes stream) output).exitStatus = 1 ∧
      (server.run (.ofBytes stream) output).context.state.journal =
        last.context.state.journal ++ e.ending.entries := by
  obtain ⟨rest, hserve⟩ := h.exists_serve_of_failed hrunning hfailed
  have hrun : server.run (.ofBytes stream) output =
      ⟨last.context.modify (·.record e.ending.entries), rest, last.output, e.ending⟩ := by
    rw [serve] at hserve
    rw [run]
    simp only [opening] at hserve
    simp only [hserve]
  rw [hrun]
  exact ⟨by cases e <;> rfl, rfl⟩

end Server

/-- How a failed reading is reported: as a framing error, or as a failure of the server. -/
theorem ReadError.entries_cases {e : ReadError} (h : e ≠ .interrupted) :
    (∃ f : FramingError, e = .framing f ∧ e.ending.entries =
        [.line ("Framing error, closing connection: " ++ f.message), .line "Server stopped"]) ∨
      (∀ f, e ≠ .framing f) ∧ ∃ reason, e.ending.entries =
        [.line ("Server error: " ++ reason), .trace, .line "Server stopped"] := by
  cases e with
  | framing f => exact Or.inl ⟨f, rfl, rfl⟩
  | tooManyDigits d => exact Or.inr ⟨by simp, _, rfl⟩
  | lengthTooLarge => exact Or.inr ⟨by simp, _, rfl⟩
  | interrupted => exact absurd rfl h

/-- A reader gives a body, the end of an empty stream, or a framing error, unless a length is out
of range.  A server that cannot read on reports a framing error, with the same exception, which it
reports as a failure of its own. -/
theorem broken_framing_reported_iff (stream : Bytes) :
    ((readPayload (Input.ofBytes stream)).1 = .endOfStream ↔ stream = []) ∧
    (((∃ body, (readPayload (Input.ofBytes stream)).1 = .payload body) ∨
        (readPayload (Input.ofBytes stream)).1 = .endOfStream ∨
        ∃ f, (readPayload (Input.ofBytes stream)).1 = .failed (.framing f)) ↔
      ¬ LengthOutOfRange stream) ∧
    ∀ (server : Server) (output : Output) (payloads : List Bytes) (last : Stage) (e : ReadError),
      server.Course ⟨Server.opening, .ofBytes stream, output⟩ payloads last →
      last.context.running = true → (readPayload last.input).1 = .failed e →
      let served := server.run (.ofBytes stream) output
      served.exitStatus = 1 ∧
      ((∃ f : FramingError, e = .framing f ∧
          served.context.state.journal = last.context.state.journal ++
            [.line ("Framing error, closing connection: " ++ f.message),
              .line "Server stopped"]) ↔
        ¬ LengthOutOfRange last.input.bytes) ∧
      (LengthOutOfRange last.input.bytes → ∃ reason,
        served.context.state.journal = last.context.state.journal ++
          [.line ("Server error: " ++ reason), .trace, .line "Server stopped"]) := by
  refine ⟨?_, ?_, ?_⟩
  · rw [readPayload_eq_endOfStream_iff]
    simp [Input.ofBytes]
  · rw [← not_failsOtherwise_iff, readPayload_failsOtherwise_iff]
  · intro server output payloads last e hcourse hrunning hfailed served
    obtain ⟨hstatus, hjournal⟩ := hcourse.run_of_failed hrunning hfailed
    have hinput : Input.ofBytes last.input.bytes = last.input := by
      rw [Input.ofBytes, ← hcourse.patience_eq_none rfl]
    have hrange := readPayload_failsOtherwise_iff last.input.bytes
    have hpatient := readPayload_ne_interrupted last.input.bytes
    rw [hinput, hfailed] at hrange hpatient
    have hother : LengthOutOfRange last.input.bytes ↔ ∀ f, e ≠ .framing f := by
      rw [← hrange, Reading.FailsOtherwise]
      simp
    rw [hother]
    refine ⟨hstatus, ?_⟩
    rcases ReadError.entries_cases (fun h => hpatient (congrArg _ h)) with
      ⟨f, rfl, hentries⟩ | ⟨hnot, reason, hentries⟩
    · rw [hentries] at hjournal
      refine ⟨⟨fun _ h => h f rfl, fun _ => ⟨f, rfl, hjournal⟩⟩, fun h => ?_⟩
      exact absurd rfl (h f)
    · rw [hentries] at hjournal
      refine ⟨⟨?_, fun h => absurd hnot h⟩, fun _ => ⟨reason, hjournal⟩⟩
      rintro ⟨f, hf, _⟩
      exact absurd hf (hnot f)

/-- Behind a payload that is dropped, a header whose length is no number. -/
theorem broken_framing_reported_invalid :
    let rest := asciiBytes "Content-Length: x\r\n"
    let last : Stage :=
      ⟨(Server.standard.receive [0xFF] Server.opening).2, .ofBytes rest, .empty⟩
    let served := Server.standard.run (.ofBytes (frame [0xFF] ++ rest)) .empty
    Server.standard.Course ⟨Server.opening, .ofBytes (frame [0xFF] ++ rest), .empty⟩ [[0xFF]]
        last ∧
      last.context.running = true ∧
      (readPayload last.input).1 = .failed (.framing (.invalidLength "x")) ∧
      served.exitStatus = 1 ∧
      served.context.state.journal = last.context.state.journal ++
        [.line "Framing error, closing connection: invalid Content-Length: 'x'",
          .line "Server stopped"] := by
  intro rest last served
  have hcourse : Server.standard.Course
      ⟨Server.opening, .ofBytes (frame [0xFF] ++ rest), .empty⟩ [[0xFF]] last :=
    .cons ⟨rfl, readPayload_frame (by decide) rest, by with_unfolding_all rfl⟩ (.nil last)
  have hrunning : last.context.running = true := by with_unfolding_all rfl
  have hfailed : (readPayload last.input).1 = .failed (.framing (.invalidLength "x")) := by
    decide +kernel
  have hrange : ¬ LengthOutOfRange last.input.bytes :=
    (broken_framing_reported_iff rest).2.1.mp (Or.inr (Or.inr ⟨_, hfailed⟩))
  obtain ⟨hstatus, hreported, _⟩ :=
    (broken_framing_reported_iff _).2.2 Server.standard .empty _ last _ hcourse hrunning hfailed
  obtain ⟨f, hf, hjournal⟩ := hreported.mpr hrange
  cases hf
  exact ⟨hcourse, hrunning, hfailed, hstatus, hjournal⟩

/-- A line with too many digits. -/
theorem long_length_reported_as_failure :
    let stream := asciiBytes "Content-Length: " ++ (List.replicate 4301 49 ++ [13, 10])
    (readPayload (Input.ofBytes stream)).1 = .failed (.tooManyDigits ⟨4301⟩) ∧
      .trace ∈ (Server.standard.run (.ofBytes stream) .empty).context.state.journal := by
  intro stream
  have hdigits : ∀ b ∈ List.replicate 4301 (49 : UInt8), 48 ≤ b ∧ b ≤ 57 := by
    intro b hb
    rw [List.eq_of_mem_replicate hb]
    decide
  have hmany : (List.replicate 4301 (49 : UInt8)).length = 4301 := List.length_replicate
  have hfailed : (readPayload (Input.ofBytes stream)).1 = .failed (.tooManyDigits ⟨4301⟩) := by
    have hread := readPayload_of_many_digits hdigits (by rw [hmany]; decide) []
    rwa [List.append_nil, hmany] at hread
  have hcourse : Server.standard.Course ⟨Server.opening, .ofBytes stream, .empty⟩ []
      ⟨Server.opening, .ofBytes stream, .empty⟩ := .nil _
  obtain ⟨_, hjournal⟩ := hcourse.run_of_failed rfl hfailed
  refine ⟨hfailed, ?_⟩
  rw [hjournal]
  exact List.mem_append_right _ (List.mem_cons_of_mem _ List.mem_cons_self)

end VibeScript
