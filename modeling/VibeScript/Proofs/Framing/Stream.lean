import VibeScript.Proofs.Framing.RoundTrip
import VibeScript.Server.Serve

/-!
Streams of frames.

Bodies that were written one after the other are read back one after the other, and what
comes behind the last of them is not touched (`readPayloads_writeFrames`).  It does not
matter what the bodies hold: a body is taken by its length and never looked into, so one
that reads like a header is a body like any other.
-/

namespace VibeScript

/-- The calls that write a body with its header. -/
def frameCalls (body : Bytes) : List Bytes := [frameHeader body.length, body]

theorem flatten_frameCalls (bodies : List Bytes) :
    (bodies.flatMap frameCalls).flatten = bodies.flatMap frame := by
  induction bodies with
  | nil => rfl
  | cons body rest ih =>
      rw [List.flatMap_cons, List.flatten_append, ih, List.flatMap_cons]
      simp [frameCalls, frame]

theorem writeFrame_of_unlimited (body : Bytes) (writes : List Bytes) :
    writeFrame body ⟨writes, none⟩ = (.ok (), ⟨writes ++ frameCalls body, none⟩) := by
  simp [writeFrame, Output.write?, frameCalls]

/-- Write bodies, one frame each, until one fails. -/
def writeFrames : List Bytes → Output → Except Ending Unit × Output
  | [], output => (.ok (), output)
  | body :: rest, output =>
      match writeFrame body output with
      | (.error ending, output) => (.error ending, output)
      | (.ok (), output) => writeFrames rest output

theorem writeFrames_of_unlimited (bodies : List Bytes) (writes : List Bytes) :
    writeFrames bodies ⟨writes, none⟩ =
      (.ok (), ⟨writes ++ bodies.flatMap frameCalls, none⟩) := by
  induction bodies generalizing writes with
  | nil => rw [writeFrames, List.flatMap_nil, List.append_nil]
  | cons body rest ih =>
      rw [writeFrames, writeFrame_of_unlimited]
      simp only [ih, List.flatMap_cons, List.append_assoc]

/-- Read so many frames, or what comes instead of them, and what is left of the input. -/
def readPayloads : Nat → Input → List Reading × Input
  | 0, input => ([], input)
  | count + 1, input =>
      let (reading, rest) := readPayload input
      let (later, rest) := readPayloads count rest
      (reading :: later, rest)

/-- An input without bytes is at its end. -/
theorem readPayload_nil :
    readPayload (Input.ofBytes []) = (.endOfStream, Input.ofBytes []) := by
  rw [readPayload, readHeaders]
  rfl

/-- An empty line is taken from an input that is at its end, if there is patience for it. -/
theorem Input.exists_takeLine?_nil_iff {input : Input} :
    (∃ rest, input.takeLine? = some ([], rest)) ↔
      input.bytes = [] ∧ input.patience ≠ some 0 := by
  obtain ⟨bytes, patience⟩ := input
  rw [← splitLine_eq_nil_iff]
  rcases patience with _ | _ | n <;> simp [takeLine?]

/-- Behind the first line of a header the end of the input is an error. -/
theorem readHeaders_started_ne_none (found : Option Nat) (input : Input) :
    (readHeaders found true input).1 ≠ .ok none := by
  generalize hstarted : true = started
  fun_induction readHeaders found started input with
  | case3 _ _ _ _ _ hnot => exact absurd hstarted.symm hnot
  | case5 _ _ _ _ _ _ _ _ _ ih => exact ih rfl
  | _ => simp

/-- The stream ends in good order where an input is at its end before a frame. -/
theorem readPayload_eq_endOfStream_iff {input : Input} :
    (readPayload input).1 = .endOfStream ↔ input.bytes = [] ∧ input.patience ≠ some 0 := by
  rw [← Input.exists_takeLine?_nil_iff]
  rw [readPayload_eq_readBehind, readBehind_eq_endOfStream_iff, readHeaders]
  split
  · next h => simp [h]
  · next rest h => simp [h]
  · next b line rest h =>
      rw [h]
      simp only [Option.some.injEq, Prod.mk.injEq, reduceCtorEq, false_and, exists_false,
        iff_false]
      split
      · simp
      · exact readHeaders_started_ne_none _ _
      · simp

theorem readPayloads_add (first second : Nat) (input : Input) :
    readPayloads (first + second) input =
      let (readings, rest) := readPayloads first input
      let (later, rest) := readPayloads second rest
      (readings ++ later, rest) := by
  induction first generalizing input with
  | zero => rw [Nat.zero_add]; rfl
  | succ first ih =>
      rw [Nat.succ_add]
      simp only [readPayloads, ih, List.cons_append]

theorem readPayloads_frames {bodies : List Bytes}
    (h : ∀ body ∈ bodies, body.length ≤ lengthLimit) (rest : Bytes) :
    readPayloads bodies.length (Input.ofBytes (bodies.flatMap frame ++ rest)) =
      (bodies.map .payload, Input.ofBytes rest) := by
  induction bodies with
  | nil => rfl
  | cons body later ih =>
      have hbody := readPayload_frame (h body List.mem_cons_self) (later.flatMap frame ++ rest)
      have hlater := ih fun b hb => h b (List.mem_cons_of_mem body hb)
      rw [List.flatMap_cons, List.append_assoc, List.length_cons, readPayloads, hbody]
      simp only [hlater, List.map_cons]

/-- Bodies that were written are read back in order, byte for byte, and whatever follows
them is left unread.  If nothing follows, the stream is at its end.  A body is a string of
bytes that can be held, so there are at most `lengthLimit` bytes in it. -/
theorem readPayloads_writeFrames {bodies : List Bytes}
    (h : ∀ body ∈ bodies, body.length ≤ lengthLimit) (rest : Bytes) :
    ∃ output, writeFrames bodies .empty = (.ok (), output) ∧
      readPayloads bodies.length (Input.ofBytes (output.bytes ++ rest)) =
        (bodies.map .payload, Input.ofBytes rest) ∧
      readPayloads (bodies.length + 1) (Input.ofBytes output.bytes) =
        (bodies.map .payload ++ [.endOfStream], Input.ofBytes []) := by
  have hbytes : Output.bytes ⟨[] ++ bodies.flatMap frameCalls, none⟩ = bodies.flatMap frame :=
    flatten_frameCalls bodies
  refine ⟨_, writeFrames_of_unlimited bodies [], ?_, ?_⟩
  · rw [hbytes]
    exact readPayloads_frames h rest
  · have hread := readPayloads_frames h []
    rw [List.append_nil] at hread
    rw [hbytes, readPayloads_add, hread]
    simp only [readPayloads, readPayload_nil]

/-- An empty body, one that is a header, and one of any bytes, with half a header behind. -/
theorem readPayloads_writeFrames_headers :
    let bodies : List Bytes := [[], frameHeader 3, [0xFF, 0x0A, 0x0D, 0x00]]
    let rest := asciiBytes "Content-Length: 7"
    (∀ body ∈ bodies, body.length ≤ lengthLimit) ∧
      ∃ output, writeFrames bodies .empty = (.ok (), output) ∧
        readPayloads 3 (Input.ofBytes (output.bytes ++ rest)) =
          (bodies.map .payload, Input.ofBytes rest) ∧
        readPayloads 4 (Input.ofBytes output.bytes) =
          (bodies.map .payload ++ [.endOfStream], Input.ofBytes []) := by
  intro bodies rest
  have hbodies : ∀ body ∈ bodies, body.length ≤ lengthLimit := by decide +kernel
  exact ⟨hbodies, readPayloads_writeFrames hbodies rest⟩

end VibeScript
