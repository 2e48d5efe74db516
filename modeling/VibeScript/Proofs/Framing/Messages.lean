import VibeScript.Proofs.Framing.Stream
import VibeScript.Proofs.Json.RoundTrip

/-!
Messages in a stream of frames.

Messages are written one after the other, as long as each can be encoded.  An object that
was written as a message is read back as the same object (`decodeEnvelope_writeMessages`).
-/

namespace VibeScript

/-- Messages that can all be encoded are all written. -/
theorem writeMessages_of_encodable {messages : List Json}
    (h : ∀ message ∈ messages, message.Encodable) (writes : List Bytes) :
    ∃ bodies : List Bytes, messages.map encodeEnvelope = bodies.map .ok ∧
      writeMessages messages ⟨writes, none⟩ =
        (.ok (), ⟨writes ++ bodies.flatMap frameCalls, none⟩) := by
  induction messages generalizing writes with
  | nil => exact ⟨[], rfl, by simp [writeMessages]⟩
  | cons message rest ih =>
      obtain ⟨body, hbody⟩ := (encodeEnvelope_ok_iff message).mpr (h message List.mem_cons_self)
      obtain ⟨bodies, hbodies, hwrite⟩ :=
        ih (fun x hx => h x (List.mem_cons_of_mem message hx)) (writes ++ frameCalls body)
      refine ⟨body :: bodies, by rw [List.map_cons, hbody, hbodies, List.map_cons], ?_⟩
      rw [writeMessages, hbody]
      simp only [writeFrame_of_unlimited, hwrite, List.append_assoc, List.flatMap_cons]

/-- A message that cannot be encoded ends the writing. -/
theorem writeMessages_of_not_encodable {messages : List Json} {message : Json}
    (hmem : message ∈ messages) (h : ¬ message.Encodable) (writes : List Bytes) :
    ∃ reason output, writeMessages messages ⟨writes, none⟩ = (.error (.failed reason), output) := by
  induction messages generalizing writes with
  | nil => cases hmem
  | cons first rest ih =>
      rw [writeMessages]
      cases hencode : encodeEnvelope first with
      | error e => exact ⟨_, _, rfl⟩
      | ok body =>
          simp only [writeFrame_of_unlimited]
          rcases List.mem_cons.mp hmem with rfl | hmem
          · exact absurd ((encodeEnvelope_ok_iff message).mp ⟨body, hencode⟩) h
          · exact ih hmem _

/-- An object that was written as a message is read back: the same members in the same
order, with every integer exact, and nothing behind its frame is touched.  The text of the
object can be held, so it has at most `lengthLimit` bytes. -/
theorem decodeEnvelope_writeMessages {members : Members} (h : (Json.obj members).Exact)
    (hdepth : (Json.obj members).depth ≤ 200)
    (hlength : (Json.obj members).render.utf8Length ≤ lengthLimit) (rest : Bytes) :
    ∃ output body, writeMessages [.obj members] .empty = (.ok (), output) ∧
      readPayload (Input.ofBytes (output.bytes ++ rest)) = (.payload body, Input.ofBytes rest) ∧
      decodeEnvelope body = .ok (some members) := by
  have hnesting : (Json.obj members).depth ≤ nestingLimit := Nat.le_trans hdepth (by decide)
  obtain ⟨hencode, hdecode⟩ := decodeEnvelope_encodeEnvelope h hnesting
  have hwrite : writeMessages [.obj members] .empty = (.ok (),
      ⟨frameCalls ((Json.obj members).render.flatMap CodePoint.utf8), none⟩) := by
    rw [writeMessages, hencode]
    simp only [Output.empty, writeFrame_of_unlimited, writeMessages, List.nil_append]
  refine ⟨_, _, hwrite, ?_, hdecode⟩
  have hbytes := flatten_frameCalls [(Json.obj members).render.flatMap CodePoint.utf8]
  simp only [List.flatMap_cons, List.flatMap_nil, List.append_nil] at hbytes
  rw [Output.bytes, hbytes]
  exact readPayload_frame hlength rest

/-- An object with an escape, characters of one to four bytes, integers of either sign and
values inside values. -/
theorem decodeEnvelope_writeMessages_nested :
    let members : Members := [("id", .int (-12345678901234567890)), ("\"\\\n\t\x01", .null),
      ("é€😀", .arr [.obj [("a", .arr []), ("", .str "\x7b\x1f")], .bool true, .int 0])]
    (Json.obj members).Exact ∧ (Json.obj members).depth ≤ 200 ∧
      (Json.obj members).render.utf8Length ≤ lengthLimit ∧
      ∃ output body, writeMessages [.obj members] .empty = (.ok (), output) ∧
        readPayload (Input.ofBytes (output.bytes ++ [0x43])) =
          (.payload body, Input.ofBytes [0x43]) ∧
        decodeEnvelope body = .ok (some members) := by
  intro members
  have hexact : (Json.obj members).Exact := by
    simp only [members, Json.Exact, membersExact, elementsExact]
    decide +kernel
  have hdepth : (Json.obj members).depth ≤ 200 := by decide
  have hlength : (Json.obj members).render.utf8Length ≤ lengthLimit := by decide +kernel
  exact ⟨hexact, hdepth, hlength, decodeEnvelope_writeMessages hexact hdepth hlength [0x43]⟩

end VibeScript
