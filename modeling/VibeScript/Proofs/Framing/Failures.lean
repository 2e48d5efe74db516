import VibeScript.Proofs.Framing.Stream

/-!
Calls that fail.

A writer makes the same calls whether they will fail or not: with fewer calls allowed, it
makes those and stops at the next (`Calls`).  A reader asks for the same lines whether it
will be interrupted or not: with patience for fewer, it is interrupted (`AsksFor`).
-/

namespace VibeScript

/-- Write with a writer and then with another one, unless the first fails. -/
def writeThen (first second : Output → Except Ending Unit × Output) (output : Output) :
    Except Ending Unit × Output :=
  match first output with
  | (.error ending, output) => (.error ending, output)
  | (.ok (), output) => second output

/-- A writer that makes these calls and has this result if none of them fails.  Of the calls
it makes as many as are allowed. -/
structure Calls (write : Output → Except Ending Unit × Output) (result : Except Ending Unit)
    (calls : List Bytes) : Prop where
  unlimited : ∀ writes, write ⟨writes, none⟩ = (result, ⟨writes ++ calls, none⟩)
  enough : ∀ writes n,
    write ⟨writes, some (calls.length + n)⟩ = (result, ⟨writes ++ calls, some n⟩)
  short : ∀ writes, ∀ n < calls.length,
    write ⟨writes, some n⟩ =
      (.error (.failed writeFailed), ⟨writes ++ calls.take n, some 0⟩)

namespace Calls

/-- A writer that makes no call cannot fail in one. -/
theorem nothing (result : Except Ending Unit) :
    Calls (fun output => (result, output)) result [] where
  unlimited := by simp
  enough := by simp
  short := by simp

theorem andThen {first second : Output → Except Ending Unit × Output}
    {result : Except Ending Unit} {calls later : List Bytes} (hfirst : Calls first (.ok ()) calls)
    (hsecond : Calls second result later) :
    Calls (writeThen first second) result (calls ++ later) where
  unlimited writes := by
    simp only [writeThen, hfirst.unlimited, hsecond.unlimited, List.append_assoc]
  enough writes n := by
    rw [List.length_append, Nat.add_assoc]
    simp only [writeThen, hfirst.enough, hsecond.enough, List.append_assoc]
  short writes n hn := by
    by_cases hshort : n < calls.length
    · simp only [writeThen, hfirst.short writes n hshort,
        List.take_append_of_le_length (Nat.le_of_lt hshort)]
    · obtain ⟨m, rfl⟩ := Nat.exists_eq_add_of_le (Nat.not_lt.mp hshort)
      have hm : m < later.length := by
        rw [List.length_append] at hn
        omega
      simp only [writeThen, hfirst.enough, hsecond.short _ m hm, List.take_length_add_append,
        List.append_assoc]

end Calls

theorem calls_writeFrame (body : Bytes) : Calls (writeFrame body) (.ok ()) (frameCalls body) where
  unlimited := writeFrame_of_unlimited body
  enough writes n := by
    simp [frameCalls, writeFrame, Output.write?, Nat.add_comm _ n]
  short writes n hn := by
    obtain rfl | rfl : n = 0 ∨ n = 1 := by
      change n < 2 at hn
      omega
    · simp [writeFrame, Output.write?]
    · simp [writeFrame, Output.write?, frameCalls]

/-- Which calls a list of messages takes does not depend on what was written before. -/
theorem exists_calls_writeMessages (messages : List Json) :
    ∃ result calls, Calls (writeMessages messages) result calls := by
  induction messages with
  | nil => exact ⟨.ok (), [], .nothing _⟩
  | cons message rest ih =>
      cases hencode : encodeEnvelope message with
      | error e =>
          refine ⟨.error (.failed e.message), [], ?_⟩
          have hwrite : writeMessages (message :: rest) =
              fun output => (.error (.failed e.message), output) := by
            funext output
            rw [writeMessages, hencode]
          exact hwrite ▸ .nothing _
      | ok body =>
          obtain ⟨result, calls, hcalls⟩ := ih
          refine ⟨result, frameCalls body ++ calls, ?_⟩
          have hwrite : writeMessages (message :: rest) =
              writeThen (writeFrame body) (writeMessages rest) := by
            funext output
            rw [writeMessages, hencode]
            rfl
          exact hwrite ▸ (calls_writeFrame body).andThen hcalls

theorem bytes_of_writeFrame {body : Bytes} {output written : Output}
    (h : writeFrame body output = (.ok (), written)) :
    written.bytes = output.bytes ++ frame body := by
  unfold writeFrame at h
  split at h
  · cases h
  · next headed hheader =>
      split at h
      · cases h
      · next hbody =>
          cases h
          rw [Output.bytes_of_write? hbody, Output.bytes_of_write? hheader, List.append_assoc,
            frame]

/-- What messages that were all written have added to an output is their frames. -/
theorem exists_bodies_of_writeMessages {messages : List Json} {output written : Output}
    (h : writeMessages messages output = (.ok (), written)) :
    ∃ bodies : List Bytes, messages.map encodeEnvelope = bodies.map .ok ∧
      written.bytes = output.bytes ++ bodies.flatMap frame := by
  induction messages generalizing output with
  | nil =>
      cases h
      exact ⟨[], rfl, by simp⟩
  | cons message rest ih =>
      unfold writeMessages at h
      split at h
      · cases h
      · next body hencode =>
          split at h
          · cases h
          · next framed hframe =>
              obtain ⟨bodies, hbodies, hbytes⟩ := ih h
              refine ⟨body :: bodies, by rw [List.map_cons, hencode, hbodies, List.map_cons], ?_⟩
              rw [hbytes, bytes_of_writeFrame hframe, List.flatMap_cons, List.append_assoc]

section Reading

variable {α : Type}

/-- A reader that asks for so many lines of these bytes.  With patience for them it reads
what it reads with patience for all lines, and with less it is interrupted. -/
structure AsksFor (read : Input → α × Input) (interrupted : α) (bytes : Bytes) (lines : Nat) :
    Prop where
  unlimited : (read (.ofBytes bytes)).2.patience = none
  enough : ∀ n, read ⟨bytes, some (lines + n)⟩ =
    ((read (.ofBytes bytes)).1, ⟨(read (.ofBytes bytes)).2.bytes, some n⟩)
  short : ∀ n < lines, (read ⟨bytes, some n⟩).1 = interrupted

namespace AsksFor

variable {read more : Input → α × Input} {interrupted : α} {bytes : Bytes} {lines : Nat}

/-- A reader that takes no line cannot be interrupted. -/
theorem nothing (result : α) : AsksFor (fun input => (result, input)) interrupted bytes 0 where
  unlimited := rfl
  enough n := by rw [Nat.zero_add]; rfl
  short := by simp

/-- A reader that takes a line and goes on behind it. -/
theorem behindLine (hmore : AsksFor more interrupted (splitLine bytes).2 lines)
    (hread : ∀ patience left, (⟨bytes, patience⟩ : Input).takeLine? =
      some ((splitLine bytes).1, left) → read ⟨bytes, patience⟩ = more left)
    (hzero : (read ⟨bytes, some 0⟩).1 = interrupted) :
    AsksFor read interrupted bytes (lines + 1) := by
  have hfree : read (.ofBytes bytes) = more (.ofBytes (splitLine bytes).2) := hread none _ rfl
  refine ⟨hfree ▸ hmore.unlimited, fun n => ?_, fun n hn => ?_⟩
  · rw [hfree, ← hmore.enough, Nat.add_right_comm]
    exact hread _ _ rfl
  · cases n with
    | zero => exact hzero
    | succ n =>
        rw [hread _ _ rfl]
        exact hmore.short n (Nat.lt_of_succ_lt_succ hn)

end AsksFor

theorem readHeaders_of_impatient (bytes : Bytes) (found : Option Nat) (started : Bool) :
    readHeaders found started ⟨bytes, some 0⟩ = (.error .interrupted, ⟨bytes, some 0⟩) := by
  rw [readHeaders]
  rfl

theorem exists_asksFor_readHeaders (found : Option Nat) (started : Bool) (bytes : Bytes) :
    ∃ lines, AsksFor (readHeaders found started) (.error .interrupted) bytes lines := by
  have hzero := congrArg Prod.fst (readHeaders_of_impatient bytes found started)
  cases hline : (splitLine bytes).1 with
  | nil =>
      have hread : ∀ patience left, (⟨bytes, patience⟩ : Input).takeLine? =
          some ((splitLine bytes).1, left) → _ := fun patience left htake =>
        readHeaders_of_end (hline ▸ htake) found started
      exact ⟨1, .behindLine (.nothing _) hread hzero⟩
  | cons b line =>
      have hread : ∀ patience left, (⟨bytes, patience⟩ : Input).takeLine? =
          some ((splitLine bytes).1, left) → _ := fun patience left htake =>
        readHeaders_of_line (hline ▸ htake) (List.cons_ne_nil b line) found started
      cases hstep : headerStep found (b :: line) with
      | finished n =>
          simp only [hstep] at hread
          exact ⟨1, .behindLine (.nothing _) hread hzero⟩
      | failed e =>
          simp only [hstep] at hread
          exact ⟨1, .behindLine (.nothing _) hread hzero⟩
      | next found' =>
          simp only [hstep] at hread
          obtain ⟨lines, hmore⟩ := exists_asksFor_readHeaders found' true (splitLine bytes).2
          exact ⟨lines + 1, .behindLine hmore hread hzero⟩
termination_by bytes.length
decreasing_by
  have hlength := congrArg List.length (splitLine_append bytes)
  rw [hline, List.length_append, List.length_cons] at hlength
  omega

theorem exists_asksFor_readPayload (bytes : Bytes) :
    ∃ lines, AsksFor readPayload (.failed .interrupted) bytes lines := by
  obtain ⟨lines, hheaders⟩ := exists_asksFor_readHeaders none false bytes
  refine ⟨lines, ⟨?_, ?_, ?_⟩⟩
  · have hpatience := hheaders.unlimited
    unfold readPayload
    split
    · next h => rwa [h] at hpatience
    · next h => rwa [h] at hpatience
    · next n rest h =>
        rw [h] at hpatience
        simp only
        split
        · exact hpatience
        · split <;> exact hpatience
  · intro n
    rw [readPayload, hheaders.enough, readPayload]
    rcases readHeaders none false (Input.ofBytes bytes) with ⟨e | _ | length, rest⟩
    · rfl
    · rfl
    · simp only
      split
      · rfl
      · split <;> rfl
  · intro n hn
    have hshort := hheaders.short n hn
    unfold readPayload
    split <;> next h => simp_all

end Reading

end VibeScript
