import VibeScript.Proofs.Framing.Grammar
import VibeScript.Proofs.Framing.Stream

/-!
How a stream is refused.

A stream that cannot be read breaks the framing, and the error says so, except where a length is
out of range (`readPayload_failsOtherwise_iff`): digits that are too many for a number, or a
number that is too large for a length.
-/

namespace VibeScript

/-- A line with a number for the length that has too many digits. -/
def IsOverlong (line : Bytes) : Prop :=
  ∃ value sign digits, NamesLength line value ∧ Padded (sign ++ digits) value ∧
    (sign = [] ∨ sign = [43] ∨ sign = [45]) ∧ (∀ b ∈ digits, 48 ≤ b ∧ b ≤ 57) ∧
    digitLimit < digits.length

/-- A stream with a length that is out of range.  Behind lines that the reader goes on with, the
next line has too many digits, or it ends the header of a body that is too long. -/
def LengthOutOfRange (stream : Bytes) : Prop :=
  ∃ header found line behind, stream = List.flatten header ++ (line ++ behind) ∧
    (∀ line ∈ header, IsHeaderLine line) ∧ LeadsTo none header found ∧
    IsFirstLine line behind ∧
    (IsOverlong line ∨ IsEmptyLine line ∧ ∃ n, found = some n ∧ lengthLimit < n)

section Steps

variable {found : Option Nat} {line : Bytes}

theorem isOverlong_iff :
    IsOverlong line ↔ ∃ v e, headerLine line = .contentLength v ∧
      contentLength v = .error (.tooManyDigits e) := by
  simp only [IsOverlong, headerLine_eq_contentLength_iff]
  constructor
  · rintro ⟨value, sign, digits, hvalue, hpadded, hsign, hdigits, hlong⟩
    exact ⟨_, _, ⟨value, hvalue, rfl⟩, contentLength_strip_eq_tooManyDigits_iff.mpr
      ⟨sign, digits, hpadded, hsign, hdigits, hlong, rfl⟩⟩
  · rintro ⟨_, e, ⟨value, hvalue, rfl⟩, hlength⟩
    obtain ⟨sign, digits, hpadded, hsign, hdigits, hlong, _⟩ :=
      contentLength_strip_eq_tooManyDigits_iff.mp hlength
    exact ⟨value, sign, digits, hvalue, hpadded, hsign, hdigits, hlong⟩

/-- A line that has too many digits stops the reader, whatever it knows. -/
theorem exists_headerStep_tooManyDigits_iff :
    (∃ e, headerStep found line = .failed (.tooManyDigits e)) ↔ IsOverlong line := by
  rw [isOverlong_iff]
  unfold headerStep
  cases headerLine line with
  | blank => cases found <;> simp
  | contentLength v => cases hread : contentLength v <;> simp [hread]
  | other => simp

/-- A line that stops the reader breaks the framing, or it has too many digits. -/
theorem headerStep_failed_cases {e : ReadError} (h : headerStep found line = .failed e) :
    (∃ f, e = .framing f) ∨ IsOverlong line := by
  by_cases hlong : ∃ d, e = .tooManyDigits d
  · obtain ⟨d, rfl⟩ := hlong
    exact Or.inr (exists_headerStep_tooManyDigits_iff.mp ⟨d, h⟩)
  · left
    unfold headerStep at h
    split at h
    · split at h <;> cases h
      exact ⟨_, rfl⟩
    · split at h
      · next hread =>
          cases h
          exact ⟨_, (contentLength_error_cases hread).resolve_right hlong⟩
      · cases h
    · cases h

end Steps

section Readings

/-- A reading that fails with something else than a framing error. -/
def Reading.FailsOtherwise (reading : Reading) : Prop :=
  ∃ e, reading = .failed e ∧ ∀ f, e ≠ .framing f

theorem not_failsOtherwise_iff {reading : Reading} :
    ¬ reading.FailsOtherwise ↔ (∃ body, reading = .payload body) ∨ reading = .endOfStream ∨
      ∃ f, reading = .failed (.framing f) := by
  unfold Reading.FailsOtherwise
  cases reading <;> simp

theorem readBehind_failsOtherwise_iff {result : Except ReadError (Option Nat)} {rest : Bytes} :
    (readBehind result rest).FailsOtherwise ↔
      (∃ e, result = .error e ∧ ∀ f, e ≠ .framing f) ∨
      ∃ n, result = .ok (some n) ∧ lengthLimit < n := by
  unfold Reading.FailsOtherwise readBehind
  rcases result with e | _ | n
  · simp
  · simp
  · by_cases hlimit : lengthLimit < n
    · simp [hlimit]
    · simp only [if_neg hlimit]
      split <;> simp [hlimit]

theorem readBehind_eq_interrupted_iff {result : Except ReadError (Option Nat)} {rest : Bytes} :
    readBehind result rest = .failed .interrupted ↔ result = .error .interrupted := by
  unfold readBehind
  split
  · simp
  · simp
  · split
    · simp
    · split <;> simp

/-- A reader fails with something else than a framing error where a length is out of range, and
nowhere else. -/
theorem readPayload_failsOtherwise_iff (stream : Bytes) :
    (readPayload (Input.ofBytes stream)).1.FailsOtherwise ↔ LengthOutOfRange stream := by
  rw [readPayload_eq_readBehind, readBehind_failsOtherwise_iff]
  constructor
  · intro h
    rcases readHeaders_cases none false stream with hend | hend |
      ⟨header, found, line, behind, result, hstream, hheader, hlead, hfirst, hresult, hread⟩
    · simp [hend] at h
    · simp [hend] at h
    · refine ⟨header, found, line, behind, hstream, hheader, hlead, hfirst, ?_⟩
      rw [hread] at h
      rcases h with ⟨e, rfl, hother⟩ | ⟨n, rfl, hlimit⟩
      · have hstep := HeaderStep.result?_eq_error_iff.mp hresult
        exact Or.inl ((headerStep_failed_cases hstep).resolve_left fun ⟨f, hf⟩ => hother f hf)
      · have hstep := HeaderStep.result?_eq_ok_iff.mp hresult
        obtain ⟨hempty, hfound⟩ := headerStep_eq_finished_iff.mp hstep
        exact Or.inr ⟨hempty, n, hfound, hlimit⟩
  · rintro ⟨header, found, line, behind, rfl, hheader, hlead, hfirst, hrange⟩
    rcases hrange with hlong | ⟨hempty, n, rfl, hlimit⟩
    · obtain ⟨e, hstep⟩ := exists_headerStep_tooManyDigits_iff.mpr hlong
      rw [readHeaders_of_result hlead hheader hfirst
        (HeaderStep.result?_eq_error_iff.mpr hstep) false]
      exact Or.inl ⟨_, rfl, by simp⟩
    · have hstep : headerStep (some n) line = .finished n :=
        headerStep_eq_finished_iff.mpr ⟨hempty, rfl⟩
      rw [readHeaders_of_result hlead hheader hfirst
        (HeaderStep.result?_eq_ok_iff.mpr hstep) false]
      exact Or.inr ⟨n, rfl, hlimit⟩

/-- A stream whose first line gives the length with digits that are too many for a number. -/
theorem readPayload_of_many_digits {digits : Bytes} (hdigits : ∀ b ∈ digits, 48 ≤ b ∧ b ≤ 57)
    (hmany : digitLimit < digits.length) (behind : Bytes) :
    (readPayload (Input.ofBytes
      (asciiBytes "Content-Length: " ++ (digits ++ [13, 10]) ++ behind))).1 =
        .failed (.tooManyDigits ⟨digits.length⟩) := by
  have hvalue : NamesLength (asciiBytes "Content-Length: " ++ (digits ++ [13, 10]))
      (32 :: (digits ++ [13, 10])) :=
    ⟨asciiBytes "Content-Length", asciiBytes "Content-Length", rfl, by decide,
      ⟨[], [], by simp, by simp⟩, by decide⟩
  have hlength : contentLength (strip (headerText (32 :: (digits ++ [13, 10])))) =
      .error (.tooManyDigits ⟨digits.length⟩) :=
    contentLength_strip_eq_tooManyDigits_iff.mpr
      ⟨[], digits, ⟨[32], [13, 10], rfl, by simp [IsBlankByte]⟩, Or.inl rfl, hdigits, hmany, rfl⟩
  have hfirst : IsFirstLine (asciiBytes "Content-Length: " ++ (digits ++ [13, 10])) behind := by
    refine Or.inl ⟨asciiBytes "Content-Length: " ++ (digits ++ [13]), by simp, ?_⟩
    intro hfeed
    rcases List.mem_append.mp hfeed with hname | hrest
    · exact absurd hname (by decide)
    · rcases List.mem_append.mp hrest with hdigit | hreturn
      · exact absurd (hdigits 10 hdigit) (by decide)
      · exact absurd hreturn (by decide)
  have hread := hfirst.readHeaders_append none false
  rw [headerStep, headerLine_eq_contentLength_iff.mpr ⟨_, hvalue, rfl⟩] at hread
  simp only [hlength] at hread
  exact readPayload_of_error (congrArg Prod.fst hread)

/-- Only patience that ends interrupts a reader. -/
theorem readPayload_ne_interrupted (stream : Bytes) :
    (readPayload (Input.ofBytes stream)).1 ≠ .failed .interrupted := by
  intro hfailed
  have hheaders : (readHeaders none false (Input.ofBytes stream)).1 = .error .interrupted := by
    rwa [readPayload_eq_readBehind, readBehind_eq_interrupted_iff] at hfailed
  rcases readHeaders_cases none false stream with hend | hend |
    ⟨header, found, line, behind, result, _, _, _, _, hresult, hread⟩
  · simp [hheaders] at hend
  · simp [hheaders] at hend
  · rw [hread] at hheaders
    subst hheaders
    have hstep := HeaderStep.result?_eq_error_iff.mp hresult
    rcases headerStep_failed_cases hstep with ⟨f, hf⟩ | hlong
    · cases hf
    · obtain ⟨e, hdigits⟩ := exists_headerStep_tooManyDigits_iff.mpr hlong
      rw [hstep] at hdigits
      cases hdigits

end Readings

end VibeScript
