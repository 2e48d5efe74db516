import VibeScript.Proofs.Framing.Refusals

/-!
Streams that are cut off.

What is left of a stream of frames is read as the bodies that lie whole in it.  Where it ends
inside a frame, nothing is made of the part that is there, and the error says that the framing is
broken (`readStream_writeFrames_cut`).
-/

namespace VibeScript

/-- Read frames until the stream ends or cannot be read on: the bodies, and the error if there is
one. -/
def readStream (input : Input) : List Bytes × Option ReadError :=
  match _h : readPayload input with
  | (.endOfStream, _) => ([], none)
  | (.failed e, _) => ([], some e)
  | (.payload body, rest) =>
      let (bodies, error) := readStream rest
      (body :: bodies, error)
termination_by input.bytes.length
decreasing_by exact readPayload_length _h

section Streams

variable {input rest : Input} {body : Bytes}

theorem readStream_of_payload (h : readPayload input = (.payload body, rest)) :
    readStream input = (body :: (readStream rest).1, (readStream rest).2) := by
  rw [readStream]
  split
  · next hread => simp [h] at hread
  · next hread => simp [h] at hread
  · next hread =>
      rw [h] at hread
      cases hread
      rfl

theorem readStream_of_failed {e : ReadError} (h : (readPayload input).1 = .failed e) :
    readStream input = ([], some e) := by
  rw [readStream]
  split
  · next hread => simp [hread] at h
  · next hread =>
      rw [hread] at h
      cases h
      rfl
  · next hread => simp [hread] at h

theorem readStream_nil : readStream (Input.ofBytes []) = ([], none) := by
  rw [readStream, readPayload_nil]

/-- The bodies of frames are read one after the other, and then what follows them. -/
theorem readStream_frames {bodies : List Bytes} (h : ∀ body ∈ bodies, body.length ≤ lengthLimit)
    (rest : Bytes) :
    readStream (Input.ofBytes (bodies.flatMap frame ++ rest)) =
      (bodies ++ (readStream (Input.ofBytes rest)).1, (readStream (Input.ofBytes rest)).2) := by
  induction bodies with
  | nil => rfl
  | cons body later ih =>
      obtain ⟨hbody, hlater⟩ := List.forall_mem_cons.mp h
      rw [List.flatMap_cons, List.append_assoc,
        readStream_of_payload (readPayload_frame hbody _), ih hlater]
      rfl

end Streams

section Parts

variable {body part : Bytes}

theorem frame_eq (body : Bytes) :
    frame body = asciiBytes (lengthLine body.length) ++ 10 :: 13 :: 10 :: body := by
  rw [frame, frameHeader_eq, List.append_assoc]
  rfl

/-- Where a frame can be cut: in the line with the length, right behind it, inside the empty line,
or inside the body. -/
theorem part_cases (hpart : part <+: frame body) (hproper : part ≠ frame body) :
    part <+: asciiBytes (lengthLine body.length) ∨
    ∃ behind, part = asciiBytes (lengthLine body.length) ++ 10 :: behind ∧
      (behind = [] ∨ behind = [13] ∨
        ∃ got : Bytes, behind = 13 :: 10 :: got ∧ got.length < body.length) := by
  rw [frame_eq] at hpart hproper
  rcases List.prefix_or_prefix_of_prefix hpart (List.prefix_append _ _) with hline | ⟨_, rfl⟩
  · exact Or.inl hline
  · rcases List.prefix_cons_iff.mp ((List.prefix_append_right_inj _).mp hpart) with
      rfl | ⟨behind, rfl, hbehind⟩
    · exact Or.inl (by simp)
    · refine Or.inr ⟨behind, rfl, ?_⟩
      rcases List.prefix_cons_iff.mp hbehind with rfl | ⟨rest, rfl, hrest⟩
      · exact Or.inl rfl
      · rcases List.prefix_cons_iff.mp hrest with rfl | ⟨got, rfl, hgot⟩
        · exact Or.inr (Or.inl rfl)
        · refine Or.inr (Or.inr ⟨got, rfl, Nat.lt_of_not_le fun hle => hproper ?_⟩)
          rw [hgot.eq_of_length_le hle]

theorem IsOverlong.digitLimit_lt_length {line : Bytes} (h : IsOverlong line) :
    digitLimit < line.length := by
  obtain ⟨value, sign, digits, ⟨name, core, rfl, _⟩, ⟨front, back, rfl, _⟩, _, _, hlong⟩ := h
  simp only [List.length_append, List.length_cons]
  omega

/-- A header that ends in its first line is broken, unless that line is very long. -/
theorem readHeaders_of_short_line (hfeed : 10 ∉ part) (hne : part ≠ [])
    (hshort : part.length ≤ digitLimit) :
    ∃ f, (readHeaders none false (Input.ofBytes part)).1 = .error (.framing f) := by
  have hfirst : IsFirstLine part [] := Or.inr ⟨hne, hfeed, rfl⟩
  have hread := hfirst.readHeaders_append none false
  rw [List.append_nil] at hread
  rw [hread]
  cases hstep : headerStep none part with
  | finished n => cases (headerStep_eq_finished_iff.mp hstep).2
  | next later => exact ⟨_, congrArg Prod.fst (readHeaders_of_end rfl later true)⟩
  | failed e =>
      rcases headerStep_failed_cases hstep with ⟨f, rfl⟩ | hlong
      · exact ⟨f, rfl⟩
      · exact absurd hlong.digitLimit_lt_length (Nat.not_lt.mpr hshort)

theorem length_asciiBytes {t : Text} (h : IsAscii t) : (asciiBytes t).length = t.length := by
  rw [← length_headerText, headerText_asciiBytes h]

/-- The line with the length is short. -/
theorem length_lengthLine_le (h : body.length ≤ lengthLimit) :
    (asciiBytes (lengthLine body.length)).length ≤ digitLimit := by
  have hfew := length_decimal_of_le h
  have hlength : (lengthLine body.length).length = 16 + (decimal body.length).length + 1 := by
    simp only [lengthLine, List.length_append]
    rfl
  rw [length_asciiBytes (isAscii_lengthLine _), hlength]
  exact Nat.le_trans (by omega) (show 36 ≤ digitLimit by decide)

/-- A body that is shorter than its header says is broken framing. -/
theorem readPayload_of_short_body {n : Nat} {got : Bytes}
    (hheaders : readHeaders none false (Input.ofBytes part) = (.ok (some n), Input.ofBytes got))
    (hlimit : n ≤ lengthLimit) (hshort : got.length < n) :
    (readPayload (Input.ofBytes part)).1 = .failed (.framing (.endInBody n got.length)) := by
  rw [readPayload_eq_readBehind, hheaders]
  simp only [readBehind, Input.ofBytes, if_neg (Nat.not_lt.mpr hlimit),
    List.take_of_length_le (Nat.le_of_lt hshort), if_pos hshort]

/-- A part of a frame has a broken header, or it has the whole header and not the whole body.  The
line feed of the empty line can be missing at the end of the stream. -/
theorem readHeaders_of_part (hbody : body.length ≤ lengthLimit) (hpart : part <+: frame body)
    (hne : part ≠ []) (hproper : part ≠ frame body) :
    (∃ f, (readHeaders none false (Input.ofBytes part)).1 = .error (.framing f)) ∨
    ∃ got : Bytes, (got = [] ∨ got.length < body.length) ∧
      readHeaders none false (Input.ofBytes part) =
        (.ok (some body.length), Input.ofBytes got) := by
  rcases part_cases hpart hproper with hline | ⟨behind, rfl, hbehind⟩
  · have hfeed : 10 ∉ part := fun hmem => lineFeed_not_mem_asciiBytes
      (isAscii_lengthLine _) (newline_not_mem_lengthLine _) (hline.subset hmem)
    exact Or.inl (readHeaders_of_short_line hfeed hne
      (Nat.le_trans hline.length_le (length_lengthLine_le hbody)))
  · have hdigits : (decimal body.length).length ≤ digitLimit :=
      Nat.le_trans (length_decimal_of_le hbody) (by decide)
    have hblank {line : Bytes} (hline : IsEmptyLine line) :
        headerStep (some body.length) line = .finished body.length :=
      headerStep_eq_finished_iff.mpr ⟨hline, rfl⟩
    rw [readHeaders_lengthLine, if_pos hdigits]
    rcases hbehind with rfl | rfl | ⟨got, rfl, hgot⟩
    · exact Or.inl ⟨_, congrArg Prod.fst (readHeaders_of_end rfl _ true)⟩
    · have hfirst : IsFirstLine [13] [] := Or.inr ⟨by simp, by decide, rfl⟩
      have hread := hfirst.readHeaders_append (some body.length) true
      rw [hblank (by simp [IsEmptyLine]), List.append_nil] at hread
      exact Or.inr ⟨[], Or.inl rfl, hread⟩
    · have hfirst : IsFirstLine [13, 10] got := Or.inl ⟨[13], rfl, by decide⟩
      have hread := hfirst.readHeaders_append (some body.length) true
      rw [hblank (by simp [IsEmptyLine])] at hread
      exact Or.inr ⟨got, Or.inr hgot, hread⟩

/-- A part of a frame is broken framing, unless it is nearly the whole frame of an empty body. -/
theorem readPayload_of_part (hbody : body.length ≤ lengthLimit) (hpart : part <+: frame body)
    (hne : part ≠ []) (hproper : part ≠ frame body) :
    (∃ f, (readPayload (Input.ofBytes part)).1 = .failed (.framing f)) ∨
      body = [] ∧ readPayload (Input.ofBytes part) = (.payload [], Input.ofBytes []) := by
  rcases readHeaders_of_part hbody hpart hne hproper with ⟨f, hf⟩ | ⟨got, hgot, hheaders⟩
  · exact Or.inl ⟨f, readPayload_of_error hf⟩
  · by_cases hshort : got.length < body.length
    · exact Or.inl ⟨_, readPayload_of_short_body hheaders hbody hshort⟩
    · obtain rfl : got = [] := hgot.resolve_right hshort
      obtain rfl : body = [] := List.length_eq_zero_iff.mp (by simpa using hshort)
      exact Or.inr ⟨rfl, readPayload_eq_payload_iff.mpr ⟨hbody, hheaders⟩⟩

/-- What is read from a part of a frame. -/
theorem readStream_of_part (hbody : body.length ≤ lengthLimit) (hpart : part <+: frame body)
    (hne : part ≠ []) (hproper : part ≠ frame body) :
    (∃ f, readStream (Input.ofBytes part) = ([], some (.framing f))) ∨
      body = [] ∧ readStream (Input.ofBytes part) = ([[]], none) := by
  rcases readPayload_of_part hbody hpart hne hproper with ⟨f, hf⟩ | ⟨hnil, hread⟩
  · exact Or.inl ⟨f, readStream_of_failed hf⟩
  · refine Or.inr ⟨hnil, ?_⟩
    rw [readStream_of_payload hread, readStream_nil]

end Parts

/-- A stream of frames is cut between two of them or inside one. -/
theorem exists_cut {bodies : List Bytes} {cut : Bytes} (h : cut <+: bodies.flatMap frame) :
    ∃ before after part, bodies = before ++ after ∧ cut = before.flatMap frame ++ part ∧
      (part = [] ∨ ∃ body later, after = body :: later ∧ part <+: frame body ∧ part ≠ [] ∧
        part ≠ frame body) := by
  induction bodies generalizing cut with
  | nil => exact ⟨[], [], [], rfl, List.prefix_nil.mp h, Or.inl rfl⟩
  | cons body later ih =>
      rw [List.flatMap_cons] at h
      rcases List.prefix_or_prefix_of_prefix h (List.prefix_append _ _) with hpart | ⟨rest, rfl⟩
      · by_cases hnil : cut = []
        · exact ⟨[], body :: later, [], rfl, hnil, Or.inl rfl⟩
        · by_cases hwhole : cut = frame body
          · exact ⟨[body], later, [], rfl, by simp [hwhole], Or.inl rfl⟩
          · exact ⟨[], body :: later, cut, rfl, rfl, Or.inr ⟨body, later, rfl, hpart, hnil, hwhole⟩⟩
      · obtain ⟨before, after, part, rfl, rfl, hcut⟩ := ih ((List.prefix_append_right_inj _).mp h)
        exact ⟨body :: before, after, part, rfl, by simp, hcut⟩

/-- What is written for bodies can be cut anywhere: the bodies that are read are the first ones,
and then the stream ends or breaks the framing.  It breaks the framing where it is cut inside the
frame of a body that is not empty, and then all bodies in front of that one have been read. -/
theorem readStream_writeFrames_cut {bodies : List Bytes}
    (h : ∀ body ∈ bodies, body.length ≤ lengthLimit) :
    ∃ output, writeFrames bodies .empty = (.ok (), output) ∧ ∀ cut, cut <+: output.bytes →
      (readStream (Input.ofBytes cut)).1 <+: bodies ∧
      ((readStream (Input.ofBytes cut)).2 = none ∨
        ∃ f, (readStream (Input.ofBytes cut)).2 = some (.framing f)) ∧
      ∀ before body after part, bodies = before ++ body :: after → body ≠ [] →
        cut = before.flatMap frame ++ part → part <+: frame body → part ≠ [] →
        part ≠ frame body →
        ∃ f, readStream (Input.ofBytes cut) = (before, some (.framing f)) := by
  have hbytes : Output.bytes ⟨[] ++ bodies.flatMap frameCalls, none⟩ = bodies.flatMap frame :=
    flatten_frameCalls bodies
  refine ⟨_, writeFrames_of_unlimited bodies [], fun cut hcut => ?_⟩
  rw [hbytes] at hcut
  have hread : (readStream (Input.ofBytes cut)).1 <+: bodies ∧
      ((readStream (Input.ofBytes cut)).2 = none ∨
        ∃ f, (readStream (Input.ofBytes cut)).2 = some (.framing f)) := by
    obtain ⟨before, after, part, rfl, rfl, hpart⟩ := exists_cut hcut
    have hbefore : ∀ body ∈ before, body.length ≤ lengthLimit :=
      fun body hbody => h body (List.mem_append_left _ hbody)
    rw [readStream_frames hbefore]
    rcases hpart with rfl | ⟨body, later, rfl, hpart, hne, hproper⟩
    · rw [readStream_nil]
      exact ⟨by simp, Or.inl rfl⟩
    · rcases readStream_of_part (h body (by simp)) hpart hne hproper with ⟨f, hf⟩ | ⟨rfl, hnil⟩
      · rw [hf]
        exact ⟨by simp, Or.inr ⟨f, rfl⟩⟩
      · rw [hnil]
        exact ⟨by simp, Or.inl rfl⟩
  refine ⟨hread.1, hread.2, ?_⟩
  rintro before body after part rfl hbody rfl hpart hne hproper
  have hbefore : ∀ body ∈ before, body.length ≤ lengthLimit :=
    fun body hmem => h body (List.mem_append_left _ hmem)
  rw [readStream_frames hbefore]
  rcases readStream_of_part (h body (by simp)) hpart hne hproper with ⟨f, hf⟩ | ⟨rfl, _⟩
  · exact ⟨f, by rw [hf, List.append_nil]⟩
  · exact absurd rfl hbody

/-- A stream that is cut between the digits of a length, behind a body that reads like a header and
an empty one. -/
theorem readStream_writeFrames_cut_digits :
    let bodies : List Bytes := [frameHeader 2, [], List.replicate 12 10]
    let part := asciiBytes "Content-Length: 1"
    (∀ body ∈ bodies, body.length ≤ lengthLimit) ∧ part <+: frame (List.replicate 12 10) ∧
      ∃ f, readStream (Input.ofBytes (frame (frameHeader 2) ++ (frame [] ++ part))) =
        ([frameHeader 2, []], some (.framing f)) := by
  intro bodies part
  have hbodies : ∀ body ∈ bodies, body.length ≤ lengthLimit := by decide +kernel
  have hpart : part <+: frame (List.replicate 12 10) := by decide +kernel
  obtain ⟨output, hwrite, hread⟩ := readStream_writeFrames_cut hbodies
  have hcut : frame (frameHeader 2) ++ (frame [] ++ part) <+: output.bytes := by
    cases hwrite
    decide +kernel
  obtain ⟨_, _, hinside⟩ := hread _ hcut
  exact ⟨hbodies, hpart, hinside [frameHeader 2, []] _ [] part rfl (by decide) (by simp) hpart
    (by decide) (by decide +kernel)⟩

end VibeScript
