import VibeScript.Proofs.Framing.HeaderLines
import VibeScript.Proofs.Text.Numeral

/-!
A frame that was written is read back, whatever follows it.

The header that is written has one line, which is read as the length that it was written
for (`headerLine_lengthLine`), and an empty one.  So the body is what lies behind them
(`readPayload_frame`), unless it is longer than any body that can be asked for.
-/

namespace VibeScript

theorem isAscii_decimal (n : Nat) : IsAscii (decimal n) := by
  intro c hc
  have hdigit := isAsciiDigit_of_mem_decimal n c hc
  simp only [CodePoint.isAsciiDigit, Bool.and_eq_true, decide_eq_true_eq] at hdigit
  omega

/-- A line feed among the bytes of an ASCII text is one in the text. -/
theorem lineFeed_not_mem_asciiBytes {t : Text} (h : IsAscii t) (hline : CodePoint.newline ∉ t) :
    (10 : UInt8) ∉ asciiBytes t := by
  intro hmem
  have hchar : headerChar 10 ∈ headerText (asciiBytes t) := mem_headerText.mpr ⟨10, hmem, rfl⟩
  rw [headerText_asciiBytes h] at hchar
  exact hline hchar

theorem splitLine_eq_nil_iff {bytes : Bytes} : (splitLine bytes).1 = [] ↔ bytes = [] := by
  constructor
  · intro h
    unfold splitLine at h
    split at h
    · exact h
    · simp at h
  · rintro rfl
    rfl

/-- The first line of bytes goes up to the first line feed. -/
theorem splitLine_append_lineFeed {line : Bytes} (h : (10 : UInt8) ∉ line) (rest : Bytes) :
    splitLine (line ++ 10 :: rest) = (line ++ [10], rest) := by
  have hkeep : ∀ b ∈ line, decide (b ≠ 10) = true := by
    intro b hb
    have hne : b ≠ 10 := by
      intro heq
      exact h (heq ▸ hb)
    simpa using hne
  have hdrop : (line ++ 10 :: rest).dropWhile (· ≠ 10) = 10 :: rest := by
    rw [List.dropWhile_append_of_pos hkeep]
    rfl
  have htake : (line ++ 10 :: rest).takeWhile (· ≠ 10) = line := by
    rw [List.takeWhile_append_of_pos hkeep]
    exact List.append_nil line
  rw [splitLine, hdrop, htake]

theorem takeLine?_append_lineFeed {line : Bytes} (h : (10 : UInt8) ∉ line) (rest : Bytes) :
    (Input.ofBytes (line ++ 10 :: rest)).takeLine? =
      some (line ++ [10], Input.ofBytes rest) := by
  rw [Input.takeLine?, Input.ofBytes, splitLine_append_lineFeed h]
  rfl

theorem isHeaderBlank_of_digit {c : CodePoint} (h : c.isAsciiDigit = true) :
    isHeaderBlank c = false := by
  simp only [CodePoint.isAsciiDigit, Bool.and_eq_true, decide_eq_true_eq] at h
  simp only [isHeaderBlank, Bool.or_eq_false_iff, Bool.and_eq_false_iff, decide_eq_false_iff_not]
  omega

/-- A written length is read back if it does not have too many digits. -/
theorem contentLength_decimal (n : Nat) :
    contentLength (decimal n) =
      if (decimal n).length ≤ digitLimit then .ok n
      else .error (.tooManyDigits ⟨(decimal n).length⟩) := by
  have hdigits := isAsciiDigit_of_mem_decimal n
  have hnumeral : ¬ (decimal n = [] ∨ (!(decimal n).all (·.isAsciiDigit)) = true) := by
    simpa [decimal_ne_nil n] using hdigits
  have hsign : IsSign [] (decimal n) := isSign_of_digits (Or.inl rfl) hdigits
  have hread := contentLength_append hsign
  rw [List.nil_append, if_neg hnumeral, readDecimalWithin] at hread
  rw [hread]
  by_cases hshort : (decimal n).length ≤ digitLimit
  · simp only [if_pos hshort, readDecimal_decimal]
    exact if_neg fun h => absurd h.1 (by decide)
  · simp only [if_neg hshort]

/-- The line of a header that gives the length. -/
def lengthLine (n : Nat) : Text := "Content-Length: " ++ decimal n ++ "\r"

theorem isAscii_lengthLine (n : Nat) : IsAscii (lengthLine n) :=
  isAscii_append (isAscii_append (by decide) (isAscii_decimal n)) (by decide)

theorem newline_not_mem_lengthLine (n : Nat) : CodePoint.newline ∉ lengthLine n := by
  have hdigits : CodePoint.newline ∉ decimal n := not_mem_decimal (by decide) n
  simp only [lengthLine, List.mem_append, not_or]
  exact ⟨⟨by decide, hdigits⟩, by decide⟩

/-- A header is a line with the length and an empty one. -/
theorem frameHeader_eq (n : Nat) :
    frameHeader n = asciiBytes (lengthLine n) ++ 10 :: ([13] ++ 10 :: []) := by
  have hbreak : ("\r\n\r\n" : Text) = "\r" ++ "\n\r\n" := rfl
  rw [frameHeader, hbreak, ← List.append_assoc, asciiBytes_append]
  rfl

/-- The line with the length is read as that length. -/
theorem headerLine_lengthLine (n : Nat) :
    headerLine (asciiBytes (lengthLine n) ++ [10]) = .contentLength (decimal n) := by
  have hbytes : asciiBytes (lengthLine n) ++ [10] = asciiBytes "Content-Length" ++
      58 :: asciiBytes (" " ++ (decimal n ++ "\r\n")) := by
    rw [lengthLine, asciiBytes_append, asciiBytes_append, asciiBytes_append, asciiBytes_append]
    simp only [List.append_assoc]
    rfl
  have hascii : IsAscii (" " ++ (decimal n ++ "\r\n")) :=
    isAscii_append (by decide) (isAscii_append (isAscii_decimal n) (by decide))
  have hvalue : strip (" " ++ (decimal n ++ "\r\n")) = decimal n :=
    strip_append (by decide) fun c hc => isHeaderBlank_of_digit (isAsciiDigit_of_mem_decimal n c hc)
  have hname : (strip "Content-Length").map lowerAscii = text "content-length" := by decide
  rw [hbytes, headerLine_of_colon (by decide), headerText_asciiBytes (by decide),
    headerText_asciiBytes hascii, hvalue, if_pos hname]

/-- Reading a header goes on with the first line. -/
theorem readHeaders_of_line {input rest : Input} {line : Bytes}
    (hline : input.takeLine? = some (line, rest)) (hne : line ≠ []) (found : Option Nat)
    (started : Bool) :
    readHeaders found started input =
      match headerStep found line with
      | .finished n => (.ok (some n), rest)
      | .next found => readHeaders found true rest
      | .failed e => (.error e, rest) := by
  rw [readHeaders]
  split
  · next h =>
      rw [hline] at h
      cases h
  · next h =>
      rw [hline] at h
      cases h
      exact absurd rfl hne
  · next b more left h =>
      rw [hline] at h
      cases h
      rfl

/-- Reading a header stops at the end of the input. -/
theorem readHeaders_of_end {input rest : Input} (hline : input.takeLine? = some ([], rest))
    (found : Option Nat) (started : Bool) :
    readHeaders found started input =
      (if started then .error (.framing .endInHeaders) else .ok none, rest) := by
  rw [readHeaders]
  split
  · next h =>
      rw [hline] at h
      cases h
  · next h =>
      rw [hline] at h
      cases h
      cases started <;> rfl
  · next h =>
      rw [hline] at h
      cases h

/-- What is read behind a header that gave this result. -/
def readBehind (result : Except ReadError (Option Nat)) (rest : Bytes) : Reading :=
  match result with
  | .error e => .failed e
  | .ok none => .endOfStream
  | .ok (some n) =>
      if lengthLimit < n then .failed .lengthTooLarge
      else if (rest.take n).length < n then
        .failed (.framing (.endInBody n (rest.take n).length))
      else .payload (rest.take n)

theorem readPayload_eq_readBehind (input : Input) :
    (readPayload input).1 = readBehind (readHeaders none false input).1
      (readHeaders none false input).2.bytes := by
  rw [readPayload]
  rcases readHeaders none false input with ⟨e | _ | n, rest⟩
  · rfl
  · rfl
  · simp only [readBehind]
    split
    · rfl
    · split <;> rfl

theorem readBehind_eq_endOfStream_iff {result : Except ReadError (Option Nat)} {rest : Bytes} :
    readBehind result rest = .endOfStream ↔ result = .ok none := by
  unfold readBehind
  split
  · simp
  · simp
  · split
    · simp
    · split <;> simp

/-- Behind the line with the length a reader knows it, unless it has too many digits. -/
theorem readHeaders_lengthLine (n : Nat) (behind : Bytes) :
    readHeaders none false (Input.ofBytes (asciiBytes (lengthLine n) ++ 10 :: behind)) =
      if (decimal n).length ≤ digitLimit then readHeaders (some n) true (Input.ofBytes behind)
      else (.error (.tooManyDigits ⟨(decimal n).length⟩), Input.ofBytes behind) := by
  have hlength := takeLine?_append_lineFeed
    (lineFeed_not_mem_asciiBytes (isAscii_lengthLine n) (newline_not_mem_lengthLine n)) behind
  rw [readHeaders_of_line hlength (by simp), headerStep, headerLine_lengthLine]
  simp only [contentLength_decimal]
  by_cases h : (decimal n).length ≤ digitLimit
  · simp only [h, ↓reduceIte]
  · simp only [h, ↓reduceIte]

/-- The header that was written gives the length it was written for, or an error if that
has too many digits. -/
theorem readHeaders_frameHeader (n : Nat) (rest : Bytes) :
    readHeaders none false (Input.ofBytes (frameHeader n ++ rest)) =
      if (decimal n).length ≤ digitLimit then (.ok (some n), Input.ofBytes rest)
      else (.error (.tooManyDigits ⟨(decimal n).length⟩),
        Input.ofBytes ([13] ++ 10 :: rest)) := by
  have hempty : (Input.ofBytes ([13] ++ 10 :: rest)).takeLine? =
      some ([13] ++ [10], Input.ofBytes rest) := takeLine?_append_lineFeed (by decide) rest
  have hinput : frameHeader n ++ rest =
      asciiBytes (lengthLine n) ++ 10 :: ([13] ++ 10 :: rest) := by
    rw [frameHeader_eq, List.append_assoc]
    rfl
  have hblank : headerLine ([13] ++ [10]) = .blank := by decide
  rw [hinput, readHeaders_lengthLine, readHeaders_of_line hempty (by decide), headerStep, hblank]

/-- A length that can be asked for has few digits. -/
theorem length_decimal_of_le {n : Nat} (h : n ≤ lengthLimit) : (decimal n).length ≤ 19 :=
  length_decimal_le (by decide) (Nat.lt_of_le_of_lt h (by decide))

/-- A frame is read back, whatever follows it. -/
theorem readPayload_frame {body : Bytes} (h : body.length ≤ lengthLimit) (rest : Bytes) :
    readPayload (Input.ofBytes (frame body ++ rest)) = (.payload body, Input.ofBytes rest) := by
  have hdigits : (decimal body.length).length ≤ digitLimit :=
    Nat.le_trans (length_decimal_of_le h) (by decide)
  have hheaders := readHeaders_frameHeader body.length (body ++ rest)
  rw [if_pos hdigits, ← List.append_assoc] at hheaders
  rw [frame, readPayload, hheaders]
  simp only [Input.ofBytes, List.take_left, List.drop_left, Nat.not_lt.mpr h,
    Nat.lt_irrefl, ↓reduceIte]

/-- A frame with a body that is too long is not read. -/
theorem readPayload_of_long {body : Bytes} (h : lengthLimit < body.length) (rest : Bytes) :
    ∃ e left, readPayload (Input.ofBytes (frame body ++ rest)) = (.failed e, left) := by
  have hheaders := readHeaders_frameHeader body.length (body ++ rest)
  rw [← List.append_assoc] at hheaders
  rw [frame, readPayload, hheaders]
  by_cases hdigits : (decimal body.length).length ≤ digitLimit
  · rw [if_pos hdigits]
    simp only [h, ↓reduceIte]
    exact ⟨_, _, rfl⟩
  · rw [if_neg hdigits]
    exact ⟨_, _, rfl⟩

end VibeScript
