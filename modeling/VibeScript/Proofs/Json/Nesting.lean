import VibeScript.Envelope

/-!
Values that are nested too deeply.

The reader gives up at the bracket that opens one array too many, whatever follows it
(`parseJson_openBrackets`).  It does so before it could know that the text is no object.
-/

namespace VibeScript

theorem jsonStep_value_openBracket (stack : List Parent) (rest : Text) :
    jsonStep stack .value CodePoint.openBracket rest =
      if stack.length < nestingLimit then .next stack .element 0
      else .failed (.tooDeep .array) := by
  have hblank : CodePoint.openBracket.isJsonBlank = false := by decide
  have hquote : CodePoint.openBracket ≠ CodePoint.quote := by decide
  have hbrace : CodePoint.openBracket ≠ CodePoint.openBrace := by decide
  simp [jsonStep, startValue, hblank, hquote, hbrace]

theorem jsonStep_element_openBracket (stack : List Parent) (rest : Text) :
    jsonStep stack .element CodePoint.openBracket rest =
      jsonStep (.array [] :: stack) .value CodePoint.openBracket rest := by
  have hblank : CodePoint.openBracket.isJsonBlank = false := by decide
  have hclose : CodePoint.openBracket ≠ CodePoint.closeBracket := by decide
  simp [jsonStep, hblank, hclose]

/-- Every bracket opens an array in the one before it, until there are too many. -/
theorem parseJsonFrom_openBrackets {n : Nat} {stack : List Parent} (hpos : 0 < n)
    (h : nestingLimit ≤ stack.length + n) (rest : Text) :
    parseJsonFrom stack .element (List.replicate n CodePoint.openBracket ++ rest) =
      .error (.tooDeep .array) := by
  induction n generalizing stack with
  | zero => cases hpos
  | succ n ih =>
      rw [List.replicate_succ, List.cons_append, parseJsonFrom, jsonStep_element_openBracket,
        jsonStep_value_openBracket, List.length_cons]
      by_cases hdeep : stack.length + 1 < nestingLimit
      · simp only [hdeep, ↓reduceIte, List.drop_zero]
        exact ih (by omega) (by rw [List.length_cons]; omega)
      · simp only [hdeep, ↓reduceIte]

/-- More brackets than may be open at once are not read. -/
theorem parseJson_openBrackets {n : Nat} (h : nestingLimit < n) (rest : Text) :
    parseJson (List.replicate n CodePoint.openBracket ++ rest) = .error (.tooDeep .array) := by
  obtain ⟨m, rfl⟩ := Nat.exists_eq_add_of_lt h
  have hopen : ([] : List Parent).length < nestingLimit := by decide
  rw [parseJson, List.replicate_succ, List.cons_append, parseJsonFrom,
    jsonStep_value_openBracket]
  simp only [hopen, ↓reduceIte, List.drop_zero]
  exact parseJsonFrom_openBrackets (Nat.add_pos_left (by decide) m)
    (by rw [List.length_nil]; omega) rest

/-- A character below 0x80 that is a byte of its own. -/
theorem decodeUtf8From_replicate {b : UInt8} (h : b.toNat < 0x80) (n position : Nat)
    (done : Text) :
    decodeUtf8From position done (List.replicate n b) =
      .ok (done.reverse ++ List.replicate n (CodePoint.ofNat b.toNat)) := by
  induction n generalizing position done with
  | zero => simp [decodeUtf8From]
  | succ n ih =>
      rw [List.replicate_succ, decodeUtf8From, if_pos h, ih]
      simp [List.replicate_succ]

/-- A payload of opening brackets only is no object, but it is not dropped as such. -/
theorem decodeEnvelope_openBrackets {n : Nat} (h : nestingLimit < n) :
    decodeEnvelope (List.replicate n 0x5B) = .error ⟨.array⟩ := by
  have hdecode : decodeUtf8 (List.replicate n 0x5B) =
      .ok (List.replicate n CodePoint.openBracket) :=
    decodeUtf8From_replicate (by decide) n 0 []
  have hparse := parseJson_openBrackets h []
  rw [List.append_nil] at hparse
  simp only [decodeEnvelope, hdecode, hparse]

end VibeScript
