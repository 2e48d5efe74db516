import Mathlib.Algebra.Field.Rat
import VibeScript.Proofs.Json.Atoms

/-!
The numbers of standard JSON, as they are spelled.

A literal has a whole part without leading zeros, and it may have a fraction and an exponent.
It is read as far as it goes (`NumberLiteral.scanAtom?_text`), and it denotes an exact number
(`NumberLiteral.value`); the reader rounds it to a double if it has a fraction or an exponent
(`NumberLiteral.read`).
-/

namespace VibeScript

/-- A text of digits. -/
def IsDigits (t : Text) : Prop := ∀ c ∈ t, c.isAsciiDigit = true

instance (t : Text) : Decidable (IsDigits t) := inferInstanceAs (Decidable (∀ c ∈ t, _))

/-- An exponent as it is spelled: its mark, its sign and its digits. -/
structure ExponentLiteral where
  mark : CodePoint
  sign : Option CodePoint
  digits : Text
  mark_mem : mark ∈ [CodePoint.ofChar 'e', CodePoint.ofChar 'E']
  sign_mem : ∀ c ∈ sign, c ∈ [CodePoint.ofChar '+', CodePoint.ofChar '-']
  digits_ne_nil : digits ≠ []
  isDigits : IsDigits digits

namespace ExponentLiteral

def text (e : ExponentLiteral) : Text := e.mark :: (e.sign.toList ++ e.digits)

/-- The power of ten that an exponent stands for. -/
def power (e : ExponentLiteral) : Int :=
  if e.sign = some (CodePoint.ofChar '-') then -readDecimal e.digits else readDecimal e.digits

end ExponentLiteral

/-- A number as standard JSON spells it.  Without a fraction there is no point either. -/
structure NumberLiteral where
  negative : Bool
  whole : Text
  fraction : Text
  exponent : Option ExponentLiteral
  whole_ne_nil : whole ≠ []
  whole_isDigits : IsDigits whole
  whole_of_zero : whole.head? = some (CodePoint.ofChar '0') → whole = [CodePoint.ofChar '0']
  fraction_isDigits : IsDigits fraction

namespace NumberLiteral

variable (n : NumberLiteral)

def signText : Text := if n.negative then [CodePoint.ofChar '-'] else []

def fractionText : Text := if n.fraction = [] then [] else CodePoint.ofChar '.' :: n.fraction

def exponentText : Text := (n.exponent.map (·.text)).getD []

def text : Text := n.signText ++ (n.whole ++ (n.fractionText ++ n.exponentText))

/-- The digits of a literal as one number. -/
def digits : Nat := readDecimal (n.whole ++ n.fraction)

/-- The power of ten that the last digit of a literal counts. -/
def power : Int := (n.exponent.map (·.power)).getD 0 - n.fraction.length

/-- The number that a literal denotes. -/
def value : ℚ := (if n.negative then -1 else 1) * n.digits * 10 ^ n.power

/-- A literal without a fraction and without an exponent. -/
def IsInteger : Prop := n.fraction = [] ∧ n.exponent = none

instance : Decidable n.IsInteger := inferInstanceAs (Decidable (_ ∧ _ = none))

/-- What is read of a literal: an exact integer, or a double. -/
def read : Json :=
  if n.IsInteger then .int (if n.negative then -n.digits else n.digits)
  else .real (.ofDecimal n.negative n.digits n.power)

/-- Whether a literal can be read: an integer must not have too many digits. -/
def Short : Prop := n.IsInteger → n.whole.length ≤ digitLimit

instance : Decidable n.Short := inferInstanceAs (Decidable (_ → _))

/-- The characters of a literal. -/
theorem of_mem_text {c : CodePoint} (h : c ∈ n.text) :
    c.isAsciiDigit = true ∨ c ∈ ("-+.eE" : Text) := by
  have hsign : ∀ c ∈ n.signText, c ∈ ("-+.eE" : Text) := by
    rw [signText]
    split <;> decide
  have hmarks : ∀ c ∈ [CodePoint.ofChar 'e', CodePoint.ofChar 'E'], c ∈ ("-+.eE" : Text) := by
    decide
  have hsigns : ∀ c ∈ [CodePoint.ofChar '+', CodePoint.ofChar '-'], c ∈ ("-+.eE" : Text) := by
    decide
  simp only [text, List.mem_append] at h
  rcases h with h | h | h | h
  · exact .inr (hsign c h)
  · exact .inl (n.whole_isDigits c h)
  · rw [fractionText] at h
    split at h
    · cases h
    · rcases List.mem_cons.mp h with rfl | hdigit
      · exact .inr (by decide)
      · exact .inl (n.fraction_isDigits c hdigit)
  · cases hexponent : n.exponent with
    | none => simp [exponentText, hexponent] at h
    | some e =>
        simp only [exponentText, hexponent, Option.map_some, Option.getD_some,
          ExponentLiteral.text, List.mem_cons, List.mem_append, Option.mem_toList] at h
        rcases h with rfl | h | h
        · exact .inr (hmarks e.mark e.mark_mem)
        · exact .inr (hsigns c (e.sign_mem c h))
        · exact .inl (e.isDigits c h)

end NumberLiteral

/-- A text that may follow a number without going on with it. -/
def EndsLiteral (t : Text) : Prop :=
  ∀ c ∈ t.head?, c.isAsciiDigit = false ∧
    c ∉ [CodePoint.ofChar '.', CodePoint.ofChar 'e', CodePoint.ofChar 'E']

section Scanning

/-- A run of digits goes up to the next character that is none. -/
theorem takeWhile_digits_append {digits more : Text} (hdigits : IsDigits digits)
    (hmore : ∀ c ∈ more.head?, c.isAsciiDigit = false) :
    (digits ++ more).takeWhile (·.isAsciiDigit) = digits := by
  rw [List.takeWhile_append_of_pos hdigits]
  cases more with
  | nil => simp
  | cons c rest => rw [List.takeWhile_cons_of_neg (by simp [hmore c rfl]), List.append_nil]

variable {rest : Text} (hrest : EndsLiteral rest)
include hrest

theorem EndsLiteral.not_digit : ∀ c ∈ rest.head?, c.isAsciiDigit = false :=
  fun c hc => (hrest c hc).1

theorem exponentPart?_literal (e : ExponentLiteral) :
    exponentPart? (e.text ++ rest) = some (e.power, e.text.length) := by
  have hrun := takeWhile_digits_append e.isDigits hrest.not_digit
  have hmark : e.mark = 'e' ∨ e.mark = 'E' := by simpa using e.mark_mem
  rw [ExponentLiteral.text, List.cons_append, exponentPart?, if_pos hmark, List.append_assoc]
  cases hsign : e.sign with
  | none =>
      obtain ⟨d, more, hcons⟩ := List.exists_cons_of_ne_nil e.digits_ne_nil
      have hdigit : d.isAsciiDigit = true := e.isDigits d (by simp [hcons])
      have hminus : d ≠ CodePoint.ofChar '-' := by
        rintro rfl
        exact absurd hdigit (by decide)
      have hplus : d ≠ CodePoint.ofChar '+' := by
        rintro rfl
        exact absurd hdigit (by decide)
      have hhead : (e.digits ++ rest).head? = some d := by rw [hcons]; rfl
      simp [hhead, hminus, hplus, hrun, e.digits_ne_nil, ExponentLiteral.power, hsign]
      omega
  | some c =>
      have hc := e.sign_mem c hsign
      simp only [List.mem_cons, List.not_mem_nil, or_false] at hc
      rcases hc with rfl | rfl
      · simp [hrun, e.digits_ne_nil, ExponentLiteral.power, hsign]
        omega
      · simp [hrun, e.digits_ne_nil, ExponentLiteral.power, hsign]
        omega

theorem exponentPart?_none : exponentPart? rest = none := by
  cases rest with
  | nil => rfl
  | cons c more =>
      have hc := (hrest c rfl).2
      simp only [List.mem_cons, List.not_mem_nil, or_false, not_or] at hc
      rw [exponentPart?, if_neg (not_or.mpr hc.2)]

end Scanning

namespace NumberLiteral

variable (n : NumberLiteral) {rest : Text} (hrest : EndsLiteral rest)

include hrest in
/-- Behind the whole part comes a point, the mark of an exponent, or the rest. -/
theorem head?_exponentText_append {c : CodePoint}
    (hc : c ∈ (n.exponentText ++ rest).head?) :
    c.isAsciiDigit = false ∧ c ≠ CodePoint.ofChar '.' := by
  cases hexponent : n.exponent with
  | none =>
      simp only [exponentText, hexponent, Option.map_none, Option.getD_none,
        List.nil_append] at hc
      have hend := hrest c hc
      simp only [List.mem_cons, List.not_mem_nil, or_false, not_or] at hend
      exact ⟨hend.1, hend.2.1⟩
  | some e =>
      simp only [exponentText, hexponent, Option.map_some, Option.getD_some,
        ExponentLiteral.text, List.cons_append, List.head?_cons, Option.mem_some_iff] at hc
      subst hc
      have hmark : ∀ c ∈ [CodePoint.ofChar 'e', CodePoint.ofChar 'E'],
          c.isAsciiDigit = false ∧ c ≠ CodePoint.ofChar '.' := by decide
      exact hmark e.mark e.mark_mem

include hrest in
theorem fractionDigits_literal :
    fractionDigits (n.fractionText ++ (n.exponentText ++ rest)) = n.fraction := by
  have hafter := fun c hc => n.head?_exponentText_append hrest (c := c) hc
  rw [fractionText]
  split
  · next hnone =>
      rw [hnone, List.nil_append]
      cases htail : n.exponentText ++ rest with
      | nil => rfl
      | cons c more =>
          have hc := hafter c (by rw [htail]; rfl)
          rw [fractionDigits, if_neg hc.2]
  · rw [List.cons_append, fractionDigits, if_pos rfl]
    exact takeWhile_digits_append n.fraction_isDigits fun c hc => (hafter c hc).1

include hrest in
theorem exponentPart?_literal :
    exponentPart? (n.exponentText ++ rest) =
      n.exponent.map fun e => (e.power, e.text.length) := by
  cases hexponent : n.exponent with
  | none => simpa [exponentText, hexponent] using exponentPart?_none hrest
  | some e => simpa [exponentText, hexponent] using VibeScript.exponentPart?_literal hrest e

/-- The whole part of a literal with what comes behind it, its sign apart. -/
def unsigned : Text := n.whole ++ (n.fractionText ++ n.exponentText)

include hrest in
/-- The first run of digits is the whole part. -/
theorem takeWhile_unsigned : (n.unsigned ++ rest).takeWhile (·.isAsciiDigit) = n.whole := by
  rw [unsigned, List.append_assoc, List.append_assoc]
  refine takeWhile_digits_append n.whole_isDigits fun c hc => ?_
  rw [fractionText] at hc
  split at hc
  · exact (n.head?_exponentText_append hrest hc).1
  · obtain rfl : CodePoint.ofChar '.' = c := Option.some.inj hc
    decide

include hrest in
/-- A literal is read as far as it goes, its sign apart. -/
theorem scanUnsigned?_unsigned :
    scanUnsigned? n.negative (n.unsigned ++ rest) =
      if n.Short then some (n.read, n.unsigned.length) else none := by
  have hrun := n.takeWhile_unsigned hrest
  have hwhole : (if n.whole.head? = some '0' then n.whole.take 1 else n.whole) = n.whole := by
    split
    · next hzero => rw [n.whole_of_zero hzero]; rfl
    · rfl
  have hafter : (n.unsigned ++ rest).drop n.whole.length =
      n.fractionText ++ (n.exponentText ++ rest) := by
    rw [unsigned, List.append_assoc, List.append_assoc, List.drop_left]
  have hpointed : (if n.fraction = [] then 0 else n.fraction.length + 1) =
      n.fractionText.length := by
    rw [fractionText]
    split <;> rfl
  unfold scanUnsigned?
  simp only [hrun, hwhole, n.whole_ne_nil, ↓reduceIte, hafter, n.fractionDigits_literal hrest,
    hpointed, List.drop_left, n.exponentPart?_literal hrest]
  have hlength : n.unsigned.length =
      n.whole.length + n.fractionText.length + n.exponentText.length := by
    simp only [unsigned, List.length_append, Nat.add_assoc]
  cases hexponent : n.exponent with
  | some e =>
      have hreal : ¬ n.IsInteger := by simp [IsInteger, hexponent]
      have hshort : n.Short := fun hinteger => absurd hinteger hreal
      have hpower : n.power = e.power - n.fraction.length := by simp [power, hexponent]
      have htext : n.exponentText = e.text := by simp [exponentText, hexponent]
      rw [if_pos hshort, read, if_neg hreal, hlength, hpower, htext]
      rfl
  | none =>
      have hpower : n.power = -n.fraction.length := by simp [power, hexponent]
      have htext : n.exponentText = [] := by simp [exponentText, hexponent]
      by_cases hfraction : n.fraction = []
      · have hinteger : n.IsInteger := ⟨hfraction, hexponent⟩
        have hdigits : n.digits = readDecimal n.whole := by
          rw [digits, hfraction, List.append_nil]
        rw [read, if_pos hinteger, hlength, fractionText, if_pos hfraction, htext, hdigits]
        simp only [Option.map_none, hfraction, ↓reduceIte, readDecimalWithin]
        by_cases hlimit : n.whole.length ≤ digitLimit
        · have hshort : n.Short := fun _ => hlimit
          simp [hlimit, hshort]
        · have hlong : ¬ n.Short := fun hshort => hlimit (hshort hinteger)
          simp [hlimit, hlong]
      · have hreal : ¬ n.IsInteger := fun hinteger => hfraction hinteger.1
        have hshort : n.Short := fun hinteger => absurd hinteger hreal
        simp [hshort, read, hreal, hlength, hpower, htext, hfraction, digits]

theorem exists_cons_unsigned : ∃ c more, n.unsigned = c :: more ∧ c.isAsciiDigit = true := by
  obtain ⟨c, more, hcons⟩ := List.exists_cons_of_ne_nil n.whole_ne_nil
  refine ⟨c, more ++ (n.fractionText ++ n.exponentText), ?_, n.whole_isDigits c (by simp [hcons])⟩
  rw [unsigned, hcons, List.cons_append]

include hrest in
/-- A literal is read as far as it goes; an integer with too many digits is not read. -/
theorem scanAtom?_text :
    scanAtom? (n.text ++ rest) = if n.Short then some (n.read, n.text.length) else none := by
  obtain ⟨c, more, hcons, hdigit⟩ := n.exists_cons_unsigned
  have hscan := n.scanUnsigned?_unsigned hrest
  have htext : n.text = n.signText ++ n.unsigned := rfl
  cases hnegative : n.negative with
  | false =>
      have hsign : n.signText = [] := by simp [signText, hnegative]
      have hmem : c ∈ (n.unsigned ++ rest).take 2 := by simp [hcons]
      have hminus : ¬ (n.unsigned ++ rest).head? = some '-' := by
        rw [hcons]
        intro hhead
        obtain rfl : c = CodePoint.ofChar '-' := Option.some.inj hhead
        exact absurd hdigit (by decide)
      rw [hnegative] at hscan
      rw [htext, hsign, List.nil_append, scanAtom?, find?_namedValues_eq_none hmem hdigit]
      simp only [hminus, ↓reduceIte, hscan]
  | true =>
      have hsign : n.signText = [CodePoint.ofChar '-'] := by simp [signText, hnegative]
      have hmem : c ∈ (CodePoint.ofChar '-' :: (n.unsigned ++ rest)).take 2 := by simp [hcons]
      rw [hnegative] at hscan
      have hminus : (CodePoint.ofChar '-' :: (n.unsigned ++ rest)).head? = some '-' := rfl
      rw [htext, hsign, List.singleton_append, List.cons_append, scanAtom?,
        find?_namedValues_eq_none hmem hdigit]
      simp only [hminus, ↓reduceIte, List.tail_cons, hscan]
      by_cases hshort : n.Short <;> simp [hshort]

/-- A literal starts as the reader expects a number to start. -/
theorem exists_cons_text : ∃ c more, n.text = c :: more ∧
    (c = CodePoint.ofChar '-' ∨ c.isAsciiDigit = true) := by
  obtain ⟨c, more, hcons, hdigit⟩ := n.exists_cons_unsigned
  have htext : n.text = n.signText ++ n.unsigned := rfl
  cases hnegative : n.negative with
  | false => exact ⟨c, more, by simp [htext, signText, hnegative, hcons], .inr hdigit⟩
  | true => exact ⟨_, n.unsigned, by simp [htext, signText, hnegative], .inl rfl⟩

end NumberLiteral

end VibeScript
