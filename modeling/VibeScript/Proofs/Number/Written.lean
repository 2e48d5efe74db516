import Mathlib.Algebra.Order.Field.Power
import Mathlib.Tactic.NormNum
import Mathlib.Tactic.Ring
import VibeScript.Json.Printer
import VibeScript.Proofs.Number.Literal

/-!
Numbers that were written are standard literals.

A finite double is written as a literal of its shortest digits, in whichever layout
(`exists_literal_write`), and an integer as one without a fraction and an exponent.
-/

namespace VibeScript

section Digits

theorem isDigits_decimal (n : Nat) : IsDigits (decimal n) := isAsciiDigit_of_mem_decimal n

theorem isDigits_append {s t : Text} : IsDigits (s ++ t) ↔ IsDigits s ∧ IsDigits t :=
  List.forall_mem_append

theorem isDigits_zeros (n : Nat) : IsDigits (List.replicate n (CodePoint.ofChar '0')) := by
  intro c hc
  rw [List.eq_of_mem_replicate hc]
  decide

theorem IsDigits.sublist {s t : Text} (h : IsDigits t) (hs : s.Sublist t) : IsDigits s :=
  fun c hc => h c (hs.subset hc)

/-- Digits that come behind others are worth as much as on their own. -/
theorem foldl_digits (t : Text) (value : Nat) :
    t.foldl (fun value c => value * 10 + c.digitValue) value =
      value * 10 ^ t.length + readDecimal t := by
  induction t generalizing value with
  | nil => simp [readDecimal]
  | cons c rest ih =>
      rw [readDecimal, List.foldl_cons, List.foldl_cons, ih, ih (0 * 10 + c.digitValue),
        List.length_cons, pow_succ]
      ring

theorem readDecimal_append (s t : Text) :
    readDecimal (s ++ t) = readDecimal s * 10 ^ t.length + readDecimal t := by
  rw [readDecimal, List.foldl_append, foldl_digits]
  rfl

theorem readDecimal_zero : readDecimal [CodePoint.ofChar '0'] = 0 := by decide

theorem readDecimal_zeros (n : Nat) :
    readDecimal (List.replicate n (CodePoint.ofChar '0')) = 0 := by
  have hzero : (CodePoint.ofChar '0').digitValue = 0 := by decide
  induction n with
  | zero => rfl
  | succ n ih =>
      rw [List.replicate_succ', readDecimal_append, ih]
      simp [readDecimal, hzero]

end Digits

/-- A number with a sign in front. -/
def signed (negative : Bool) (x : ℚ) : ℚ := (if negative then -1 else 1) * x

/-- A text with a minus sign in front if there is to be one. -/
def signedText (negative : Bool) (t : Text) : Text := (if negative then "-" else "") ++ t

namespace NumberLiteral

theorem value_eq (n : NumberLiteral) :
    n.value = signed n.negative (n.digits * 10 ^ n.power) := by
  rw [value, signed, mul_assoc]

theorem text_eq (n : NumberLiteral) :
    n.text = signedText n.negative (n.whole ++ (n.fractionText ++ n.exponentText)) := by
  rw [text, signText, signedText]
  cases n.negative <;> rfl

/-- Digits that end with zeros count for as much as those in front with a greater power. -/
theorem value_of_digits {n : NumberLiteral} {digits zeros : Nat} {power : Int}
    (hdigits : n.digits = digits * 10 ^ zeros) (hpower : n.power + zeros = power) :
    n.value = signed n.negative (digits * 10 ^ power) := by
  rw [value_eq, hdigits, ← hpower, zpow_add₀ (by norm_num), zpow_natCast]
  push_cast
  ring_nf

end NumberLiteral

section Layouts

variable (negative : Bool) {digits : Text} (hdigits : IsDigits digits) (hne : digits ≠ [])
  (hhead : digits.head? ≠ some (CodePoint.ofChar '0'))

include hdigits hne in
/-- Nothing but a zero stands before the point. -/
theorem exists_literal_below (places : Nat) :
    ∃ n : NumberLiteral, n.text = signedText negative
        ("0." ++ List.replicate places (CodePoint.ofChar '0') ++ digits) ∧
      n.value = signed negative (readDecimal digits * 10 ^ (-(places : Int) - digits.length)) := by
  let n : NumberLiteral := ⟨negative, [CodePoint.ofChar '0'],
    List.replicate places (CodePoint.ofChar '0') ++ digits, none, by simp, by decide,
    fun _ => rfl, isDigits_append.mpr ⟨isDigits_zeros _, hdigits⟩⟩
  have hread : n.digits = readDecimal digits * 10 ^ 0 := by
    rw [NumberLiteral.digits, readDecimal_append, readDecimal_append, readDecimal_zeros]
    simp [n, readDecimal_zero]
  have hpower : n.power + (0 : Nat) = -(places : Int) - digits.length := by
    simp [n, NumberLiteral.power]
    omega
  refine ⟨n, ?_, NumberLiteral.value_of_digits hread hpower⟩
  rw [NumberLiteral.text_eq]
  simp [n, NumberLiteral.fractionText, NumberLiteral.exponentText, hne, text]

include hdigits hne hhead in
/-- Nothing but a zero stands behind the point. -/
theorem exists_literal_above (places : Nat) :
    ∃ n : NumberLiteral, n.text = signedText negative
        (digits ++ List.replicate places (CodePoint.ofChar '0') ++ ".0") ∧
      n.value = signed negative (readDecimal digits * 10 ^ (places : Int)) := by
  let n : NumberLiteral := ⟨negative, digits ++ List.replicate places (CodePoint.ofChar '0'),
    [CodePoint.ofChar '0'], none, by simp [hne], isDigits_append.mpr ⟨hdigits, isDigits_zeros _⟩,
    by simp [hhead, hne], by decide⟩
  have hread : n.digits = readDecimal digits * 10 ^ (places + 1) := by
    simp [n, NumberLiteral.digits, readDecimal_append, readDecimal_zero, readDecimal_zeros,
      pow_succ]
  have hpower : n.power + (places + 1 : Nat) = (places : Int) := by
    simp [n, NumberLiteral.power]
  refine ⟨n, ?_, NumberLiteral.value_of_digits hread hpower⟩
  rw [NumberLiteral.text_eq]
  simp [n, NumberLiteral.fractionText, NumberLiteral.exponentText, text]

include hdigits hhead in
/-- The point stands between the digits. -/
theorem exists_literal_among {places : Nat} (hpos : 0 < places) (hlt : places < digits.length) :
    ∃ n : NumberLiteral, n.text = signedText negative
        (digits.take places ++ "." ++ digits.drop places) ∧
      n.value = signed negative
        (readDecimal digits * 10 ^ ((places : Int) - digits.length)) := by
  have hwhole : digits.take places ≠ [] := List.ne_nil_of_length_pos (by simp; omega)
  have hfraction : digits.drop places ≠ [] := List.ne_nil_of_length_pos (by simp; omega)
  have hfirst : (digits.take places).head? ≠ some (CodePoint.ofChar '0') := by
    rw [List.head?_take, if_neg (by omega)]
    exact hhead
  let n : NumberLiteral := ⟨negative, digits.take places, digits.drop places, none, hwhole,
    hdigits.sublist (List.take_sublist _ _), fun hzero => absurd hzero hfirst,
    hdigits.sublist (List.drop_sublist _ _)⟩
  have hread : n.digits = readDecimal digits * 10 ^ 0 := by simp [n, NumberLiteral.digits]
  have hpower : n.power + (0 : Nat) = (places : Int) - digits.length := by
    simp [n, NumberLiteral.power]
    omega
  refine ⟨n, ?_, NumberLiteral.value_of_digits hread hpower⟩
  rw [NumberLiteral.text_eq]
  simp [n, NumberLiteral.fractionText, NumberLiteral.exponentText, hfraction, text]

include hdigits hne hhead in
/-- One digit stands before the point, and an exponent behind the others. -/
theorem exists_literal_exponent (mark : ExponentLiteral) :
    ∃ n : NumberLiteral, n.text = signedText negative
        (digits.take 1 ++ (if digits.length ≤ 1 then ([] : Text) else "." ++ digits.tail) ++
          mark.text) ∧
      n.value = signed negative
        (readDecimal digits * 10 ^ (mark.power + 1 - digits.length)) := by
  have hpos : 0 < digits.length := List.length_pos_iff.mpr hne
  have hwhole : digits.take 1 ≠ [] := List.ne_nil_of_length_pos (by simp; omega)
  have hfirst : (digits.take 1).head? ≠ some (CodePoint.ofChar '0') := by
    rw [List.head?_take, if_neg (by omega)]
    exact hhead
  let n : NumberLiteral := ⟨negative, digits.take 1, digits.tail, some mark, hwhole,
    hdigits.sublist (List.take_sublist _ _), fun hzero => absurd hzero hfirst,
    hdigits.sublist (List.tail_sublist _)⟩
  have hread : n.digits = readDecimal digits * 10 ^ 0 := by
    simp [n, NumberLiteral.digits, ← List.drop_one]
  have hpower : n.power + (0 : Nat) = mark.power + 1 - digits.length := by
    simp [n, NumberLiteral.power]
    omega
  refine ⟨n, ?_, NumberLiteral.value_of_digits hread hpower⟩
  have htail : digits.tail = [] ↔ digits.length ≤ 1 := by
    rw [← List.length_eq_zero_iff, List.length_tail]
    omega
  rw [NumberLiteral.text_eq]
  simp [n, NumberLiteral.fractionText, NumberLiteral.exponentText, htail, text]

end Layouts

namespace RealStyle

variable (style : RealStyle) (negative : Bool) {digits : Text}

/-- The exponent behind the digits of a number whose point stands somewhere. -/
theorem exists_exponentLiteral (point : Int) :
    ∃ mark : ExponentLiteral, mark.power = point - 1 ∧
      mark.text = ("e" : Text) ++ (if point - 1 < 0 then "-" else "+" : Text) ++
        List.replicate ((style.exponentWidth : Int) -
          (decimal (point - 1).natAbs).length).toNat (CodePoint.ofChar '0') ++
        decimal (point - 1).natAbs := by
  let digits := List.replicate ((style.exponentWidth : Int) -
    (decimal (point - 1).natAbs).length).toNat (CodePoint.ofChar '0') ++
      decimal (point - 1).natAbs
  have hread : readDecimal digits = (point - 1).natAbs := by
    rw [readDecimal_append, readDecimal_zeros, readDecimal_decimal, Nat.zero_mul, Nat.zero_add]
  have hne : digits ≠ [] := by simp [digits, decimal_ne_nil]
  have hdigits : IsDigits digits := isDigits_append.mpr ⟨isDigits_zeros _, isDigits_decimal _⟩
  by_cases hnegative : point - 1 < 0
  · refine ⟨⟨CodePoint.ofChar 'e', some (CodePoint.ofChar '-'), digits, by decide,
      by simp, hne, hdigits⟩, ?_, ?_⟩
    · rw [ExponentLiteral.power, if_pos rfl, hread]
      omega
    · rw [if_pos hnegative]
      simp [ExponentLiteral.text, digits, text]
  · have hsign : CodePoint.ofChar '+' ≠ CodePoint.ofChar '-' := by decide
    refine ⟨⟨CodePoint.ofChar 'e', some (CodePoint.ofChar '+'), digits, by decide,
      by simp, hne, hdigits⟩, ?_, ?_⟩
    · rw [ExponentLiteral.power, if_neg (by simpa using hsign), hread]
      omega
    · rw [if_neg hnegative]
      simp [ExponentLiteral.text, digits, text]

/-- Digits that do not start with a zero are written as a literal, wherever the point stands. -/
theorem exists_literal_writeDigits (hdigits : IsDigits digits) (hne : digits ≠ [])
    (hhead : digits.head? ≠ some (CodePoint.ofChar '0')) (point : Int) :
    ∃ n : NumberLiteral, n.text = signedText negative (style.writeDigits digits point) ∧
      n.value = signed negative (readDecimal digits * 10 ^ (point - digits.length)) := by
  rw [writeDigits]
  split
  · split
    · next hbelow =>
        have hliteral := exists_literal_below negative hdigits hne (-point).toNat
        rw [Int.toNat_of_nonneg (by omega), neg_neg] at hliteral
        exact hliteral
    split
    · next habove =>
        have hliteral := exists_literal_above negative hdigits hne hhead
          (point - digits.length).toNat
        rw [Int.toNat_of_nonneg (by omega)] at hliteral
        exact hliteral
    · next hbelow habove =>
        have hliteral := exists_literal_among negative hdigits hhead
          (show 0 < point.toNat by omega) (by omega)
        rw [Int.toNat_of_nonneg (by omega)] at hliteral
        exact hliteral
  · obtain ⟨mark, hpower, htext⟩ := style.exists_exponentLiteral point
    obtain ⟨n, hn, hvalue⟩ := exists_literal_exponent negative hdigits hne hhead mark
    rw [hpower, sub_add_cancel] at hvalue
    rw [htext] at hn
    refine ⟨n, hn.trans ?_, hvalue⟩
    simp only [List.append_assoc]

end RealStyle

namespace Binary64

/-- The numbers that are rounded to a positive one are positive. -/
theorem roundingInterval_low_pos {units : Nat} (h : units ≠ 0) :
    0 < (roundingInterval units).low := by
  have hspare : twoTo (spareBits units) ≤ units :=
    calc 2 ^ spareBits units ≤ 2 ^ units.log2 :=
          Nat.pow_le_pow_right (by decide) (by rw [spareBits]; omega)
      _ ≤ units := Nat.log2_self_le h
  simp only [roundingInterval]
  split <;> omega

theorem nearestWithin?_ne_zero {interval : RoundingInterval} (hlow : 0 < interval.low)
    {units digits : Nat} {exponent : Int}
    (h : nearestWithin? interval units exponent = some digits) : digits ≠ 0 := by
  have hscale : 0 < interval.low * tenTo (-exponent).toNat :=
    Nat.mul_pos hlow (Nat.pow_pos (by decide))
  unfold nearestWithin? at h
  extract_lets scale grid value low high inside floor below above better at h
  split at h
  · next hbest =>
      have hinside : inside (floor * grid) = true := (Bool.and_eq_true_iff.mp hbest).1
      obtain rfl : floor = digits := Option.some.inj h
      intro hzero
      have hfrom : low ≤ floor * grid := by
        simp only [inside] at hinside
        split at hinside
        · exact of_decide_eq_true (Bool.and_eq_true_iff.mp hinside).1
        · exact (of_decide_eq_true (Bool.and_eq_true_iff.mp hinside).1).le
      rw [hzero, Nat.zero_mul] at hfrom
      exact absurd hscale (Nat.not_lt.mpr hfrom)
  · split at h
    · obtain rfl : floor + 1 = digits := Option.some.inj h
      exact Nat.succ_ne_zero floor
    · cases h

/-- The shortest digits of a positive number are not zero, if there are any. -/
theorem shortestDigits_cases {units : Nat} (h : units ≠ 0) :
    shortestDigits units = (0, 0) ∨ (shortestDigits units).1 ≠ 0 := by
  rw [shortestDigits]
  cases hfound : (List.range 17).findSome? fun count =>
      (nearestWithin? (roundingInterval units) units
        (decimalPoint units - (count + 1 : Nat))).map
          (·, decimalPoint units - (count + 1 : Nat)) with
  | none => exact .inl (by simp only [Option.getD_none])
  | some found =>
      right
      simp only [Option.getD_some]
      obtain ⟨count, _, hcount⟩ := List.exists_of_findSome?_eq_some hfound
      obtain ⟨digits, hdigits, rfl⟩ := Option.map_eq_some_iff.mp hcount
      exact nearestWithin?_ne_zero (roundingInterval_low_pos h) hdigits

/-- The number that a finite double is written as: its shortest digits. -/
def writtenValue : Binary64 → ℚ
  | .finite negative units =>
      if units = 0 then 0
      else signed negative ((shortestDigits units).1 * 10 ^ (shortestDigits units).2)
  | _ => 0

end Binary64

/-- A numeral without the zeros at its end. -/
def significantDigits (digits : Nat) : Text :=
  ((decimal digits).reverse.dropWhile (· = CodePoint.ofNat 48)).reverse

/-- Behind the significant digits there are zeros only. -/
theorem exists_decimal_eq_significantDigits (digits : Nat) :
    ∃ zeros, decimal digits =
      significantDigits digits ++ List.replicate zeros (CodePoint.ofChar '0') := by
  let tail := (decimal digits).reverse.takeWhile (· = CodePoint.ofNat 48)
  have hsplit : decimal digits = significantDigits digits ++ tail.reverse := by
    rw [significantDigits, ← List.reverse_append, List.takeWhile_append_dropWhile,
      List.reverse_reverse]
  have htail : tail.reverse = List.replicate tail.length (CodePoint.ofChar '0') := by
    rw [List.eq_replicate_iff]
    refine ⟨List.length_reverse, fun c hc => ?_⟩
    exact of_decide_eq_true (List.all_eq_true.mp List.all_takeWhile c (List.mem_reverse.mp hc))
  exact ⟨tail.length, htail ▸ hsplit⟩

theorem significantDigits_ne_nil {digits : Nat} (h : digits ≠ 0) :
    significantDigits digits ≠ [] := by
  obtain ⟨zeros, hzeros⟩ := exists_decimal_eq_significantDigits digits
  intro hnil
  rw [hnil, List.nil_append] at hzeros
  rw [← readDecimal_decimal digits, hzeros, readDecimal_zeros] at h
  exact h rfl

/-- The first significant digit is not zero. -/
theorem head?_significantDigits {digits : Nat} (h : digits ≠ 0) :
    (significantDigits digits).head? ≠ some (CodePoint.ofChar '0') := by
  obtain ⟨zeros, hzeros⟩ := exists_decimal_eq_significantDigits digits
  obtain ⟨first, rest, hcons⟩ := List.exists_cons_of_ne_nil (significantDigits_ne_nil h)
  rw [hcons, List.cons_append] at hzeros
  rw [hcons]
  intro hfirst
  have hwritten := decimal_of_head?_eq_zero (n := digits) (by rw [hzeros]; exact hfirst)
  rw [← readDecimal_decimal digits, hwritten] at h
  exact h readDecimal_zero

section Doubles

variable (negative : Bool)

/-- What is written of zero. -/
def zeroLiteral : NumberLiteral :=
  ⟨negative, [CodePoint.ofChar '0'], [CodePoint.ofChar '0'], none, by simp, by decide,
    fun _ => rfl, by decide⟩

theorem zeroLiteral_text : (zeroLiteral negative).text = signedText negative "0.0" := by
  cases negative <;> decide

theorem zeroLiteral_value : (zeroLiteral negative).value = 0 := by
  have hdigits : (zeroLiteral negative).digits = 0 := by cases negative <;> decide
  rw [NumberLiteral.value, hdigits]
  simp

theorem write_finite {units : Nat} (h : units ≠ 0) :
    jsonReals.write (.finite negative units) = signedText negative
      (jsonReals.writeDigits (significantDigits (Binary64.shortestDigits units).1)
        ((decimal (Binary64.shortestDigits units).1).length +
          (Binary64.shortestDigits units).2)) := by
  rw [RealStyle.write, if_neg h]
  rfl

theorem writeDigits_zero :
    jsonReals.writeDigits (significantDigits 0) ((decimal 0).length + 0) = "0.0" := by
  have hzero : decimal 0 = [CodePoint.ofChar '0'] := by
    rw [decimal, lowDigits]
    rfl
  rw [significantDigits, hzero]
  decide

/-- A finite double is written as a literal of its shortest digits. -/
theorem exists_literal_write (units : Nat) :
    ∃ n : NumberLiteral, n.text = jsonReals.write (.finite negative units) ∧
      n.value = (Binary64.finite negative units).writtenValue := by
  by_cases hzero : units = 0
  · refine ⟨zeroLiteral negative, ?_, ?_⟩
    · rw [zeroLiteral_text, RealStyle.write, if_pos hzero]
      rfl
    · rw [zeroLiteral_value, Binary64.writtenValue, if_pos hzero]
  rw [Binary64.writtenValue, if_neg hzero, write_finite negative hzero]
  rcases Binary64.shortestDigits_cases hzero with hnone | hdigits
  · refine ⟨zeroLiteral negative, ?_, ?_⟩
    · rw [zeroLiteral_text, hnone, writeDigits_zero]
    · rw [zeroLiteral_value, hnone]
      simp [signed]
  · generalize (Binary64.shortestDigits units).1 = digits at hdigits ⊢
    generalize (Binary64.shortestDigits units).2 = exponent
    obtain ⟨zeros, hzeros⟩ := exists_decimal_eq_significantDigits digits
    have hisDigits : IsDigits (significantDigits digits) :=
      (isDigits_append.mp (hzeros ▸ isDigits_decimal digits)).1
    obtain ⟨n, htext, hvalue⟩ := jsonReals.exists_literal_writeDigits negative hisDigits
      (significantDigits_ne_nil hdigits) (head?_significantDigits hdigits)
      ((decimal digits).length + exponent)
    have hread : digits = readDecimal (significantDigits digits) * 10 ^ zeros := by
      have hwritten := readDecimal_decimal digits
      rw [hzeros, readDecimal_append, readDecimal_zeros, List.length_replicate] at hwritten
      exact hwritten.symm
    have hlength : ((decimal digits).length : Int) + exponent -
        (significantDigits digits).length = zeros + exponent := by
      rw [hzeros, List.length_append, List.length_replicate]
      push_cast
      ring
    refine ⟨n, htext, ?_⟩
    have hnumber : (digits : ℚ) = readDecimal (significantDigits digits) * 10 ^ zeros := by
      exact_mod_cast hread
    rw [hvalue, hlength, zpow_add₀ (by norm_num), zpow_natCast, ← mul_assoc, ← hnumber]

/-- An integer is written as a literal. -/
theorem exists_literal_decimalInt (i : Int) :
    ∃ n : NumberLiteral, n.text = decimalInt i ∧ n.value = i := by
  have hhead (k : Nat) : (decimal k).head? = some (CodePoint.ofChar '0') →
      decimal k = [CodePoint.ofChar '0'] := decimal_of_head?_eq_zero
  have hvalue (n : NumberLiteral) (hfraction : n.fraction = []) (hexponent : n.exponent = none) :
      n.value = signed n.negative (readDecimal n.whole) := by
    rw [NumberLiteral.value_eq, NumberLiteral.digits, NumberLiteral.power, hfraction, hexponent]
    simp
  cases i with
  | ofNat k =>
      let n : NumberLiteral := ⟨false, decimal k, [], none, decimal_ne_nil k, isDigits_decimal k,
        hhead k, by decide⟩
      refine ⟨n, ?_, ?_⟩
      · rw [NumberLiteral.text_eq]
        simp [n, NumberLiteral.fractionText, NumberLiteral.exponentText, signedText, text,
          decimalInt]
      · rw [hvalue n rfl rfl, readDecimal_decimal]
        simp [n, signed]
  | negSucc k =>
      let n : NumberLiteral := ⟨true, decimal (k + 1), [], none, decimal_ne_nil (k + 1),
        isDigits_decimal (k + 1), hhead (k + 1), by decide⟩
      refine ⟨n, ?_, ?_⟩
      · rw [NumberLiteral.text_eq]
        simp [n, NumberLiteral.fractionText, NumberLiteral.exponentText, signedText, text,
          decimalInt]
        rfl
      · rw [hvalue n rfl rfl, readDecimal_decimal]
        simp [n, signed, Int.negSucc_eq]

end Doubles

end VibeScript
