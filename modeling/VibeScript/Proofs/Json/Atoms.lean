import VibeScript.Json.Parser
import VibeScript.Json.Printer
import VibeScript.Proofs.Text.Numeral

/-!
Named values and integers that were written are read back.

A number goes on as long as its characters do, so it is read back only in front of a
character that cannot continue it.  Where a value stands in a JSON text, what follows it is
the end of the text, a comma or a closing bracket.
-/

namespace VibeScript

/-- A text that may follow a value: it is empty, or starts with a comma or a closing
bracket. -/
def FollowsValue (t : Text) : Prop :=
  ∀ c ∈ t.head?, c ∈ [CodePoint.comma, CodePoint.closeBracket, CodePoint.closeBrace]

theorem followsValue_nil : FollowsValue [] := fun _ h => by cases h

theorem followsValue_cons {c : CodePoint} (rest : Text)
    (h : c ∈ [CodePoint.comma, CodePoint.closeBracket, CodePoint.closeBrace]) :
    FollowsValue (c :: rest) := by
  intro d hd
  obtain rfl : c = d := Option.some.inj hd
  exact h

namespace FollowsValue

variable {t : Text}

/-- What does not hold of a comma and the closing brackets does not hold of the character
behind a value. -/
theorem head?_ne (h : FollowsValue t) {c : CodePoint}
    (hc : c ∉ [CodePoint.comma, CodePoint.closeBracket, CodePoint.closeBrace]) :
    t.head? ≠ some c := fun hhead => hc (h c hhead)

theorem takeWhile_digits (h : FollowsValue t) : t.takeWhile (·.isAsciiDigit) = [] := by
  cases t with
  | nil => rfl
  | cons c rest =>
      have hdigit : ∀ d ∈ [CodePoint.comma, CodePoint.closeBracket, CodePoint.closeBrace],
          d.isAsciiDigit = false := by decide
      rw [List.takeWhile_cons_of_neg (by simp [hdigit c (h c rfl)])]

theorem fractionDigits (h : FollowsValue t) : fractionDigits t = [] := by
  cases t with
  | nil => rfl
  | cons c rest =>
      have hpoint : c ≠ CodePoint.ofChar '.' := by
        rintro rfl
        exact h.head?_ne (by decide) rfl
      rw [VibeScript.fractionDigits, if_neg hpoint]

theorem exponentPart? (h : FollowsValue t) : exponentPart? t = none := by
  cases t with
  | nil => rfl
  | cons c rest =>
      have hlower : c ≠ CodePoint.ofChar 'e' := by
        rintro rfl
        exact h.head?_ne (by decide) rfl
      have hupper : c ≠ CodePoint.ofChar 'E' := by
        rintro rfl
        exact h.head?_ne (by decide) rfl
      rw [VibeScript.exponentPart?, if_neg (not_or.mpr ⟨hlower, hupper⟩)]

end FollowsValue

/-- No named value has a digit among its first two characters. -/
theorem find?_namedValues_eq_none {t : Text} {c : CodePoint} (hc : c ∈ t.take 2)
    (hdigit : c.isAsciiDigit = true) :
    namedValues.find? (fun (name, _) => name.isPrefixOf t) = none := by
  have hnames : ∀ entry ∈ namedValues,
      2 ≤ entry.1.length ∧ ∀ d ∈ entry.1.take 2, d.isAsciiDigit = false := by
    simp only [namedValues, List.forall_mem_cons, List.not_mem_nil, false_imp_iff, implies_true,
      and_true]
    decide
  rw [List.find?_eq_none]
  intro entry hentry hstarts
  obtain ⟨hlength, hplain⟩ := hnames entry hentry
  obtain ⟨rest, rfl⟩ := List.isPrefixOf_iff_prefix.mp hstarts
  rw [List.take_append_of_le_length hlength] at hc
  rw [hplain c hc] at hdigit
  cases hdigit

/-- A written number is read as far as it goes. -/
theorem scanUnsigned?_decimal {n : Nat} (hshort : (decimal n).length ≤ digitLimit)
    {rest : Text} (hrest : FollowsValue rest) (negative : Bool) :
    scanUnsigned? negative (decimal n ++ rest) =
      some (.int (if negative then -n else n), (decimal n).length) := by
  have hrun : (decimal n ++ rest).takeWhile (·.isAsciiDigit) = decimal n := by
    rw [List.takeWhile_append_of_pos (isAsciiDigit_of_mem_decimal n), hrest.takeWhile_digits,
      List.append_nil]
  have hwhole : (if (decimal n).head? = some '0' then (decimal n).take 1 else decimal n) =
      decimal n := by
    split
    · next hzero =>
        rw [decimal_of_head?_eq_zero hzero]
        rfl
    · rfl
  have hread : readDecimalWithin (decimal n) = .ok n := by
    rw [readDecimalWithin, if_pos hshort, readDecimal_decimal]
  unfold scanUnsigned?
  simp only [hrun, hwhole, decimal_ne_nil, ↓reduceIte, List.drop_left, hrest.fractionDigits,
    List.drop_zero, hrest.exponentPart?, hread]

/-- A written integer is read back, if it does not have too many digits. -/
theorem scanAtom?_decimalInt {n : Int} (hn : n.natAbs < tenTo digitLimit) {rest : Text}
    (hrest : FollowsValue rest) :
    scanAtom? (decimalInt n ++ rest) = some (.int n, (decimalInt n).length) := by
  have hshort (m : Nat) (hm : m < tenTo digitLimit) : (decimal m).length ≤ digitLimit := by
    rw [tenTo] at hm
    exact length_decimal_le (by decide) hm
  cases n with
  | ofNat n =>
      obtain ⟨c, more, hcons, hdigit⟩ := exists_cons_decimal n
      have hfind := find?_namedValues_eq_none (t := decimal n ++ rest) (c := c)
        (by simp [hcons]) hdigit
      have hsign : ¬ (decimal n ++ rest).head? = some '-' := by
        rw [hcons]
        intro hminus
        obtain rfl : c = CodePoint.ofChar '-' := Option.some.inj hminus
        exact absurd hdigit (by decide)
      rw [decimalInt, scanAtom?, hfind]
      simp only [hsign, ↓reduceIte]
      exact scanUnsigned?_decimal (hshort n hn) hrest false
  | negSucc n =>
      obtain ⟨c, more, hcons, hdigit⟩ := exists_cons_decimal (n + 1)
      have hfind := find?_namedValues_eq_none
        (t := CodePoint.ofNat 45 :: decimal (n + 1) ++ rest) (c := c) (by simp [hcons]) hdigit
      rw [decimalInt, scanAtom?, hfind]
      simp only [↓reduceIte, List.cons_append, List.tail_cons,
        scanUnsigned?_decimal (hshort (n + 1) hn) hrest true]
      rfl

end VibeScript
