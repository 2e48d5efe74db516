import VibeScript.Text.Basic

/-!
Numbers as text: decimal and hexadecimal numerals, and reading decimal
numerals whose length is bounded.

Reading a written number gives the number back (`readDecimal_decimal`).
-/

namespace VibeScript

/-- The decimal digits of a number, the least significant one first. -/
def lowDigits (n : Nat) : List Nat :=
  if n < 10 then [n] else n % 10 :: lowDigits (n / 10)
termination_by n
decreasing_by omega

/-- The character of a decimal digit. -/
def digitChar (d : Nat) : CodePoint := CodePoint.ofNat (48 + d)

/-- A number in decimal, without leading zeros. -/
def decimal (n : Nat) : Text := (lowDigits n).reverse.map digitChar

/-- An integer in decimal, with a minus sign if it is negative. -/
def decimalInt : Int → Text
  | .ofNat n => decimal n
  | .negSucc n => CodePoint.ofNat 45 :: decimal (n + 1)

/-- The number that decimal digits denote. -/
def readDecimal (digits : Text) : Nat :=
  digits.foldl (fun value c => value * 10 + c.digitValue) 0

theorem lowDigits_lt (n : Nat) : ∀ d ∈ lowDigits n, d < 10 := by
  induction n using lowDigits.induct with
  | case1 n hn =>
      rw [lowDigits]
      simp [hn]
  | case2 n hn ih =>
      rw [lowDigits]
      simp only [hn, ↓reduceIte, List.mem_cons]
      intro d hd
      rcases hd with rfl | hd
      · omega
      · exact ih d hd

theorem digitValue_digitChar {d : Nat} (hd : d < 10) : (digitChar d).digitValue = d := by
  have hval : (digitChar d).val = 48 + d := CodePoint.val_ofNat (by omega)
  simp [CodePoint.digitValue, hval]

theorem isAsciiDigit_digitChar {d : Nat} (hd : d < 10) :
    (digitChar d).isAsciiDigit = true := by
  have hval : (digitChar d).val = 48 + d := CodePoint.val_ofNat (by omega)
  simp only [CodePoint.isAsciiDigit, hval, Bool.and_eq_true, decide_eq_true_eq]
  omega

theorem isAsciiDigit_of_mem_decimal (n : Nat) :
    ∀ c ∈ decimal n, c.isAsciiDigit = true := by
  intro c hc
  simp only [decimal, List.mem_map, List.mem_reverse] at hc
  obtain ⟨d, hd, rfl⟩ := hc
  exact isAsciiDigit_digitChar (lowDigits_lt n d hd)

theorem decimal_ne_nil (n : Nat) : decimal n ≠ [] := by
  rw [decimal, lowDigits]
  split <;> simp

/-- Reading a written number gives the number back. -/
theorem readDecimal_decimal (n : Nat) : readDecimal (decimal n) = n := by
  induction n using lowDigits.induct with
  | case1 n hn =>
      rw [decimal, lowDigits]
      simp [hn, readDecimal, digitValue_digitChar hn]
  | case2 n hn ih =>
      have hlast : n % 10 < 10 := Nat.mod_lt _ (by decide)
      rw [readDecimal, decimal] at ih ⊢
      rw [lowDigits]
      simp only [hn, ↓reduceIte, List.reverse_cons, List.map_append, List.map_cons,
        List.map_nil, List.foldl_append, List.foldl_cons, List.foldl_nil, ih,
        digitValue_digitChar hlast]
      omega

/-- The longest decimal numeral that is turned into a number, and the longest
that a number is written as. -/
def digitLimit : Nat := 4300

/-- A decimal numeral was longer than `digitLimit`. -/
structure TooManyDigits where
  count : Nat
deriving DecidableEq

def TooManyDigits.message (e : TooManyDigits) : Text :=
  "Exceeds the limit (" ++ decimal digitLimit ++
    " digits) for integer string conversion: value has " ++ decimal e.count ++
    " digits; use sys.set_int_max_str_digits() to increase the limit"

/-- The number that decimal digits denote, if there are not too many of them.
Leading zeros count. -/
def readDecimalWithin (digits : Text) : Except TooManyDigits Nat :=
  if digits.length ≤ digitLimit then .ok (readDecimal digits)
  else .error ⟨digits.length⟩

/-- The character of a hexadecimal digit, in lower case. -/
def hexChar (d : Nat) : CodePoint :=
  if d < 10 then CodePoint.ofNat (48 + d) else CodePoint.ofNat (87 + d)

/-- The lowest `width` hexadecimal digits of a number. -/
def hexadecimal : Nat → Nat → Text
  | 0, _ => []
  | width + 1, n => hexadecimal width (n / 16) ++ [hexChar (n % 16)]

/-- The value of a hexadecimal digit of either case. -/
def CodePoint.hexValue? (c : CodePoint) : Option Nat :=
  if 48 ≤ c.val ∧ c.val ≤ 57 then some (c.val - 48)
  else if 97 ≤ c.val ∧ c.val ≤ 102 then some (c.val - 87)
  else if 65 ≤ c.val ∧ c.val ≤ 70 then some (c.val - 55)
  else none

end VibeScript
