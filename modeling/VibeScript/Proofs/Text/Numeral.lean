import VibeScript.Text.Numeral

/-!
Decimal numerals: their characters, their ends and their length.
-/

namespace VibeScript

/-- A numeral holds digits only. -/
theorem not_mem_decimal {c : CodePoint} (h : c.isAsciiDigit = false) (n : Nat) :
    c ∉ decimal n := by
  intro hmem
  rw [isAsciiDigit_of_mem_decimal n c hmem] at h
  cases h

/-- A numeral starts with a digit. -/
theorem exists_cons_decimal (n : Nat) :
    ∃ c rest, decimal n = c :: rest ∧ c.isAsciiDigit = true := by
  obtain ⟨c, rest, hcons⟩ := List.exists_cons_of_ne_nil (decimal_ne_nil n)
  exact ⟨c, rest, hcons, isAsciiDigit_of_mem_decimal n c (by simp [hcons])⟩

/-- The most significant digit of a number that is not zero is not zero. -/
theorem getLast?_lowDigits_ne_zero {n : Nat} (hn : n ≠ 0) :
    (lowDigits n).getLast? ≠ some 0 := by
  induction n using lowDigits.induct with
  | case1 n hten =>
      rw [lowDigits, if_pos hten]
      simpa using hn
  | case2 n hten ih =>
      rw [lowDigits, if_neg hten]
      obtain ⟨d, rest, hcons⟩ : ∃ d rest, lowDigits (n / 10) = d :: rest := by
        rw [lowDigits]
        split <;> exact ⟨_, _, rfl⟩
      have hquotient : n / 10 ≠ 0 := by omega
      have hlast := ih hquotient
      rw [hcons] at hlast ⊢
      rwa [List.getLast?_cons_cons]

/-- Only zero is written with a zero in front. -/
theorem decimal_of_head?_eq_zero {n : Nat} (h : (decimal n).head? = some (digitChar 0)) :
    decimal n = [digitChar 0] := by
  by_cases hn : n = 0
  · subst hn
    rw [decimal, lowDigits]
    rfl
  · exfalso
    rw [decimal, List.head?_map, List.head?_reverse] at h
    obtain ⟨d, hd, hchar⟩ := Option.map_eq_some_iff.mp h
    have hten := lowDigits_lt n d (List.mem_of_getLast? hd)
    have hzero : d = 0 := by
      rw [← digitValue_digitChar hten, hchar]
      rfl
    exact getLast?_lowDigits_ne_zero hn (hzero ▸ hd)

/-- A number below a power of ten has no more digits than the exponent says. -/
theorem length_decimal_le {n k : Nat} (hk : 0 < k) (h : n < Nat.pow 10 k) :
    (decimal n).length ≤ k := by
  rw [decimal, List.length_map, List.length_reverse]
  induction k generalizing n with
  | zero => exact absurd hk (Nat.lt_irrefl 0)
  | succ k ih =>
      rw [lowDigits]
      split
      · exact Nat.succ_le_succ (Nat.zero_le k)
      · next hten =>
          have hpos : 0 < k := by
            cases k with
            | zero => exact absurd h hten
            | succ k => exact Nat.succ_pos k
          have hquotient : n / 10 < Nat.pow 10 k :=
            (Nat.div_lt_iff_lt_mul (by decide)).mpr h
          exact Nat.succ_le_succ (ih hpos hquotient)

end VibeScript
