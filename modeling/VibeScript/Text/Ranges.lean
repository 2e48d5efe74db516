import VibeScript.Text.Basic

/-!
Sets of code points written as ascending lists of ranges.

A search through the ranges stops early because they ascend, and yet it finds exactly what lies in
one of them (`Ranges.contains_iff`).
-/

namespace VibeScript

/-- Each range is in order and ends before the next one starts. -/
def Ascending : List (Nat × Nat) → Prop
  | [] => True
  | [(first, last)] => first ≤ last
  | (first, last) :: (first', last') :: rest =>
      first ≤ last ∧ last < first' ∧ Ascending ((first', last') :: rest)

instance decidableAscending : (list : List (Nat × Nat)) → Decidable (Ascending list)
  | [] => isTrue trivial
  | [(first, last)] => inferInstanceAs (Decidable (first ≤ last))
  | (first, last) :: (first', last') :: rest =>
      have := decidableAscending ((first', last') :: rest)
      inferInstanceAs (Decidable (first ≤ last ∧ last < first' ∧ _))

/-- A set of code points: ranges in ascending order, both ends included. -/
structure Ranges where
  list : List (Nat × Nat)
  ascending : Ascending list := by decide +kernel

/-- Whether a number lies in one of the ranges of an ascending list.  The search stops at the first
range that ends at or after the number. -/
def inAscending (n : Nat) : List (Nat × Nat) → Bool
  | [] => false
  | (first, last) :: rest => if n ≤ last then first ≤ n else inAscending n rest

/-- Whether a number lies in one of the ranges. -/
def Ranges.contains (ranges : Ranges) (n : Nat) : Bool := inAscending n ranges.list

theorem Ascending.tail {range : Nat × Nat} {rest : List (Nat × Nat)}
    (h : Ascending (range :: rest)) : Ascending rest := by
  cases rest with
  | nil => trivial
  | cons next rest => exact h.2.2

/-- Behind a range every other one starts after its end. -/
theorem Ascending.lt_of_mem {range later : Nat × Nat} {rest : List (Nat × Nat)}
    (h : Ascending (range :: rest)) (hlater : later ∈ rest) : range.2 < later.1 := by
  induction rest generalizing range with
  | nil => cases hlater
  | cons next rest ih =>
      have hnext : range.2 < next.1 := h.2.1
      rcases List.mem_cons.mp hlater with rfl | hlater
      · exact hnext
      · have hordered : next.1 ≤ next.2 := by
          cases rest with
          | nil => exact h.2.2
          | cons _ _ => exact h.2.2.1
        exact Nat.lt_of_lt_of_le hnext (Nat.le_trans hordered (Nat.le_of_lt (ih h.2.2 hlater)))

theorem inAscending_iff {list : List (Nat × Nat)} (h : Ascending list) {n : Nat} :
    inAscending n list = true ↔ ∃ range ∈ list, range.1 ≤ n ∧ n ≤ range.2 := by
  induction list with
  | nil => simp [inAscending]
  | cons range rest ih =>
      have hhere : (∃ found ∈ range :: rest, found.1 ≤ n ∧ n ≤ found.2) ↔
          range.1 ≤ n ∧ n ≤ range.2 ∨ inAscending n rest = true := by
        rw [ih h.tail]
        simp only [List.mem_cons, or_and_right, exists_or, exists_eq_left]
      rw [hhere, inAscending]
      by_cases hend : n ≤ range.2
      · have hrest : inAscending n rest ≠ true := by
          rw [Ne, ih h.tail]
          rintro ⟨later, hlater, hfirst, _⟩
          have hbehind := h.lt_of_mem hlater
          omega
        simp [hend, hrest]
      · simp [hend]

/-- A number is found exactly if it lies in one of the ranges. -/
theorem Ranges.contains_iff {ranges : Ranges} {n : Nat} :
    ranges.contains n = true ↔ ∃ range ∈ ranges.list, range.1 ≤ n ∧ n ≤ range.2 :=
  inAscending_iff ranges.ascending

end VibeScript
