import VibeScript.Proofs.Json.Reading
import VibeScript.Proofs.Json.Writing
import VibeScript.Proofs.Number.Rounding

/-!
Values that are read and written again.

An integer stays as it is.  A number with a fraction or an exponent is written as the shortest
digits of its double, or by a name that goes beyond standard JSON if it is too great for one
(`JsonTree.isFinite_read_iff`, `JsonTree.denoted_read`).
-/

namespace VibeScript

namespace NumberLiteral

variable (n : NumberLiteral)

/-- The double that a literal with a fraction or an exponent is rounded to. -/
def rounded : Binary64 := .ofDecimal n.negative n.digits n.power

/-- A number that is not rounded to an infinity.  Integers are not rounded at all. -/
def InRange : Prop := n.IsInteger ∨ |n.value| < Binary64.overflowBound

/-- The number that is written for a literal that was read. -/
def echoed : ℚ := if n.IsInteger then n.value else n.rounded.writtenValue

/-- A number that is written as it was. -/
def Kept : Prop := n.InRange ∧ n.echoed = n.value

theorem abs_value : |n.value| = n.digits * 10 ^ n.power := by
  have hpositive : (0 : ℚ) ≤ n.digits * 10 ^ n.power := by positivity
  rw [value_eq, signed, abs_mul, abs_of_nonneg hpositive]
  cases n.negative <;> simp

theorem isFinite_rounded_iff : n.rounded.isFinite = true ↔ |n.value| < Binary64.overflowBound := by
  rw [abs_value, rounded]
  rcases Binary64.ofDecimal_cases n.negative n.digits n.power with
    ⟨hlt, units, _, hfinite⟩ | ⟨hle, hinfinite⟩
  · rw [hfinite]
    exact iff_of_true rfl hlt
  · rw [hinfinite]
    exact iff_of_false (by simp [Binary64.isFinite]) (not_lt.mpr hle)

theorem isFinite_read_iff : n.read.isFinite = true ↔ n.InRange := by
  rw [read, InRange]
  split
  · next hinteger => exact iff_of_true rfl (.inl hinteger)
  · next hreal =>
      simp only [hreal, false_or]
      exact n.isFinite_rounded_iff

theorem value_of_isInteger (h : n.IsInteger) : n.value = signed n.negative n.digits := by
  rw [value_eq, power, h.1, h.2]
  simp

theorem denoted_read : n.read.denoted = .number n.echoed := by
  rw [read, echoed]
  split
  · next hinteger =>
      rw [value_of_isInteger n hinteger, Json.denoted, signed]
      cases n.negative <;> simp
  · rfl

end NumberLiteral

mutual

/-- A value that was read has finite doubles exactly if its numbers are in range. -/
theorem JsonTree.isFinite_read_iff : (tree : JsonTree NumberLiteral) →
    (tree.read.isFinite = true ↔ ∀ n ∈ tree.numbers, n.InRange)
  | .null | .bool _ | .str _ => by simp [JsonTree.read, Json.isFinite, JsonTree.numbers]
  | .number n => by
      rw [JsonTree.read, JsonTree.numbers, n.isFinite_read_iff]
      simp
  | .arr elements => by
      rw [JsonTree.read, JsonTree.numbers, Json.isFinite]
      exact elementsFinite_readElements_iff elements
  | .obj members => by
      rw [JsonTree.read, JsonTree.numbers, Json.isFinite]
      exact membersFinite_readMembers_iff members

theorem elementsFinite_readElements_iff : (elements : List (JsonTree NumberLiteral)) →
    (elementsFinite (readElements elements) = true ↔
      ∀ n ∈ elementsNumbers elements, n.InRange)
  | [] => by simp [readElements, elementsFinite, elementsNumbers]
  | x :: rest => by
      rw [readElements, elementsFinite, elementsNumbers, Bool.and_eq_true, List.forall_mem_append,
        x.isFinite_read_iff, elementsFinite_readElements_iff rest]

theorem membersFinite_readMembers_iff : (members : List (Text × JsonTree NumberLiteral)) →
    (membersFinite (readMembers members) = true ↔ ∀ n ∈ membersNumbers members, n.InRange)
  | [] => by simp [readMembers, membersFinite, membersNumbers]
  | (_, value) :: rest => by
      rw [readMembers, membersFinite, membersNumbers, Bool.and_eq_true, List.forall_mem_append,
        value.isFinite_read_iff, membersFinite_readMembers_iff rest]

end

mutual

/-- What is written of a value that was read denotes it with its numbers echoed. -/
theorem JsonTree.denoted_read : (tree : JsonTree NumberLiteral) →
    tree.read.denoted = tree.map NumberLiteral.echoed
  | .null | .bool _ | .str _ => rfl
  | .number n => n.denoted_read
  | .arr elements => congrArg JsonTree.arr (elementsDenoted_readElements elements)
  | .obj members => congrArg JsonTree.obj (membersDenoted_readMembers members)

theorem elementsDenoted_readElements : (elements : List (JsonTree NumberLiteral)) →
    elementsDenoted (readElements elements) = mapElements NumberLiteral.echoed elements
  | [] => rfl
  | x :: rest => congrArg₂ List.cons x.denoted_read (elementsDenoted_readElements rest)

theorem membersDenoted_readMembers : (members : List (Text × JsonTree NumberLiteral)) →
    membersDenoted (readMembers members) = mapMembers NumberLiteral.echoed members
  | [] => rfl
  | (key, value) :: rest => congrArg₂ List.cons (congrArg (Prod.mk key) value.denoted_read)
      (membersDenoted_readMembers rest)

end

end VibeScript
