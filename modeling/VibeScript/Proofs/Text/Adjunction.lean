import Mathlib
import VibeScript.Proofs.Text.Units

/-!
The conversions between the two counts of a line as a Galois connection.

An index has no more than a given number of units in front of it exactly if it is not behind the
index of that offset (`utf16Length_take_le_iff`).  This and the width of a character, one unit or
two, decide what the conversions make of each other's answers (`utf16_conversions_adjoint`).
-/

namespace VibeScript

theorem CodePoint.utf16Width_le_two (c : CodePoint) : c.utf16Width ≤ 2 := by
  unfold utf16Width
  split <;> decide

namespace Text

variable {t : Text} {index offset : Nat}

theorem indexToUtf16_of_neg {index : Int} (hindex : index < 0) :
    t.indexToUtf16 index = utf16Length (t.take (t.length + index).toNat) := by
  rw [indexToUtf16, upTo, if_pos hindex]

theorem utf16Length_take_mono {longer : Nat} (h : index ≤ longer) :
    utf16Length (t.take index) ≤ utf16Length (t.take longer) := by
  obtain ⟨more, rfl⟩ := Nat.exists_eq_add_of_le h
  rw [List.take_add, utf16Length_append]
  exact Nat.le_add_right _ _

theorem utf16Length_take_lt {longer : Nat} (h : index < longer) (hlonger : longer ≤ t.length) :
    utf16Length (t.take index) < utf16Length (t.take longer) := by
  have hindex : index < t.length := Nat.lt_of_lt_of_le h hlonger
  have hwidth := t[index].utf16Width_pos
  calc utf16Length (t.take index) < utf16Length (t.take (index + 1)) := by
        rw [utf16Length_take_succ hindex]
        omega
    _ ≤ utf16Length (t.take longer) := utf16Length_take_mono h

/-- An index has no more than that many units in front of it exactly if it is not behind the
character that the next unit belongs to. -/
theorem utf16Length_take_le_iff (hindex : index ≤ t.length) :
    utf16Length (t.take index) ≤ offset ↔ index ≤ t.indexOfUnit offset := by
  induction t generalizing index offset with
  | nil =>
      obtain rfl : index = 0 := Nat.le_zero.mp hindex
      simp
  | cons c rest ih =>
      cases index with
      | zero => simp
      | succ index =>
          have hrest : utf16Length (rest.take index) ≤ offset - c.utf16Width ↔
              index ≤ indexOfUnit rest (offset - c.utf16Width) :=
            ih (Nat.le_of_succ_le_succ hindex)
          rw [List.take_succ_cons, utf16Length_cons, indexOfUnit]
          split <;> omega

/-- The units in front of an index lead back to it. -/
theorem indexOfUnit_utf16Length_take (hindex : index ≤ t.length) :
    t.indexOfUnit (utf16Length (t.take index)) = index := by
  have hends := indexOfUnit_append (t.take index) (t.drop index) 0
  rwa [List.take_append_drop, Nat.add_zero, indexOfUnit_zero, Nat.add_zero,
    List.length_take_of_le hindex] at hends

/-- The character of a unit begins there or, if the unit is the second half of a pair, right
before it. -/
theorem le_utf16Length_take_indexOfUnit (hoffset : offset ≤ t.utf16Length) :
    offset ≤ utf16Length (t.take (t.indexOfUnit offset)) + 1 := by
  rcases Nat.lt_or_ge (t.indexOfUnit offset) t.length with hlt | hge
  · have hnext : ¬ utf16Length (t.take (t.indexOfUnit offset + 1)) ≤ offset := by
      rw [utf16Length_take_le_iff hlt]
      exact Nat.not_succ_le_self _
    rw [utf16Length_take_succ hlt] at hnext
    have hwidth := t[t.indexOfUnit offset].utf16Width_le_two
    omega
  · rw [List.take_of_length_le hge]
    exact Nat.le_succ_of_le hoffset

theorem indexToUtf16_le_iff (hindex : index ≤ t.length) (offset : Int) :
    (t.indexToUtf16 index : Int) ≤ max 0 offset ↔ index ≤ t.utf16ToIndex offset := by
  rw [indexToUtf16_natCast, utf16ToIndex, ← utf16Length_take_le_iff hindex]
  omega

end Text

/-- The conversions between code points and UTF-16 code units are a Galois connection, on the
indices of a text and the offsets from zero on: the index of an offset is the greatest one whose
own offset is not past it, where a negative offset counts as zero.  So an index comes back as it
was, and an offset inside the line comes back as it was or one unit smaller.  Both conversions are
monotone, the one of indices strictly so within the text; an index below zero counts from the end
and is in order with such indices only. -/
theorem utf16_conversions_adjoint (t : Text) :
    GaloisConnection (fun index : Set.Iic t.length => t.indexToUtf16 (index : Nat))
      (fun offset : Nat => ⟨t.utf16ToIndex offset, t.utf16ToIndex_le_length offset⟩) ∧
    (∀ offset : Int, IsGreatest
      {index : Nat | index ≤ t.length ∧ (t.indexToUtf16 index : Int) ≤ max 0 offset}
      (t.utf16ToIndex offset)) ∧
    (∀ index : Nat, index ≤ t.length → t.utf16ToIndex (t.indexToUtf16 index) = index) ∧
    (∀ offset : Int, (t.indexToUtf16 (t.utf16ToIndex offset) : Int) ≤ max 0 offset) ∧
    (∀ offset : Int, 0 ≤ offset → offset ≤ t.utf16Length →
      offset ≤ t.indexToUtf16 (t.utf16ToIndex offset) + 1) ∧
    Monotone t.utf16ToIndex ∧
    MonotoneOn t.indexToUtf16 (Set.Ici 0) ∧ MonotoneOn t.indexToUtf16 (Set.Iio 0) ∧
    StrictMonoOn t.indexToUtf16 (Set.Icc 0 t.length) := by
  have hback (offset : Int) : (t.indexToUtf16 (t.utf16ToIndex offset) : Int) ≤ max 0 offset :=
    (Text.indexToUtf16_le_iff (t.utf16ToIndex_le_length offset) offset).mpr (Nat.le_refl _)
  refine ⟨?galois, ?greatest, ?index, hback, ?offset, ?forward, ?indices, ?fromEnd, ?strict⟩
  case galois =>
    intro index offset
    have hle := Text.indexToUtf16_le_iff index.2 offset
    rw [max_eq_right (Int.natCast_nonneg offset), Int.ofNat_le] at hle
    exact hle
  case greatest =>
    intro offset
    refine ⟨⟨t.utf16ToIndex_le_length offset, hback offset⟩, ?_⟩
    rintro index ⟨hindex, hle⟩
    exact (Text.indexToUtf16_le_iff hindex offset).mp hle
  case index =>
    intro index hindex
    rw [Text.indexToUtf16_natCast, Text.utf16ToIndex, Int.toNat_natCast,
      Text.indexOfUnit_utf16Length_take hindex]
  case offset =>
    intro offset hsign hoffset
    have hunits : offset.toNat ≤ t.utf16Length := by omega
    have hnext := Text.le_utf16Length_take_indexOfUnit hunits
    rw [Text.indexToUtf16_natCast, Text.utf16ToIndex]
    omega
  case forward =>
    intro offset later hle
    apply (Text.indexToUtf16_le_iff (t.utf16ToIndex_le_length offset) later).mp
    have hoffset := hback offset
    omega
  case indices =>
    intro index hindex later hlater hle
    obtain ⟨index, rfl⟩ := Int.eq_ofNat_of_zero_le hindex
    obtain ⟨later, rfl⟩ := Int.eq_ofNat_of_zero_le hlater
    rw [Text.indexToUtf16_natCast, Text.indexToUtf16_natCast]
    exact Text.utf16Length_take_mono (Int.ofNat_le.mp hle)
  case fromEnd =>
    intro index hindex later hlater hle
    rw [Text.indexToUtf16_of_neg hindex, Text.indexToUtf16_of_neg hlater]
    exact Text.utf16Length_take_mono (by omega)
  case strict =>
    intro index hindex later hlater hlt
    obtain ⟨index, rfl⟩ := Int.eq_ofNat_of_zero_le hindex.1
    obtain ⟨later, rfl⟩ := Int.eq_ofNat_of_zero_le hlater.1
    rw [Text.indexToUtf16_natCast, Text.indexToUtf16_natCast]
    exact Text.utf16Length_take_lt (Int.ofNat_lt.mp hlt) (Int.ofNat_le.mp hlater.2)

/-- A negative offset comes back as zero, and an index that counts from the end has units in front
of it where index zero has none. -/
theorem utf16_conversions_negative :
    (-1 : Int) < (text "a").indexToUtf16 ((text "a").utf16ToIndex (-1)) ∧
      (text "ab").indexToUtf16 0 < (text "ab").indexToUtf16 (-1) := by
  decide

end VibeScript
