import VibeScript.Text.Units

/-!
The two counts of a line.

An offset in UTF-16 code units that lies in a part of a text is the offset in that part,
counted from the units before it (`indexOfUnit_append`), and the boundaries between parts
are the same in both counts (`indexToUtf16_append`).
-/

namespace VibeScript

namespace Text

@[simp] theorem indexOfUnit_zero (t : Text) : t.indexOfUnit 0 = 0 := by
  cases t with
  | nil => rfl
  | cons c rest => rw [indexOfUnit, if_pos c.utf16Width_pos]

/-- Behind the units of a text the count goes on in what follows. -/
theorem indexOfUnit_append (s t : Text) (offset : Nat) :
    (s ++ t).indexOfUnit (s.utf16Length + offset) = s.length + t.indexOfUnit offset := by
  induction s with
  | nil => simp
  | cons c rest ih =>
      have hpast : ¬ c.utf16Width + utf16Length rest + offset < c.utf16Width := by omega
      rw [List.cons_append, utf16Length_cons, indexOfUnit, if_neg hpast, Nat.add_assoc,
        Nat.add_sub_cancel_left, ih, List.length_cons]
      omega

/-- A unit of a text belongs to one of its characters. -/
theorem indexOfUnit_append_lt {s : Text} (t : Text) {offset : Nat} (h : offset < s.utf16Length) :
    (s ++ t).indexOfUnit offset < s.length := by
  induction s generalizing offset with
  | nil => cases h
  | cons c rest ih =>
      rw [utf16Length_cons] at h
      rw [List.cons_append, indexOfUnit, List.length_cons]
      split
      · exact Nat.succ_pos _
      · exact Nat.succ_lt_succ (ih (by omega))

theorem indexToUtf16_natCast (t : Text) (index : Nat) :
    t.indexToUtf16 index = utf16Length (t.take index) := by
  have hsign : ¬ (index : Int) < 0 := by omega
  rw [indexToUtf16, upTo, if_neg hsign, Int.toNat_natCast]

theorem indexToUtf16_append (s t : Text) : (s ++ t).indexToUtf16 s.length = s.utf16Length := by
  rw [indexToUtf16_natCast, List.take_left]

/-- One more character adds its width. -/
theorem utf16Length_take_succ {t : Text} {index : Nat} (hindex : index < t.length) :
    utf16Length (t.take (index + 1)) = utf16Length (t.take index) + t[index].utf16Width := by
  rw [← List.take_append_getElem hindex, utf16Length_append, utf16Length_cons, utf16Length_nil,
    Nat.add_zero]

/-- An offset within a part of a text, its two ends included, is an index within it. -/
theorem utf16ToIndex_within (before word after : Text) {offset : Int}
    (hstart : before.utf16Length ≤ offset) (hstop : offset ≤ (before ++ word).utf16Length) :
    before.length ≤ (before ++ word ++ after).utf16ToIndex offset ∧
      (before ++ word ++ after).utf16ToIndex offset ≤ before.length + word.length := by
  obtain ⟨within, hwithin⟩ : ∃ within, offset.toNat = before.utf16Length + within :=
    Nat.exists_eq_add_of_le (by omega)
  rw [utf16Length_append] at hstop
  rw [utf16ToIndex, hwithin, List.append_assoc, indexOfUnit_append]
  rcases Nat.lt_or_ge within word.utf16Length with hlt | hge
  · have hindex := indexOfUnit_append_lt after hlt
    omega
  · have hend : within = word.utf16Length + 0 := by omega
    rw [hend, indexOfUnit_append, indexOfUnit_zero]
    omega

end Text

end VibeScript
