import VibeScript.Text.Basic

/-!
Positions in UTF-16 code units.

An editor counts a line in UTF-16 code units, the compiler in code points.
`indexToUtf16` and `utf16ToIndex` convert between the two counts on one line.
-/

namespace VibeScript

/-- How many UTF-16 code units a character takes. -/
def CodePoint.utf16Width (c : CodePoint) : Nat := if c.val > 0xFFFF then 2 else 1

theorem CodePoint.utf16Width_pos (c : CodePoint) : 0 < c.utf16Width := by
  unfold utf16Width
  split <;> decide

namespace Text

/-- The length of a text in UTF-16 code units. -/
def utf16Length : Text → Nat
  | [] => 0
  | c :: rest => c.utf16Width + utf16Length rest

@[simp] theorem utf16Length_nil : utf16Length [] = 0 := rfl

@[simp] theorem utf16Length_cons (c : CodePoint) (t : Text) :
    utf16Length (c :: t) = c.utf16Width + utf16Length t := rfl

theorem utf16Length_append (s t : Text) :
    utf16Length (s ++ t) = utf16Length s + utf16Length t := by
  induction s with
  | nil => simp
  | cons c rest ih => simp [ih, Nat.add_assoc]

/-- The part of a text before an index.  A negative index counts from the end. -/
def upTo (t : Text) (index : Int) : Text :=
  if index < 0 then t.take (t.length + index).toNat else t.take index.toNat

/-- The UTF-16 offset of an index of the text. -/
def indexToUtf16 (t : Text) (index : Int) : Nat := (t.upTo index).utf16Length

/-- The index of the character that holds the unit at an offset, or the length
of the text if the offset is past its end. -/
def indexOfUnit : Text → Nat → Nat
  | [], _ => 0
  | c :: rest, offset =>
      if offset < c.utf16Width then 0 else indexOfUnit rest (offset - c.utf16Width) + 1

/-- The index of a UTF-16 offset.  An offset between the two halves of a pair
belongs to that character, and offsets outside the text clamp to its ends. -/
def utf16ToIndex (t : Text) (offset : Int) : Nat := indexOfUnit t offset.toNat

theorem indexOfUnit_le_length (t : Text) (offset : Nat) : indexOfUnit t offset ≤ t.length := by
  induction t generalizing offset with
  | nil => simp [indexOfUnit]
  | cons c rest ih =>
      simp only [indexOfUnit, List.length_cons]
      split
      · omega
      · exact Nat.succ_le_succ (ih _)

theorem utf16ToIndex_le_length (t : Text) (offset : Int) : t.utf16ToIndex offset ≤ t.length :=
  indexOfUnit_le_length t offset.toNat

end Text

end VibeScript
