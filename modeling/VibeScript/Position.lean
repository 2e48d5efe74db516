import VibeScript.Text.Basic

/-!
Positions in a source text.
-/

namespace VibeScript

/-- A place in a source: line and column, both counted from one, columns in
code points. -/
structure Position where
  line : Nat
  column : Nat
deriving DecidableEq

namespace Position

/-- Where every source starts. -/
def start : Position := ⟨1, 1⟩

/-- The position after one more character.  A line feed starts the next line,
wherever it stands. -/
def advance (pos : Position) (c : CodePoint) : Position :=
  if c = CodePoint.newline then ⟨pos.line + 1, 1⟩ else ⟨pos.line, pos.column + 1⟩

/-- The position after all the characters of a text. -/
def advanceBy (pos : Position) (t : Text) : Position := t.foldl advance pos

@[simp] theorem advanceBy_nil (pos : Position) : pos.advanceBy [] = pos := rfl

@[simp] theorem advanceBy_cons (pos : Position) (c : CodePoint) (t : Text) :
    pos.advanceBy (c :: t) = (pos.advance c).advanceBy t := rfl

theorem advanceBy_append (pos : Position) (s t : Text) :
    pos.advanceBy (s ++ t) = (pos.advanceBy s).advanceBy t := by
  simp [advanceBy, List.foldl_append]

end Position

end VibeScript
