import VibeScript.CodeFrame
import VibeScript.Proofs.Text.Lines
import VibeScript.Proofs.Text.Numeral

/-!
What a code frame looks like.

A line of a source has a code frame of three lines, whatever the column: the place, the line behind
a gutter, and the caret (`codeFrame?_eq`).  The gutter takes as much room in front of the caret as
in front of the line, so the caret stands under the column that it is meant for
(`exists_pointsAt`).
-/

namespace VibeScript

/-- The place in the first line of a code frame. -/
def framePlace (line column : Nat) : Text :=
  "  --> line " ++ decimal line ++ ", column " ++ decimal column

/-- What stands in front of the line that a code frame quotes. -/
def frameGutter (line : Nat) : Text := CodePoint.space :: decimal line ++ " | "

/-- What stands in front of the caret of a code frame. -/
def frameIndent (line column : Nat) : Text :=
  CodePoint.space :: List.replicate (decimal line).length CodePoint.space ++ " | " ++
    List.replicate (column - 1) CodePoint.space

/-- The column of a line, or the one right behind it, that is nearest to a given one. -/
def nearestColumn (lineText : Text) (column : Int) : Nat :=
  (max 1 (min column (lineText.length + 1))).toNat

/-- A frame for a column of a line.  It has three lines: the place, the line behind the gutter, and
a line that has its only caret at its end, as far to the right as the column of the quoted line. -/
def PointsAt (frame lineText : Text) (line column : Nat) : Prop :=
  ∃ indent, frame.lines =
      [framePlace line column, frameGutter line ++ lineText, indent ++ [CodePoint.ofChar '^']] ∧
    CodePoint.ofChar '^' ∉ indent ∧ indent.length = (frameGutter line).length + (column - 1)

section

variable {source lineText : Text} {line : Nat}

/-- The lines of a code frame. -/
theorem codeFrame?_eq (hsource : source ≠ []) (hline : 1 ≤ line)
    (hlineText : source.lines[line - 1]? = some lineText) (column : Int) :
    codeFrame? source line column =
      some (framePlace line (nearestColumn lineText column) ++ CodePoint.newline ::
        (frameGutter line ++ lineText ++ CodePoint.newline ::
          (frameIndent line (nearestColumn lineText column) ++ [CodePoint.ofChar '^']))) := by
  have hcondition : ¬ (source = [] ∨ (line : Int) ≤ 0) := by
    rw [not_or]
    exact ⟨hsource, by omega⟩
  have hcolumn : nearestColumn lineText column =
      max 1 (min column.toNat (lineText.length + 1)) := by
    rw [nearestColumn]
    omega
  have hbreak : text "\n " = [CodePoint.newline, CodePoint.space] := rfl
  simp only [codeFrame?, if_neg hcondition, Int.toNat_natCast, hlineText, hbreak, hcolumn,
    framePlace, frameGutter, frameIndent, List.append_assoc, List.cons_append, List.nil_append]
  rfl

theorem not_mem_framePlace {c : CodePoint} (hdigit : c.isAsciiDigit = false)
    (hline : c ∉ text "  --> line ") (hcolumn : c ∉ text ", column ") (line column : Nat) :
    c ∉ framePlace line column := by
  simp only [framePlace, List.mem_append, not_or]
  exact ⟨⟨⟨hline, not_mem_decimal hdigit line⟩, hcolumn⟩, not_mem_decimal hdigit column⟩

theorem not_mem_frameGutter {c : CodePoint} (hdigit : c.isAsciiDigit = false)
    (hbar : c ∉ text " | ") (line : Nat) : c ∉ frameGutter line := by
  have hspace : c ≠ CodePoint.space := fun heq => hbar (heq ▸ List.mem_cons_self)
  simp only [frameGutter, List.mem_append, List.mem_cons, not_or]
  exact ⟨⟨hspace, not_mem_decimal hdigit line⟩, hbar⟩

theorem not_mem_frameIndent {c : CodePoint} (hbar : c ∉ text " | ") (line column : Nat) :
    c ∉ frameIndent line column := by
  have hspace : c ≠ CodePoint.space := fun heq => hbar (heq ▸ List.mem_cons_self)
  have hspaces (n : Nat) : c ∉ List.replicate n CodePoint.space :=
    fun hmem => hspace (List.eq_of_mem_replicate hmem)
  simp only [frameIndent, List.mem_append, List.mem_cons, not_or]
  exact ⟨⟨⟨hspace, hspaces _⟩, hbar⟩, hspaces _⟩

/-- The number of the line takes as much room as the blanks below it. -/
theorem length_frameIndent (line column : Nat) :
    (frameIndent line column).length = (frameGutter line).length + (column - 1) := by
  simp only [frameIndent, frameGutter, List.length_append, List.length_cons,
    List.length_replicate]

/-- Every line of a source has a code frame, and its caret stands under the column that is nearest
to the given one. -/
theorem exists_pointsAt (hsource : source ≠ []) (hline : 1 ≤ line)
    (hlineText : source.lines[line - 1]? = some lineText) (column : Int) :
    ∃ frame, codeFrame? source line column = some frame ∧
      PointsAt frame lineText line (nearestColumn lineText column) := by
  refine ⟨_, codeFrame?_eq hsource hline hlineText column, _, ?_,
    not_mem_frameIndent (by decide) line _, length_frameIndent line _⟩
  have hplace : CodePoint.newline ∉ framePlace line (nearestColumn lineText column) :=
    not_mem_framePlace (by decide) (by decide) (by decide) line _
  have hquoted : CodePoint.newline ∉ frameGutter line ++ lineText := by
    rw [List.mem_append, not_or]
    exact ⟨not_mem_frameGutter (by decide) (by decide) line,
      Text.newline_not_mem_of_mem_lines (List.mem_of_getElem? hlineText)⟩
  have hcaret : CodePoint.newline ∉
      frameIndent line (nearestColumn lineText column) ++ [CodePoint.ofChar '^'] := by
    rw [List.mem_append, not_or]
    exact ⟨not_mem_frameIndent (by decide) line _, by decide⟩
  rw [Text.lines_append_newline, Text.lines_append_newline, Text.lines_eq_singleton hplace,
    Text.lines_eq_singleton hquoted, Text.lines_eq_singleton hcaret]
  rfl

end

/-- A frame that points somewhere is not empty. -/
theorem PointsAt.ne_nil {frame lineText : Text} {line column : Nat}
    (h : PointsAt frame lineText line column) : frame ≠ [] := by
  rintro rfl
  obtain ⟨indent, hlines, _⟩ := h
  rw [Text.lines_nil] at hlines
  cases hlines

end VibeScript
