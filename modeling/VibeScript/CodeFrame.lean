import VibeScript.Text.Numeral

/-!
Errors as text, with the source line they point at.
-/

namespace VibeScript

/-- The source line at a position with a caret under the column, if the source has
that line.  Lines and columns count from one, and a column outside the line is
moved to its nearest end. -/
def codeFrame? (source : Text) (line column : Int) : Option Text :=
  if source = [] ∨ line ≤ 0 then none
  else match source.lines[line.toNat - 1]? with
    | none => none
    | some lineText =>
        let column := max 1 (min column.toNat (lineText.length + 1))
        let label := decimal line.toNat
        some ("  --> line " ++ label ++ ", column " ++ decimal column ++ "\n " ++
          label ++ " | " ++ lineText ++ "\n " ++
          List.replicate label.length CodePoint.space ++ " | " ++
          List.replicate (column - 1) CodePoint.space ++ "^")

/-- An error at a place of a source. -/
structure LocatedError where
  line : Int
  column : Int
  message : Text
  source : Text

/-- The error as text: one line with the place and the message, and the code frame
below it if there is one. -/
def LocatedError.text (e : LocatedError) : Text :=
  let header : Text :=
    "parse error at " ++ decimalInt e.line ++ ":" ++ decimalInt e.column ++ ": " ++ e.message
  match codeFrame? e.source e.line e.column with
  | some frame => header ++ "\n" ++ frame
  | none => header

/-- Several errors as one text, with a blank line between each two. -/
def errorSummary (errors : List LocatedError) : Text :=
  Text.join "\n\n" (errors.map LocatedError.text)

end VibeScript
