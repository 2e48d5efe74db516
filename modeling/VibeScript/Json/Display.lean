import VibeScript.Json.Basic
import VibeScript.Number.Shortest
import VibeScript.Text.Quoted

/-!
JSON values as a log line shows them.
-/

namespace VibeScript

/-- How doubles are written in a log line. -/
def displayReals : RealStyle := ⟨"nan", "inf", -3, 16, 2⟩

mutual

/-- A value inside another one: texts are quoted, and the three names have capitals. -/
def Json.display : Json → Text
  | .null => "None"
  | .bool true => "True"
  | .bool false => "False"
  | .int n => decimalInt n
  | .real x => displayReals.write x
  | .str s => s.quoted
  | .arr elements => "[" ++ displayElements elements ++ "]"
  | .obj members => [CodePoint.openBrace] ++ displayMembers members ++ [CodePoint.closeBrace]

def displayElements : List Json → Text
  | [] => []
  | [x] => x.display
  | x :: rest => x.display ++ ", " ++ displayElements rest

def displayMembers : List (Text × Json) → Text
  | [] => []
  | [(key, value)] => key.quoted ++ ": " ++ value.display
  | (key, value) :: rest => key.quoted ++ ": " ++ value.display ++ ", " ++ displayMembers rest

end

/-- A value on its own: a text is shown as it is. -/
def Json.displayPlain : Json → Text
  | .str s => s
  | value => value.display

/-- Whether a value counts as nothing: null, false, zero, or without content. -/
def Json.isNothing : Json → Bool
  | .null => true
  | .bool b => !b
  | .int n => n = 0
  | .real x => x.isZero
  | .str s => s.isEmpty
  | .arr elements => elements.isEmpty
  | .obj members => members.isEmpty

end VibeScript
