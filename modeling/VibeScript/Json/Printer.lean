import VibeScript.Json.Basic
import VibeScript.Number.Shortest

/-!
JSON values as text, in the compact form that messages have on the wire.

Only the quotation mark, the backslash and the control characters are escaped.
-/

namespace VibeScript

/-- How doubles are written in a message.  The names of the numbers that are not
finite go beyond standard JSON. -/
def jsonReals : RealStyle := ⟨"NaN", "Infinity", -3, 16, 2⟩

/-- A character inside a JSON string. -/
def jsonEscape (c : CodePoint) : Text :=
  if c = CodePoint.quote then [CodePoint.backslash, CodePoint.quote]
  else if c = CodePoint.backslash then [CodePoint.backslash, CodePoint.backslash]
  else if 0x20 ≤ c.val then [c]
  else if c.val = 8 then [CodePoint.backslash, 'b']
  else if c.val = 9 then [CodePoint.backslash, 't']
  else if c.val = 10 then [CodePoint.backslash, 'n']
  else if c.val = 12 then [CodePoint.backslash, 'f']
  else if c.val = 13 then [CodePoint.backslash, 'r']
  else CodePoint.backslash :: 'u' :: hexadecimal 4 c.val

/-- A text as a JSON string. -/
def jsonString (t : Text) : Text :=
  CodePoint.quote :: t.flatMap jsonEscape ++ [CodePoint.quote]

mutual

/-- A JSON value as text. -/
def Json.render : Json → Text
  | .null => "null"
  | .bool true => "true"
  | .bool false => "false"
  | .int n => decimalInt n
  | .real x => jsonReals.write x
  | .str s => jsonString s
  | .arr elements => "[" ++ renderElements elements ++ "]"
  | .obj members => [CodePoint.openBrace] ++ renderMembers members ++ [CodePoint.closeBrace]

/-- The elements of an array, with commas between them. -/
def renderElements : List Json → Text
  | [] => []
  | [x] => x.render
  | x :: rest => x.render ++ "," ++ renderElements rest

/-- The members of an object, with commas between them. -/
def renderMembers : List (Text × Json) → Text
  | [] => []
  | [(key, value)] => jsonString key ++ ":" ++ value.render
  | (key, value) :: rest => jsonString key ++ ":" ++ value.render ++ "," ++ renderMembers rest

end

mutual

/-- Whether every integer in a value has few enough digits to be written. -/
def Json.isWritable : Json → Bool
  | .int n => n.natAbs < tenTo digitLimit
  | .arr elements => elementsWritable elements
  | .obj members => membersWritable members
  | _ => true

def elementsWritable : List Json → Bool
  | [] => true
  | x :: rest => x.isWritable && elementsWritable rest

def membersWritable : List (Text × Json) → Bool
  | [] => true
  | (_, value) :: rest => value.isWritable && membersWritable rest

end

end VibeScript
