import VibeScript.Diagnostic
import VibeScript.Json.Basic
import VibeScript.Text.Numeral

/-!
The shapes in which an editor gets what the server has to say.
-/

namespace VibeScript

/-- A position; line and character count from zero. -/
def positionJson (line character : Int) : Json :=
  .obj [("line", .int line), ("character", .int character)]

/-- A range from one position to another. -/
def rangeJson (startLine startCharacter endLine endCharacter : Int) : Json :=
  .obj [("start", positionJson startLine startCharacter),
    ("end", positionJson endLine endCharacter)]

/-- The severity of an error. -/
def errorSeverity : Int := 1

/-- A diagnostic about a range. -/
def diagnosticJson (range : Json) (message : Text) (severity : Int) (source : Text) : Json :=
  .obj [("range", range), ("severity", .int severity), ("source", .str source),
    ("message", .str message)]

/-- A diagnostic covers one UTF-16 code unit. -/
def Diagnostic.toJson (d : Diagnostic) : Json :=
  diagnosticJson (rangeJson d.line d.character d.line (d.character + 1)) d.message
    errorSeverity d.source

/-- The kinds of completion items, by their numbers. -/
def textItem : Int := 1

def functionItem : Int := 3

def keywordItem : Int := 14

/-- A completion item. -/
def completionItemJson (label : Text) (kind : Int) (detail : Option Text) : Json :=
  .obj (("label", .str label) :: ("kind", .int kind) ::
    match detail with
    | some detail => [("detail", .str detail)]
    | none => [])

/-- A hover text, with the range it is about.  A null range is left out. -/
def hoverJson (contents : Text) (range : Json) : Json :=
  .obj (("contents", .obj [("kind", .str "markdown"), ("value", .str contents)]) ::
    Members.unlessNull "range" range)

end VibeScript
