import VibeScript.Template
import VibeScript.Script
import VibeScript.Text.Units
import VibeScript.Json.Basic

/-!
Diagnostics: what an editor is told about a source that does not compile.

A failed compile is known by one text.  Every instance of the error template in it
becomes a diagnostic of its own; a text without any becomes one diagnostic at the top of
the document.
-/

namespace VibeScript

/-- An error as the template reports it; line and column count from one. -/
structure PositionedError where
  line : Nat
  column : Nat
  message : Text
deriving DecidableEq

/-- What is found in the text of a failed compile: errors with a place, or nothing but
the text itself. -/
inductive FoundErrors where
  | placed (errors : List PositionedError)
  | unplaced (message : Text)
deriving DecidableEq

/-- The error that an instance of a template reports. -/
def TemplateMatch.error (m : TemplateMatch) : Except TooManyDigits PositionedError := do
  let line ← readDecimalWithin (m.capture .line)
  let column ← readDecimalWithin (m.capture .column)
  return ⟨line, column, m.capture .message⟩

/-- Find the errors in the text of a failed compile. -/
def findErrors (template : Template) (message : Text) :
    Except TooManyDigits FoundErrors :=
  match matchesIn template message with
  | [] => .ok (.unplaced message)
  | found => (found.mapM TemplateMatch.error).map .placed

/-- A message about one UTF-16 code unit of a document; line and character count from
zero. -/
structure Diagnostic where
  line : Nat
  character : Nat
  message : Text
  source : Text
deriving DecidableEq

/-- The UTF-16 offset of an index on a line.  An index past the end of the line counts
one unit for each place, and so does every index on a line that is not there. -/
def utf16Character (lines : List Text) (line index : Nat) : Nat :=
  match lines[line]? with
  | none => index
  | some lineText => lineText.indexToUtf16 index + (index - lineText.length)

/-- The diagnostics of the errors found in a text, for the document `content`. -/
def FoundErrors.diagnostics (found : FoundErrors) (content source : Text) :
    List Diagnostic :=
  match found with
  | .unplaced message => [⟨0, 0, message, source⟩]
  | .placed errors =>
      errors.map fun e =>
        ⟨e.line - 1, utf16Character content.lines (e.line - 1) (e.column - 1), e.message,
          source⟩

/-- A compiler, as far as diagnostics need it: the text of its failure on a source, none
if the source compiles. -/
abbrev Compiler := Text → Option Text

/-- The compiler of this library. -/
def scriptCompiler : Compiler := fun source =>
  match compile source with
  | .ok _ => none
  | .error e => some e.message

/-- The diagnostics of a document; none if it compiles. -/
def diagnose (compiler : Compiler) (template : Template) (source content : Text) :
    Except TooManyDigits (List Diagnostic) :=
  match compiler content with
  | none => .ok []
  | some message =>
      (findErrors template message).map (·.diagnostics content source)

/-- The name under which diagnostics are reported. -/
def defaultSource : Text := "vibes-lsp"

end VibeScript
