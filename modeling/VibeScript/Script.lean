import VibeScript.Check
import VibeScript.CodeFrame

/-!
Compiling a source into a script.

A source compiles if its structure check reports nothing and no two of its
definitions have the same kind and name.
-/

namespace VibeScript

/-- The result of a successful compile. -/
structure Script where
  source : Text
  definitions : List Definition
deriving DecidableEq

namespace Script

/-- The names of the definitions of one kind. -/
def names (script : Script) (kind : DefinitionKind) : List Text :=
  (script.definitions.filter (·.kind = kind)).map (·.name)

def functions (script : Script) : List Text := script.names .function

def classes (script : Script) : List Text := script.names .«class»

end Script

/-- The error of a structure check, placed in its source. -/
def SyntaxError.locate (e : SyntaxError) (source : Text) : LocatedError :=
  ⟨e.pos.line, e.pos.column, e.fault.message, source⟩

/-- Why a source does not compile. -/
inductive CompileError where
  | malformed (source : Text) (errors : List SyntaxError)
  | duplicate (definition : Definition)
deriving DecidableEq

namespace CompileError

/-- The syntax errors behind a failed compile. -/
def errors : CompileError → List SyntaxError
  | .malformed _ errors => errors
  | .duplicate _ => []

def message : CompileError → Text
  | .malformed source errors => errorSummary (errors.map (·.locate source))
  | .duplicate definition =>
      "duplicate " ++ definition.kind.name ++ " " ++ definition.name

end CompileError

/-- The first definition that has the kind and name of an earlier one, given the
earlier ones. -/
def firstDuplicate? (seen : List (DefinitionKind × Text)) : List Definition → Option Definition
  | [] => none
  | definition :: rest =>
      if (definition.kind, definition.name) ∈ seen then some definition
      else firstDuplicate? ((definition.kind, definition.name) :: seen) rest

/-- Compile a source. -/
def compile (source : Text) : Except CompileError Script :=
  let findings := check source
  if findings.errors ≠ [] then .error (.malformed source findings.errors)
  else match firstDuplicate? [] findings.definitions with
    | some definition => .error (.duplicate definition)
    | none => .ok ⟨source, findings.definitions⟩

end VibeScript
