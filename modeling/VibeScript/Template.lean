import VibeScript.Text.Numeral
import VibeScript.Text.Quoted

/-!
Error templates: the wording of an error that has a place.

A template is text with the fields `line`, `column` and `message` in braces, each of
them once.  A brace that is text is written twice.
-/

namespace VibeScript

/-- A part of an error that a template has a place for. -/
inductive TemplateField where
  | line
  | column
  | message
deriving DecidableEq

namespace TemplateField

def name : TemplateField → Text
  | .line => "line"
  | .column => "column"
  | .message => "message"

/-- All fields, in the order of their names. -/
def all : List TemplateField := [.column, .line, .message]

/-- The characters that a field may hold: digits, and for the message anything that
stays on the line. -/
def admits (field : TemplateField) (c : CodePoint) : Bool :=
  match field with
  | .line | .column => c.isAsciiDigit
  | .message => c ≠ CodePoint.newline

end TemplateField

/-- A character that stands for itself, or a field. -/
inductive TemplatePiece where
  | char (c : CodePoint)
  | field (f : TemplateField)
deriving DecidableEq

/-- A template, piece by piece. -/
abbrev Template := List TemplatePiece

/-- Why a text is not a template. -/
inductive TemplateError where
  | loneBrace (brace : CodePoint)
  | unclosedField
  | nestedField
  | missingConversion
  | missingColon
  | unclosedSpec
  | unsupportedField (name template : Text)
  | missingFields (fields : List TemplateField) (template : Text)
deriving DecidableEq

def TemplateError.message : TemplateError → Text
  | .loneBrace brace => "Single '" ++ [brace] ++ "' encountered in format string"
  | .unclosedField =>
      "expected '" ++ [CodePoint.closeBrace] ++ "' before end of string"
  | .nestedField => "unexpected '" ++ [CodePoint.openBrace] ++ "' in field name"
  | .missingConversion => "end of string while looking for conversion specifier"
  | .missingColon => "expected ':' after conversion specifier"
  | .unclosedSpec => "unmatched '" ++ [CodePoint.openBrace] ++ "' in format spec"
  | .unsupportedField name template =>
      "unsupported field " ++ [CodePoint.openBrace] ++ name ++ [CodePoint.closeBrace] ++
        " in error template " ++ template.quoted
  | .missingFields fields template =>
      "error template " ++ template.quoted ++ " is missing " ++
        Text.join ", " (fields.map (·.name))

/-- A field in braces as it is written, with what may follow its name. -/
structure WrittenField where
  name : Text
  conversion : Option CodePoint
  spec : Text

/-- Read the name of a field: the name, the character that ends it, and how many
characters both take.  Between brackets no character ends the name. -/
def scanFieldName (bracketed : Bool) : Text → Except TemplateError (Text × CodePoint × Nat)
  | [] => .error .unclosedField
  | c :: rest =>
      if bracketed then do
        let (name, stop, length) ← scanFieldName (c ≠ CodePoint.closeBracket) rest
        return (c :: name, stop, length + 1)
      else if c = CodePoint.openBrace then .error .nestedField
      else if c = CodePoint.closeBrace ∨ c = CodePoint.colon ∨ c = '!' then .ok ([], c, 1)
      else do
        let (name, stop, length) ← scanFieldName (c = CodePoint.openBracket) rest
        return (c :: name, stop, length + 1)

/-- Read a format specification up to the brace that closes the field, given how many
braces are open: the specification, and how many characters it takes with that brace. -/
def scanSpec (depth : Nat) : Text → Except TemplateError (Text × Nat)
  | [] => .error .unclosedSpec
  | c :: rest =>
      if c = CodePoint.closeBrace ∧ depth = 1 then .ok ([], 1)
      else do
        let depth :=
          if c = CodePoint.openBrace then depth + 1
          else if c = CodePoint.closeBrace then depth - 1
          else depth
        let (spec, length) ← scanSpec depth rest
        return (c :: spec, length + 1)

/-- Read a field from behind its opening brace, with the number of characters it takes. -/
def scanField (t : Text) : Except TemplateError (WrittenField × Nat) := do
  let (name, stop, length) ← scanFieldName false t
  let after := t.drop length
  if stop = CodePoint.closeBrace then return (⟨name, none, []⟩, length)
  else if stop = CodePoint.colon then
    let (spec, specLength) ← scanSpec 1 after
    return (⟨name, none, spec⟩, length + specLength)
  else match after with
    | [] => throw .missingConversion
    | [_] => throw .unclosedSpec
    | conversion :: c :: rest =>
        if c = CodePoint.closeBrace then return (⟨name, some conversion, []⟩, length + 2)
        else if c = CodePoint.colon then
          let (spec, specLength) ← scanSpec 1 rest
          return (⟨name, some conversion, spec⟩, length + 2 + specLength)
        else throw .missingColon

/-- The field that is meant, if it is one of the three and comes for the first time,
without anything behind its name.  The null character is no conversion. -/
def WrittenField.field? (written : WrittenField) (seen : List TemplateField) :
    Option TemplateField :=
  if written.spec = [] ∧ (written.conversion.all (·.val = 0)) then
    TemplateField.all.find? fun field => field.name = written.name ∧ field ∉ seen
  else none

/-- Read the rest of a template, given the fields that came before. -/
def parseTemplateFrom (template : Text) (seen : List TemplateField) (t : Text) :
    Except TemplateError Template :=
  match t with
  | [] =>
      let missing := TemplateField.all.filter (· ∉ seen)
      if missing = [] then .ok [] else .error (.missingFields missing template)
  | c :: rest =>
      if c = CodePoint.openBrace then
        match rest with
        | [] => .error (.loneBrace c)
        | d :: more =>
            if d = c then do
              return .char c :: (← parseTemplateFrom template seen more)
            else do
              let (written, length) ← scanField (d :: more)
              match written.field? seen with
              | some field =>
                  return .field field ::
                    (← parseTemplateFrom template (field :: seen) ((d :: more).drop length))
              | none => throw (.unsupportedField written.name template)
      else if c = CodePoint.closeBrace then
        match rest with
        | [] => .error (.loneBrace c)
        | d :: more =>
            if d = c then do
              return .char c :: (← parseTemplateFrom template seen more)
            else .error (.loneBrace c)
      else do
        return .char c :: (← parseTemplateFrom template seen rest)
termination_by t.length
decreasing_by
  all_goals simp only [List.length_drop, List.length_cons]
  all_goals omega

/-- The template that a text stands for. -/
def parseTemplate (t : Text) : Except TemplateError Template := parseTemplateFrom t [] t

/-- The wording of the errors of the compiler. -/
def defaultTemplateText : Text :=
  "parse error at \x7bline\x7d:\x7bcolumn\x7d: \x7bmessage\x7d"

/-- The template of the errors of the compiler, piece by piece. -/
def defaultTemplate : Template :=
  ("parse error at " : Text).map .char ++
    [.field .line, .char CodePoint.colon, .field .column, .char CodePoint.colon,
      .char CodePoint.space, .field .message]

/-- An instance of a template inside a text: what its fields hold, and its length. -/
structure TemplateMatch where
  captures : List (TemplateField × Text)
  length : Nat
deriving DecidableEq

namespace TemplateMatch

/-- What a field holds. -/
def capture (m : TemplateMatch) (field : TemplateField) : Text :=
  ((m.captures.find? (·.1 = field)).map (·.2)).getD []

end TemplateMatch

/-- Take admitted characters from the front of a text, at least one and as many as
possible, so that what follows them succeeds.  The answer has the number of characters
taken. -/
def takeRun {α : Type} (admits : CodePoint → Bool) (follow : Text → Option α) :
    Text → Option (Nat × α)
  | [] => none
  | c :: rest =>
      if admits c then
        match takeRun admits follow rest with
        | some (n, a) => some (n + 1, a)
        | none => (follow rest).map (1, ·)
      else none

/-- The instance of a template at the front of a text.  Every field takes as much as it
can, the first one first. -/
def matchHere : Template → Text → Option TemplateMatch
  | [], _ => some ⟨[], 0⟩
  | .char _ :: _, [] => none
  | .char c :: pieces, d :: rest =>
      if c = d then (matchHere pieces rest).map fun m => ⟨m.captures, m.length + 1⟩
      else none
  | .field field :: pieces, t =>
      (takeRun field.admits (matchHere pieces) t).map fun (n, m) =>
        ⟨(field, t.take n) :: m.captures, n + m.length⟩

/-- The instances of a template in a text, from left to right, each as far to the left as
the one before it allows. -/
def matchesIn (template : Template) (t : Text) : List TemplateMatch :=
  match t with
  | [] => []
  | c :: rest =>
      match matchHere template (c :: rest) with
      | some m => m :: matchesIn template (rest.drop (m.length - 1))
      | none => matchesIn template rest
termination_by t.length
decreasing_by
  · simp only [List.length_drop, List.length_cons]
    omega
  · simp

end VibeScript
