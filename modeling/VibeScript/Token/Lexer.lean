import VibeScript.Token.Basic
import VibeScript.Text.Letter
import VibeScript.Text.Numeric

/-!
The tokenizer.

A source is cut into lexemes from the front.  A lexeme is a token, or a blank or
comment that gives none, and it says how many characters it takes after its
first one.  Positions follow from the characters alone: the position of a token
is where the characters before it lead.
-/

namespace VibeScript

/-- A character that may start a name. -/
def CodePoint.isIdentifierStart (c : CodePoint) : Bool := c.isLetter || c = '_'

/-- A character that may stand inside a name. -/
def CodePoint.isIdentifierChar (c : CodePoint) : Bool :=
  c.isLetter || c.isNumeric || c = '_'

/-- A part of the source: the token it gives, if any, and the number of
characters that it has after its first one. -/
structure Lexeme where
  token? : Option TokenKind
  extra : Nat

/-- The operators of two characters. -/
def twoCharOperators : List Text :=
  ["==", "!=", "<=", ">=", "&&", "||", "=>", "->", "..", "::", "+=", "-="]

/-- The operators of one character, brackets apart. -/
def oneCharOperators : Text := "+-*/%=<>!.,:;|?"

/-- The character that a backslash and the given one stand for in a string. -/
def unescape (c : CodePoint) : CodePoint :=
  if c = 'n' then CodePoint.newline else if c = 't' then CodePoint.tab else c

/-- Read a string from behind its opening quote: the value, and how many
characters the rest of the string has with its closing quote.  A backslash takes
the next character along, whatever it is. -/
def scanString? : Text → Option (Text × Nat)
  | [] => none
  | [c] => if c = CodePoint.quote then some ([], 1) else none
  | c :: d :: rest =>
      if c = CodePoint.backslash then
        (scanString? rest).map fun (value, length) => (unescape d :: value, length + 2)
      else if c = CodePoint.quote then some ([], 1)
      else (scanString? (d :: rest)).map fun (value, length) => (c :: value, length + 1)

/-- A string lexeme, given what follows its opening quote.  A string that never
ends takes the whole rest of the source. -/
def stringLexeme (rest : Text) : Lexeme :=
  match scanString? rest with
  | some (value, length) => ⟨some (.string value), length⟩
  | none => ⟨some (.illegal .unterminatedString), rest.length⟩

/-- A variable lexeme, given what follows its `@`. -/
def variableLexeme (rest : Text) : Lexeme :=
  let doubled := rest.head? = some '@'
  let name := (if doubled then rest.tail else rest).takeWhile (·.isIdentifierChar)
  if name = [] then ⟨some (.illegal (.unexpectedCharacter '@')), 0⟩
  else if doubled then ⟨some (.classVar name), name.length + 1⟩
  else ⟨some (.instanceVar name), name.length⟩

/-- Whether a `?` or `!` belongs to the name before it: it does unless it is
followed by an equals sign. -/
def takesSuffix : Text → Bool
  | c :: rest => (c = '?' || c = '!') && rest.head? ≠ some '='
  | [] => false

/-- A name or reserved word, given its first character and what follows. -/
def wordLexeme (c : CodePoint) (rest : Text) : Lexeme :=
  let body := (rest.takeWhile (·.isIdentifierChar)).length
  let extra := if takesSuffix (rest.drop body) then body + 1 else body
  let word := c :: rest.take extra
  match Keyword.ofText? word with
  | some keyword => ⟨some (.keyword keyword), extra⟩
  | none => ⟨some (.ident word), extra⟩

/-- Whether a text starts with a digit. -/
def startsWithDigit : Text → Bool
  | c :: _ => c.isDigit
  | [] => false

/-- How far a number goes on, and whether it has a point, given whether it has
one already.  An underscore or a point belongs to the number only in front of a
digit. -/
def scanNumber (hasPoint : Bool) : Text → Nat × Bool
  | [] => (0, hasPoint)
  | c :: rest =>
      if c.isDigit || (c = '_' && startsWithDigit rest) then
        let (length, point) := scanNumber hasPoint rest
        (length + 1, point)
      else if c = '.' && !hasPoint && startsWithDigit rest then
        let (length, point) := scanNumber true rest
        (length + 1, point)
      else (0, hasPoint)

/-- A number lexeme, given its first digit and what follows.  Underscores are
left out of the value. -/
def numberLexeme (c : CodePoint) (rest : Text) : Lexeme :=
  let (extra, hasPoint) := scanNumber false rest
  let value := (c :: rest.take extra).filter fun x : CodePoint => x ≠ '_'
  ⟨some (if hasPoint then .float value else .int value), extra⟩

/-- An operator or a stray character. -/
def operatorLexeme (c : CodePoint) (rest : Text) : Lexeme :=
  if c :: rest.take 1 ∈ twoCharOperators then ⟨some (.op (c :: rest.take 1)), 1⟩
  else match Delimiter.ofOpener? c with
    | some delimiter => ⟨some (.opening delimiter), 0⟩
    | none =>
      match Delimiter.ofCloser? c with
      | some delimiter => ⟨some (.closing delimiter), 0⟩
      | none =>
          if c ∈ oneCharOperators then ⟨some (.op [c]), 0⟩
          else ⟨some (.illegal (.unexpectedCharacter c)), 0⟩

/-- The lexeme at the front of a source, given its first character and what
follows. -/
def lexeme (c : CodePoint) (rest : Text) : Lexeme :=
  if c = CodePoint.newline then ⟨some .newline, 0⟩
  else if c = CodePoint.space ∨ c = CodePoint.tab ∨ c = CodePoint.carriageReturn then ⟨none, 0⟩
  else if c = '#' then ⟨none, (rest.takeWhile (· ≠ CodePoint.newline)).length⟩
  else if c = CodePoint.quote then stringLexeme rest
  else if c = '@' then variableLexeme rest
  else if c = CodePoint.colon ∧ (rest.head?.any (·.isIdentifierStart)) then
    let name := rest.takeWhile (·.isIdentifierChar)
    ⟨some (.symbol name), name.length⟩
  else if c.isIdentifierStart then wordLexeme c rest
  else if c.isDigit then numberLexeme c rest
  else operatorLexeme c rest

/-- The tokens of a source that starts at a position. -/
def tokensFrom (pos : Position) (source : Text) : List Token :=
  match source with
  | [] => [⟨.eof, pos⟩]
  | c :: rest =>
      let front := lexeme c rest
      let following :=
        tokensFrom (pos.advanceBy (c :: rest.take front.extra)) (rest.drop front.extra)
      match front.token? with
      | some kind => ⟨kind, pos⟩ :: following
      | none => following
termination_by source.length
decreasing_by
  simp only [List.length_drop, List.length_cons]
  omega

/-- The tokens of a source, the last of which marks its end. -/
def tokenize (source : Text) : List Token := tokensFrom Position.start source

end VibeScript
