import VibeScript.Token.Lexer

/-!
The structure check: blocks and brackets.

Blocks are opened by `def`, `class`, `for` and `do`, and by `if`, `unless`,
`while` and `until` where a statement starts; anywhere else these four modify the
statement before them and open nothing.  Every block closes with `end`, and
brackets must nest inside the blocks that contain them.

The check goes through the tokens with a stack of open frames.  A token that does
not fit is reported and the frames that it shows to be unbalanced are dropped, so
one pass reports every fault.
-/

namespace VibeScript

/-- What opened a frame. -/
inductive Opener where
  | block (word : Keyword)
  | delimiter (d : Delimiter)
deriving DecidableEq

/-- What closes a frame. -/
inductive Closer where
  | blockEnd
  | delimiter (d : Delimiter)
deriving DecidableEq

namespace Opener

def isBlock : Opener → Bool
  | .block _ => true
  | .delimiter _ => false

def spelling : Opener → Text
  | .block word => word.spelling
  | .delimiter d => [d.opener]

def closer : Opener → Closer
  | .block _ => .blockEnd
  | .delimiter d => .delimiter d

end Opener

def Closer.spelling : Closer → Text
  | .blockEnd => Keyword.endWord.spelling
  | .delimiter d => [d.closer]

/-- An open block or bracket that waits for its closing token. -/
structure Frame where
  opener : Opener
  line : Nat
deriving DecidableEq

def Frame.isBlock (frame : Frame) : Bool := frame.opener.isBlock

/-- What is wrong with the structure of a source. -/
inductive SyntaxFault where
  | illegal (problem : LexicalProblem)
  | unexpected (got : Closer)
  | mismatched (expected got : Closer)
  | unclosed (frame : Frame)
deriving DecidableEq

def SyntaxFault.message : SyntaxFault → Text
  | .illegal problem => problem.message
  | .unexpected got => "unexpected '" ++ got.spelling ++ "'"
  | .mismatched expected got =>
      "expected '" ++ expected.spelling ++ "', got '" ++ got.spelling ++ "'"
  | .unclosed frame =>
      "expected '" ++ frame.opener.closer.spelling ++ "' to close '" ++
        frame.opener.spelling ++ "' from line " ++ decimal frame.line ++ ", got end of input"

/-- A fault and the position of the token that shows it. -/
structure SyntaxError where
  fault : SyntaxFault
  pos : Position
deriving DecidableEq

/-- What a definition declares. -/
inductive DefinitionKind where
  | function
  | «class»
deriving DecidableEq

def DefinitionKind.name : DefinitionKind → Text
  | .function => "function"
  | .«class» => "class"

/-- A function or class that is declared outside every block and bracket. -/
structure Definition where
  kind : DefinitionKind
  name : Text
  pos : Position
deriving DecidableEq

/-- Whether a statement starts after a token. -/
def startsStatement : Option Token → Bool
  | none => true
  | some token =>
      match token.kind with
      | .newline | .opening _ | .op _ => true
      | .keyword word => word.precedesStatement
      | _ => false

/-- Whether the innermost frame is a loop that started on the given line.  A `do`
on that line belongs to the loop. -/
def insideLoopOnLine (line : Nat) : List Frame → Bool
  | ⟨.block word, opened⟩ :: _ => word.opensLoop && opened == line
  | _ => false

/-- Whether a reserved word opens a block where it stands. -/
def opensFrame (word : Keyword) (prev : Option Token) (stack : List Frame) (line : Nat) :
    Bool :=
  if word = .doWord then !insideLoopOnLine line stack
  else word.opensBlock || (word.opensStatementBlock && startsStatement prev)

/-- The stack after an `end`, and the fault that it shows.  The innermost block is
closed along with the brackets left open inside it; without a block, every open
bracket is given up. -/
def closeBlock (stack : List Frame) : List Frame × List SyntaxFault :=
  match stack with
  | [] => ([], [.unexpected .blockEnd])
  | top :: below =>
      if top.isBlock then (below, [])
      else ((below.dropWhile (!·.isBlock)).tail, [.mismatched top.opener.closer .blockEnd])

/-- The stack after a closing bracket, and the fault that it shows.  The bracket
closes the nearest opener of its kind that no open block hides, along with what
was left open inside it. -/
def closeDelimiter (d : Delimiter) (stack : List Frame) : List Frame × List SyntaxFault :=
  let reachable := stack.takeWhile (!·.isBlock)
  let inner := reachable.takeWhile (·.opener ≠ .delimiter d)
  if inner.length = reachable.length then (stack, [.unexpected (.delimiter d)])
  else
    let below := stack.drop (inner.length + 1)
    match inner with
    | [] => (below, [])
    | top :: _ => (below, [.mismatched top.opener.closer (.delimiter d)])

/-- The stack after a token, and the faults that the token shows. -/
def checkToken (prev : Option Token) (stack : List Frame) (token : Token) :
    List Frame × List SyntaxFault :=
  match token.kind with
  | .illegal problem => (stack, [.illegal problem])
  | .keyword .endWord => closeBlock stack
  | .keyword word =>
      if opensFrame word prev stack token.pos.line then
        (⟨.block word, token.pos.line⟩ :: stack, [])
      else (stack, [])
  | .opening d => (⟨.delimiter d, token.pos.line⟩ :: stack, [])
  | .closing d => closeDelimiter d stack
  | .eof => ([], stack.map .unclosed)
  | _ => (stack, [])

/-- The name that follows a defining word, line ends in between skipped. -/
def definedName? (rest : List Token) : Option Text :=
  match (rest.dropWhile (·.kind = .newline)).head? with
  | some ⟨.ident name, _⟩ => some name
  | _ => none

/-- The definition that a token starts, given the open frames and the tokens that
follow. -/
def definition? (stack : List Frame) (token : Token) (rest : List Token) :
    Option Definition :=
  if stack.isEmpty then
    match token.kind with
    | .keyword .defWord => (definedName? rest).map (⟨.function, ·, token.pos⟩)
    | .keyword .classWord => (definedName? rest).map (⟨.«class», ·, token.pos⟩)
    | _ => none
  else none

/-- What a check finds, in the order of the source. -/
structure Findings where
  errors : List SyntaxError
  definitions : List Definition
deriving DecidableEq

/-- Check tokens that follow the token `prev` while the frames in `stack` are
open, the innermost one first. -/
def checkFrom (prev : Option Token) (stack : List Frame) : List Token → Findings
  | [] => ⟨[], []⟩
  | token :: rest =>
      let (stack', faults) := checkToken prev stack token
      let following := checkFrom (some token) stack' rest
      ⟨faults.map (⟨·, token.pos⟩) ++ following.errors,
        (definition? stack token rest).toList ++ following.definitions⟩

/-- Check the structure of a source. -/
def check (source : Text) : Findings := checkFrom none [] (tokenize source)

end VibeScript
