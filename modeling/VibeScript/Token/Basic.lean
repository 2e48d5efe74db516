import VibeScript.Position
import VibeScript.Text.Quoted

/-!
Tokens: what a source consists of once blanks and comments are gone.

The tokenizer never fails.  A part of the source that is no token becomes an
illegal token that carries the problem, so that a check can report all of them
in one pass.
-/

namespace VibeScript

/-- The reserved words. -/
inductive Keyword where
  | andWord
  | breakWord
  | classWord
  | defWord
  | doWord
  | elseWord
  | elsifWord
  | endWord
  | exportWord
  | falseWord
  | forWord
  | ifWord
  | inWord
  | nextWord
  | nilWord
  | notWord
  | orWord
  | privateWord
  | raiseWord
  | requireWord
  | rescueWord
  | returnWord
  | selfWord
  | trueWord
  | unlessWord
  | untilWord
  | whileWord
  | yieldWord
deriving DecidableEq

namespace Keyword

def all : List Keyword :=
  [.andWord, .breakWord, .classWord, .defWord, .doWord, .elseWord, .elsifWord, .endWord,
    .exportWord, .falseWord, .forWord, .ifWord, .inWord, .nextWord, .nilWord, .notWord,
    .orWord, .privateWord, .raiseWord, .requireWord, .rescueWord, .returnWord, .selfWord,
    .trueWord, .unlessWord, .untilWord, .whileWord, .yieldWord]

def spelling : Keyword → Text
  | .andWord => "and"
  | .breakWord => "break"
  | .classWord => "class"
  | .defWord => "def"
  | .doWord => "do"
  | .elseWord => "else"
  | .elsifWord => "elsif"
  | .endWord => "end"
  | .exportWord => "export"
  | .falseWord => "false"
  | .forWord => "for"
  | .ifWord => "if"
  | .inWord => "in"
  | .nextWord => "next"
  | .nilWord => "nil"
  | .notWord => "not"
  | .orWord => "or"
  | .privateWord => "private"
  | .raiseWord => "raise"
  | .requireWord => "require"
  | .rescueWord => "rescue"
  | .returnWord => "return"
  | .selfWord => "self"
  | .trueWord => "true"
  | .unlessWord => "unless"
  | .untilWord => "until"
  | .whileWord => "while"
  | .yieldWord => "yield"

/-- The reserved word with a given spelling. -/
def ofText? (word : Text) : Option Keyword := all.find? (·.spelling = word)

theorem spelling_of_ofText? {word : Text} {k : Keyword} (h : ofText? word = some k) :
    k.spelling = word := by
  have := List.find?_some h
  simpa using this

/-- A word that opens a block wherever it stands, except that a loop may take a
`do` on its own line. -/
def opensBlock : Keyword → Bool
  | .defWord | .classWord | .forWord | .doWord => true
  | _ => false

/-- A word that opens a block where a statement starts, and is a modifier of the
statement before it anywhere else. -/
def opensStatementBlock : Keyword → Bool
  | .ifWord | .unlessWord | .whileWord | .untilWord => true
  | _ => false

/-- A word that opens a loop. -/
def opensLoop : Keyword → Bool
  | .forWord | .whileWord | .untilWord => true
  | _ => false

/-- A word after which a statement starts. -/
def precedesStatement : Keyword → Bool
  | .elseWord | .doWord | .returnWord | .andWord => true
  | .orWord | .notWord | .raiseWord | .inWord => true
  | _ => false

end Keyword

/-- The three kinds of brackets. -/
inductive Delimiter where
  | paren
  | bracket
  | brace
deriving DecidableEq

namespace Delimiter

def opener : Delimiter → CodePoint
  | .paren => '('
  | .bracket => CodePoint.openBracket
  | .brace => CodePoint.openBrace

def closer : Delimiter → CodePoint
  | .paren => ')'
  | .bracket => CodePoint.closeBracket
  | .brace => CodePoint.closeBrace

def all : List Delimiter := [.paren, .bracket, .brace]

/-- The kind of brackets that a character opens. -/
def ofOpener? (c : CodePoint) : Option Delimiter := all.find? (·.opener = c)

/-- The kind of brackets that a character closes. -/
def ofCloser? (c : CodePoint) : Option Delimiter := all.find? (·.closer = c)

end Delimiter

/-- Why a part of a source is no token. -/
inductive LexicalProblem where
  | unterminatedString
  | unexpectedCharacter (c : CodePoint)
deriving DecidableEq

def LexicalProblem.message : LexicalProblem → Text
  | .unterminatedString => "unterminated string"
  | .unexpectedCharacter c => "unexpected character " ++ Text.quoted [c]

/-- What a token is, with the value that its spelling stands for. -/
inductive TokenKind where
  | ident (name : Text)
  | keyword (word : Keyword)
  | int (digits : Text)
  | float (digits : Text)
  | string (value : Text)
  | symbol (name : Text)
  | instanceVar (name : Text)
  | classVar (name : Text)
  | opening (delimiter : Delimiter)
  | closing (delimiter : Delimiter)
  | op (spelling : Text)
  | newline
  | illegal (problem : LexicalProblem)
  | eof
deriving DecidableEq

namespace TokenKind

/-- The name of a token's class, as it is shown. -/
def label : TokenKind → Text
  | .ident _ => "IDENT"
  | .keyword _ => "KEYWORD"
  | .int _ => "INT"
  | .float _ => "FLOAT"
  | .string _ => "STRING"
  | .symbol _ => "SYMBOL"
  | .instanceVar _ => "IVAR"
  | .classVar _ => "CLASS_VAR"
  | .opening _ | .closing _ | .op _ => "OP"
  | .newline => "NEWLINE"
  | .illegal _ => "ILLEGAL"
  | .eof => "EOF"

/-- The value of a token as text; of an illegal token it is the problem. -/
def value : TokenKind → Text
  | .ident name => name
  | .keyword word => word.spelling
  | .int digits => digits
  | .float digits => digits
  | .string value => value
  | .symbol name => name
  | .instanceVar name => name
  | .classVar name => name
  | .opening delimiter => [delimiter.opener]
  | .closing delimiter => [delimiter.closer]
  | .op spelling => spelling
  | .newline => [CodePoint.newline]
  | .illegal problem => problem.message
  | .eof => []

end TokenKind

/-- A token and the position of its first character. -/
structure Token where
  kind : TokenKind
  pos : Position
deriving DecidableEq

/-- A token as one line of text. -/
def Token.describe (token : Token) : Text :=
  "Token(" ++ token.kind.label ++ ", " ++ token.kind.value.quoted ++ ", " ++
    decimal token.pos.line ++ ":" ++ decimal token.pos.column ++ ")"

end VibeScript
