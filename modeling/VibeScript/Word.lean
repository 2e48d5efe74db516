import VibeScript.Token.Basic
import VibeScript.Text.Letter
import VibeScript.Text.Numeric
import VibeScript.Text.Units

/-!
Words: what a cursor can point at, and the words that the language itself gives a
meaning.
-/

namespace VibeScript

/-- A letter, a decimal digit, or one of the characters that names may end in. -/
def CodePoint.isWordChar (c : CodePoint) : Bool :=
  c.isLetter || c.isDecimal || c = '_' || c = '?' || c = '!'

/-- What a word is to the language. -/
inductive WordKind where
  | keyword
  | builtin
  | symbol
deriving DecidableEq

def WordKind.name : WordKind → Text
  | .keyword => "keyword"
  | .builtin => "builtin"
  | .symbol => "symbol"

/-- The reserved words that are shown to users. -/
def shownKeywords : List Text :=
  ["and", "break", "class", "def", "else", "elsif", "end", "false", "for", "if", "in",
    "next", "nil", "or", "raise", "require", "rescue", "return", "true", "unless", "until",
    "while"]

/-- The functions and modules that every script can use. -/
def builtinNames : List Text :=
  ["assert", "money", "money_cents", "now", "random_id", "to_float", "to_int", "uuid",
    "JSON", "Regex", "Time"]

def classifyWord (word : Text) : WordKind :=
  if word ∈ shownKeywords then .keyword
  else if word ∈ builtinNames then .builtin
  else .symbol

/-- Every word that can be completed, in the order of the code points. -/
def completionWords : List Text := (shownKeywords ++ builtinNames).mergeSort Text.le

/-- A word on a line: the text, and the indices of its first character and of the one
behind its last. -/
structure WordSpan where
  word : Text
  start : Nat
  stop : Nat
deriving DecidableEq

/-- The run of word characters around an index. -/
def wordAround (lineText : Text) (index : Nat) : WordSpan :=
  let before := ((lineText.take index).reverse.takeWhile (·.isWordChar)).length
  let after := ((lineText.drop index).takeWhile (·.isWordChar)).length
  ⟨(lineText.drop (index - before)).take (before + after), index - before, index + after⟩

/-- The word at an index of a line, or the one that ends right before it. -/
def wordOnLine? (lineText : Text) (index : Nat) : Option WordSpan :=
  let onWord (i : Nat) : Bool := (lineText[i]?).any (·.isWordChar)
  if onWord index then some (wordAround lineText index)
  else if 0 < index ∧ onWord (index - 1) then some (wordAround lineText (index - 1))
  else none

/-- The word under a cursor, or right before it.  The line counts from zero, the
character in UTF-16 code units. -/
def wordAt? (source : Text) (line character : Int) : Option WordSpan :=
  if line < 0 then none
  else match source.lines[line.toNat]? with
    | none => none
    | some [] => none
    | some lineText =>
        let index := lineText.utf16ToIndex character
        -- behind the last character the cursor still counts as being on it
        wordOnLine? lineText (min index (lineText.length - 1))

end VibeScript
