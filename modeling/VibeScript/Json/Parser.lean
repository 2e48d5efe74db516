import VibeScript.Json.Basic
import VibeScript.Text.Numeral

/-!
Reading JSON text.

The reader goes through the text from left to right with a stack of the arrays and
objects that are open, so the first fault in the text decides the answer.  Beyond
standard JSON it knows the numbers `NaN`, `Infinity` and `-Infinity`.  It refuses
integers of more digits than `digitLimit` and values that are nested deeper than
`nestingLimit`.
-/

namespace VibeScript

/-- The two kinds of values that hold others. -/
inductive Container where
  | array
  | object
deriving DecidableEq

/-- Why a text is not read as JSON. -/
inductive JsonError where
  | malformed
  | tooDeep (container : Container)
deriving DecidableEq

/-- How many arrays and objects may be open at once: what is left of a stack of a thousand calls
where an envelope is read on its own.  The calls around the reader count too, so a program that
serves a stream reaches the limit a few levels earlier, as many as it has calls on the stack.
Where a proof needs the number, it needs only that it lies between 200 and 20000. -/
def nestingLimit : Nat := 990

/-- An array or object that is open around the value that is read next.  The
elements come last first, the members in order. -/
inductive Parent where
  | array (elements : List Json)
  | object (members : Members) (key : Text)

/-- What comes next, blanks apart. -/
inductive Expecting where
  /-- a value -/
  | value
  /-- the first element of an array, or its end -/
  | element
  /-- the key of the next member of an object; its end may come instead if the object
  is empty -/
  | key (members : Members)
  /-- the colon behind a key -/
  | colon (members : Members) (key : Text)
  /-- what follows a value that is complete -/
  | afterValue (value : Json)

/-- What to do after a character: stop, or go on after some more characters. -/
inductive JsonStep where
  | failed (error : JsonError)
  | next (stack : List Parent) (expecting : Expecting) (extra : Nat)

def CodePoint.isJsonBlank (c : CodePoint) : Bool :=
  c = CodePoint.space || c = CodePoint.tab || c = CodePoint.newline ||
    c = CodePoint.carriageReturn

/-- The number that four hexadecimal digits denote. -/
def fourHex? : Text → Option Nat
  | a :: b :: c :: d :: _ => do
      let a ← a.hexValue?
      let b ← b.hexValue?
      let c ← c.hexValue?
      let d ← d.hexValue?
      return ((a * 16 + b) * 16 + c) * 16 + d
  | _ => none

/-- The low half of a pair, if a text starts with its escape. -/
def lowSurrogateEscape? (t : Text) : Option CodePoint :=
  if t.take 2 = [CodePoint.backslash, 'u'] then
    match fourHex? (t.drop 2) with
    | some n => if (CodePoint.ofNat n).isLowSurrogate then some (CodePoint.ofNat n) else none
    | none => none
  else none

/-- The character that two surrogates stand for. -/
def joinSurrogates (high low : CodePoint) : CodePoint :=
  CodePoint.ofNat (0x10000 + (high.val - 0xD800) * 0x400 + (low.val - 0xDC00))

/-- The character of an escape, given what follows its backslash, and how many
characters the escape has after the backslash.  The escapes of the two halves of a
pair make one character. -/
def jsonUnescape? : Text → Option (CodePoint × Nat)
  | [] => none
  | c :: rest =>
      if c = CodePoint.quote ∨ c = CodePoint.backslash ∨ c = '/' then some (c, 1)
      else if c = 'b' then some (CodePoint.ofNat 8, 1)
      else if c = 'f' then some (CodePoint.ofNat 12, 1)
      else if c = 'n' then some (CodePoint.newline, 1)
      else if c = 'r' then some (CodePoint.carriageReturn, 1)
      else if c = 't' then some (CodePoint.tab, 1)
      else if c = 'u' then
        match fourHex? rest with
        | none => none
        | some n =>
            let unit := CodePoint.ofNat n
            if unit.isHighSurrogate then
              match lowSurrogateEscape? (rest.drop 4) with
              | some low => some (joinSurrogates unit low, 11)
              | none => some (unit, 5)
            else some (unit, 5)
      else none

/-- Read a string from behind its opening quote: the value, and how many characters
there are up to and with the closing quote.  `done` holds the characters that are
already read, the last one first, and `length` counts what they took. -/
def scanJsonString (done : Text) (length : Nat) (t : Text) : Option (Text × Nat) :=
  match t with
  | [] => none
  | c :: rest =>
      if c = CodePoint.quote then some (done.reverse, length + 1)
      else if c = CodePoint.backslash then
        match jsonUnescape? rest with
        | none => none
        | some (d, taken) => scanJsonString (d :: done) (length + 1 + taken) (rest.drop taken)
      else if c.val < 0x20 then none
      else scanJsonString (c :: done) (length + 1) rest
termination_by t.length
decreasing_by
  · simp only [List.length_drop, List.length_cons]
    omega
  · simp

/-- The digits of a fraction behind a whole number, if there is one. -/
def fractionDigits (t : Text) : Text :=
  match t with
  | c :: rest => if c = '.' then rest.takeWhile (·.isAsciiDigit) else []
  | [] => []

/-- The exponent behind a number, if there is one, and how many characters it has. -/
def exponentPart? (t : Text) : Option (Int × Nat) :=
  match t with
  | c :: rest =>
      if c = 'e' ∨ c = 'E' then
        let signed := rest.head? = some '-' || rest.head? = some '+'
        let digits := (if signed then rest.tail else rest).takeWhile (·.isAsciiDigit)
        if digits = [] then none
        else
          let magnitude : Int := readDecimal digits
          some (if rest.head? = some '-' then -magnitude else magnitude,
            1 + (if signed then 1 else 0) + digits.length)
      else none
  | [] => none

/-- The number at the front of a text, its sign apart, and how many characters it
has. -/
def scanUnsigned? (negative : Bool) (t : Text) : Option (Json × Nat) :=
  let run := t.takeWhile (·.isAsciiDigit)
  let whole := if run.head? = some '0' then run.take 1 else run
  if whole = [] then none
  else
    let afterWhole := t.drop whole.length
    let fraction := fractionDigits afterWhole
    let pointed := if fraction = [] then 0 else fraction.length + 1
    match exponentPart? (afterWhole.drop pointed) with
    | some (exponent, length) =>
        some (.real (.ofDecimal negative (readDecimal (whole ++ fraction))
          (exponent - fraction.length)), whole.length + pointed + length)
    | none =>
        if fraction = [] then
          match readDecimalWithin whole with
          | .ok n => some (.int (if negative then -n else n), whole.length)
          | .error _ => none
        else
          some (.real (.ofDecimal negative (readDecimal (whole ++ fraction))
            (-fraction.length)), whole.length + pointed)

/-- The names of values that are spelled out. -/
def namedValues : List (Text × Json) :=
  [("null", .null), ("true", .bool true), ("false", .bool false), ("NaN", .real .nan),
    ("Infinity", .real (.infinity false)), ("-Infinity", .real (.infinity true))]

/-- The named value or number at the front of a text, and how many characters it
has. -/
def scanAtom? (t : Text) : Option (Json × Nat) :=
  match namedValues.find? fun (name, _) => name.isPrefixOf t with
  | some (name, value) => some (value, name.length)
  | none =>
      if t.head? = some '-' then
        (scanUnsigned? true t.tail).map fun (value, length) => (value, length + 1)
      else scanUnsigned? false t

/-- Start a value with its first character. -/
def startValue (stack : List Parent) (c : CodePoint) (rest : Text) : JsonStep :=
  if c = CodePoint.quote then
    match scanJsonString [] 0 rest with
    | some (value, length) => .next stack (.afterValue (.str value)) length
    | none => .failed .malformed
  else if c = CodePoint.openBrace then
    if stack.length < nestingLimit then .next stack (.key []) 0 else .failed (.tooDeep .object)
  else if c = CodePoint.openBracket then
    if stack.length < nestingLimit then .next stack .element 0 else .failed (.tooDeep .array)
  else
    match scanAtom? (c :: rest) with
    | some (value, length) => .next stack (.afterValue value) (length - 1)
    | none => .failed .malformed

/-- Go on behind a complete value. -/
def continueAfter (stack : List Parent) (value : Json) (c : CodePoint) : JsonStep :=
  match stack with
  | [] => .failed .malformed
  | .array elements :: outer =>
      if c = CodePoint.comma then .next (.array (value :: elements) :: outer) .value 0
      else if c = CodePoint.closeBracket then
        .next outer (.afterValue (.arr (value :: elements).reverse)) 0
      else .failed .malformed
  | .object members key :: outer =>
      if c = CodePoint.comma then .next outer (.key (members.set key value)) 0
      else if c = CodePoint.closeBrace then
        .next outer (.afterValue (.obj (members.set key value))) 0
      else .failed .malformed

/-- One step: the next character is `c`, and `rest` follows it. -/
def jsonStep (stack : List Parent) (expecting : Expecting) (c : CodePoint) (rest : Text) :
    JsonStep :=
  if c.isJsonBlank then .next stack expecting 0
  else match expecting with
    | .value => startValue stack c rest
    | .element =>
        if c = CodePoint.closeBracket then .next stack (.afterValue (.arr [])) 0
        else startValue (.array [] :: stack) c rest
    | .key members =>
        if c = CodePoint.quote then
          match scanJsonString [] 0 rest with
          | some (key, length) => .next stack (.colon members key) length
          | none => .failed .malformed
        else if c = CodePoint.closeBrace ∧ members.isEmpty then
          .next stack (.afterValue (.obj [])) 0
        else .failed .malformed
    | .colon members key =>
        if c = CodePoint.colon then .next (.object members key :: stack) .value 0
        else .failed .malformed
    | .afterValue value => continueAfter stack value c

/-- Read on, with the open arrays and objects and what is expected next. -/
def parseJsonFrom (stack : List Parent) (expecting : Expecting) (t : Text) :
    Except JsonError Json :=
  match t with
  | [] =>
      match stack, expecting with
      | [], .afterValue value => .ok value
      | _, _ => .error .malformed
  | c :: rest =>
      match jsonStep stack expecting c rest with
      | .failed error => .error error
      | .next stack' expecting' extra => parseJsonFrom stack' expecting' (rest.drop extra)
termination_by t.length
decreasing_by
  simp only [List.length_drop, List.length_cons]
  omega

/-- The JSON value that a text holds. -/
def parseJson (t : Text) : Except JsonError Json := parseJsonFrom [] .value t

end VibeScript
