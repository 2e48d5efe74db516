import VibeScript.Text.Numeral

/-!
UTF-8: texts as bytes.

Encoding fails on surrogates and decoding on anything that is not the shortest
form of a character.  Both failures say where the text or the bytes are at
fault.  An output may have a rule of its own for surrogates, and the names of
files have one (`SurrogateRule`).
-/

namespace VibeScript

abbrev Bytes := List UInt8

/-- The bytes of a character that is not a surrogate. -/
def CodePoint.utf8 (c : CodePoint) : Bytes :=
  let n := c.val
  if n < 0x80 then [UInt8.ofNat n]
  else if n < 0x800 then [UInt8.ofNat (0xC0 + n / 64), UInt8.ofNat (0x80 + n % 64)]
  else if n < 0x10000 then
    [UInt8.ofNat (0xE0 + n / 4096), UInt8.ofNat (0x80 + n / 64 % 64),
      UInt8.ofNat (0x80 + n % 64)]
  else
    [UInt8.ofNat (0xF0 + n / 262144), UInt8.ofNat (0x80 + n / 4096 % 64),
      UInt8.ofNat (0x80 + n / 64 % 64), UInt8.ofNat (0x80 + n % 64)]

/-- The first run of surrogates in a text that cannot be encoded: the indices of
the first character that has no bytes and of the last surrogate behind it, and
the first character itself. -/
structure EncodeError where
  first : Nat
  last : Nat
  character : CodePoint
deriving DecidableEq

def EncodeError.message (e : EncodeError) : Text :=
  if e.first = e.last then
    "'utf-8' codec can't encode character '\\u" ++ hexadecimal 4 e.character.val ++
      "' in position " ++ decimal e.first ++ ": surrogates not allowed"
  else
    "'utf-8' codec can't encode characters in position " ++ decimal e.first ++ "-" ++
      decimal e.last ++ ": surrogates not allowed"

/-- The first run of surrogates of a text that starts with a character of a
kind. -/
def runFrom? (kind : CodePoint → Bool) (t : Text) : Option EncodeError :=
  match t.dropWhile (!kind ·) with
  | [] => none
  | c :: rest =>
      let first := (t.takeWhile (!kind ·)).length
      some ⟨first, first + (rest.takeWhile (·.isSurrogate)).length, c⟩

/-- The first run of surrogates of a text. -/
def surrogateRun? (t : Text) : Option EncodeError := runFrom? (·.isSurrogate) t

/-- The UTF-8 form of a text. -/
def encodeUtf8 (t : Text) : Except EncodeError Bytes :=
  match surrogateRun? t with
  | some e => .error e
  | none => .ok (t.flatMap CodePoint.utf8)

/-- How many bytes the UTF-8 form of a text has. -/
def Text.utf8Length (t : Text) : Nat := (t.flatMap CodePoint.utf8).length

/-- The UTF-8 form of a text, with an escape in place of each surrogate. -/
def encodeUtf8Escaping (t : Text) : Bytes :=
  t.flatMap fun c =>
    if c.isSurrogate then (("\\u" : Text) ++ hexadecimal 4 c.val).flatMap CodePoint.utf8
    else c.utf8

/-- One of the surrogates that stand for a byte outside UTF-8. -/
def CodePoint.isStrayByte (c : CodePoint) : Bool := 0xDC80 ≤ c.val && c.val ≤ 0xDCFF

/-- The bytes of a character that is no surrogate or stands for a byte. -/
def CodePoint.rawBytes (c : CodePoint) : Bytes :=
  if c.isStrayByte then [UInt8.ofNat (c.val - 0xDC00)] else c.utf8

/-- What becomes of surrogates when a text is written in UTF-8. -/
inductive SurrogateRule where
  /-- they cannot be written -/
  | refused
  /-- those that stand for a byte become this byte; others cannot be written -/
  | strayBytes
  /-- they become escapes -/
  | escaped
deriving DecidableEq

/-- The bytes of a text under a rule for surrogates. -/
def SurrogateRule.encode (rule : SurrogateRule) (t : Text) : Except EncodeError Bytes :=
  match rule with
  | .refused => encodeUtf8 t
  | .strayBytes =>
      match runFrom? (fun c => c.isSurrogate && !c.isStrayByte) t with
      | some e => .error e
      | none => .ok (t.flatMap CodePoint.rawBytes)
  | .escaped => .ok (encodeUtf8Escaping t)

/-- Why bytes are not UTF-8. -/
inductive Utf8Fault where
  | invalidStart
  | invalidContinuation
  | unexpectedEnd
deriving DecidableEq

def Utf8Fault.message : Utf8Fault → Text
  | .invalidStart => "invalid start byte"
  | .invalidContinuation => "invalid continuation byte"
  | .unexpectedEnd => "unexpected end of data"

/-- The first fault of bytes that should be UTF-8: the byte that starts the bad
sequence, its position, and how many bytes belong to the sequence. -/
structure DecodeError where
  fault : Utf8Fault
  lead : UInt8
  position : Nat
  length : Nat
deriving DecidableEq

def DecodeError.message (e : DecodeError) : Text :=
  let place : Text :=
    if e.length = 1 then
      "byte 0x" ++ hexadecimal 2 e.lead.toNat ++ " in position " ++ decimal e.position
    else
      "bytes in position " ++ decimal e.position ++ "-" ++
        decimal (e.position + e.length - 1)
  "'utf-8' codec can't decode " ++ place ++ ": " ++ e.fault.message

/-- What the first byte of a sequence of several bytes says: how many bytes
follow it, which values the next one may have, and its own bits of the
character.  The narrower ranges exclude longer forms than needed, surrogates
and numbers that are too large. -/
structure Utf8Lead where
  extra : Nat
  low : Nat
  high : Nat
  bits : Nat

def utf8Lead? (b : Nat) : Option Utf8Lead :=
  if b < 0xC2 then none
  else if b < 0xE0 then some ⟨1, 0x80, 0xBF, b - 0xC0⟩
  else if b < 0xF0 then
    some ⟨2, if b = 0xE0 then 0xA0 else 0x80, if b = 0xED then 0x9F else 0xBF, b - 0xE0⟩
  else if b < 0xF5 then
    some ⟨3, if b = 0xF0 then 0x90 else 0x80, if b = 0xF4 then 0x8F else 0xBF, b - 0xF0⟩
  else none

/-- Read the bytes that follow the first one.  A fault comes with the number of
bytes that were still good. -/
def utf8Continue (low high : Nat) : Nat → Nat → Bytes → Except (Utf8Fault × Nat) Nat
  | 0, value, _ => .ok value
  | _ + 1, _, [] => .error (.unexpectedEnd, 0)
  | extra + 1, value, b :: rest =>
      if low ≤ b.toNat ∧ b.toNat ≤ high then
        match utf8Continue 0x80 0xBF extra (value * 64 + (b.toNat - 0x80)) rest with
        | .ok n => .ok n
        | .error (fault, good) => .error (fault, good + 1)
      else .error (.invalidContinuation, 0)

/-- Decode from a position on; `done` holds the characters before it, the last
one first. -/
def decodeUtf8From (position : Nat) (done : Text) (bytes : Bytes) :
    Except DecodeError Text :=
  match bytes with
  | [] => .ok done.reverse
  | b :: rest =>
      if b.toNat < 0x80 then
        decodeUtf8From (position + 1) (CodePoint.ofNat b.toNat :: done) rest
      else
        match utf8Lead? b.toNat with
        | none => .error ⟨.invalidStart, b, position, 1⟩
        | some lead =>
            match utf8Continue lead.low lead.high lead.extra lead.bits rest with
            | .ok n =>
                decodeUtf8From (position + 1 + lead.extra) (CodePoint.ofNat n :: done)
                  (rest.drop lead.extra)
            | .error (fault, good) => .error ⟨fault, b, position, good + 1⟩
termination_by bytes.length
decreasing_by
  · simp
  · simp only [List.length_drop, List.length_cons]
    omega

/-- The text that bytes encode. -/
def decodeUtf8 (bytes : Bytes) : Except DecodeError Text := decodeUtf8From 0 [] bytes

end VibeScript
