import VibeScript.Text.Quoted
import VibeScript.Text.Utf8

/-!
Framing: how messages lie in a stream of bytes.

A frame is a block of header lines, an empty line and a body.  The header
`Content-Length` gives the number of bytes of the body; other headers do not matter.
Once a frame cannot be read there is no way to find the next one, so every framing error
is final.

A body is read as from a stream in memory: a read of so many bytes gives what is there of them,
and only a length beyond `lengthLimit` is refused.  A stream with a buffer of its own may set aside
room for the whole length first, and then it already fails on a length for which there is no room.
-/

namespace VibeScript

/-- The bytes of a text of ASCII characters. -/
def asciiBytes (t : Text) : Bytes := t.flatMap CodePoint.utf8

/-- The header of a body of the given length. -/
def frameHeader (length : Nat) : Bytes :=
  asciiBytes ("Content-Length: " ++ decimal length ++ "\r\n\r\n")

/-- A body with its header. -/
def frame (body : Bytes) : Bytes := frameHeader body.length ++ body

/-- The bytes that are still to be read.  If `patience` is given, so many more lines can
be read before the reading is interrupted. -/
structure Input where
  bytes : Bytes
  patience : Option Nat := none
deriving DecidableEq

/-- An input that is never interrupted. -/
def Input.ofBytes (bytes : Bytes) : Input := ⟨bytes, none⟩

/-- Split bytes behind the first line feed. -/
def splitLine (bytes : Bytes) : Bytes × Bytes :=
  match bytes.dropWhile (· ≠ 10) with
  | [] => (bytes, [])
  | lf :: rest => (bytes.takeWhile (· ≠ 10) ++ [lf], rest)

theorem splitLine_append (bytes : Bytes) :
    (splitLine bytes).1 ++ (splitLine bytes).2 = bytes := by
  have happend : bytes.takeWhile (· ≠ 10) ++ bytes.dropWhile (· ≠ 10) = bytes :=
    List.takeWhile_append_dropWhile
  unfold splitLine
  split
  · simp
  · next lf rest h =>
      rw [h] at happend
      simpa using happend

/-- Take a line from an input; none if the reading is interrupted instead. -/
def Input.takeLine? (input : Input) : Option (Bytes × Input) :=
  let split := splitLine input.bytes
  match input.patience with
  | none => some (split.1, ⟨split.2, none⟩)
  | some 0 => none
  | some (n + 1) => some (split.1, ⟨split.2, some n⟩)

theorem Input.bytes_of_takeLine? {input rest : Input} {line : Bytes}
    (h : input.takeLine? = some (line, rest)) : line ++ rest.bytes = input.bytes := by
  have happend := splitLine_append input.bytes
  simp only [Input.takeLine?] at h
  split at h
  · obtain ⟨rfl, rfl⟩ := Prod.mk.inj (Option.some.inj h)
    exact happend
  · simp at h
  · obtain ⟨rfl, rfl⟩ := Prod.mk.inj (Option.some.inj h)
    exact happend

theorem Input.length_of_takeLine? {input rest : Input} {line : Bytes}
    (h : input.takeLine? = some (line, rest)) :
    line.length + rest.bytes.length = input.bytes.length := by
  rw [← Input.bytes_of_takeLine? h, List.length_append]

/-- Why a stream does not follow the framing. -/
inductive FramingError where
  | invalidLength (value : Text)
  | missingLength
  | endInHeaders
  | endInBody (expected got : Nat)
deriving DecidableEq

def FramingError.message : FramingError → Text
  | .invalidLength value => "invalid Content-Length: " ++ value.quoted
  | .missingLength => "missing Content-Length header"
  | .endInHeaders => "unexpected end of stream in headers"
  | .endInBody expected got =>
      "unexpected end of stream: expected " ++ decimal expected ++ " bytes, got " ++
        decimal got

/-- Why no frame could be read. -/
inductive ReadError where
  | framing (error : FramingError)
  | tooManyDigits (error : TooManyDigits)
  | lengthTooLarge
  | interrupted
deriving DecidableEq

/-- The text of a header line.  A byte outside ASCII counts as the replacement
character. -/
def headerText (line : Bytes) : Text :=
  line.map fun b => if b < 0x80 then CodePoint.ofNat b.toNat else CodePoint.replacement

/-- Drop the characters at the end of a text that are of a kind. -/
def dropTrailing (kind : CodePoint → Bool) (t : Text) : Text :=
  (t.reverse.dropWhile kind).reverse

/-- The blanks of ASCII, the separators of files, groups, records and units among them. -/
def isHeaderBlank (c : CodePoint) : Bool :=
  (9 ≤ c.val && c.val ≤ 13) || (28 ≤ c.val && c.val ≤ 32)

/-- A text without the blanks at its ends. -/
def strip (t : Text) : Text := dropTrailing isHeaderBlank (t.dropWhile isHeaderBlank)

/-- An ASCII letter in lower case. -/
def lowerAscii (c : CodePoint) : CodePoint :=
  if 65 ≤ c.val ∧ c.val ≤ 90 then CodePoint.ofNat (c.val + 32) else c

/-- What a line means to the reader of a header block. -/
inductive HeaderLine where
  | blank
  | contentLength (value : Text)
  | other
deriving DecidableEq

/-- Classify a line.  Its name is what stands before the first colon; blanks around name
and value and the case of the name do not matter. -/
def headerLine (line : Bytes) : HeaderLine :=
  let t := dropTrailing (fun c => c = CodePoint.carriageReturn || c = CodePoint.newline)
    (headerText line)
  if t = [] then .blank
  else match t.dropWhile (· ≠ CodePoint.colon) with
    | [] => .other
    | _ :: value =>
        let name := (strip (t.takeWhile (· ≠ CodePoint.colon))).map lowerAscii
        if name = ("content-length" : Text) then .contentLength (strip value) else .other

/-- The length that a header value denotes: decimal digits that may have a sign in
front, for a number that is not negative. -/
def contentLength (value : Text) : Except ReadError Nat :=
  let signed := value.head? = some '+' || value.head? = some '-'
  let digits := if signed then value.tail else value
  if digits = [] ∨ !digits.all (·.isAsciiDigit) then .error (.framing (.invalidLength value))
  else match readDecimalWithin digits with
    | .error e => .error (.tooManyDigits e)
    | .ok n =>
        if value.head? = some '-' ∧ n ≠ 0 then .error (.framing (.invalidLength value))
        else .ok n

/-- What a line leads to inside a header block. -/
inductive HeaderStep where
  | finished (length : Nat)
  | next (found : Option Nat)
  | failed (error : ReadError)
deriving DecidableEq

/-- Go on with a line, given the length that the lines before it gave.  The last length
counts. -/
def headerStep (found : Option Nat) (line : Bytes) : HeaderStep :=
  match headerLine line with
  | .blank =>
      match found with
      | none => .failed (.framing .missingLength)
      | some n => .finished n
  | .contentLength value =>
      match contentLength value with
      | .error e => .failed e
      | .ok n => .next (some n)
  | .other => .next found

/-- Read a header block: the length of the body, or none if the input is empty.  `found`
is the length that earlier lines gave, and `started` says whether there was any. -/
def readHeaders (found : Option Nat) (started : Bool) (input : Input) :
    Except ReadError (Option Nat) × Input :=
  match _h : input.takeLine? with
  | none => (.error .interrupted, input)
  | some ([], rest) =>
      if started then (.error (.framing .endInHeaders), rest) else (.ok none, rest)
  | some (b :: line, rest) =>
      match headerStep found (b :: line) with
      | .finished n => (.ok (some n), rest)
      | .next found => readHeaders found true rest
      | .failed e => (.error e, rest)
termination_by input.bytes.length
decreasing_by
  have hlength := Input.length_of_takeLine? _h
  simp only [List.length_cons] at hlength
  omega

/-- Reading headers never gives bytes back, and finding a length takes at least one. -/
theorem readHeaders_length (found : Option Nat) (started : Bool) (input : Input) :
    (readHeaders found started input).2.bytes.length ≤ input.bytes.length ∧
      ∀ n, (readHeaders found started input).1 = .ok (some n) →
        (readHeaders found started input).2.bytes.length < input.bytes.length := by
  fun_induction readHeaders found started input with
  | case1 => simp
  | case2 found input rest h =>
      have hlength := Input.length_of_takeLine? h
      simp only [List.length_nil] at hlength
      simp
      omega
  | case3 found started input rest h hstarted =>
      have hlength := Input.length_of_takeLine? h
      simp only [List.length_nil] at hlength
      simp
      omega
  | case4 found started input b line rest h n hstep =>
      have hlength := Input.length_of_takeLine? h
      simp only [List.length_cons] at hlength
      exact ⟨by simp only; omega, fun _ _ => by simp only; omega⟩
  | case5 found started input b line rest h found' hstep ih =>
      have hlength := Input.length_of_takeLine? h
      simp only [List.length_cons] at hlength
      exact ⟨by omega, fun n hn => by have := ih.2 n hn; omega⟩
  | case6 found started input b line rest h e hstep =>
      have hlength := Input.length_of_takeLine? h
      simp only [List.length_cons] at hlength
      simp
      omega

/-- What reading a frame gives. -/
inductive Reading where
  | payload (body : Bytes)
  | endOfStream
  | failed (error : ReadError)
deriving DecidableEq

/-- The greatest length of a body that can be asked for. -/
def lengthLimit : Nat := 0x7FFFFFFFFFFFFFFF

/-- Read a frame, and what is left of the input. -/
def readPayload (input : Input) : Reading × Input :=
  match readHeaders none false input with
  | (.error e, rest) => (.failed e, rest)
  | (.ok none, rest) => (.endOfStream, rest)
  | (.ok (some n), rest) =>
      if lengthLimit < n then (.failed .lengthTooLarge, rest)
      else
        let body := rest.bytes.take n
        let left : Input := ⟨rest.bytes.drop n, rest.patience⟩
        if body.length < n then (.failed (.framing (.endInBody n body.length)), left)
        else (.payload body, left)

/-- A frame takes at least one byte of the input. -/
theorem readPayload_length {input rest : Input} {body : Bytes}
    (h : readPayload input = (.payload body, rest)) :
    rest.bytes.length < input.bytes.length := by
  have hheaders := readHeaders_length none false input
  unfold readPayload at h
  split at h
  · simp at h
  · simp at h
  · next n left hread =>
      rw [hread] at hheaders
      have hshorter := hheaders.2 n rfl
      simp only at h hshorter
      split at h
      · simp at h
      · split at h
        · simp at h
        · obtain ⟨_, rfl⟩ := Prod.mk.inj h
          simp only [List.length_drop]
          omega

end VibeScript
