import VibeScript.Framing
import VibeScript.Json.Parser
import VibeScript.Json.Printer

/-!
Envelopes: the JSON objects that travel in frames.
-/

namespace VibeScript

/-- An envelope was nested too deeply to be read. -/
structure NestingError where
  container : Container
deriving DecidableEq

def NestingError.message (e : NestingError) : Text :=
  let name : Text :=
    match e.container with
    | .array => "array"
    | .object => "object"
  "maximum recursion depth exceeded while decoding a JSON " ++ name ++
    " from a unicode string"

/-- The envelope in a payload; none if the payload is not a JSON object in UTF-8. -/
def decodeEnvelope (payload : Bytes) : Except NestingError (Option Members) :=
  match decodeUtf8 payload with
  | .error _ => .ok none
  | .ok t =>
      match parseJson t with
      | .ok (.obj members) => .ok (some members)
      | .ok _ => .ok none
      | .error .malformed => .ok none
      | .error (.tooDeep container) => .error ⟨container⟩

/-- Why a value cannot be written as a payload. -/
inductive WriteError where
  | integerTooLong
  | notEncodable (error : EncodeError)
deriving DecidableEq

def WriteError.message : WriteError → Text
  | .integerTooLong =>
      "Exceeds the limit (" ++ decimal digitLimit ++ " digits) for integer string " ++
        "conversion; use sys.set_int_max_str_digits() to increase the limit"
  | .notEncodable error => error.message

/-- The payload that carries a value. -/
def encodeEnvelope (value : Json) : Except WriteError Bytes :=
  if value.isWritable then
    match encodeUtf8 value.render with
    | .ok bytes => .ok bytes
    | .error e => .error (.notEncodable e)
  else .error .integerTooLong

end VibeScript
