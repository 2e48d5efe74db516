import VibeScript.Envelope
import VibeScript.Server.Session

/-!
Serving a stream of bytes.

The server reads a frame, handles its envelope, writes every reply, and only then reads the
next frame.  It goes on until the stream ends, a handler ends the session, or something
fails.
-/

namespace VibeScript

/-- What has been written so far, call by call.  If `allowance` is given, so many more calls
succeed before one fails. -/
structure Output where
  writes : List Bytes
  allowance : Option Nat := none
deriving DecidableEq

namespace Output

/-- An output that nothing has been written to and that never fails. -/
def empty : Output := ⟨[], none⟩

/-- The bytes that have been written. -/
def bytes (output : Output) : Bytes := output.writes.flatten

/-- Write bytes in one call; none if the call fails. -/
def write? (output : Output) (bytes : Bytes) : Option Output :=
  match output.allowance with
  | none => some ⟨output.writes ++ [bytes], none⟩
  | some 0 => none
  | some (n + 1) => some ⟨output.writes ++ [bytes], some n⟩

/-- A call that succeeds adds its bytes behind those written before. -/
theorem bytes_of_write? {output written : Output} {bytes : Bytes}
    (h : output.write? bytes = some written) : written.bytes = output.bytes ++ bytes := by
  unfold write? at h
  split at h
  · cases h
    simp [Output.bytes]
  · simp at h
  · cases h
    simp [Output.bytes]

end Output

/-- Why a server stopped serving. -/
inductive Ending where
  /-- the stream ended or the session was ended -/
  | finished
  | framing (error : FramingError)
  | interrupted
  /-- anything else, with its text -/
  | failed (message : Text)
deriving DecidableEq

/-- The text of a failed write. -/
def writeFailed : Text := "write failed"

/-- Write a frame: its header and its body, one call each.  What was written before a
failure stays written. -/
def writeFrame (body : Bytes) (output : Output) : Except Ending Unit × Output :=
  match output.write? (frameHeader body.length) with
  | none => (.error (.failed writeFailed), output)
  | some output =>
      match output.write? body with
      | none => (.error (.failed writeFailed), output)
      | some output => (.ok (), output)

/-- Write messages, one frame each, until one fails.  A message that cannot be encoded is
not begun. -/
def writeMessages (messages : List Json) (output : Output) : Except Ending Unit × Output :=
  match messages with
  | [] => (.ok (), output)
  | message :: rest =>
      match encodeEnvelope message with
      | .error e => (.error (.failed e.message), output)
      | .ok body =>
          match writeFrame body output with
          | (.error ending, output) => (.error ending, output)
          | (.ok (), output) => writeMessages rest output

/-- How a failed read ends the serving. -/
def ReadError.ending : ReadError → Ending
  | .framing error => .framing error
  | .tooManyDigits error => .failed error.message
  | .lengthTooLarge => .failed "cannot fit 'int' into an index-sized integer"
  | .interrupted => .interrupted

/-- What has become of the server, its input and its output. -/
structure Served where
  context : Context Session
  input : Input
  output : Output
  ending : Ending

/-- The first line of every log. -/
def serverStarting : Text := "VibeScript language server starting"

/-- The last journal entries of a server that stops this way. -/
def Ending.entries (ending : Ending) : List JournalEntry :=
  let reason := match ending with
    | .finished => []
    | .framing error => [.line ("Framing error, closing connection: " ++ error.message)]
    | .interrupted => [.line "Interrupted"]
    | .failed message => [.line ("Server error: " ++ message), .trace]
  reason ++ [.line "Server stopped"]

/-- The exit status of a server that stops this way. -/
def Ending.exitStatus (ending : Ending) (session : Session) : Nat :=
  match ending with
  | .finished => session.exitCode
  | _ => 1

/-- Write entries into the journal of a session. -/
def Session.record (session : Session) (entries : List JournalEntry) : Session :=
  { session with journal := session.journal ++ entries }

namespace Server

/-- Handle a payload: the replies to write.  A payload that is no envelope is reported and
dropped. -/
def receive (server : Server) (payload : Bytes) (ctx : Context Session) :
    Except NestingError (List Json) × Context Session :=
  match decodeEnvelope payload with
  | .error e => (.error e, ctx)
  | .ok none =>
      (.ok [], server.peer.reporting
        ("dropping malformed payload (" ++ decimal payload.length ++ " bytes)") ctx)
  | .ok (some envelope) =>
      let (replies, ctx) := server.peer.handle envelope ctx
      (.ok replies, ctx)

/-- Handle a payload and write the replies. -/
def answer (server : Server) (payload : Bytes) (ctx : Context Session) (output : Output) :
    Except Ending Unit × Context Session × Output :=
  match server.receive payload ctx with
  | (.error e, ctx) => (.error (.failed e.message), ctx, output)
  | (.ok replies, ctx) =>
      let (result, output) := writeMessages replies output
      (result, ctx, output)

/-- Serve until the end.  A session that ends in good order is not running afterwards. -/
def serveFrom (server : Server) (ctx : Context Session) (input : Input) (output : Output) :
    Served :=
  if !ctx.running then ⟨ctx, input, output, .finished⟩
  else
    match _h : readPayload input with
    | (.endOfStream, rest) => ⟨ctx.stop, rest, output, .finished⟩
    | (.failed e, rest) => ⟨ctx, rest, output, e.ending⟩
    | (.payload payload, rest) =>
        match server.answer payload ctx output with
        | (.error ending, ctx, output) => ⟨ctx, rest, output, ending⟩
        | (.ok (), ctx, output) => serveFrom server ctx rest output
termination_by input.bytes.length
decreasing_by exact readPayload_length _h

/-- Run a server on an input from start to end. -/
def run (server : Server) (input : Input) (output : Output) : Served :=
  let served := server.serveFrom (initial.modify (·.log serverStarting)) input output
  { served with context := served.context.modify (·.record served.ending.entries) }

end Server

/-- The exit status of a server that stopped. -/
def Served.exitStatus (served : Served) : Nat :=
  served.ending.exitStatus served.context.state

/-- The log that a journal makes: every line with a line feed. -/
def journalLog (journal : List JournalEntry) : Text :=
  journal.flatMap fun entry =>
    match entry with
    | .line text => text ++ [CodePoint.newline]
    | .trace => []

/-- What a journal puts on the console.  A quiet server shows traces only. -/
def journalConsole (quiet : Bool) (journal : List JournalEntry) : Text :=
  journal.flatMap fun entry =>
    match entry with
    | .line text => if quiet then [] else "[vibes-lsp] " ++ text ++ [CodePoint.newline]
    | .trace => "<traceback>\n"

end VibeScript
