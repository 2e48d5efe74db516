import VibeScript.CommandLine.Run

/-!
The programs as they run: real files, standard input and the standard outputs.

Here bytes are only moved.  What they mean and what is to be written is decided by the pure
definitions, one frame or one file at a time.  The executable serves an editor if it is called
`vibes-lsp`; called by any other name it is `vibes`.
-/

namespace VibeScript

/-- A text as a string; a lone surrogate becomes the replacement character. -/
def stringOf (t : Text) : String :=
  String.ofList (t.map fun c => if c.isSurrogate then '\uFFFD' else Char.ofNat c.val)

/-- Write bytes at once. -/
def writeNow (stream : IO.FS.Stream) (bytes : Bytes) : IO Unit := do
  stream.write ⟨bytes.toArray⟩
  stream.flush

/-- Write a text at once. -/
def writeText (stream : IO.FS.Stream) (t : Text) : IO Unit :=
  writeNow stream (encodeUtf8Escaping t)

/-- The number of an error of the system.  Some of its calls answer with the negative. -/
def errorNumber (code : UInt32) : Nat := code.toInt32.toInt.natAbs

/-- What an error of the system says about a file. -/
def fileErrorOf : IO.Error → FileError
  | .noFileOrDirectory .. => .missing
  | .inappropriateType _ code _ =>
      if errorNumber code = 21 then .isDirectory else .notDirectory
  | .invalidArgument _ code reason =>
      if errorNumber code = 36 then .nameTooLong
      else .refused (errorNumber code) (text reason)
  | .permissionDenied .. => .refused 13 "Permission denied"
  | error => .refused 5 (text (toString error))

/-- Use a file; an error of the system becomes a value. -/
def accessFile {α : Type} (path : Text) (action : IO α) : IO (Except FileError α) := do
  if let .error error := FileTree.route path then return .error error
  try return .ok (← action)
  catch error => return .error (fileErrorOf error)

/-- The bytes of a file. -/
def readFile (path : Text) : IO (Except FileError Bytes) :=
  accessFile path do return (← IO.FS.readBinFile (stringOf path)).toList

/-- Read a line with its line feed, or what comes before the end of the stream. -/
partial def readLine (stream : IO.FS.Stream) (line : Bytes) : IO Bytes := do
  match (← stream.read 1).toList with
  | [] => return line.reverse
  | b :: _ => if b = 10 then return (b :: line).reverse else readLine stream (b :: line)

/-- Read so many bytes, or what comes before the end of the stream. -/
partial def readBytes (stream : IO.FS.Stream) (count : Nat) (bytes : ByteArray) :
    IO ByteArray := do
  if count ≤ bytes.size then return bytes
  let more ← stream.read (USize.ofNat (min (count - bytes.size) 65536))
  if more.isEmpty then return bytes
  readBytes stream count (bytes ++ more)

/-- The bytes of a frame, or as many of them as are of use. -/
partial def readFrame (stream : IO.FS.Stream) (found : Option Nat) (before : Bytes) :
    IO Bytes := do
  let line ← readLine stream []
  let sofar := before ++ line
  if line.isEmpty then return sofar
  match headerStep found line with
  | .next found => readFrame stream found sofar
  | .failed _ => return sofar
  | .finished length =>
      if lengthLimit < length then return sofar
      return sofar ++ (← readBytes stream length .empty).toList

/-- Where a server shows what happens in its session. -/
structure Display where
  console : IO.FS.Stream
  quiet : Bool
  log : Option IO.FS.Handle

/-- Show the entries of a journal. -/
def Display.show (display : Display) (entries : List JournalEntry) : IO Unit := do
  writeText display.console (journalConsole display.quiet entries)
  if let some log := display.log then
    log.write ⟨(encodeUtf8Escaping (journalLog entries)).toArray⟩

/-- Serve frames until the end: how the serving ended, and the session that it leaves. -/
partial def serveFrames (server : Server) (input output : IO.FS.Stream) (display : Display)
    (ctx : Context Session) : IO (Ending × Context Session) := do
  if !ctx.running then return (.finished, ctx)
  match (readPayload (.ofBytes (← readFrame input none []))).1 with
  | .endOfStream => return (.finished, ctx.stop)
  | .failed error => return (error.ending, ctx)
  | .payload payload =>
      let known := ctx.state.journal.length
      let (result, ctx, written) := server.answer payload ctx .empty
      writeNow output written.bytes
      display.show (ctx.state.journal.drop known)
      match result with
      | .error ending => return (ending, ctx)
      | .ok () => serveFrames server input output display ctx

/-- Serve an editor on the standard streams: the exit status. -/
def serveStandard (quiet : Bool) (log : Option IO.FS.Handle) : IO Nat := do
  let display : Display := ⟨← IO.getStderr, quiet, log⟩
  let sink : LogSink := if log.isSome then .utf8File else .anyText
  let started := Server.initial.modify (·.log serverStarting)
  display.show started.state.journal
  let server := { Server.standard with sink }
  let (ending, ctx) ← serveFrames server (← IO.getStdin) (← IO.getStdout) display started
  display.show ending.entries
  return ending.exitStatus ctx.state

/-- Check files one after the other: the exit status. -/
def checkStandard (quiet : Bool) (paths : List Text) : IO Nat := do
  let mut failed := false
  for path in paths do
    match reportFile .refused quiet path (← readFile path) with
    | .error crash =>
        writeText (← IO.getStderr) (crash.message ++ "\n")
        return 1
    | .ok report =>
        writeNow (← IO.getStdout) report.out
        writeNow (← IO.getStderr) report.err
        failed := failed || report.failed
  return if failed then 1 else 0

/-- Show an outcome that needs neither files nor input. -/
def showOutcome : Except Crash Outcome → IO Nat
  | .error crash => do
      writeText (← IO.getStderr) (crash.message ++ "\n")
      return 1
  | .ok outcome => do
      writeNow (← IO.getStdout) outcome.out
      writeNow (← IO.getStderr) outcome.err
      return outcome.exitStatus

/-- Run a program on the standard streams: the exit status. -/
def Program.start (program : Program) (arguments : List Text) : IO Nat :=
  match program.read arguments with
  | .error refusal => showOutcome (.ok (refusal.outcome .empty))
  | .ok .overview => showOutcome (program.perform .overview .empty [] .refused)
  | .ok (.check quiet paths) => checkStandard quiet paths
  | .ok (.serve [] quiet) => serveStandard quiet none
  | .ok (.serve log quiet) => do
      match ← accessFile log (IO.FS.Handle.mk (stringOf log) .write) with
      | .error error => showOutcome (program.withoutLog error log .empty)
      | .ok handle => serveStandard quiet (some handle)

end VibeScript

open VibeScript in
def main (arguments : List String) : IO UInt32 := do
  let name := (← IO.appPath).fileName
  let program : Program := if name = some "vibes-lsp" then .languageServer else .vibes
  return UInt32.ofNat (← program.start (arguments.map text))
