import VibeScript.CommandLine.Check
import VibeScript.CommandLine.Programs
import VibeScript.Server.Serve

/-!
Running a program: from its command line, its files and its input to all that it leaves behind.
-/

namespace VibeScript

/-- What a program leaves behind. -/
structure Outcome where
  exitStatus : Nat
  out : Bytes
  err : Bytes
  files : FileTree
deriving DecidableEq

/-- What a refused command line shows: help, or its usage and what is wrong with it.  Help is
ASCII, so standard output takes it whatever it does with surrogates. -/
def Refusal.outcome (refusal : Refusal) (files : FileTree) : Outcome :=
  match refusal.halt with
  | .help => ⟨0, asciiBytes refusal.grammar.help, [], files⟩
  | .misuse error =>
      ⟨2, [],
        encodeUtf8Escaping (refusal.grammar.usage ++ refusal.grammar.program ++ ": error: " ++
          error.message ++ "\n"),
        files⟩

/-- Serve an editor, with the log in a file if there is one. -/
def serveEditor (logFile : Option (List Bytes)) (quiet : Bool) (files : FileTree)
    (input : Bytes) : Outcome :=
  let sink : LogSink := if logFile.isSome then .utf8File else .anyText
  let served := { Server.standard with sink }.run (.ofBytes input) .empty
  let journal := served.context.state.journal
  let files := match logFile with
    | none => files
    | some names => files.put names (.file (encodeUtf8Escaping (journalLog journal)))
  ⟨served.exitStatus, served.output.bytes, encodeUtf8Escaping (journalConsole quiet journal),
    files⟩

/-- The file of a log; none for an empty path. -/
def logFile (files : FileTree) (path : Text) : Except FileError (Option (List Bytes)) :=
  if path = [] then .ok none else (files.writable path).map some

namespace Program

/-- What a program does when its log cannot be written: `vibes` says so, `vibes-lsp` does
not handle it. -/
def withoutLog (program : Program) (error : FileError) (path : Text) (files : FileTree) :
    Except Crash Outcome :=
  match program with
  | .vibes =>
      .ok ⟨1, [],
        encodeUtf8Escaping ("Error starting LSP server: " ++ error.message path ++
          "\n<traceback>\n"),
        files⟩
  | .languageServer => .error (.unusable error path)

/-- Carry out a command. -/
def perform (program : Program) (command : Command) (files : FileTree) (input : Bytes)
    (stdout : SurrogateRule) : Except Crash Outcome :=
  match command with
  | .overview => .ok ⟨2, [], encodeUtf8Escaping vibesGrammar.help, files⟩
  | .serve log quiet =>
      match logFile files log with
      | .error error => program.withoutLog error log files
      | .ok file => .ok (serveEditor file quiet files input)
  | .check quiet paths =>
      match checkFiles files.read stdout quiet paths with
      | (_, some crash) => .error crash
      | (report, none) => .ok ⟨report.exitStatus, report.out, report.err, files⟩

/-- Run a program. -/
def run (program : Program) (arguments : List Text) (files : FileTree) (input : Bytes)
    (stdout : SurrogateRule) : Except Crash Outcome :=
  match program.read arguments with
  | .error refusal => .ok (refusal.outcome files)
  | .ok command => program.perform command files input stdout

end Program

end VibeScript
