import VibeScript.Files
import VibeScript.Script

/-!
Checking files: each is read and compiled, and what came of it is reported.

Both outputs are UTF-8.  Standard error shows every text, with escapes for surrogates.  What
standard output does with them is up to whoever has set it up, so it may refuse the line of a file
whose path is not UTF-8.  Both take all bytes that are written to them.
-/

namespace VibeScript

/-- What goes to standard output and to standard error, and whether a failure is in it. -/
structure Report where
  out : Bytes := []
  err : Bytes := []
  failed : Bool := false
deriving DecidableEq

namespace Report

/-- One report behind another. -/
def append (first second : Report) : Report :=
  ⟨first.out ++ second.out, first.err ++ second.err, first.failed || second.failed⟩

instance : Append Report := ⟨append⟩

/-- The exit status that a report stands for. -/
def exitStatus (report : Report) : Nat := if report.failed then 1 else 0

theorem append_def (first second : Report) : first ++ second =
    ⟨first.out ++ second.out, first.err ++ second.err, first.failed || second.failed⟩ := rfl

@[simp] theorem empty_append (report : Report) : ({} : Report) ++ report = report := by
  simp [append_def]

@[simp] theorem append_empty (report : Report) : report ++ ({} : Report) = report := by
  simp [append_def]

theorem append_assoc (a b c : Report) : a ++ b ++ c = a ++ (b ++ c) := by
  simp [append_def, Bool.or_assoc]

end Report

/-- A failure that ends a program: nothing reports it and nothing goes on after it. -/
inductive Crash where
  /-- a script is not UTF-8 -/
  | undecodable (error : DecodeError)
  /-- a file cannot be used -/
  | unusable (error : FileError) (path : Text)
  /-- standard output refuses a line -/
  | unprintable (error : EncodeError)
deriving DecidableEq

def Crash.message : Crash → Text
  | .undecodable error => error.message
  | .unusable error path => error.message path
  | .unprintable error => error.message

/-- What came of a file. -/
inductive Verdict where
  | compiled
  | unreadable (error : FileError)
  | rejected (error : CompileError)
deriving DecidableEq

/-- The report of a failure, which goes to standard error. -/
def Report.failure (line : Text) : Report :=
  { err := encodeUtf8Escaping line, failed := true }

/-- The report of a verdict.  A quiet check does not mention what compiles. -/
def Verdict.report (stdout : SurrogateRule) (quiet : Bool) (path : Text) :
    Verdict → Except Crash Report
  | .compiled =>
      if quiet then .ok {}
      else match stdout.encode (path ++ ": ok\n") with
        | .error error => .error (.unprintable error)
        | .ok line => .ok { out := line }
  | .unreadable error =>
      .ok (.failure (path ++ ": read script: " ++ error.message path ++ "\n"))
  | .rejected error =>
      .ok (.failure (path ++ ": compile failed: " ++ error.message ++ "\n"))

/-- The source that the bytes of a file hold.  However its lines end, they are taken to end
with line feeds. -/
def decodeSource (bytes : Bytes) : Except DecodeError Text :=
  (decodeUtf8 bytes).map Text.withLineFeeds

/-- Check a file, given what reading it gave. -/
def checkFile (path : Text) : Except FileError Bytes → Except Crash Verdict
  | .error error =>
      if error.answer?.isSome then .ok (.unreadable error) else .error (.unusable error path)
  | .ok bytes =>
      match decodeSource bytes with
      | .error error => .error (.undecodable error)
      | .ok source =>
          match compile source with
          | .error error => .ok (.rejected error)
          | .ok _ => .ok .compiled

/-- Check a file and report what came of it. -/
def reportFile (stdout : SurrogateRule) (quiet : Bool) (path : Text)
    (content : Except FileError Bytes) : Except Crash Report :=
  match checkFile path content with
  | .error crash => .error crash
  | .ok verdict => verdict.report stdout quiet path

/-- Check files one after the other.  A crash ends the checking, and what was reported before
it stays reported. -/
def checkFiles (read : Text → Except FileError Bytes) (stdout : SurrogateRule) (quiet : Bool) :
    List Text → Report × Option Crash
  | [] => ({}, none)
  | path :: rest =>
      match reportFile stdout quiet path (read path) with
      | .error crash => ({}, some crash)
      | .ok report =>
          let (others, crash) := checkFiles read stdout quiet rest
          (report ++ others, crash)

section

variable {read : Text → Except FileError Bytes} {stdout : SurrogateRule} {quiet : Bool}
  {path : Text}

@[simp] theorem checkFiles_nil : checkFiles read stdout quiet [] = ({}, none) := rfl

/-- A file that does not crash the checking adds its report in front of the others. -/
theorem checkFiles_cons_of_ok {report : Report}
    (h : reportFile stdout quiet path (read path) = .ok report) (rest : List Text) :
    checkFiles read stdout quiet (path :: rest) =
      (report ++ (checkFiles read stdout quiet rest).1,
        (checkFiles read stdout quiet rest).2) := by
  rw [checkFiles, h]

/-- A file that crashes the checking ends it. -/
theorem checkFiles_cons_of_error {crash : Crash}
    (h : reportFile stdout quiet path (read path) = .error crash) (rest : List Text) :
    checkFiles read stdout quiet (path :: rest) = ({}, some crash) := by
  rw [checkFiles, h]

end

end VibeScript
