import VibeScript.CommandLine.Arguments

/-!
The programs and their commands.

`vibes` has a command that serves an editor and one that checks scripts; `vibes-lsp` serves an
editor and does nothing else.
-/

namespace VibeScript

/-- What a command line asks for. -/
inductive Command where
  /-- no command at all: an overview of the commands -/
  | overview
  /-- serve an editor; an empty path means no log file -/
  | serve (log : Text) (quiet : Bool)
  | check (quiet : Bool) (paths : List Text)
deriving DecidableEq

/-- A command line that asks for help, or that is wrong, and the grammar to help with. -/
structure Refusal where
  grammar : Grammar
  halt : Halt
deriving DecidableEq

def helpOption : OptionRule := ⟨.help, ["-h", "--help"]⟩

def logOption : OptionRule := ⟨.log, ["--log"]⟩

def quietOption : OptionRule := ⟨.quiet, ["--quiet", "-q"]⟩

/-- The name of the command that serves an editor. -/
def serveName : Text := "lsp"

/-- The name of the command that checks scripts. -/
def checkName : Text := "check"

def vibesGrammar : Grammar where
  program := "vibes"
  usage := "usage: vibes [-h] \x7blsp,check\x7d ...\n"
  details :=
    "VibeScript language tooling\n" ++
    "\n" ++
    "positional arguments:\n" ++
    "  \x7blsp,check\x7d  Available commands\n" ++
    "    lsp        Start the Language Server Protocol server\n" ++
    "    check      Compile scripts and report errors\n" ++
    "\n" ++
    "options:\n" ++
    "  -h, --help   show this help message and exit\n" ++
    "\n" ++
    "examples:\n" ++
    "  vibes lsp                     Start the language server on stdio\n" ++
    "  vibes lsp --log lsp.log       Start the server and log to a file\n" ++
    "  vibes check script.vibe       Compile a script without running it\n" ++
    "        \n"
  options := [helpOption]
  operands := .command

def serveGrammar : Grammar where
  program := "vibes lsp"
  usage := "usage: vibes lsp [-h] [--log FILE] [--quiet]\n"
  details :=
    "options:\n" ++
    "  -h, --help   show this help message and exit\n" ++
    "  --log FILE   Log file for debugging LSP communication\n" ++
    "  --quiet, -q  Do not echo log messages to stderr\n"
  options := [helpOption, logOption, quietOption]
  operands := .none

def checkGrammar : Grammar where
  program := "vibes check"
  usage := "usage: vibes check [-h] [--quiet] FILE [FILE ...]\n"
  details :=
    "positional arguments:\n" ++
    "  FILE         Script to check\n" ++
    "\n" ++
    "options:\n" ++
    "  -h, --help   show this help message and exit\n" ++
    "  --quiet, -q  Only report failures\n"
  options := [helpOption, quietOption]
  operands := .files

def serverGrammar : Grammar where
  program := "vibes-lsp"
  usage := "usage: vibes-lsp [-h] [--log FILE] [--quiet]\n"
  details :=
    "VibeScript Language Server\n" ++
    "\n" ++
    "options:\n" ++
    "  -h, --help  show this help message and exit\n" ++
    "  --log FILE  Log file for debugging\n" ++
    "  --quiet     Do not echo log messages to stderr\n"
  options := [helpOption, logOption, ⟨.quiet, ["--quiet"]⟩]
  operands := .none

namespace Grammar

/-- The whole help of a program. -/
def help (grammar : Grammar) : Text := grammar.usage ++ "\n" ++ grammar.details

/-- Read a command line, with the grammar in every refusal. -/
def readOrRefuse (grammar : Grammar) (arguments : List Text) : Except Refusal Given :=
  (grammar.read arguments).mapError (⟨grammar, ·⟩)

/-- Refuse a command line that leaves arguments over. -/
def refuseLeftover (grammar : Grammar) (leftover : List Text) : Except Refusal Unit :=
  if leftover = [] then .ok ()
  else .error ⟨grammar, .misuse (.unrecognized leftover)⟩

end Grammar

/-- The programs. -/
inductive Program where
  | vibes
  | languageServer
deriving DecidableEq

/-- Read a command line of `vibes`.  Arguments that are left over are the last thing to be
found wrong, those of the command behind those in front of it. -/
def readVibes (arguments : List Text) : Except Refusal Command := do
  let given ← vibesGrammar.readOrRefuse arguments
  match given.operands with
  | some (name :: rest) =>
      if name = serveName then
        let inner ← serveGrammar.readOrRefuse rest
        vibesGrammar.refuseLeftover (given.unrecognized ++ inner.unrecognized)
        .ok (.serve inner.log inner.quiet)
      else if name = checkName then
        let inner ← checkGrammar.readOrRefuse rest
        vibesGrammar.refuseLeftover (given.unrecognized ++ inner.unrecognized)
        .ok (.check inner.quiet (inner.operands.getD []))
      else
        .error ⟨vibesGrammar, .misuse (.unknownCommand name [serveName, checkName])⟩
  | _ =>
      vibesGrammar.refuseLeftover given.unrecognized
      .ok .overview

/-- Read a command line of `vibes-lsp`. -/
def readServer (arguments : List Text) : Except Refusal Command := do
  let given ← serverGrammar.readOrRefuse arguments
  serverGrammar.refuseLeftover given.unrecognized
  .ok (.serve given.log given.quiet)

/-- Read the command line of a program. -/
def Program.read : Program → List Text → Except Refusal Command
  | .vibes => readVibes
  | .languageServer => readServer

end VibeScript
