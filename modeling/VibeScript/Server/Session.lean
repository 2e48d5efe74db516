import VibeScript.Editor
import VibeScript.Json.Display
import VibeScript.Rpc
import VibeScript.Server.Params
import VibeScript.Text.Utf8
import VibeScript.Word

/-!
The language server: its settings, its state, and how it handles each message.
-/

namespace VibeScript

/-- How far a server has come.  Messages are handled alike in all of them. -/
inductive Lifecycle where
  | unstarted
  | initialized
  | shuttingDown
  | exited
deriving DecidableEq

def Lifecycle.name : Lifecycle → Text
  | .unstarted => "unstarted"
  | .initialized => "initialized"
  | .shuttingDown => "shutting-down"
  | .exited => "exited"

/-- What happened in a session, as far as people are told: a line for the log, or a trace of
an error. -/
inductive JournalEntry where
  | line (text : Text)
  | trace
deriving DecidableEq

/-- The state of a server. -/
structure Session where
  lifecycle : Lifecycle
  shutdownRequested : Bool
  documents : Documents
  journal : List JournalEntry
deriving DecidableEq

namespace Session

/-- The state of a server that nobody has talked to. -/
def fresh : Session := ⟨.unstarted, false, [], []⟩

/-- Write a line into the journal. -/
def log (session : Session) (line : Text) : Session :=
  { session with journal := session.journal ++ [.line line] }

/-- Change the lifecycle of a session. -/
def enter (session : Session) (lifecycle : Lifecycle) : Session :=
  { session with lifecycle := lifecycle }

/-- Change the open documents of a session. -/
def edit (session : Session) (f : Documents → Documents) : Session :=
  { session with documents := f session.documents }

/-- The exit status of a session that ended in good order: one if it was ended without a
shutdown before. -/
def exitCode (session : Session) : Nat :=
  if session.lifecycle = .exited ∧ ¬session.shutdownRequested then 1 else 0

end Session

/-- Where the lines of the log go.  A log file is written in UTF-8, so a line with a lone
surrogate cannot be logged to it. -/
inductive LogSink where
  | anyText
  | utf8File
deriving DecidableEq

/-- The settings of a server. -/
structure Server where
  name : Text
  version : Text
  language : Text
  source : Text
  template : Template
  compiler : Compiler
  sink : LogSink

/-- The version of this software. -/
def softwareVersion : Text := "0.1.0"

namespace Server

/-- A server with the usual settings. -/
def standard : Server :=
  ⟨"vibes-lsp", softwareVersion, "VibeScript", defaultSource, defaultTemplate,
    scriptCompiler, .anyText⟩

/-- Log a line while a message is handled.  If the line cannot be logged, the handler
fails. -/
def logging (server : Server) (line : Text) (ctx : Context Session) :
    Except Failure Unit × Context Session :=
  match server.sink, surrogateRun? line with
  | .utf8File, some e => (.error (.crash e.message), ctx)
  | _, _ => (.ok (), ctx.modify (·.log line))

/-- Log a line and go on if that succeeded. -/
def loggingThen (server : Server) (line : Text)
    (next : Context Session → Except Failure Json × Context Session) (ctx : Context Session) :
    Except Failure Json × Context Session :=
  match server.logging line ctx with
  | (.ok _, ctx) => next ctx
  | (.error failure, ctx) => (.error failure, ctx)

/-- What the server can do. -/
def capabilities (server : Server) : Json :=
  .obj [("capabilities", .obj [("textDocumentSync", .int 1), ("hoverProvider", .bool true),
      ("completionProvider", .obj [("resolveProvider", .bool false)])]),
    ("serverInfo", .obj [("name", .str server.name), ("version", .str server.version)])]

/-- `initialize`: greet the client. -/
def onInitialize (server : Server) : Handler Session := fun params =>
  let client := clientName params
  let shown : Text := if client.isNothing then "unknown" else client.displayPlain
  server.loggingThen ("Received initialize request (client: " ++ shown ++ ")") fun ctx =>
    (.ok server.capabilities, ctx.modify (·.enter .initialized))

/-- `initialized`: the client is ready. -/
def onInitialized (server : Server) : Handler Session := fun _ =>
  server.loggingThen "Server initialized" fun ctx => (.ok .null, ctx)

/-- `shutdown`: the client will end the session. -/
def onShutdown (server : Server) : Handler Session := fun _ =>
  server.loggingThen "Shutdown requested" fun ctx =>
    (.ok .null, ctx.modify fun session =>
      { session.enter .shuttingDown with shutdownRequested := true })

/-- `exit`: the client ends the session. -/
def onExit (server : Server) : Handler Session := fun _ =>
  server.loggingThen "Exit notification received" fun ctx =>
    (.ok .null, (ctx.modify (·.enter .exited)).stop)

/-- The notification that tells the diagnostics of a document. -/
def publishMethod : Text := "textDocument/publishDiagnostics"

def publishParams (uri : Text) (diagnostics : List Diagnostic) : Json :=
  .obj [("uri", .str uri), ("diagnostics", .arr (diagnostics.map Diagnostic.toJson))]

/-- Compile the text of a document and publish what is wrong with it. -/
def publish (server : Server) (uri content : Text) (ctx : Context Session) :
    Except Failure Json × Context Session :=
  match diagnose server.compiler server.template server.source content with
  | .error e => (.error (.crash e.message), ctx)
  | .ok diagnostics => (.ok .null, ctx.notify publishMethod (publishParams uri diagnostics))

/-- A document is opened. -/
def onOpen (server : Server) : Handler Session := fun params ctx =>
  match openParams params with
  | .error fault => (.error (.invalidParams fault.message), ctx)
  | .ok document =>
      server.loggingThen ("Document opened: " ++ document.uri) (fun ctx =>
        server.publish document.uri document.content
          (ctx.modify (·.edit (·.insert document)))) ctx

/-- The text of a document changes. -/
def onChange (server : Server) : Handler Session := fun params ctx =>
  match changeParams params with
  | .error fault => (.error (.invalidParams fault.message), ctx)
  | .ok none => (.ok .null, ctx)
  | .ok (some document) =>
      server.publish document.uri document.content
        (ctx.modify (·.edit (·.update document.uri document.content document.version)))

/-- A document is closed; its diagnostics go away. -/
def onClose (server : Server) : Handler Session := fun params ctx =>
  match closeParams params with
  | .error fault => (.error (.invalidParams fault.message), ctx)
  | .ok uri =>
      server.loggingThen ("Document closed: " ++ uri) (fun ctx =>
        match ctx.state.documents.get? uri with
        | none => (.ok .null, ctx)
        | some _ =>
            (.ok .null,
              (ctx.modify (·.edit (·.erase uri))).notify publishMethod (publishParams uri [])))
        ctx

/-- The words that can be completed. -/
def completions : Json :=
  .obj [("isIncomplete", .bool false),
    ("items", .arr (completionWords.map fun word =>
      match classifyWord word with
      | .keyword => completionItemJson word keywordItem (some "keyword")
      | _ => completionItemJson word functionItem (some "builtin")))]

/-- A completion is asked for. -/
def onCompletion : Handler Session := fun _ ctx => (.ok completions, ctx)

/-- What a hover shows of a word on a line. -/
def hoverOn (server : Server) (lineText : Text) (line : Int) (span : WordSpan) : Json :=
  hoverJson ("`" ++ span.word ++ "`\n\n" ++ server.language ++ " " ++
      (classifyWord span.word).name)
    (rangeJson line (lineText.indexToUtf16 span.start) line (lineText.indexToUtf16 span.stop))

/-- What a hover shows: the word at the cursor, or null if there is none. -/
def hover (server : Server) (documents : Documents) (asked : HoverParams) : Json :=
  match documents.get? asked.uri with
  | none => .null
  | some document =>
      match wordAt? document.content asked.line asked.character with
      | none => .null
      | some span => server.hoverOn (document.line asked.line) asked.line span

/-- A hover is asked for. -/
def onHover (server : Server) : Handler Session := fun params ctx =>
  match hoverParams params with
  | .error fault => (.error (.invalidParams fault.message), ctx)
  | .ok asked => (.ok (server.hover ctx.state.documents asked), ctx)

/-- The server as a peer: its handlers, and a journal for its reports. -/
def peer (server : Server) : Peer Session where
  requests :=
    [("initialize", server.onInitialize), ("shutdown", server.onShutdown),
      ("textDocument/completion", onCompletion), ("textDocument/hover", server.onHover)]
  notifications :=
    [("initialized", server.onInitialized), ("exit", server.onExit),
      ("textDocument/didOpen", server.onOpen), ("textDocument/didChange", server.onChange),
      ("textDocument/didClose", server.onClose)]
  report := fun report session => session.log report

/-- A server that is ready for its first message. -/
def initial : Context Session := ⟨Session.fresh, [], true⟩

end Server

end VibeScript
