import VibeScript.Json.Basic

/-!
Requests, notifications and responses.

A peer has a handler for each method it knows.  Handling an envelope gives the messages
to send back, in order: the notifications that the handler queued, then the response if
the envelope was a request.  A handler can fail, but handling an envelope never does:
every failure becomes a response or a report.
-/

namespace VibeScript

/-- An error as a response carries it.  Null data is left out. -/
structure RpcError where
  code : Int
  message : Text
  data : Json := .null

def methodNotFoundCode : Int := -32601

def invalidParamsCode : Int := -32602

def internalErrorCode : Int := -32603

def RpcError.toJson (e : RpcError) : Json :=
  .obj (("code", .int e.code) :: ("message", .str e.message) ::
    Members.unlessNull "data" e.data)

/-- The answer to a request for a method that nobody handles. -/
def methodNotFound : RpcError := ⟨methodNotFoundCode, "method not found", .null⟩

/-- A response.  It carries the error if there is one, and the result otherwise. -/
def response (id result error : Json) : Json :=
  .obj [("jsonrpc", .str "2.0"), ("id", id),
    if error.isNull then ("result", result) else ("error", error)]

/-- A notification.  Null params are left out. -/
def notification (method : Text) (params : Json) : Json :=
  .obj (("jsonrpc", .str "2.0") :: ("method", .str method) ::
    Members.unlessNull "params" params)

/-- What is said of malformed params if nothing more is known. -/
def defaultInvalidParams : Text := "invalid params"

/-- How a handler fails. -/
inductive Failure where
  /-- the params of the message are malformed -/
  | invalidParams (message : Text)
  /-- an error that the handler words itself -/
  | rpc (error : RpcError)
  /-- anything else -/
  | crash (message : Text)

/-- What the text of a failure says. -/
def Failure.message : Failure → Text
  | .invalidParams message => message
  | .rpc error => error.message
  | .crash message => message

/-- The error that answers a request whose handler failed. -/
def Failure.toError : Failure → RpcError
  | .invalidParams message => ⟨invalidParamsCode, message, .null⟩
  | .rpc error => error
  | .crash message => ⟨internalErrorCode, message, .null⟩

/-- What a peer knows while it handles messages: its state, the messages that are queued
to be sent, and whether it goes on after this one. -/
structure Context (σ : Type) where
  state : σ
  outbox : List Json
  running : Bool

namespace Context

variable {σ : Type}

/-- Queue a message. -/
def send (ctx : Context σ) (message : Json) : Context σ :=
  { ctx with outbox := ctx.outbox ++ [message] }

/-- Queue a notification. -/
def notify (ctx : Context σ) (method : Text) (params : Json) : Context σ :=
  ctx.send (notification method params)

/-- Change the state. -/
def modify (ctx : Context σ) (f : σ → σ) : Context σ := { ctx with state := f ctx.state }

/-- End the session once the current replies are sent. -/
def stop (ctx : Context σ) : Context σ := { ctx with running := false }

end Context

/-- A handler gets the params of a message.  It may change the context, also when it
fails. -/
abbrev Handler (σ : Type) := Json → Context σ → Except Failure Json × Context σ

/-- The handlers of a peer, and what it does with a report. -/
structure Peer (σ : Type) where
  requests : List (Text × Handler σ)
  notifications : List (Text × Handler σ)
  report : Text → σ → σ

namespace Peer

variable {σ : Type}

/-- The handler of a method; of two for the same method the first one counts. -/
def handler? (table : List (Text × Handler σ)) (method : Text) : Option (Handler σ) :=
  (table.find? (·.1 = method)).map (·.2)

/-- The peer with a handler for a request; it takes the place of an earlier one. -/
def onRequest (peer : Peer σ) (method : Text) (handler : Handler σ) : Peer σ :=
  { peer with requests := (method, handler) :: peer.requests }

/-- The peer with a handler for a notification; it takes the place of an earlier one. -/
def onNotification (peer : Peer σ) (method : Text) (handler : Handler σ) : Peer σ :=
  { peer with notifications := (method, handler) :: peer.notifications }

/-- Hand a report on. -/
def reporting (peer : Peer σ) (report : Text) (ctx : Context σ) : Context σ :=
  ctx.modify (peer.report report)

/-- Handle a request: run its handler and queue the response. -/
def respond (peer : Peer σ) (handler : Handler σ) (method : Text) (id params : Json)
    (ctx : Context σ) : Context σ :=
  match handler params ctx with
  | (.ok result, ctx) => ctx.send (response id result .null)
  | (.error failure, ctx) =>
      let ctx :=
        match failure with
        | .crash message =>
            peer.reporting ("internal error handling " ++ method ++ ": " ++ message) ctx
        | _ => ctx
      ctx.send (response id .null failure.toError.toJson)

/-- Handle a notification: run its handler and report its failure. -/
def observe (peer : Peer σ) (handler : Handler σ) (method : Text) (params : Json)
    (ctx : Context σ) : Context σ :=
  match handler params ctx with
  | (.ok _, ctx) => ctx
  | (.error (.invalidParams message), ctx) =>
      peer.reporting ("ignoring " ++ method ++ ": " ++ message) ctx
  | (.error failure, ctx) =>
      peer.reporting ("error handling " ++ method ++ ": " ++ failure.message) ctx

/-- Handle a message with the given method.  A request without an id is dropped, and so is
a message for an unknown method without one. -/
def dispatch (peer : Peer σ) (method : Text) (id params : Json) (ctx : Context σ) :
    Context σ :=
  match handler? peer.requests method with
  | some handler => if id.isNull then ctx else peer.respond handler method id params ctx
  | none =>
      match handler? peer.notifications method with
      | some handler => peer.observe handler method params ctx
      | none =>
          if id.isNull then ctx
          else ctx.send (response id .null methodNotFound.toJson)

/-- Handle an envelope: the messages to send, in order.  What was queued before is
dropped, and an envelope without a method gives nothing. -/
def handle (peer : Peer σ) (envelope : Members) (ctx : Context σ) : List Json × Context σ :=
  match envelope.get? "method" with
  | some (.str method) =>
      let ctx := peer.dispatch method (envelope.getD "id") (envelope.getD "params")
        { ctx with outbox := [] }
      (ctx.outbox, { ctx with outbox := [] })
  | _ => ([], { ctx with outbox := [] })

end Peer

end VibeScript
