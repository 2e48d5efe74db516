import VibeScript.Document
import VibeScript.Json.Basic

/-!
The params of the messages that the server handles.

Each reader takes the params apart in a fixed order and says what is wrong with the first
part that has not the right form.
-/

namespace VibeScript

/-- What is wrong with the params of a message. -/
inductive ParamsFault where
  | notObject (what : Text)
  | notString (key : Text)
  | notInteger (key : Text)
  | notArray (key : Text)
  | invalidHover
deriving DecidableEq

def ParamsFault.message : ParamsFault → Text
  | .notObject what => what ++ " must be an object"
  | .notString key => key ++ " must be a string"
  | .notInteger key => key ++ " must be an integer"
  | .notArray key => key ++ " must be an array"
  | .invalidHover => "invalid hover params"

/-- A value that has to be an object. -/
def requireObject (what : Text) : Json → Except ParamsFault Members
  | .obj members => .ok members
  | _ => .error (.notObject what)

/-- A member that has to be an object if it is there; null counts as not there. -/
def optionalObject (members : Members) (key : Text) : Except ParamsFault Members :=
  match members.getD key with
  | .null => .ok []
  | value => requireObject key value

/-- A member that has to be a string; `fallback` stands in for one that is not there. -/
def requireString (members : Members) (key : Text) (fallback : Json) :
    Except ParamsFault Text :=
  match (members.get? key).getD fallback with
  | .str value => .ok value
  | _ => .error (.notString key)

/-- A member that has to be an integer, zero if it is not there. -/
def requireInteger (members : Members) (key : Text) : Except ParamsFault Int :=
  match (members.get? key).getD (.int 0) with
  | .int value => .ok value
  | _ => .error (.notInteger key)

/-- The version of a document, if it is one. -/
def versionOf : Json → Option Version
  | .int n => some (.number n)
  | .bool b => some (.flag b)
  | _ => none

/-- The members of the document that params are about. -/
def textDocument (params : Json) : Except ParamsFault Members := do
  let members ← requireObject "params" params
  optionalObject members "textDocument"

/-- The params of a document that is opened. -/
def openParams (params : Json) : Except ParamsFault Document := do
  let members ← requireObject "params" params
  let document ← requireObject "textDocument" (members.getD "textDocument")
  let uri ← requireString document "uri" .null
  let content ← requireString document "text" .null
  return ⟨uri, versionOf (document.getD "version"), content⟩

/-- The params of a change: the new text, or none if there is no change in them.  Of
several changes the last one counts. -/
def changeParams (params : Json) : Except ParamsFault (Option Document) := do
  let document ← textDocument params
  let uri ← requireString document "uri" .null
  let members ← requireObject "params" params
  match members.getD "contentChanges" with
  | .arr changes =>
      match changes.getLast? with
      | none => return none
      | some change => do
          let latest ← requireObject "content change" change
          let content ← requireString latest "text" .null
          return some ⟨uri, versionOf (document.getD "version"), content⟩
  | _ => throw (.notArray "contentChanges")

/-- The params of a document that is closed: its name. -/
def closeParams (params : Json) : Except ParamsFault Text := do
  let document ← textDocument params
  requireString document "uri" .null

/-- What a hover asks about: a document and a cursor in it. -/
structure HoverParams where
  uri : Text
  line : Int
  character : Int
deriving DecidableEq

/-- The params of a hover, whatever is wrong with them. -/
def readHoverParams (params : Json) : Except ParamsFault HoverParams := do
  let document ← textDocument params
  let uri ← requireString document "uri" (.str [])
  let members ← requireObject "params" params
  let position ← optionalObject members "position"
  let line ← requireInteger position "line"
  let character ← requireInteger position "character"
  return ⟨uri, line, character⟩

/-- The params of a hover.  Every fault in them is reported alike. -/
def hoverParams (params : Json) : Except ParamsFault HoverParams :=
  match readHoverParams params with
  | .ok hover => .ok hover
  | .error _ => .error .invalidHover

/-- The name of the client that params of an `initialize` request carry. -/
def clientName (params : Json) : Json :=
  let info := params.members?.bind fun members => (members.getD "clientInfo").members?
  (info.map fun members => members.getD "name").getD .null

end VibeScript
