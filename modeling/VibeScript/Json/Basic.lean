import VibeScript.Number.Binary64
import VibeScript.Text.Basic

/-!
JSON values.

Integers are exact and of any size; a number that is written with a fraction or an
exponent is a double.  An object keeps its members in order.
-/

namespace VibeScript

/-- A JSON value. -/
inductive Json where
  | null
  | bool (value : Bool)
  | int (value : Int)
  | real (value : Binary64)
  | str (value : Text)
  | arr (elements : List Json)
  | obj (members : List (Text × Json))

/-- The members of an object, in order. -/
abbrev Members := List (Text × Json)

namespace Members

/-- The value of a member. -/
def get? (members : Members) (key : Text) : Option Json :=
  (members.find? (·.1 = key)).map (·.2)

/-- The members with one of them set.  A key that is there already keeps its place. -/
def set (members : Members) (key : Text) (value : Json) : Members :=
  match members with
  | [] => [(key, value)]
  | (k, v) :: rest => if k = key then (k, value) :: rest else (k, v) :: set rest key value

/-- The value of a member, null if there is no such member. -/
def getD (members : Members) (key : Text) : Json := (members.get? key).getD .null

@[simp] theorem get?_nil (key : Text) : get? [] key = none := rfl

end Members

namespace Json

def isNull : Json → Bool
  | .null => true
  | _ => false

/-- The members of an object. -/
def members? : Json → Option Members
  | .obj members => some members
  | _ => none

def str? : Json → Option Text
  | .str value => some value
  | _ => none

end Json

/-- A member that is left out if its value is null. -/
def Members.unlessNull (key : Text) (value : Json) : Members :=
  if value.isNull then [] else [(key, value)]

end VibeScript
