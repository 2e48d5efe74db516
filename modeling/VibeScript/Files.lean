import VibeScript.Text.Quoted
import VibeScript.Text.Utf8

/-!
Files and the paths that lead to them.

A path is a list of names with slashes between them.  The system knows names by their bytes, so
a path is encoded first, in UTF-8; a surrogate in it can stand for a byte outside UTF-8.  Then it is
followed name by name from the working directory, and every name but the last must stand for a
directory.
Names and paths have a greatest length.  What lies outside the working directory is not known,
except that the directories around it exist.
-/

namespace VibeScript

/-- Why a file cannot be used. -/
inductive FileError where
  | missing
  | notDirectory
  | isDirectory
  /-- the path, or a name in it that had to be looked up, has too many bytes -/
  | nameTooLong
  /-- a reason of the system's own, with its number -/
  | refused (number : Nat) (reason : Text)
  /-- the path cannot be encoded, so the system cannot be asked -/
  | unencodable (error : EncodeError)
  /-- the path holds a null character, so the system cannot be asked -/
  | nullInPath
deriving DecidableEq

namespace FileError

/-- The number and the reason that the system gives; none if it was not asked. -/
def answer? : FileError → Option (Nat × Text)
  | .missing => some (2, "No such file or directory")
  | .notDirectory => some (20, "Not a directory")
  | .isDirectory => some (21, "Is a directory")
  | .nameTooLong => some (36, "File name too long")
  | .refused number reason => some (number, reason)
  | .unencodable _ => none
  | .nullInPath => none

/-- The error as text, for the path that was to be used. -/
def message (e : FileError) (path : Text) : Text :=
  match e.answer? with
  | some (number, reason) =>
      "[Errno " ++ decimal number ++ "] " ++ reason ++ ": " ++ path.quoted
  | none =>
      match e with
      | .unencodable error => error.message
      | _ => "embedded null byte"

end FileError

/-- The name that stands for the directory it is looked up in. -/
def dotName : Bytes := [0x2E]

/-- The name that stands for the directory around it. -/
def dotDotName : Bytes := [0x2E, 0x2E]

/-- The most bytes that a name can have. -/
def nameLimit : Nat := 255

/-- The most bytes that a path can have. -/
def pathLimit : Nat := 4095

/-- What a place holds. -/
inductive Node where
  | file (content : Bytes)
  | directory
deriving DecidableEq

/-- A place that a path can lead to. -/
inductive Place where
  /-- reached from the working directory by these names -/
  | below (names : List Bytes)
  /-- a directory around the working directory -/
  | above
  /-- beside the working directory, where nothing is -/
  | beside
deriving DecidableEq

/-- Where a name leads from a directory.  An empty name and a dot stay there, and two dots
lead to the directory around it. -/
def Place.step (place : Place) (name : Bytes) : Place :=
  if name = [] ∨ name = dotName then place
  else match place with
    | .below names =>
        if name = dotDotName then if names = [] then .above else .below names.dropLast
        else .below (names ++ [name])
    | _ => if name = dotDotName then .above else .beside

/-- The files and directories below the working directory, each with the names that lead to
it. -/
structure FileTree where
  nodes : List (List Bytes × Node)
deriving DecidableEq

namespace FileTree

/-- An empty working directory. -/
def empty : FileTree := ⟨[]⟩

/-- What a place holds, if there is anything. -/
def node? (tree : FileTree) : Place → Option Node
  | .below [] => some .directory
  | .below names => tree.nodes.lookup names
  | .above => some .directory
  | .beside => none

/-- Put a node in a place, in the stead of what was there. -/
def put (tree : FileTree) (names : List Bytes) (node : Node) : FileTree :=
  ⟨(names, node) :: tree.nodes.filter (·.1 ≠ names)⟩

/-- Follow names to a place.  There must be a directory in every place on the way, and the
name that is looked up in it must not be too long, but there need not be anything in the last
place. -/
def follow (tree : FileTree) (place : Place) : List Bytes → Except FileError Place
  | [] => .ok place
  | name :: rest =>
      match tree.node? place with
      | none => .error .missing
      | some (.file _) => .error .notDirectory
      | some .directory =>
          if nameLimit < name.length then .error .nameTooLong
          else tree.follow (place.step name) rest

/-- The names in a path. -/
def namesOf (path : Text) : List Bytes :=
  (path.split CodePoint.slash).map (·.flatMap CodePoint.rawBytes)

/-- The place where a path starts and the names it consists of.  An empty path leads
nowhere, and neither does one that is too long. -/
def route (path : Text) : Except FileError (Place × List Bytes) :=
  match SurrogateRule.strayBytes.encode path with
  | .error e => .error (.unencodable e)
  | .ok bytes =>
      if CodePoint.ofNat 0 ∈ path then .error .nullInPath
      else if pathLimit < bytes.length then .error .nameTooLong
      else match namesOf path with
        | [[]] => .error .missing
        | [] :: names => .ok (.above, names)
        | names => .ok (.below [], names)

/-- The bytes of a file. -/
def read (tree : FileTree) (path : Text) : Except FileError Bytes := do
  let (start, names) ← route path
  let place ← tree.follow start names
  match tree.node? place with
  | none => .error .missing
  | some .directory => .error .isDirectory
  | some (.file content) => .ok content

/-- The names of a file that can be written, which may not be there yet.  A path that ends
with a slash asks for a directory; its last name is not looked up, but there must be a
directory to look it up in, as for the empty name, which stays there. -/
def writable (tree : FileTree) (path : Text) : Except FileError (List Bytes) := do
  let (start, names) ← route path
  let wanted := (names.reverse.dropWhile (· = [])).reverse
  let place ← tree.follow start (if wanted = names then names else wanted.dropLast ++ [[]])
  if wanted ≠ names ∨ tree.node? place = some .directory then .error .isDirectory
  else match place with
    | .below names => .ok names
    | _ => .error .missing

/-- Make a directory in every place on the way of some names, the last one included. -/
def makeDirectories (tree : FileTree) (way : List Bytes) : List Bytes → FileTree
  | [] => tree
  | name :: rest =>
      (tree.put (way ++ [name]) .directory).makeDirectories (way ++ [name]) rest

/-- The names in a path that lead down. -/
def namesBelow (path : Text) : List Bytes :=
  (namesOf path).filter fun name => name ≠ [] ∧ name ≠ dotName

/-- A working directory with these directories and files, named by their paths. -/
def ofPaths (directories : List Text) (files : List (Text × Bytes)) : FileTree :=
  let tree := directories.foldl
    (fun tree path => tree.makeDirectories [] (namesBelow path)) empty
  files.foldl (fun tree file =>
    let names := namesBelow file.1
    (tree.makeDirectories [] names.dropLast).put names (.file file.2)) tree

end FileTree

end VibeScript
