import VibeScript.Text.Numeric
import VibeScript.Text.Quoted

/-!
Options of a command line: which arguments are options, and which option each of them is.

An option is written with one of its names.  A long name may be cut short as long as only one
name begins that way, and its value can follow an equals sign.  Short names of options that
take no value can be written together behind one dash.
-/

namespace VibeScript

/-- What an option asks for. -/
inductive OptionEffect where
  | help
  | log
  | quiet
deriving DecidableEq

/-- An option and the names it has. -/
structure OptionRule where
  effect : OptionEffect
  names : List Text
deriving DecidableEq

namespace OptionRule

/-- Only the log takes a value: the path of its file. -/
def takesValue (rule : OptionRule) : Bool := rule.effect = .log

/-- The names of an option as messages give them. -/
def label (rule : OptionRule) : Text := Text.join "/" rule.names

end OptionRule

/-- What a program takes besides its options. -/
inductive OperandRule where
  | none
  /-- one file or more, side by side -/
  | files
  /-- the name of a command and all arguments of that command -/
  | command
deriving DecidableEq

/-- What the command line of a program looks like: its name, its usage, the rest of its help,
its options and its operands. -/
structure Grammar where
  program : Text
  usage : Text
  details : Text
  options : List OptionRule
  operands : OperandRule
deriving DecidableEq

/-- What is wrong with a command line. -/
inductive UsageError where
  | ambiguous (argument : Text) (names : List Text)
  | valueIgnored (rule : OptionRule) (value : Text)
  | valueMissing (rule : OptionRule)
  | unknownCommand (name : Text) (known : List Text)
  | filesMissing
  | unrecognized (arguments : List Text)
deriving DecidableEq

def UsageError.message : UsageError → Text
  | .ambiguous argument names =>
      "ambiguous option: " ++ argument ++ " could match " ++ Text.join ", " names
  | .valueIgnored rule value =>
      "argument " ++ rule.label ++ ": ignored explicit argument " ++ value.quoted
  | .valueMissing rule => "argument " ++ rule.label ++ ": expected one argument"
  | .unknownCommand name known =>
      "argument subcommand: invalid choice: " ++ name.quoted ++ " (choose from " ++
        Text.join ", " (known.map Text.quoted) ++ ")"
  | .filesMissing => "the following arguments are required: FILE"
  | .unrecognized arguments => "unrecognized arguments: " ++ Text.join " " arguments

/-- What an argument is for a program. -/
inductive Meaning where
  /-- the first argument of two dashes: all arguments behind it are operands -/
  | separator
  | operand
  /-- an option, the name it was given by, and the value written into the same argument -/
  | option (rule : OptionRule) (name : Text) (value : Option Text)
  /-- it looks like an option, but there is none of that name -/
  | unknown
deriving DecidableEq

/-- An argument as it was written and what it is. -/
structure Argument where
  written : Text
  meaning : Meaning
deriving DecidableEq

/-- Not an option. -/
def Argument.isOperand (argument : Argument) : Bool :=
  argument.meaning = .separator || argument.meaning = .operand

/-- The argument that separates options from operands. -/
def separator : Text := "--"

/-- Split a text at its first equals sign. -/
def splitValue (t : Text) : Text × Option Text :=
  match t.dropWhile (· ≠ CodePoint.equalsSign) with
  | [] => (t, none)
  | _ :: value => (t.takeWhile (· ≠ CodePoint.equalsSign), some value)

/-- A dash and decimal digits, with a point before the last of them or not.  A line feed at
the end does not matter. -/
def isNegativeNumber (t : Text) : Bool :=
  let body := if t.getLast? = some CodePoint.newline then t.tail.dropLast else t.tail
  match body.dropWhile (·.isDecimal) with
  | [] => t.head? = some '-' && body ≠ []
  | point :: digits =>
      t.head? = some '-' && point = '.' && digits ≠ [] && digits.all (·.isDecimal)

namespace Grammar

/-- Every name of an option, with the option. -/
def namedOptions (grammar : Grammar) : List (Text × OptionRule) :=
  grammar.options.flatMap fun rule => rule.names.map (·, rule)

/-- The option of a name. -/
def option? (grammar : Grammar) (name : Text) : Option OptionRule :=
  grammar.namedOptions.lookup name

/-- The options that an argument can stand for though it is no name, each with its name and
the value that the argument then holds. -/
def candidates (grammar : Grammar) (t : Text) : List (OptionRule × Text × Option Text) :=
  if separator.isPrefixOf t then
    let (start, value) := splitValue t
    (grammar.namedOptions.filter fun named => start.isPrefixOf named.1).map
      fun named => (named.2, named.1, value)
  else
    (grammar.namedOptions.filter fun named => named.1 = t.take 2).map
      fun named => (named.2, named.1, some (t.drop 2))

/-- What an argument in front of the separator is. -/
def meaning (grammar : Grammar) (t : Text) : Except UsageError Meaning :=
  if t.head? ≠ some '-' ∨ t.length = 1 then .ok .operand
  else match grammar.option? t, splitValue t with
    | some rule, _ => .ok (.option rule t none)
    | none, (name, value) =>
        match value.isSome, grammar.option? name with
        | true, some rule => .ok (.option rule name value)
        | _, _ =>
            match grammar.candidates t with
            | [(rule, name, value)] => .ok (.option rule name value)
            | [] =>
                .ok (if isNegativeNumber t || CodePoint.space ∈ t then .operand else .unknown)
            | several => .error (.ambiguous t (several.map (·.2.1)))

/-- What the arguments of a command line are. -/
def classify (grammar : Grammar) : List Text → Except UsageError (List Argument)
  | [] => .ok []
  | t :: rest =>
      if t = separator then
        .ok (⟨t, .separator⟩ :: rest.map fun operand => ⟨operand, .operand⟩)
      else do
        let meaning ← grammar.meaning t
        let more ← grammar.classify rest
        .ok (⟨t, meaning⟩ :: more)

end Grammar

end VibeScript
