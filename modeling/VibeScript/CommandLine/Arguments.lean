import VibeScript.CommandLine.Options

/-!
Reading a command line from left to right.

Options can stand between operands, but operands that belong together stand side by side:
those that come after another option, and those that a program has no use for, are left over.
A request for help ends the reading at once.
-/

namespace VibeScript

/-- What a command line gives. -/
structure Given where
  /-- the path of the log; empty for no log -/
  log : Text := []
  quiet : Bool := false
  operands : Option (List Text) := none
  unrecognized : List Text := []
deriving DecidableEq

/-- Why a command line is not read to its end. -/
inductive Halt where
  | help
  | misuse (error : UsageError)
deriving DecidableEq

namespace Given

/-- Carry out an option; an option that takes no value has an empty one. -/
def carryOut (given : Given) (effect : OptionEffect) (value : Text) : Except Halt Given :=
  match effect with
  | .help => .error .help
  | .log => .ok { given with log := value }
  | .quiet => .ok { given with quiet := true }

/-- Leave arguments over. -/
def leave (given : Given) (arguments : List Argument) : Given :=
  { given with unrecognized := given.unrecognized ++ arguments.map (·.written) }

/-- Take arguments as operands. -/
def take (given : Given) (operands : List Text) : Given :=
  { given with operands := some operands }

end Given

namespace Grammar

/-- The options of a cluster: short names behind one dash, the first of them known. -/
def cluster (grammar : Grammar) (rule : OptionRule) : Text → Except UsageError (List OptionRule)
  | [] => .ok [rule]
  | c :: rest =>
      match grammar.option? ['-', c] with
      | none => .error (.valueIgnored rule (c :: rest))
      | some next => do
          let more ← grammar.cluster next rest
          .ok (rule :: more)

/-- Carry out an option whose argument holds all of it. -/
def carryOut (grammar : Grammar) (given : Given) (rule : OptionRule) (name : Text)
    (value : Option Text) : Except Halt Given :=
  match rule.takesValue, value with
  | true, _ =>
      let value := value.getD []
      given.carryOut rule.effect (if value = separator then [] else value)
  | false, none => given.carryOut rule.effect []
  | false, some value =>
      if separator.isPrefixOf name ∨ value = [] then
        .error (.misuse (.valueIgnored rule value))
      else match grammar.cluster rule value with
        | .error e => .error (.misuse e)
        | .ok rules => rules.foldlM (fun given rule => given.carryOut rule.effect []) given

/-- Whether operands that stand side by side are of use for a program. -/
def accepts (grammar : Grammar) (given : Given) (operands : List Argument) : Bool :=
  grammar.operands ≠ .none && given.operands = none && operands.any (·.meaning = .operand)

/-- Read arguments, given what those before them gave. -/
def readFrom (grammar : Grammar) (given : Given) (arguments : List Argument) :
    Except Halt Given :=
  match arguments with
  | [] => .ok given
  | ⟨written, .unknown⟩ :: rest => grammar.readFrom (given.leave [⟨written, .unknown⟩]) rest
  | ⟨_, .option rule name value⟩ :: rest =>
      if rule.takesValue ∧ value = none then
        match rest with
        | ⟨operand, .operand⟩ :: rest =>
            match given.carryOut rule.effect operand with
            | .error halt => .error halt
            | .ok given => grammar.readFrom given rest
        | _ => .error (.misuse (.valueMissing rule))
      else match grammar.carryOut given rule name value with
        | .error halt => .error halt
        | .ok given => grammar.readFrom given rest
  | first :: rest =>
      let operands := first :: rest.takeWhile (·.isOperand)
      let others := rest.dropWhile (·.isOperand)
      if !grammar.accepts given operands then grammar.readFrom (given.leave operands) others
      else if grammar.operands = .command then
        .ok (given.take ((first :: rest).map (·.written)))
      else grammar.readFrom (given.take ((operands.map (·.written)).erase separator)) others
termination_by arguments.length
decreasing_by
  · simp
  · simp only [List.length_cons]
    omega
  · simp
  · exact Nat.lt_succ_of_le (List.dropWhile_suffix _).length_le
  · exact Nat.lt_succ_of_le (List.dropWhile_suffix _).length_le

/-- Read a command line. -/
def read (grammar : Grammar) (arguments : List Text) : Except Halt Given :=
  match grammar.classify arguments with
  | .error e => .error (.misuse e)
  | .ok classified =>
      match grammar.readFrom {} classified with
      | .error halt => .error halt
      | .ok given =>
          if grammar.operands = .files ∧ given.operands = none then
            .error (.misuse .filesMissing)
          else .ok given

end Grammar

end VibeScript
