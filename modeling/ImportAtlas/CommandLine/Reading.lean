import ImportAtlas.CommandLine.Options

/-!
# Reading a command line

The arguments are read from the first to the last. An option that takes a value gets it from its
own argument or from the next one; what an option was given counts only when the next option or
operand begins, so an argument that no option explains is reported before a bad value right in
front of it. After `--` everything is an operand. The name of a command ends the options that stand
before it, and what stands after it is read in the same way.

## Main definitions

* `Gathered`: what the arguments of one side have given so far
* `Gathered.settle`: what was given last is checked and counts
* `Gathered.scan`: the arguments of one side, up to the name of a command
* `CommandLine.read`: a whole command line
-/

namespace ImportAtlas.CommandLine

/-- Something given that does not count yet. -/
inductive Pending where
  /-- An option that waits for its value. -/
  | awaiting (opt : Opt)
  | value (opt : Opt) (value : String)
  | operand (value : String)
  deriving DecidableEq, Repr

/-- What the arguments of one side have given so far. -/
structure Gathered where
  /-- The options with their values, a flag with the empty text. -/
  given : List (Opt × String) := []
  operands : List String := []
  pending : Option Pending := none
  deriving DecidableEq, Repr

namespace Gathered

/-- Whether an option has been given. -/
def has (gathered : Gathered) (opt : Opt) : Bool :=
  gathered.given.any (·.1 == opt)

/-- The values of an option, in the order of giving. -/
def values (gathered : Gathered) (opt : Opt) : List String :=
  (gathered.given.filter (·.1 == opt)).map (·.2)

/-- An option counts, with its value. -/
def add (gathered : Gathered) (opt : Opt) (value : String) : Gathered :=
  { gathered with given := gathered.given ++ [(opt, value)] }

/-- An option counts if it may be given once more and its value is of its kind. -/
def accept (gathered : Gathered) (opt : Opt) (value : String) : Except Stop Gathered := do
  match opt.usage with
  | .ends stop => throw stop
  | .tally => return gathered.add opt value
  | .flag =>
    if gathered.has opt then throw .repeated
    return gathered.add opt value
  | .one kind =>
    if gathered.has opt then throw .repeated
    kind.check value
    return gathered.add opt value
  | .many kind =>
    kind.check value
    return gathered.add opt value

/-- An operand counts if it is of its kind. -/
def acceptOperand (level : Level) (gathered : Gathered) (value : String) :
    Except Stop Gathered := do
  match level.operands[gathered.operands.length]? with
  | none => throw .unknownArgument
  | some kind =>
    kind.check value
    return { gathered with operands := gathered.operands ++ [value] }

/-- What was given last counts. -/
def settle (level : Level) (gathered : Gathered) : Except Stop Gathered :=
  let rest := { gathered with pending := none }
  match gathered.pending with
  | none => .ok rest
  | some (.awaiting _) => .error .invalidValue
  | some (.value opt value) => rest.accept opt value
  | some (.operand value) => rest.acceptOperand level value

/-- The number of operands, with one that does not count yet. -/
def operandCount (gathered : Gathered) : Nat :=
  gathered.operands.length +
    match gathered.pending with
    | some (.operand _) => 1
    | _ => 0

/-- One more operand. An operand too many is a command that nobody knows where a command is looked
for; the name of a known one, after `--`, is just an argument. -/
def takeOperand (level : Level) (afterDashes : Bool) (gathered : Gathered) (value : String) :
    Except Stop Gathered := do
  if gathered.operandCount < level.operands.length then
    return { ← gathered.settle level with pending := some (.operand value) }
  else if level = .top ∧
      ¬(afterDashes ∧ (value = "help" ∨ (CommandName.ofWord? value).isSome)) then
    throw .unknownCommand
  else throw .unknownArgument

/-- One more option, with the value in its own argument if there is one. -/
def takeOption (level : Level) (gathered : Gathered) (opt : Opt) (attached : Option String) :
    Except Stop Gathered := do
  let settled ← gathered.settle level
  match attached with
  | some value => settled.accept opt value
  | none =>
    if opt.takesValue then return { settled with pending := some (.awaiting opt) }
    else settled.accept opt ""

/-- An argument of two dashes and a word, which may have an equals sign and a value. -/
def takeWord (level : Level) (gathered : Gathered) (cs : List Char) : Except Stop Gathered :=
  let word := String.ofList (cs.takeWhile (· != '='))
  let attached := match cs.dropWhile (· != '=') with
    | [] => none
    | _ :: value => some (String.ofList value)
  match level.optionOfWord? word with
  | none => .error .unknownArgument
  | some opt =>
    if attached.isSome && !opt.takesValue then .error .unwantedValue
    else gathered.takeOption level opt attached

/-- The value after a letter in one argument, an equals sign between them not counting. -/
def attachedValue : List Char → Option String
  | [] => none
  | '=' :: value => some (String.ofList value)
  | value => some (String.ofList value)

/-- An argument of one dash and letters. The first letter whose option takes a value takes the
letters after it. -/
def takeLetters (level : Level) (gathered : Gathered) : List Char → Except Stop Gathered
  | [] => .ok gathered
  | c :: cs =>
    match level.optionOfLetter? c with
    | none => .error .unknownArgument
    | some opt =>
      if opt.takesValue then gathered.takeOption level opt (attachedValue cs)
      else do takeLetters level (← gathered.takeOption level opt none) cs

/-- Help about the command that words name, one word at most. -/
def helpAbout : List String → Stop
  | [] => .help
  | [word] => if word = "help" ∨ (CommandName.ofWord? word).isSome then .help else .unknownCommand
  | _ => .unknownCommand

/-- Reads the arguments of one side. At the name of a command the reading ends, with the name and
the arguments after it. -/
def scan (level : Level) (afterDashes : Bool) (gathered : Gathered) :
    List String → Except Stop (Gathered × Option (CommandName × List String))
  | [] => .ok (gathered, none)
  | arg :: args =>
    if afterDashes then do
      scan level true (← gathered.takeOperand level true arg) args
    else
      let awaited := match gathered.pending with
        | some (.awaiting opt) => some opt
        | _ => none
      let named := level = .top ∧ awaited.isNone
      if named ∧ arg = "help" then .error (helpAbout args)
      else
        match (CommandName.ofWord? arg).filter fun _ => named with
        | some name => .ok (gathered, some (name, args))
        | none =>
          match arg.toList with
          | ['-', '-'] => scan level true gathered args
          | '-' :: '-' :: cs => do scan level false (← gathered.takeWord level cs) args
          | '-' :: c :: cs => do scan level false (← gathered.takeLetters level (c :: cs)) args
          -- An option that waits takes any argument that is not written as an option.
          | _ =>
            match awaited with
            | some opt =>
              scan level false { gathered with pending := some (.value opt arg) } args
            | none => do scan level false (← gathered.takeOperand level false arg) args

end Gathered

/-- A command line that has been read. -/
structure Read where
  name : CommandName
  top : Gathered
  command : Gathered
  deriving DecidableEq, Repr

/-- Reads a command line, the name of the program left out. What stands after the name of the
command is settled before what stands in front of it. -/
def read (args : List String) : Except Stop Read := do
  match ← Gathered.scan .top false {} args with
  | (top, some (name, args)) =>
    let (command, _) ← Gathered.scan (.command name) false {} args
    let command ← command.settle (.command name)
    if command.operands.length < (Level.command name).operands.length then
      throw .missingOperand
    let top ← top.settle .top
    return ⟨name, top, command⟩
  | (top, none) =>
    let top ← top.settle .top
    if top.given.isEmpty then throw .nothingGiven else throw .missingCommand

/-- The values of an option in a command line. Those after the name of the command count, or else
those before it. -/
def Read.values (line : Read) (opt : Opt) : List String :=
  if line.command.has opt then line.command.values opt else line.top.values opt

/-- Whether an option is in a command line. -/
def Read.has (line : Read) (opt : Opt) : Bool :=
  line.command.has opt || line.top.has opt

end ImportAtlas.CommandLine
