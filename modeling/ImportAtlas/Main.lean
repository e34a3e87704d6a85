import ImportAtlas.CommandLine.Execution
import ImportAtlas.CommandLine.Help
import Std.Time.DateTime.Timestamp

/-!
# The program

The program looks at the files that its command line is about, runs the command on what it saw, and
writes what the command changed. Everything else is decided by the command.
-/

open ImportAtlas

namespace ImportAtlas.Program

/-- The code of the system for a directory where a file is wanted. -/
def directoryCode : UInt32 := 21

/-- What is at a place. -/
def look (names : List String) : IO (Option FileNode) := do
  try
    let bytes ← IO.FS.readBinFile ("/" ++ FileTree.placeOf names)
    match String.fromUTF8? bytes with
    | some text => return some (.text text)
    | none => return some .bytes
  catch
    | .inappropriateType _ code _ =>
      return if code = directoryCode then some .directory else none
    | _ => return none

/-- The tree with what is at the places that a route goes through. -/
def lookAlong (tree : FileTree) (route : String) : IO FileTree :=
  (tree.passed route).foldlM
    (fun tree names => do
      if names.isEmpty then return tree
      match ← look names with
      | some node => return tree.put names node
      | none => return tree)
    tree

/-- The environment variables that count. -/
def lookUp : IO (Dictionary String) := do
  let names := "HOME" :: "XDG_CONFIG_HOME" :: Variable.all.map (Variable.name variableStem)
  names.foldlM
    (fun values name => do
      match ← IO.getEnv name with
      | some value => return values.insert name value
      | none => return values)
    .empty

/-- The surroundings, as far as a command looks at them. What the settings name is looked at after
the settings. -/
def survey (invocation : Invocation) : IO Surroundings := do
  let workingDirectory := Route.components (toString (← IO.currentDir))
  let around : Surroundings := { files := { workingDirectory }, environment := ← lookUp }
  let files ← (invocation.routes around).foldlM lookAlong around.files
  let around := { around with files }
  let files ← (invocation.routes around).foldlM lookAlong around.files
  return { around with files }

/-- Makes the directories and writes the texts that a command changed. -/
def save (files earlier : FileTree) : IO Unit :=
  for (place, node) in files.nodes.entries do
    if earlier.nodes.get? place ≠ some node then
      match node with
      | .directory => IO.FS.createDirAll ("/" ++ place)
      | .text content => IO.FS.writeFile ("/" ++ place) content
      | .bytes => pure ()

/-- Prints on the standard error. -/
def notify (text : String) : IO Unit := do
  (← IO.getStderr).putStr text

/-- Runs a command on the machine. -/
def run (invocation : Invocation) : IO UInt32 := do
  let around ← survey invocation
  let now ← Std.Time.Timestamp.now
  let machine : Machine :=
    { now := .ofNanoseconds now.toNanosecondsSinceUnixEpoch.val.toNat }
  let (ending, code) := invocation.finish around machine Codec.ReadError.message
  try
    save ending.files around.files
    IO.print ending.output
    notify ending.notices
    return code.toUInt32
  catch error =>
    notify (Error.report Codec.ReadError.message (.files (.other (toString error))))
    return 1

end ImportAtlas.Program

/-- Runs the command that the arguments ask for. -/
def main (args : List String) : IO UInt32 := do
  match Invocation.ofArguments args with
  | .ok invocation => Program.run invocation
  | .error stop =>
    let (output, notices) := stop.printed
    IO.print output
    Program.notify notices
    return stop.exitCode.toUInt32
