import FilterEditor.CommandLine.Run

/-!
# The program

The files of the machine as the program sees them, and its entry.
-/

namespace FilterEditor.CommandLine

/-- Whether an action succeeds. -/
def succeeds (action : IO Unit) : IO Bool := do
  try
    action
    return true
  catch _ => return false

/-- The content of a file, if it is a text. -/
def readText? (path : String) : IO (Option Text) := do
  try
    return some (← IO.FS.readFile path).toList
  catch _ => return none

/-- What is found under a path. -/
def findEntry (path : String) : IO Entry := do
  try
    let found ← IO.FS.realPath path
    if ← found.isDir then return .directory
    if ← found.pathExists then return .file (← readText? path)
    return .missing
  catch _ => return .missing

/-- The files of the machine. -/
def machineFiles : Files IO where
  entry path := findEntry (String.ofList path)
  makeDirectories path :=
    if path.isEmpty then pure true else succeeds (IO.FS.createDirAll (String.ofList path))
  write path content := succeeds (IO.FS.writeFile (String.ofList path) (String.ofList content))

/-- The value of a variable of the environment. -/
def readVariable (name : String) : IO (Option Text) := do
  return (← IO.getEnv name).map String.toList

/-- What the environment says about directories. -/
def environment : IO Environment := do
  return {
    directory := ← readVariable "TERM_FILTER_CONFIG_DIR"
    settings := ← readVariable "XDG_CONFIG_HOME"
    home := ← readVariable "HOME" }

/-- Runs the program on the machine and gives its exit code. -/
def runOnMachine (args : List String) : IO UInt32 := do
  let outcome ← run machineFiles (← environment) (args.map String.toList)
  IO.print (String.ofList outcome.output)
  if let some message := outcome.message? then IO.eprintln ("Error: " ++ String.ofList message)
  if outcome = .rejected then IO.eprintln "error: invalid arguments, see --help"
  return UInt32.ofNat outcome.exitCode

end FilterEditor.CommandLine

/-- The entry of the program. -/
def main (args : List String) : IO UInt32 := FilterEditor.CommandLine.runOnMachine args
