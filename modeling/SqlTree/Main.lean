import SqlTree.CommandLine.Run

/-!
# The command line

Reads what a command needs, and prints its report.
-/

namespace SqlTree.CommandLine

/-- The text of a file, or why it cannot be read. -/
def readFile (path : String) : IO (Except String String) := do
  match ← (IO.FS.readFile path).toBaseIO with
  | .ok text => return .ok text
  | .error (.noFileOrDirectory ..) => return .error "No such file or directory (os error 2)"
  | .error e => return .error (toString e)

/-- The file of the user's own configuration, if the user has one. -/
def findUserConfig : IO (Option String) := do
  let base := (← IO.getEnv "XDG_CONFIG_HOME").or ((← IO.getEnv "HOME").map (· ++ "/.config"))
  match base.map (· ++ "/quarry/config.toml") with
  | some path => return if (← readFile path).isOk then some path else none
  | none => return none

/-- The files that a command reads. -/
def filesOf : Option Command → Option String → List String
  | some (.compile o), _ => [o.input]
  | some (.exec o), user => o.input :: (o.config.or user).toList
  | _, _ => []

/-- Whether a command reads its standard input. -/
def readsInput : Option Command → Bool
  | some (.compile o) => o.input == "-"
  | some (.exec o) => o.input == "-"
  | _ => false

def runHere (args : List String) : IO Report := do
  let databaseUrl ← IO.getEnv Config.urlVariable
  let command := Command.read? databaseUrl args
  let userConfig ← findUserConfig
  let paths := filesOf command userConfig
  let texts ← paths.mapM readFile
  let input ← if readsInput command then (← IO.getStdin).readToEnd else pure ""
  let file (path : String) : Except String String :=
    ((paths.zip texts).lookup path).getD (.error "not read")
  return run { input, file, userConfig, databaseUrl } args

end SqlTree.CommandLine

def main (args : List String) : IO UInt32 := do
  let r ← SqlTree.CommandLine.runHere args
  IO.print r.output
  IO.eprint r.errors
  return r.code.toUInt32
