import Script.CommandLine

/-!
# The program

Reads what the command line needs, and writes what it gives.
-/

namespace Script.CommandLine

/-- Larger than any depth or number of rounds that can be reached. -/
def evaluationBound : Nat := twoTo 62

/-- Reads to the end. -/
partial def readAll (stream : IO.FS.Stream) (text : String) : IO String := do
  let line ← stream.getLine
  if line.isEmpty then return text else readAll stream (text ++ line)

def readFile (file : String) : IO (Except String String) := do
  try
    return .ok (← IO.FS.readFile file)
  catch
    | .noFileOrDirectory .. =>
      return .error "No such file or directory (os error 2)"
    | error => return .error (toString error)

/-- The variables that a configuration looks at. -/
def variableNames : List String :=
  ["VICTORIA_MAX_CALL_DEPTH", "VICTORIA_JOKES", "NO_COLOR"]

def readVariables : List String → IO (List (String × String))
  | [] => return []
  | name :: names => do
    let rest ← readVariables names
    match ← IO.getEnv name with
    | some value => return (name, value) :: rest
    | none => return rest

/-- Carries out a command line and gives the exit code. -/
def runMain (args : List String) : IO UInt32 := do
  let request := Request.ofArgs? args
  let environment ← readVariables variableNames
  let source ← match request.bind Request.file? with
    | some file => readFile file
    | none => pure (.error "")
  let input ←
    if request.any Request.runs then readAll (← IO.getStdin) "" else pure ""
  let world : World :=
    { environment := fun name => environment.lookup name
      source := fun _ => source
      input
      terminal := ← (← IO.getStderr).isTty
      seed := (← IO.monoNanosNow).toUInt64 }
  match execute world evaluationBound args with
  | some effect =>
    (← IO.getStdout).putStr effect.output
    (← IO.getStderr).putStr effect.errors
    return effect.code.toUInt32
  | none => return 1

end Script.CommandLine

def main (args : List String) : IO UInt32 := Script.CommandLine.runMain args
