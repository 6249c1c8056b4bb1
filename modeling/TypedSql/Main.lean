import TypedSql.Command.Run

/-!
# The program

Reads the files and the standard input that the command line asks for, runs it and prints its
response.
-/

namespace TypedSql.Command

/-- Why there is no such file. -/
def noSuchFile : String := "No such file or directory (os error 2)"

/-- Why a file cannot be read, in the words of the operating system. -/
def readFault : IO.Error → String
  | .noFileOrDirectory _ _ _ => noSuchFile
  | .noSuchThing _ _ _ => noSuchFile
  | .permissionDenied _ _ _ => "Permission denied (os error 13)"
  | .inappropriateType _ 20 _ => "Not a directory (os error 20)"
  | .inappropriateType _ _ _ => "Is a directory (os error 21)"
  | error => toString error

/-- Reads a file. -/
def readFileText (name : String) : IO (String × Except String String) := do
  try
    let text ← IO.FS.readFile name
    return (name, .ok text)
  catch error => return (name, .error (readFault error))

/-- The standard input, unless it is a terminal. -/
def readInput : IO (Option String) := do
  let stdin ← IO.getStdin
  if ← stdin.isTty then return none
  return some (← stdin.readToEnd)

/-- Gathers what a command needs. -/
def gather (invocation : Invocation) : IO Surroundings := do
  let input ← if invocation.readsInput then readInput else pure none
  let files ← invocation.files.mapM readFileText
  return ⟨fun name => (files.lookup name).getD (.error noSuchFile), input⟩

/-- Prints a response. -/
def respond (response : Response) : IO UInt32 := do
  IO.print response.stdout
  IO.eprint response.stderr
  return response.exit.toUInt32

end TypedSql.Command

open TypedSql.Command in
/-- Runs the command line. -/
def main (args : List String) : IO UInt32 := do
  match Invocation.parse args with
  | .error refusal => respond (.ofRefusal refusal)
  | .ok invocation =>
    let surroundings ← gather invocation
    respond (run surroundings args)
