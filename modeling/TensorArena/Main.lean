import TensorArena.CommandLine.Run

/-!
# The command line program
-/

set_option autoImplicit false

namespace TensorArena.CommandLine

/-- The error with a number, which some system calls give a minus sign. -/
def numberedError (number : UInt32) (text : String) : FileError :=
  let number := if 0x7FFFFFFF < number then 0 - number else number
  if number = 2 then .notFound
  else if number = 20 then .notDirectory
  else if number = 21 then .isDirectory
  else if number = 36 then .nameTooLong
  else .other s!"{text} (os error {number})"

def fileError : IO.Error → FileError
  | .noFileOrDirectory _ number text => numberedError number text
  | .inappropriateType _ number text => numberedError number text
  | .invalidArgument _ number text => numberedError number text
  | .permissionDenied _ number text => numberedError number text
  | error => .other (toString error)

def attempt {α : Type} (action : IO α) : IO (Except FileError α) := do
  try return .ok (← action)
  catch error => return .error (fileError error)

/-- The files of the system. -/
def systemFiles : Files IO where
  read path := attempt (IO.FS.readBinFile path)
  write path text := attempt (IO.FS.writeFile path text)

end TensorArena.CommandLine

open TensorArena TensorArena.CommandLine in
def main (arguments : List String) : IO UInt32 := do
  let eager ← IO.getEnv Settings.eagerVariable
  let limit ← IO.getEnv Settings.arenaLimitVariable
  let environment := fun name =>
    if name = Settings.eagerVariable then eager
    else if name = Settings.arenaLimitVariable then limit
    else none
  let exit ← run systemFiles environment arguments
  (← IO.getStdout).putStr exit.output
  (← IO.getStderr).putStr exit.errors
  return exit.code.toUInt32
