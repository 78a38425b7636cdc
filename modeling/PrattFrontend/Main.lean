import PrattFrontend.Cli

/-!
# The command line

Reads what a command asks for, and writes the answer.
-/

namespace PrattFrontend.Cli

/-- Why the system failed to read, in its words. -/
def systemWords : IO.Error → String
  | .noFileOrDirectory _ _ _ => "No such file or directory (os error 2)"
  | .inappropriateType _ code details => numbered code details
  | .permissionDenied _ code details => numbered code details
  | .otherError code details => numbered code details
  | e => toString e
where
  /-- A failure to which the system gave a number, which may come with its sign turned. -/
  numbered (code : UInt32) (details : String) : String :=
    let number := min code (0 - code)
    if number = 20 then "Not a directory (os error 20)"
    else if number = 21 then "Is a directory (os error 21)"
    else details ++ " (os error " ++ toString number ++ ")"

/-- The bytes of a file, or of the standard input if no path is given. -/
def readBytes : Option String → IO ByteArray
  | some path => IO.FS.readBinFile path
  | none => do (← IO.getStdin).readBinToEnd

/-- Reads as the system does. -/
def readSystem : Reader IO := fun path? => do
  try return .ok (← readBytes path?)
  catch e => return .error (systemWords e)

/-- The status of a run that breaks off. -/
def brokenOff : Nat := 101

/-- Answers a command line. -/
def execute (args : List String) : IO UInt32 := do
  let reply ← answer readSystem (.ofArgs args)
  IO.print reply.stdout
  IO.eprint reply.stderr
  return (reply.status?.getD brokenOff).toUInt32

end PrattFrontend.Cli

/-- Parses the source that the arguments name, and writes what was found. -/
def main (args : List String) : IO UInt32 :=
  PrattFrontend.Cli.execute args
