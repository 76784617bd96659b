import TradingRules.Command.Run

/-!
# The command line

Runs the command that the arguments name on the files of this machine. The report goes to standard
output and the failure, if there is one, to standard error.
-/

namespace TradingRules

/-- The number under which a read that meets a directory is reported. -/
def readsDirectory : UInt32 := 21

/-- The number under which a name that is too long is reported, by some calls as its negative. -/
def tooLong : UInt32 := 36

def DiskFault.ofError (path : String) : IO.Error → DiskFault
  | .noFileOrDirectory _ _ _ => .notFound
  | .inappropriateType _ number _ =>
    if number = readsDirectory then .isADirectory else .notADirectory
  | .invalidArgument file number details =>
    if path.contains '\x00' then .zeroCharacter
    else if number = tooLong ∨ number = -tooLong then .nameTooLong
    else .other (toString (IO.Error.invalidArgument file number details))
  | e => .other (toString e)

def Disk.ofMachine : Disk BaseIO where
  read path := do
    match ← (IO.FS.readBinFile path).toBaseIO with
    | .error e => return .error (.ofError path e)
    | .ok content =>
      match String.fromUTF8? content with
      | some text => return .ok text
      | none => return .error .notUtf8
  list path := do
    let entries : IO (List String) := do
      return (← ((← IO.currentDir) / path).readDir).toList.map (·.fileName)
    return (← entries.toBaseIO).mapError (.ofError path)

end TradingRules

open TradingRules in
/-- Runs the command and gives its exit status. -/
def main (args : List String) : IO UInt32 := do
  match Arguments.parse args with
  | .error fault =>
    if fault = .helpRequested then IO.println fault.message else IO.eprintln fault.message
    return fault.exitCode.toUInt32
  | .ok command =>
    let outcome ← (command.run Disk.ofMachine : BaseIO Outcome)
    IO.print outcome.written
    if let some f := outcome.failure then IO.eprintln ("error: " ++ f.message)
    return outcome.exitCode.toUInt32
