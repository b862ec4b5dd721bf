import DumpDialect.Command.Run
import DumpDialect.Quoting
import Std.Time.Zoned

/-!
# The command line

The machine that the command runs on: its standard streams, its files and its clock, and nothing
else. Names are quoted by `Quoting.doubling`.
-/

namespace DumpDialect

/-- The number and the text of a failure. -/
def failure : IO.Error → Nat × String
  | .noFileOrDirectory _ code reason | .interrupted _ code reason
  | .inappropriateType _ code reason | .permissionDenied _ code reason
  | .resourceExhausted _ code reason | .invalidArgument _ code reason
  | .noSuchThing _ code reason | .alreadyExists _ code reason
  | .otherError code reason | .resourceBusy code reason | .resourceVanished code reason
  | .unsupportedOperation code reason | .hardwareFault code reason
  | .unsatisfiedConstraints code reason | .illegalOperation code reason
  | .protocolError code reason | .timeExpired code reason => (code.toNat, reason)
  | .userError reason => (0, reason)
  | .unexpectedEof => (0, "unexpected end of file")

/-- Why a file could not be opened. -/
def fileErrorOf (e : IO.Error) : FileError :=
  match failure e with
  | (2, _) => .notFound
  | (20, _) => .notDirectory
  | (21, _) => .isDirectory
  | (36, _) => .nameTooLong
  | (number, reason) => .other number reason

/-- Opens a file and closes it again. -/
def tryOpen (mode : IO.FS.Mode) (name : Text) : IO (Except FileError Unit) := do
  try
    let _ ← IO.FS.Handle.mk name.toString mode
    return .ok ()
  catch e => return .error (fileErrorOf e)

/-- A number as two digits. -/
def twoDigits (n : Int) : Text :=
  if n < 10 then "0" ++ Text.ofInt n else Text.ofInt n

instance : Host IO where
  clock := do
    let now ← Std.Time.PlainTime.now
    return twoDigits now.hour.val ++ ":" ++ twoDigits now.minute.val ++ ":" ++
      twoDigits now.second.val
  standardInput := return (← (← IO.getStdin).readBinToEnd).toList
  writeOutput bytes := do
    let stdout ← IO.getStdout
    stdout.write bytes.toByteArray
    stdout.flush
  writeError bytes := do (← IO.getStderr).write bytes.toByteArray
  openToRead name := do
    try
      let place ← IO.FS.realPath name.toString
      if ← place.isDir then return .error .isDirectory
    catch e => return .error (fileErrorOf e)
    tryOpen .read name
  openToWrite := tryOpen .write
  openToAppend := tryOpen .append
  read name := return (← IO.FS.readBinFile name.toString).toList
  overwrite name bytes := do
    (← IO.FS.Handle.mk name.toString .readWrite).write bytes.toByteArray
  append name bytes := do (← IO.FS.Handle.mk name.toString .append).write bytes.toByteArray

end DumpDialect

/-- Runs the command and gives its exit code to the system. -/
def main (arguments : List String) : IO UInt32 :=
  DumpDialect.runCommand (arguments.map DumpDialect.Text.ofString)
