import DumpDialect.Text.Quoted

/-!
# Hosts

What the command needs of the machine it runs on: standard streams, files that it opens by name,
and a clock. The command is written over any monad that offers these (`Host`), so it runs on a real
machine and on a value that stands for one.
-/

namespace DumpDialect

/-- Why a file cannot be opened. -/
inductive FileError where
  | notFound
  | notDirectory
  | isDirectory
  | nameTooLong
  /-- Another reason, with its number and its text. -/
  | other (number : Nat) (reason : Text)
deriving DecidableEq

namespace FileError

/-- The number of a reason. -/
def number : FileError → Nat
  | notFound => 2
  | notDirectory => 20
  | isDirectory => 21
  | nameTooLong => 36
  | other n _ => n

/-- A reason in words. -/
def reason : FileError → Text
  | notFound => "No such file or directory"
  | notDirectory => "Not a directory"
  | isDirectory => "Is a directory"
  | nameTooLong => "File name too long"
  | other _ text => text

/-- What the user is told when the file of a name cannot be opened. -/
def text (e : FileError) (name : Text) : Text :=
  "[Errno " ++ Text.ofNat e.number ++ "] " ++ e.reason ++ ": " ++ name.quoted

end FileError

/-- The operations of a machine that the command uses. A file is opened before it is read or
written. -/
class Host (m : Type → Type) where
  /-- The time of day, as hours, minutes and seconds with colons between. -/
  clock : m Text
  /-- All bytes of standard input. -/
  standardInput : m (List UInt8)
  /-- Writes to standard output. -/
  writeOutput : List UInt8 → m Unit
  /-- Writes to standard error. -/
  writeError : List UInt8 → m Unit
  /-- Opens a file to read it. -/
  openToRead : Text → m (Except FileError Unit)
  /-- Opens a file to write it: the file is made, or emptied if there is one. -/
  openToWrite : Text → m (Except FileError Unit)
  /-- Opens a file to append to it: the file is made if there is none. -/
  openToAppend : Text → m (Except FileError Unit)
  /-- All bytes of a file. -/
  read : Text → m (List UInt8)
  /-- Writes at the start of a file, over the bytes that stand there. -/
  overwrite : Text → List UInt8 → m Unit
  /-- Writes at the end of a file. -/
  append : Text → List UInt8 → m Unit

end DumpDialect
