import DumpDialect.Command.FileName
import DumpDialect.Command.Host
import DumpDialect.Command.Usage
import DumpDialect.Conversion.Run
import DumpDialect.Text.Utf8

/-!
# Running the command

`runCommand` reads the arguments, opens the files, converts the dump and says what happened. The
input file is opened first, so a missing one leaves the output file as it is; it is read last, so a
file that is also the output is read after it was emptied.

Messages go to standard error, as comments of SQL, and to the log file, with the time in front. Only
the dump goes to the output.
-/

namespace DumpDialect

variable [Quoting] {m : Type → Type} [Monad m] [Host m]

/-- Bytes of a message: a raw byte of the dump shows as an escape. -/
def messageBytes (t : Text) : List UInt8 := Text.encode (t.escapeRaw ++ [.lineFeed])

/-- The log file by its simplified name, so that a directory that the name leaves again need not be
there. -/
def Options.log? (o : Options) : Option Text := o.logFile.map FileName.simplify

/-- Tells the user a message, unless the user wants none of its level. -/
def say (o : Options) (message : Message) : m Unit := do
  if message.isShown o.level then
    let level : Text := message.level.name
    Host.writeError (messageBytes ("-- " ++ level ++ " " ++ message.text))
    match o.log? with
    | some name =>
      Host.append name (messageBytes ((← Host.clock) ++ " [" ++ level ++ "] " ++ message.text))
    | none => pure ()

/-- The tables to leave out as a message shows them. -/
def tablesText (tables : List Text) : Text :=
  match Text.joined "," tables with
  | [] => "-"
  | shown => shown

/-- The message that a run begins with: what the user chose. -/
def startMessage (o : Options) : Message :=
  ⟨.info, "Started: input=" ++ o.input.getD "<stdin>" ++ " output=" ++ o.output.getD "<stdout>" ++
    " skip=" ++ tablesText o.skipTables ++ " insert_ignore=" ++ Text.ofBool o.insertIgnore ++
    " strict=" ++ Text.ofBool o.strict⟩

/-- The line of the summary for a counter. The names of the counters are set to one width. -/
def countText (counter : Counter) (n : Nat) : Text :=
  let name : Text := counter.name
  "  " ++ name ++ List.replicate (16 - name.length) (Symbol.char ' ') ++ " " ++ Text.ofNat n

/-- The messages that a run without error ends with: what was read and what was counted. -/
def summary (st : State) : List Message :=
  ⟨.info, "Done: " ++ Text.ofNat st.lineNumber ++ " line(s) read, " ++
      Text.ofNat st.schemas.length ++ " database(s) declared, " ++
      Text.ofNat st.deferred.length ++ " deferred statement(s)"⟩ ::
    st.tally.counted.map fun (counter, n) => ⟨.info, countText counter n⟩

/-- The choices that the conversion depends on. -/
def Options.config (o : Options) : Config := ⟨o.skipTables, o.insertIgnore, o.strict⟩

/-- The text of a dump in a file or on standard input, with LF at the end of each line. -/
def dumpText (bytes : List UInt8) : Text := (Text.decode bytes).unifyLineEnds

/-- Opens a file that was named. -/
def openNamed (opener : Text → m (Except FileError Unit)) :
    Option Text → m (Option Text)
  | none => pure none
  | some name => do
    match ← opener name with
    | .ok () => pure none
    | .error e => pure (some (e.text name))

/-- Converts the dump and writes it, with the files open. The exit code is 1 if an error ended
the conversion, of which the lines in front of the error are written. -/
def convertOpened (o : Options) : m UInt32 := do
  let bytes ← match o.input with
    | some name => Host.read name
    | none => Host.standardInput
  let t := convertText o.config (dumpText bytes)
  t.events.forM fun event => say o event.message
  match t.error? with
  | some e => say o ⟨.error, "Translation aborted: " ++ e.text⟩
  | none => pure ()
  let written := Text.encode t.text
  match o.output with
  | some name => Host.overwrite name written
  | none => Host.writeOutput written
  match t.error? with
  | some _ => return 1
  | none =>
    (summary t.state).forM (say o)
    return 0

/-- Opens the input and the output and converts. -/
def convertFiles (o : Options) : m UInt32 := do
  say o (startMessage o)
  match ← openNamed Host.openToRead o.input with
  | some reason =>
    say o ⟨.error, "Cannot open input: " ++ reason⟩
    return 1
  | none =>
    match ← openNamed Host.openToWrite o.output with
    | some reason =>
      say o ⟨.error, "Cannot open output: " ++ reason⟩
      return 1
    | none => convertOpened o

/-- Runs the command with its arguments and gives its exit code: 0 if all went well, 1 if a file
cannot be opened or the dump not be converted, 2 if the arguments are wrong. -/
def runCommand (arguments : List Text) : m UInt32 := do
  match Options.parse arguments with
  | .error .help =>
    Host.writeOutput (Text.encode help)
    return 0
  | .error (.misuse misuse) =>
    Host.writeError (Text.encode misuse.report)
    return 2
  | .ok o =>
    match ← openNamed Host.openToAppend o.log? with
    | some reason =>
      say { o with logFile := none } ⟨.error, "Cannot open log file: " ++ reason⟩
      return 1
    | none => convertFiles o

end DumpDialect
