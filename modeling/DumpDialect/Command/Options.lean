import DumpDialect.Message
import DumpDialect.Pattern.Search
import DumpDialect.Text.Quoted

/-!
# Options

The arguments of the command: switches, their values, and the input file. `Options.parse` reads
them in two passes. The first says what each argument is by itself (`Argument.read`); `--` makes
every argument after it a plain one. The second takes the arguments from left to right, gives each
switch its value, and stops at the first that is wrong or that asks for help.

A long switch may be shortened as long as no other starts alike. A value follows its switch as the
next argument, after `=`, or directly after the letter of a short switch. Short switches without a
value can stand together behind one dash.
-/

namespace DumpDialect

/-- A switch of the command. -/
inductive Switch where
  | help
  | output
  | skip
  | insertIgnore
  | strict
  | logLevel
  | logFile
deriving DecidableEq

namespace Switch

/-- The switches in the order in which they are shown. -/
def all : List Switch := [help, output, skip, insertIgnore, strict, logLevel, logFile]

/-- The names of a switch. -/
def names : Switch → List Text
  | help => ["-h", "--help"]
  | output => ["-o", "--output"]
  | skip => ["--skip"]
  | insertIgnore => ["--insert-ignore", "--insert_ignore"]
  | strict => ["--strict"]
  | logLevel => ["--log-level"]
  | logFile => ["--log-file"]

/-- Whether a switch has a value. -/
def takesValue : Switch → Bool
  | help | insertIgnore | strict => false
  | output | skip | logLevel | logFile => true

/-- All names, each with its switch. -/
def named : List (Text × Switch) := all.flatMap fun s => s.names.map (·, s)

/-- The switch of a name. -/
def ofName? (name : Text) : Option Switch := named.lookup name

/-- The switch of a letter. -/
def ofLetter? (letter : Symbol) : Option Switch := ofName? ['-', letter]

/-- The names of a switch as messages show them. -/
def title (s : Switch) : Text := Text.joined "/" s.names

end Switch

/-- What is wrong with the arguments. -/
inductive Misuse where
  /-- A shortened switch could be any of these. -/
  | ambiguous (argument : Text) (names : List Text)
  /-- A switch lacks its value. -/
  | valueMissing (s : Switch)
  /-- A switch that has no value is given one. -/
  | valueUnwanted (s : Switch) (value : Text)
  /-- There is no such level. -/
  | levelUnknown (value : Text)
  /-- These arguments mean nothing. -/
  | unrecognized (arguments : List Text)
deriving DecidableEq

/-- What the user is told about a misuse. -/
def Misuse.text : Misuse → Text
  | ambiguous argument names =>
    "ambiguous option: " ++ argument ++ " could match " ++ Text.joined ", " names
  | valueMissing s => "argument " ++ s.title ++ ": expected one argument"
  | valueUnwanted s value =>
    "argument " ++ s.title ++ ": ignored explicit argument " ++ value.quoted
  | levelUnknown value =>
    "argument " ++ Switch.logLevel.title ++ ": invalid choice: " ++ value.quoted ++
      " (choose from " ++ Text.joined ", " (Level.all.map fun l => (l.name : Text).quoted) ++ ")"
  | unrecognized arguments => "unrecognized arguments: " ++ Text.joined " " arguments

/-- Why there is nothing to convert: the user asks for help, or the arguments are wrong. -/
inductive Interruption where
  | help
  | misuse (m : Misuse)
deriving DecidableEq

/-- What the user chooses. A file that is not named is a standard stream. -/
structure Options where
  input : Option Text := none
  output : Option Text := none
  skipTables : List Text := []
  insertIgnore : Bool := false
  strict : Bool := false
  level : Level := .info
  logFile : Option Text := none
deriving DecidableEq

/-! ## Single arguments -/

/-- An argument by itself. -/
inductive Argument where
  /-- A value: of the switch in front of it, or the input file. -/
  | plain (value : Text)
  /-- The argument after which all are plain. -/
  | separator
  /-- A switch alone. -/
  | switch (s : Switch)
  /-- A switch with a value after `=`. -/
  | assigned (s : Switch) (value : Text)
  /-- A short switch with more letters after it. -/
  | lettered (s : Switch) (letters : Text)
  /-- An argument that looks like a switch and is none. -/
  | unknown (argument : Text)
deriving DecidableEq

/-- A negative number. As no switch is one, it is a plain argument. -/
def negativeNumber : Pattern :=
  .inOrder ["-",
    .anyOf [.someOf Symbol.isDigit,
      .inOrder [.run Symbol.isDigit, ".", .someOf Symbol.isDigit]],
    .finish]

namespace Argument

/-- The argument up to its first `=`, and the text after it if there is one. -/
def splitAtSign (t : Text) : Text × Option Text :=
  match t.dropWhile (· ≠ .char '=') with
  | [] => (t, none)
  | _ :: value => (t.takeWhile (· ≠ .char '='), some value)

/-- What a long argument that is no switch's name may be short for, with the full names. -/
def longCandidates (t : Text) : List (Text × Argument) :=
  let (start, value?) := splitAtSign t
  (Switch.named.filter fun (name, _) => start.isPrefixOf name).map fun (name, s) =>
    (name, match value? with
      | some value => .assigned s value
      | none => .switch s)

/-- A short switch with a text attached to it. `=` in front of the letters is no letter, and `=`
alone gives the empty value. -/
def ofAttached (s : Switch) : Text → Argument
  | [.char '='] => .assigned s []
  | .char '=' :: letters | letters => .lettered s letters

/-- The short switch that an argument begins with, with its name. -/
def shortCandidates : Text → List (Text × Argument)
  | dash :: letter :: attached =>
    (Switch.ofLetter? letter).toList.map fun s => ([dash, letter], ofAttached s attached)
  | _ => []

/-- What an argument that begins with a dash is. -/
def readDashed (t : Text) : Except Misuse Argument :=
  match Switch.ofName? t with
  | some s => .ok (.switch s)
  | none =>
    match if ("--" : Text).isPrefixOf t then longCandidates t else shortCandidates t with
    | [(_, argument)] => .ok argument
    | [] => .ok (if negativeNumber.opens t || t.contains ' ' then .plain t else .unknown t)
    | several => .error (.ambiguous t (several.map Prod.fst))

/-- What an argument in front of `--` is. A dash alone is a plain argument, and so is the empty
one. -/
def read (t : Text) : Except Misuse Argument :=
  if t.head? ≠ some '-' || t.length = 1 then .ok (.plain t) else readDashed t

/-- What each of the arguments is. -/
def readAll : List Text → Except Misuse (List Argument)
  | [] => .ok []
  | t :: ts =>
    if t = "--" then .ok (.separator :: ts.map .plain)
    else do return (← read t) :: (← readAll ts)

end Argument

/-! ## Settings -/

/-- A switch with its value, or without one if it has none. -/
abbrev Setting := Switch × Text

/-- What one argument sets: its settings from left to right, and a switch at its end whose value is
the next argument. -/
structure Bundle where
  settings : List Setting := []
  pending : Option Switch := none

namespace Bundle

/-- A switch with nothing attached to it. -/
def ofSwitch (s : Switch) : Bundle :=
  if s.takesValue then { pending := some s } else { settings := [(s, [])] }

/-- A switch with a value attached to it. The separator of the arguments is no value there, so the
value is empty. -/
def ofAssigned (s : Switch) (value : Text) : Except Misuse Bundle :=
  if s.takesValue then .ok { settings := [(s, if value = "--" then [] else value)] }
  else .error (.valueUnwanted s value)

/-- A short switch with letters attached to it. They are its value if it has one. Otherwise the
first of them is the next switch, to which the others are attached. -/
def ofLettered : Switch → Text → Except Misuse Bundle
  | s, [] => .ok (ofSwitch s)
  | s, letter :: letters =>
    if s.takesValue then ofAssigned s (letter :: letters)
    else
      match Switch.ofLetter? letter with
      | none => .error (.valueUnwanted s (letter :: letters))
      | some next =>
        (ofLettered next letters).map fun b => { b with settings := (s, []) :: b.settings }

end Bundle

/-- A file name; the empty name stands for no file. -/
def fileName? (name : Text) : Option Text := if name = [] then none else some name

/-- The options after a setting. -/
def Options.set (o : Options) : Setting → Except Interruption Options
  | (.help, _) => .error .help
  | (.output, value) => .ok { o with output := fileName? value }
  | (.skip, value) => .ok { o with skipTables := o.skipTables ++ [value] }
  | (.insertIgnore, _) => .ok { o with insertIgnore := true }
  | (.strict, _) => .ok { o with strict := true }
  | (.logLevel, value) =>
    match Level.all.find? fun l => (l.name : Text) = value with
    | some level => .ok { o with level }
    | none => .error (.misuse (.levelUnknown value))
  | (.logFile, value) => .ok { o with logFile := fileName? value }

/-! ## All arguments -/

namespace Options

/-- The options read so far, whether the place of the input file is taken, and the arguments that
mean nothing. -/
structure Progress where
  options : Options := {}
  inputTaken : Bool := false
  strays : List Text := []

namespace Progress

/-- An argument that means nothing. -/
def stray (p : Progress) (t : Text) : Progress := { p with strays := p.strays ++ [t] }

/-- A plain argument that is no value of a switch. -/
def plain (p : Progress) (value : Text) : Progress :=
  if p.inputTaken then p.stray value
  else { p with options := { p.options with input := fileName? value }, inputTaken := true }

/-- The progress after what one argument sets. -/
def settle (p : Progress) (settings : List Setting) : Except Interruption Progress := do
  return { p with options := ← settings.foldlM Options.set p.options }

end Progress

/-- The bundle of an argument that is a switch. -/
def bundle? : Argument → Option (Except Misuse Bundle)
  | .switch s => some (.ok (.ofSwitch s))
  | .assigned s value => some (Bundle.ofAssigned s value)
  | .lettered s letters => some (Bundle.ofLettered s letters)
  | .plain _ | .separator | .unknown _ => none

/-- Takes the arguments from left to right. The separator belongs to the input file, in front of it
or after it; once the place of the file is taken it means nothing. -/
def take : Progress → List Argument → Except Interruption Progress
  | p, [] => .ok p
  | p, .separator :: rest => if p.inputTaken then take (p.stray "--") rest else take p rest
  | p, .plain value :: .separator :: rest =>
    if p.inputTaken then take ((p.plain value).stray "--") rest else take (p.plain value) rest
  | p, .plain value :: rest => take (p.plain value) rest
  | p, .unknown t :: rest => take (p.stray t) rest
  | p, argument :: rest =>
    match bundle? argument with
    | none => take p rest
    | some (.error m) => .error (.misuse m)
    | some (.ok b) =>
      match b.pending with
      | none => do take (← p.settle b.settings) rest
      | some s =>
        match rest with
        | .plain value :: rest' => do take (← p.settle (b.settings ++ [(s, value)])) rest'
        | _ => .error (.misuse (.valueMissing s))

/-- The options that the arguments of the command give. -/
def parse (arguments : List Text) : Except Interruption Options :=
  match Argument.readAll arguments with
  | .error m => .error (.misuse m)
  | .ok read => do
    let p ← take {} read
    if p.strays = [] then .ok p.options else .error (.misuse (.unrecognized p.strays))

end Options

end DumpDialect
