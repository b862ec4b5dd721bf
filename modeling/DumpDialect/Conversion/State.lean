import DumpDialect.Identifier
import DumpDialect.Message

/-!
# The state of a conversion

A dump is read line by line. Between two lines the conversion knows which statement is open and
whether its lines are withheld, which databases it has declared, which changes wait for the end,
and how often each thing occurred.

What happens while a line is handled is a list of events. An event is told to the user as a message
(`Event.message`) and changes the state (`State.record`), so the two cannot disagree.
-/

namespace DumpDialect

/-- The kinds of statements that can stretch over several lines. -/
inductive Statement where
  | createTable
  | alterTable
  | insert
  | block
deriving DecidableEq

/-- The name of a kind of statement. -/
def Statement.name : Statement → String
  | createTable => "create table"
  | alterTable => "alter table"
  | insert => "insert"
  | block => "begin/end block"

/-- What the user chooses for a conversion: the tables to leave out, whether MySQL goes on past
rows that do not conform, and whether a CREATE TYPE statement is an error. -/
structure Config where
  skipTables : List Text
  insertIgnore : Bool
  strict : Bool
deriving DecidableEq

/-- Whether the table is left out. -/
def Config.skips (cfg : Config) (table : Text) : Bool := cfg.skipTables.contains table

/-- A column that becomes AUTO_INCREMENT. MySQL allows this only once the column is a key, and
pg_dump adds keys late, so the change waits until all else is written. -/
structure DeferredChange where
  table : Text
  column : Text
deriving DecidableEq

/-- The statement that makes the change. -/
def DeferredChange.statement [Quoting] (d : DeferredChange) : Text :=
  "ALTER TABLE " ++ d.table ++ " MODIFY " ++ Identifier.quote d.column ++
    " integer auto_increment;"

/-! ## Counts -/

/-- What is counted during a conversion. -/
inductive Counter where
  | suppressed
  | unrecognized
  | sequenceValue
  | createIndex
  | statement (kind : Statement)
deriving DecidableEq

namespace Counter

/-- The name of a counter. -/
def name : Counter → String
  | suppressed => "suppressed"
  | unrecognized => "unrecognized"
  | sequenceValue => "setval"
  | createIndex => "create index"
  | statement kind => kind.name

/-- The counters in the alphabetical order of their names. -/
def all : List Counter :=
  [statement .alterTable, statement .block, createIndex, statement .createTable,
   statement .insert, sequenceValue, suppressed, unrecognized]

end Counter

/-- How often each thing was counted. -/
structure Tally where
  suppressed : Nat := 0
  unrecognized : Nat := 0
  sequenceValue : Nat := 0
  createIndex : Nat := 0
  createTable : Nat := 0
  alterTable : Nat := 0
  insert : Nat := 0
  block : Nat := 0
deriving DecidableEq

namespace Tally

/-- The count of a counter. -/
def get (t : Tally) : Counter → Nat
  | .suppressed => t.suppressed
  | .unrecognized => t.unrecognized
  | .sequenceValue => t.sequenceValue
  | .createIndex => t.createIndex
  | .statement .createTable => t.createTable
  | .statement .alterTable => t.alterTable
  | .statement .insert => t.insert
  | .statement .block => t.block

/-- Counts one more. -/
def bump (t : Tally) : Counter → Tally
  | .suppressed => { t with suppressed := t.suppressed + 1 }
  | .unrecognized => { t with unrecognized := t.unrecognized + 1 }
  | .sequenceValue => { t with sequenceValue := t.sequenceValue + 1 }
  | .createIndex => { t with createIndex := t.createIndex + 1 }
  | .statement .createTable => { t with createTable := t.createTable + 1 }
  | .statement .alterTable => { t with alterTable := t.alterTable + 1 }
  | .statement .insert => { t with insert := t.insert + 1 }
  | .statement .block => { t with block := t.block + 1 }

@[simp] theorem get_bump (t : Tally) (c d : Counter) :
    (t.bump c).get d = t.get d + if c = d then 1 else 0 := by
  rcases c with _ | _ | _ | _ | (_ | _ | _ | _) <;>
    rcases d with _ | _ | _ | _ | (_ | _ | _ | _) <;> rfl

/-- The counters that counted anything, with their counts. -/
def counted (t : Tally) : List (Counter × Nat) :=
  (Counter.all.map fun c => (c, t.get c)).filter fun (_, n) => n ≠ 0

end Tally

/-! ## State -/

/-- What the conversion knows between two lines: the statement that is open, whether the lines of
the current statement are withheld, the schemas for which a database was declared, the changes that
wait for the end, the number of lines read, and the counts. -/
structure State where
  context : Option Statement := none
  suppressed : Bool := false
  schemas : List Text := []
  deferred : List DeferredChange := []
  lineNumber : Nat := 0
  tally : Tally := {}
deriving DecidableEq

/-- Counts one more. -/
def State.count (st : State) (c : Counter) : State := { st with tally := st.tally.bump c }

/-! ## Events -/

/-- Something that happens while a line is handled. -/
inductive Event where
  /-- A line is read. -/
  | lineRead (number : Nat) (line : Text)
  /-- A database is declared for a schema. -/
  | databaseDeclared (schema : Text)
  /-- A statement is withheld, since its table is left out. -/
  | tableSkipped (table : Text)
  /-- A statement that names the owner of a table is dropped. -/
  | ownerChangeDropped (line : Text)
  /-- A foreign key is withheld, since it points to a table that is left out. -/
  | foreignKeySkipped (target : Text)
  /-- A change waits for the end. -/
  | changeDeferred (change : DeferredChange)
  /-- A line of an INSERT statement ends as if it closed the statement. -/
  | insertEndSeen (number quotes : Nat) (continued : Bool)
  /-- An index is withheld, since its table is left out. -/
  | indexSkipped (index table : Text)
  /-- The value of a sequence is withheld, since its table is left out. -/
  | sequenceValueSkipped (table : Text)
  /-- A block begins; all its lines are withheld. -/
  | blockSkipped (number : Nat)
  /-- A line is of no known kind and is dropped. -/
  | lineUnrecognized (number : Nat) (line : Text)
  /-- The changes that waited are written. -/
  | changesAppended (count : Nat)
deriving DecidableEq

namespace Event

/-- The message that tells the user of the event. -/
def message [Quoting] : Event → Message
  | lineRead number line => ⟨.debug, "input line " ++ Text.ofNat number ++ ": " ++ line⟩
  | databaseDeclared schema => ⟨.debug, "declared database " ++ schema⟩
  | tableSkipped table => ⟨.warning, "skipping table " ++ table⟩
  | ownerChangeDropped line => ⟨.warning, "dropping ownership change: " ++ line.trim⟩
  | foreignKeySkipped target =>
    ⟨.warning, "skipping foreign key on skipped table " ++ target⟩
  | changeDeferred change => ⟨.debug, "deferred: " ++ change.statement⟩
  | insertEndSeen number quotes continued =>
    ⟨.debug, "line " ++ Text.ofNat number ++ " ends with ');', " ++ Text.ofNat quotes ++
      " quote(s), in_insert=" ++ Text.ofBool continued⟩
  | indexSkipped index table =>
    ⟨.warning, "skipping index " ++ index ++ " on skipped table " ++ table⟩
  | sequenceValueSkipped table =>
    ⟨.warning, "skipping sequence value for skipped table " ++ table⟩
  | blockSkipped number =>
    ⟨.warning, "skipping BEGIN ... END block starting at line " ++ Text.ofNat number⟩
  | lineUnrecognized number line =>
    ⟨.warning, "unrecognized line " ++ Text.ofNat number ++ ": " ++ line⟩
  | changesAppended count =>
    ⟨.info, "Appending " ++ Text.ofNat count ++ " deferred AUTO_INCREMENT statement(s)"⟩

end Event

namespace State

/-- The state after an event. -/
def record (st : State) : Event → State
  | .databaseDeclared schema => { st with schemas := st.schemas ++ [schema] }
  | .changeDeferred change => { st with deferred := st.deferred ++ [change] }
  | .tableSkipped _ | .ownerChangeDropped _ | .foreignKeySkipped _ | .indexSkipped _ _
  | .sequenceValueSkipped _ | .blockSkipped _ => st.count .suppressed
  | .lineUnrecognized _ _ => st.count .unrecognized
  | .lineRead _ _ | .insertEndSeen _ _ _ | .changesAppended _ => st

/-- The state after some events. -/
def recordAll (st : State) (events : List Event) : State := events.foldl record st

@[simp] theorem recordAll_nil (st : State) : st.recordAll [] = st := rfl

@[simp] theorem recordAll_cons (st : State) (e : Event) (events : List Event) :
    st.recordAll (e :: events) = (st.record e).recordAll events := rfl

theorem recordAll_append (st : State) (events more : List Event) :
    st.recordAll (events ++ more) = (st.recordAll events).recordAll more := by
  simp [recordAll]

@[simp] theorem context_record (st : State) (e : Event) : (st.record e).context = st.context := by
  cases e <;> rfl

@[simp] theorem suppressed_record (st : State) (e : Event) :
    (st.record e).suppressed = st.suppressed := by
  cases e <;> rfl

@[simp] theorem lineNumber_record (st : State) (e : Event) :
    (st.record e).lineNumber = st.lineNumber := by
  cases e <;> rfl

@[simp] theorem context_recordAll (st : State) (events : List Event) :
    (st.recordAll events).context = st.context := by
  induction events generalizing st <;> simp_all

@[simp] theorem suppressed_recordAll (st : State) (events : List Event) :
    (st.recordAll events).suppressed = st.suppressed := by
  induction events generalizing st <;> simp_all

@[simp] theorem lineNumber_recordAll (st : State) (events : List Event) :
    (st.recordAll events).lineNumber = st.lineNumber := by
  induction events generalizing st <;> simp_all

end State

end DumpDialect
