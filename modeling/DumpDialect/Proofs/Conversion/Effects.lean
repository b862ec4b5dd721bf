import DumpDialect.Conversion.Step

/-!
# What a step does to the state

The events of a step say which schemas, changes and counts it adds to the state, so what a step
adds is read off its events.

- `Event.schema?`, `Event.change?`, `Event.counter?`: the one thing that an event adds.
- `schemas_recordAll`, `deferred_recordAll`, `get_tally_recordAll`: what a list of events adds.
- `schemas_ofStatement`, `changes_ofStatement`: only a CREATE TABLE header declares a database,
  and only an ALTER TABLE line defers a change.
- `Config.deferral?_eq_some_iff`: which lines do so, and which change each defers.
- `preamble_ofStatement`: nothing but such a declaration is written in front of a line.
-/

namespace DumpDialect

namespace Event

/-- The schema for which the event declares a database. -/
def schema? : Event → Option Text
  | databaseDeclared schema => some schema
  | _ => none

/-- The change that the event defers. -/
def change? : Event → Option DeferredChange
  | changeDeferred change => some change
  | _ => none

/-- The counter that counts the event. -/
def counter? : Event → Option Counter
  | tableSkipped _ | ownerChangeDropped _ | foreignKeySkipped _ | indexSkipped _ _
  | sequenceValueSkipped _ | blockSkipped _ => some .suppressed
  | lineUnrecognized _ _ => some .unrecognized
  | lineRead _ _ | databaseDeclared _ | changeDeferred _ | insertEndSeen _ _ _
  | changesAppended _ => none

/-- Statements are counted when they open, and not by an event. -/
theorem counter?_ne_statement (e : Event) (kind : Statement) :
    e.counter? ≠ some (.statement kind) := by
  cases e <;> simp [counter?]

end Event

namespace State

variable (st : State)

@[simp] theorem context_count (c : Counter) : (st.count c).context = st.context := rfl

@[simp] theorem suppressed_count (c : Counter) : (st.count c).suppressed = st.suppressed := rfl

@[simp] theorem schemas_count (c : Counter) : (st.count c).schemas = st.schemas := rfl

@[simp] theorem deferred_count (c : Counter) : (st.count c).deferred = st.deferred := rfl

@[simp] theorem lineNumber_count (c : Counter) : (st.count c).lineNumber = st.lineNumber := rfl

@[simp] theorem tally_count (c : Counter) : (st.count c).tally = st.tally.bump c := rfl

theorem schemas_record (e : Event) :
    (st.record e).schemas = st.schemas ++ e.schema?.toList := by
  cases e <;> simp [record, Event.schema?]

theorem deferred_record (e : Event) :
    (st.record e).deferred = st.deferred ++ e.change?.toList := by
  cases e <;> simp [record, Event.change?]

theorem get_tally_record (e : Event) (c : Counter) :
    (st.record e).tally.get c = st.tally.get c + if e.counter? = some c then 1 else 0 := by
  cases e <;> simp [record, Event.counter?]

/-- The schemas that some events add. -/
theorem schemas_recordAll (events : List Event) :
    (st.recordAll events).schemas = st.schemas ++ events.filterMap Event.schema? := by
  induction events generalizing st with
  | nil => simp
  | cons e events ih =>
    rw [recordAll_cons, ih, schemas_record, List.append_assoc]
    cases h : e.schema? <;> simp [h]

/-- The changes that some events defer. -/
theorem deferred_recordAll (events : List Event) :
    (st.recordAll events).deferred = st.deferred ++ events.filterMap Event.change? := by
  induction events generalizing st with
  | nil => simp
  | cons e events ih =>
    rw [recordAll_cons, ih, deferred_record, List.append_assoc]
    cases h : e.change? <;> simp [h]

/-- What some events add to a count. -/
theorem get_tally_recordAll (events : List Event) (c : Counter) :
    (st.recordAll events).tally.get c =
      st.tally.get c + events.countP fun e => e.counter? = some c := by
  induction events generalizing st with
  | nil => simp
  | cons e events ih =>
    rw [recordAll_cons, ih, get_tally_record, List.countP_cons]
    by_cases he : e.counter? = some c
    · simp [he]
      omega
    · simp [he]

/-- No event counts a statement. -/
@[simp] theorem get_statement_recordAll (events : List Event) (kind : Statement) :
    (st.recordAll events).tally.get (.statement kind) = st.tally.get (.statement kind) := by
  rw [get_tally_recordAll, List.countP_eq_zero.mpr, Nat.add_zero]
  intro e _
  simp [e.counter?_ne_statement kind]

/-! ## After a line -/

variable (kind : Statement) (t : Treatment)

@[simp] theorem context_afterStatement :
    (st.afterStatement kind t).context = if t.stillOpen then some kind else none := rfl

@[simp] theorem suppressed_afterStatement :
    (st.afterStatement kind t).suppressed = t.suppressed := rfl

@[simp] theorem schemas_afterStatement :
    (st.afterStatement kind t).schemas = st.schemas ++ t.events.filterMap Event.schema? := by
  simp only [afterStatement, schemas_recordAll]
  split <;> rfl

@[simp] theorem deferred_afterStatement :
    (st.afterStatement kind t).deferred = st.deferred ++ t.events.filterMap Event.change? := by
  simp only [afterStatement, deferred_recordAll]
  split <;> rfl

@[simp] theorem lineNumber_afterStatement :
    (st.afterStatement kind t).lineNumber = st.lineNumber := by
  simp only [afterStatement, lineNumber_recordAll]
  split <;> rfl

/-- A statement is counted by the line that opens it. -/
theorem get_statement_afterStatement :
    (st.afterStatement kind t).tally.get (.statement kind) =
      st.tally.get (.statement kind) + if st.context = some kind then 0 else 1 := by
  simp only [afterStatement, get_statement_recordAll]
  split <;> simp

@[simp] theorem context_afterSingle : (st.afterSingle t).context = st.context := by
  simp [afterSingle]

@[simp] theorem suppressed_afterSingle : (st.afterSingle t).suppressed = t.suppressed := rfl

@[simp] theorem schemas_afterSingle :
    (st.afterSingle t).schemas = st.schemas ++ t.events.filterMap Event.schema? := by
  simp [afterSingle, schemas_recordAll]

@[simp] theorem deferred_afterSingle :
    (st.afterSingle t).deferred = st.deferred ++ t.events.filterMap Event.change? := by
  simp [afterSingle, deferred_recordAll]

@[simp] theorem lineNumber_afterSingle : (st.afterSingle t).lineNumber = st.lineNumber := by
  simp [afterSingle]

end State

/-! ## The treatments -/

/-- How a statement of the kind starts; group 1 is its table, if it has one. -/
def Statement.opening : Statement → Pattern
  | createTable => CreateTable.header
  | alterTable => AlterTable.header
  | insert => Insert.header
  | block => Block.opening

/-- The table that a line names as the opening of a statement of the kind. -/
def Statement.table? (kind : Statement) (line : Text) : Option Text :=
  (kind.opening.atStart? line).map (·.group 1)

theorem Statement.table?_eq_none_iff {kind : Statement} {line : Text} :
    kind.table? line = none ↔ kind.opening.opens line = false := by
  simp [table?, Pattern.opens]

/-- The schema for which a CREATE TABLE line declares a database: the header's, if it is new. -/
def State.newSchema? (st : State) (line : Text) : Option Text :=
  ((Statement.createTable.table? line).bind CreateTable.schema?).filter
    fun s => !st.schemas.contains s

/-- An ALTER TABLE line as MySQL reads it, unless it is dropped or deferred. -/
def AlterTable.written [Quoting] (line : Text) : Text := quoteKey (applyRules rules line)

/-- The table that an ALTER TABLE line names, once the clauses that MySQL lacks are dropped. -/
def AlterTable.table? (line : Text) : Option Text :=
  Statement.alterTable.table? (applyRules rules line)

/-- The change that an ALTER TABLE line defers: the default of a sequence, for a table that is not
left out. -/
def Config.deferral? [Quoting] (cfg : Config) (line : Text) : Option DeferredChange :=
  if AlterTable.ownerChange.occursIn line then none
  else
    ((AlterTable.sequenceDefault.find (AlterTable.written line)).map fun m =>
      DeferredChange.mk (m.group 1) (m.group 2)).filter fun d => !cfg.skips d.table

/-- The table that is left out and to which the foreign key on the next line points. -/
def Config.skippedTarget? (cfg : Config) (next : Text) : Option Text :=
  (AlterTable.foreignTable? next).filter cfg.skips

/-- An INSERT line with what its header becomes: the columns quoted, and IGNORE written. -/
def Insert.headed [Quoting] (cfg : Config) (line : Text) : Text :=
  match Statement.insert.table? line with
  | some _ =>
    if cfg.insertIgnore then ignoreRule.apply (quoteColumns line) else quoteColumns line
  | none => line

/-- An INSERT line with its values in MySQL's form, before backslashes are doubled. -/
def Insert.valued [Quoting] (cfg : Config) (line : Text) : Text :=
  applyRules valueRules (headed cfg line)

/-- An INSERT line as MySQL reads it. -/
def Insert.written [Quoting] (cfg : Config) (line : Text) : Text :=
  applyRules escapeRules (valued cfg line)

@[simp] theorem Config.skips_iff {cfg : Config} {table : Text} :
    cfg.skips table = true ↔ table ∈ cfg.skipTables := by
  simp [skips]

/-- The ALTER TABLE lines that defer a change, and the change that each defers. -/
theorem Config.deferral?_eq_some_iff [Quoting] {cfg : Config} {line : Text} {d : DeferredChange} :
    cfg.deferral? line = some d ↔
      AlterTable.ownerChange.occursIn line = false ∧
        (∃ m, AlterTable.sequenceDefault.find (AlterTable.written line) = some m ∧
          d = ⟨m.group 1, m.group 2⟩) ∧
        d.table ∉ cfg.skipTables := by
  unfold deferral?
  split
  · next howner => simp [howner]
  · next howner =>
    have hkept : (!cfg.skips d.table) = true ↔ d.table ∉ cfg.skipTables := by simp [skips]
    rw [Option.filter_eq_some_iff, Option.map_eq_some_iff, hkept]
    constructor
    · rintro ⟨⟨m, hm, rfl⟩, hk⟩
      exact ⟨Bool.eq_false_iff.mpr howner, ⟨m, hm, rfl⟩, hk⟩
    · rintro ⟨-, ⟨m, hm, rfl⟩, hk⟩
      exact ⟨⟨m, hm, rfl⟩, hk⟩

@[simp] theorem filterMap_schema?_skipEvents (cfg : Config) (table? : Option Text) :
    (table?.toList.flatMap cfg.skipEvents).filterMap Event.schema? = [] := by
  cases table? <;> simp [Config.skipEvents, Event.schema?]

@[simp] theorem filterMap_change?_skipEvents (cfg : Config) (table? : Option Text) :
    (table?.toList.flatMap cfg.skipEvents).filterMap Event.change? = [] := by
  cases table? <;> simp [Config.skipEvents, Event.change?]

namespace Treatment

variable (cfg : Config) (st : State) (line next : Text)

theorem schemas_ofCreateIndex : (ofCreateIndex cfg line).events.filterMap Event.schema? = [] := by
  unfold ofCreateIndex
  simp only
  split <;> rfl

theorem changes_ofCreateIndex : (ofCreateIndex cfg line).events.filterMap Event.change? = [] := by
  unfold ofCreateIndex
  simp only
  split <;> rfl

theorem preamble_ofCreateIndex : (ofCreateIndex cfg line).preamble = [] := by
  unfold ofCreateIndex
  simp only
  split <;> rfl

/-- A treatment of a sequence value sets the value that the line gives, for the table that it
names. -/
theorem ofSequenceValue_eq_ok {cfg : Config} {st : State} {line : Text} {t : Treatment}
    (h : ofSequenceValue cfg st line = .ok t) :
    ∃ table value, SequenceValue.read? line = some (table, value) ∧
      t = { line := SequenceValue.written table value
            stillOpen := false
            suppressed := cfg.skips table
            events := if cfg.skips table then [.sequenceValueSkipped table] else [] } := by
  unfold ofSequenceValue at h
  split at h
  · cases h
  · next table value hr => exact ⟨table, value, hr, (Except.ok.inj h).symm⟩

variable [Quoting]

theorem schemas_ofCreateTable :
    (ofCreateTable cfg st line).events.filterMap Event.schema? =
      (st.newSchema? line).toList := by
  simp only [ofCreateTable, List.filterMap_append, filterMap_schema?_skipEvents, List.append_nil,
    List.filterMap_map]
  exact List.filterMap_some

theorem changes_ofCreateTable :
    (ofCreateTable cfg st line).events.filterMap Event.change? = [] := by
  simp only [ofCreateTable, List.filterMap_append, filterMap_change?_skipEvents, List.append_nil,
    List.filterMap_map]
  simp [Function.comp_def, Event.change?]

theorem preamble_ofCreateTable :
    (ofCreateTable cfg st line).preamble =
      (st.newSchema? line).toList.flatMap databaseDeclaration := rfl

/-- An ALTER TABLE line is dropped if it names an owner, deferred if it is the default of a sequence
for a table that is kept, and else written. -/
theorem ofAlterTable_eq :
    ofAlterTable cfg st line next =
      if AlterTable.ownerChange.occursIn line then
        { line := line, stillOpen := false, suppressed := true,
          events := [.ownerChangeDropped line] }
      else
        { line := if (cfg.deferral? line).isSome then [] else AlterTable.written line
          stillOpen := !AlterTable.closes (AlterTable.written line)
          suppressed := (cfg.deferral? line).isSome || (cfg.skippedTarget? next).isSome ||
            cfg.withholds st.suppressed (AlterTable.table? line)
          events := (AlterTable.table? line).toList.flatMap cfg.skipEvents ++
            (cfg.skippedTarget? next).toList.map .foreignKeySkipped ++
            (cfg.deferral? line).toList.map .changeDeferred } := by
  unfold ofAlterTable
  split
  · rfl
  · next howner =>
    have hdeferral : cfg.deferral? line =
        ((AlterTable.sequenceDefault.find (AlterTable.written line)).map fun m =>
          DeferredChange.mk (m.group 1) (m.group 2)).filter fun d => !cfg.skips d.table := by
      rw [Config.deferral?, if_neg howner]
    simp only [AlterTable.written] at hdeferral
    simp only
    split
    · next change h =>
      rw [hdeferral, h]
      simp only [Option.isSome_some, ↓reduceIte, Bool.true_or]
      rfl
    · next h =>
      rw [hdeferral, h]
      simp only [Option.isSome_none, Bool.false_eq_true, ↓reduceIte, Bool.false_or,
        Option.toList_none, List.map_nil, List.append_nil]
      rfl

theorem schemas_ofAlterTable :
    (ofAlterTable cfg st line next).events.filterMap Event.schema? = [] := by
  rw [ofAlterTable_eq]
  split
  · rfl
  · simp [Event.schema?, Function.comp_def]

theorem changes_ofAlterTable :
    (ofAlterTable cfg st line next).events.filterMap Event.change? =
      (cfg.deferral? line).toList := by
  rw [ofAlterTable_eq]
  split
  · next howner => simp [Config.deferral?, howner, Event.change?]
  · simp [Event.change?, Function.comp_def]

theorem ofInsert_eq (continued : Bool) :
    ofInsert cfg st line continued =
      { line := Insert.written cfg line
        stillOpen := !(Insert.parenthesisEnd.occursIn (Insert.written cfg line) &&
          decide ((Insert.valued cfg line).count (.char '\x27') % 2 = 1) == continued)
        suppressed := cfg.withholds st.suppressed (Statement.insert.table? line)
        events := (Statement.insert.table? line).toList.flatMap cfg.skipEvents ++
          if Insert.parenthesisEnd.occursIn (Insert.written cfg line) then
            [.insertEndSeen st.lineNumber ((Insert.valued cfg line).count (.char '\x27')) continued]
          else [] } := rfl

theorem schemas_ofInsert (continued : Bool) :
    (ofInsert cfg st line continued).events.filterMap Event.schema? = [] := by
  simp only [ofInsert_eq, List.filterMap_append, filterMap_schema?_skipEvents, List.nil_append]
  split <;> rfl

theorem changes_ofInsert (continued : Bool) :
    (ofInsert cfg st line continued).events.filterMap Event.change? = [] := by
  simp only [ofInsert_eq, List.filterMap_append, filterMap_change?_skipEvents, List.nil_append]
  split <;> rfl

/-- Only the header of a CREATE TABLE statement declares a database. -/
theorem schemas_ofStatement (kind : Statement) :
    (ofStatement cfg st kind line next).events.filterMap Event.schema? =
      if kind = .createTable then (st.newSchema? line).toList else [] := by
  cases kind with
  | createTable => exact schemas_ofCreateTable cfg st line
  | alterTable => exact schemas_ofAlterTable cfg st line next
  | insert => exact schemas_ofInsert cfg st line _
  | block =>
    simp only [ofStatement, ofBlock]
    split <;> rfl

/-- Only an ALTER TABLE line defers a change. -/
theorem changes_ofStatement (kind : Statement) :
    (ofStatement cfg st kind line next).events.filterMap Event.change? =
      if kind = .alterTable then (cfg.deferral? line).toList else [] := by
  cases kind with
  | createTable => exact changes_ofCreateTable cfg st line
  | alterTable => exact changes_ofAlterTable cfg st line next
  | insert => exact changes_ofInsert cfg st line _
  | block =>
    simp only [ofStatement, ofBlock]
    split <;> rfl

/-- What is written in front of a line is the declaration of the database for its schema. -/
theorem preamble_ofStatement (kind : Statement) :
    (ofStatement cfg st kind line next).preamble =
      if kind = .createTable then (st.newSchema? line).toList.flatMap databaseDeclaration
      else [] := by
  cases kind with
  | createTable => exact preamble_ofCreateTable cfg st line
  | alterTable =>
    simp only [ofStatement, ofAlterTable_eq]
    split <;> rfl
  | insert => rfl
  | block => rfl

end Treatment

end DumpDialect
