import DumpDialect.Proofs.Conversion.History
import DumpDialect.Quoting

/-!
# The declarations of databases

The first CREATE TABLE header of a schema declares the database of the schema, and no other line
of the dump does: a second declaration would drop a database that is filled already. That the
table is left out makes no difference.

- `schema?_eq_some_iff`: the schema of a table is the text before its first dot.
- `schemas_of_history`: the state knows the schemas that headers named, each once.
- `databases_declared_once`: what every step of a run writes.
-/

namespace DumpDialect

private theorem takeWhile_ne_dot {before after : Text} (h : .char '.' ∉ before) :
    (before ++ .char '.' :: after).takeWhile (· ≠ Symbol.char '.') = before := by
  rw [List.takeWhile_append_of_pos fun s hs => by simpa using ne_of_mem_of_not_mem hs h]
  simp

/-- The schema of a table is the text before its first dot. -/
theorem CreateTable.schema?_eq_some_iff {table schema : Text} :
    schema? table = some schema ↔
      ∃ name, table = schema ++ .char '.' :: name ∧ .char '.' ∉ schema := by
  constructor
  · intro h
    unfold schema? at h
    split at h
    · next hdot =>
      obtain ⟨before, name, rfl, hbefore⟩ :=
        List.eq_append_cons_of_mem (List.contains_iff_mem.mp hdot)
      rw [takeWhile_ne_dot hbefore] at h
      cases h
      exact ⟨name, rfl, hbefore⟩
    · cases h
  · rintro ⟨name, rfl, hdot⟩
    rw [schema?, if_pos (by simp), takeWhile_ne_dot hdot]

/-- The schema of the table that the line creates. -/
def Visit.schema? (cfg : Config) (v : Visit) : Option Text :=
  (v.opened? cfg .createTable).bind CreateTable.schema?

/-- The schemas of the tables that the lines of a history create, in their order. -/
def namedSchemas (cfg : Config) (history : List Visit) : List Text :=
  (history.filterMap (Visit.opened? cfg · .createTable)).filterMap CreateTable.schema?

variable {cfg : Config}

@[simp] theorem namedSchemas_append (past more : List Visit) :
    namedSchemas cfg (past ++ more) = namedSchemas cfg past ++ namedSchemas cfg more := by
  simp [namedSchemas]

@[simp] theorem namedSchemas_singleton (v : Visit) :
    namedSchemas cfg [v] = (v.schema? cfg).toList := by
  unfold namedSchemas Visit.schema?
  cases h : v.opened? cfg .createTable with
  | none => simp [h]
  | some table => cases hs : CreateTable.schema? table <;> simp [h, hs]

/-- A step declares a database for the schema of its line, if the state does not know the
schema. -/
theorem Visit.declared?_eq (v : Visit) :
    v.declared? cfg = (v.schema? cfg).filter fun s => !v.before.schemas.contains s := by
  unfold declared? Visit.schema? opened? State.newSchema?
  split <;> simp

/-! ## The schemas that the state knows -/

/-- The state knows the schemas that were named, in the order of their first occurrence, and none
twice. -/
structure SchemasOf (cfg : Config) (history : List Visit) (st : State) : Prop where
  eq : st.schemas = (namedSchemas cfg history).eraseDups
  nodup : st.schemas.Nodup

theorem SchemasOf.mem_iff {history : List Visit} {st : State} (h : SchemasOf cfg history st)
    (s : Text) : s ∈ st.schemas ↔ s ∈ namedSchemas cfg history := by
  rw [h.eq, List.mem_eraseDups]

theorem SchemasOf.step [Quoting] {past : List Visit} {v : Visit} (h : SchemasOf cfg past v.before) :
    SchemasOf cfg (past ++ [v]) (v.step cfg).state := by
  have hknown := h.mem_iff
  obtain ⟨heq, hnodup⟩ := h
  have hschemas := v.schemas_step cfg
  rw [v.declared?_eq] at hschemas
  -- A name met before changes neither list, and one that is new is put at the end of both.
  cases hs : v.schema? cfg with
  | none =>
    rw [hs] at hschemas
    simp only [Option.filter_none, Option.toList_none, List.append_nil] at hschemas
    exact ⟨by rw [hschemas, heq]; simp [hs], by rw [hschemas]; exact hnodup⟩
  | some s =>
    rw [hs] at hschemas
    by_cases hin : s ∈ v.before.schemas
    · have hdup : [s].removeAll (namedSchemas cfg past) = [] := by
        simp [List.removeAll, (hknown s).mp hin]
      have hsame : (v.step cfg).state.schemas = v.before.schemas := by
        simpa [Option.filter_some, hin] using hschemas
      refine ⟨?_, by rw [hsame]; exact hnodup⟩
      rw [hsame, heq]
      simp [hs, List.eraseDups_append, hdup]
    · have hdup : [s].removeAll (namedSchemas cfg past) = [s] := by
        simp [List.removeAll, mt (hknown s).mpr hin]
      have hmore : (v.step cfg).state.schemas = v.before.schemas ++ [s] := by
        simpa [Option.filter_some, hin] using hschemas
      refine ⟨?_, ?_⟩
      · rw [hmore, heq]
        simp [hs, List.eraseDups_append, hdup, List.eraseDups_cons]
      · rw [hmore]
        refine List.nodup_append.mpr ⟨hnodup, by simp, fun a ha b hb => ?_⟩
        rw [List.mem_singleton.mp hb]
        exact ne_of_mem_of_not_mem ha hin

/-- The schemas that the state knows, at every visit of a run and at its end. -/
theorem schemas_of_history [Quoting] (cfg : Config) (lines : List (Text × Text)) :
    (∀ past v future, visits cfg {} lines = past ++ v :: future → SchemasOf cfg past v.before) ∧
      SchemasOf cfg (visits cfg {} lines) (stateAfter {} (run cfg {} lines)) :=
  history_invariant (fun _ _ h => h.step) ⟨rfl, List.nodup_nil⟩ lines

/-! ## The declarations that are written -/

/-- The schema that the line names, if no line of the past names it. -/
def Visit.firstNamed? (cfg : Config) (past : List Visit) (v : Visit) : Option Text :=
  (v.schema? cfg).filter fun s => !(namedSchemas cfg past).contains s

theorem Visit.firstNamed?_eq_some_iff {past : List Visit} {v : Visit} {s : Text} :
    v.firstNamed? cfg past = some s ↔ v.schema? cfg = some s ∧ s ∉ namedSchemas cfg past := by
  simp [firstNamed?, Option.filter_eq_some_iff]

theorem SchemasOf.declared?_eq {past : List Visit} {v : Visit} (h : SchemasOf cfg past v.before) :
    v.declared? cfg = v.firstNamed? cfg past := by
  rw [v.declared?_eq, Visit.firstNamed?]
  congr 1
  funext s
  simp [h.mem_iff s]

private theorem declaration_inj {s t : Text}
    (h : "DROP DATABASE IF EXISTS " ++ s ++ ";" = "DROP DATABASE IF EXISTS " ++ t ++ ";") :
    s = t :=
  List.append_cancel_left (List.append_cancel_right h)

/-- A declaration and one line more hold no other declaration. -/
theorem declaration_infix_iff {s : Text} {declared? : Option Text} {own : List Text}
    (hown : own.length ≤ 1) :
    databaseDeclaration s <:+: declared?.toList.flatMap databaseDeclaration ++ own ↔
      declared? = some s := by
  constructor
  · rintro ⟨front, back, h⟩
    have hlen := congrArg List.length h
    cases declared? with
    | none =>
      simp [databaseDeclaration] at hlen
      omega
    | some t =>
      -- Three lines leave two places for a pair: at the start, or one line further on.
      rcases front with _ | ⟨line, _ | ⟨line', front⟩⟩
      · simp only [databaseDeclaration, Option.toList_some, List.flatMap_cons, List.flatMap_nil,
          List.nil_append, List.cons_append, List.append_nil, List.cons.injEq] at h
        rw [declaration_inj h.1]
      · -- The line that drops a database is not the one that creates it.
        simp only [databaseDeclaration, Option.toList_some, List.flatMap_cons, List.flatMap_nil,
          List.nil_append, List.cons_append, List.append_nil, List.cons.injEq] at h
        have hhead := congrArg List.head? h.2.1
        simp [Text.ofString] at hhead
      · simp [databaseDeclaration] at hlen
        omega
  · rintro rfl
    exact ⟨[], own, by simp⟩

/-- A step writes the declaration of a database exactly if it declares it. -/
theorem Visit.declaration_infix_output_iff [Quoting] (v : Visit) {s : Text} :
    databaseDeclaration s <:+: (v.step cfg).output ↔ v.declared? cfg = some s := by
  obtain ⟨own, hown, hout⟩ := v.output_step cfg
  rw [hout, declaration_infix_iff hown]

/-- A line names a schema if it creates a table whose name has the schema in front of its first
dot. -/
theorem Visit.schema?_eq_some_iff {v : Visit} {s : Text} :
    v.schema? cfg = some s ↔
      ∃ name, v.opened? cfg .createTable = some (s ++ .char '.' :: name) ∧ .char '.' ∉ s := by
  rw [Visit.schema?, Option.bind_eq_some_iff]
  constructor
  · rintro ⟨table, hopened, hschema⟩
    obtain ⟨name, rfl, hdot⟩ := CreateTable.schema?_eq_some_iff.mp hschema
    exact ⟨name, hopened, hdot⟩
  · rintro ⟨name, hopened, hdot⟩
    exact ⟨_, hopened, CreateTable.schema?_eq_some_iff.mpr ⟨name, rfl, hdot⟩⟩

/-- **One declaration for each schema.** In every run the state knows the schemas of the tables that
the dump creates, in the order of their first occurrence and none twice. The step over the first
header of a schema, the text in front of the first dot of its table, and no other step writes the
two lines that declare its database, in front of its own line; every step writes one line at most
besides. -/
theorem databases_declared_once [Quoting] (cfg : Config) (lines : List (Text × Text)) :
    (stateAfter {} (run cfg {} lines)).schemas =
        (namedSchemas cfg (visits cfg {} lines)).eraseDups ∧
      (stateAfter {} (run cfg {} lines)).schemas.Nodup ∧
      ∀ past v future, visits cfg {} lines = past ++ v :: future →
        (∃ own : List Text, own.length ≤ 1 ∧
          (v.step cfg).output =
            ((v.firstNamed? cfg past).toList.flatMap fun s =>
              (["DROP DATABASE IF EXISTS " ++ s ++ ";", "CREATE DATABASE " ++ s ++ ";"] :
                List Text)) ++ own) ∧
        ∀ s, (["DROP DATABASE IF EXISTS " ++ s ++ ";", "CREATE DATABASE " ++ s ++ ";"] :
            List Text) <:+: (v.step cfg).output ↔
          (∃ name, v.opened? cfg .createTable = some (s ++ .char '.' :: name) ∧ .char '.' ∉ s) ∧
            s ∉ namedSchemas cfg past := by
  -- By the invariant the state knows the schemas named so far; all else is about one step.
  obtain ⟨hpast, hend⟩ := schemas_of_history cfg lines
  refine ⟨hend.eq, hend.nodup, fun past v future hv => ?_⟩
  have hdeclared := (hpast past v future hv).declared?_eq
  refine ⟨hdeclared ▸ v.output_step cfg, fun s => ?_⟩
  rw [← Visit.schema?_eq_some_iff, ← Visit.firstNamed?_eq_some_iff, ← hdeclared]
  exact v.declaration_infix_output_iff

/-- The header of a table that is left out declares the database, and the header of a second table
of the schema, which comes while the first statement is open, does not. -/
theorem second_header_declares_nothing :
    let cfg : Config := ⟨["app.t"], false, false⟩
    let first : Visit := ⟨{}, "CREATE TABLE app.t (", "CREATE TABLE app.u ("⟩
    let second : Visit := ⟨(first.step cfg).state, "CREATE TABLE app.u (", ""⟩
    let lines : List (Text × Text) := [(first.line, first.next), (second.line, second.next)]
    let declaration : List Text := ["DROP DATABASE IF EXISTS app;", "CREATE DATABASE app;"]
    visits cfg {} lines = [] ++ first :: [second] ∧ visits cfg {} lines = [first] ++ second :: [] ∧
      declaration <:+: (first.step cfg).output ∧ ¬ declaration <:+: (second.step cfg).output := by
  intro cfg first second lines declaration
  have hfirst : visits cfg {} lines = [] ++ first :: [second] := by decide +kernel
  have hsecond : visits cfg {} lines = [first] ++ second :: [] := hfirst
  have hiff {past future : List Visit} {v : Visit}
      (hv : visits cfg {} lines = past ++ v :: future) :=
    ((databases_declared_once cfg lines).2.2 past v future hv).2 "app"
  refine ⟨hfirst, hsecond, (hiff hfirst).mpr ⟨⟨"t", ?_⟩, ?_⟩, fun h => ?_⟩
  · decide +kernel
  · decide +kernel
  · exact absurd ((hiff hsecond).mp h).2 (by decide +kernel)

end DumpDialect
