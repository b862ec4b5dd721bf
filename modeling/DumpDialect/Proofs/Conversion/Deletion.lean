import DumpDialect.Proofs.Conversion.History
import DumpDialect.Quoting

/-!
# Leaving out more tables

Two runs over the same lines, of which the second leaves out more tables, go in lockstep: no
boundary of a statement depends on which tables are left out, and a line that the first withholds
is withheld by the second. So the second writes what the first writes, less the lines of the
additional tables.

- `State.Reduced`, `Treatment.Reduced`, `Step.Reduced`: what two states, treatments and steps of
  such runs have to do with each other.
- `Treatment.reduced_ofStatement` and its companions: one lemma for each kind of line.
- `Step.reduced`: a step keeps the relation.
- `leaving_out_more_only_deletes`: whole runs.
-/

namespace DumpDialect

/-- The configuration with these tables left out instead. -/
abbrev Config.leavingOut (cfg : Config) (tables : List Text) : Config :=
  { cfg with skipTables := tables }

/-- The changes for tables that are not left out. -/
def Config.keptChanges (cfg : Config) (changes : List DeferredChange) : List DeferredChange :=
  changes.filter fun d => !cfg.skips d.table

/-- The second state is that of a run that leaves out more tables, all of `cfg'`. -/
structure State.Reduced (cfg' : Config) (st st' : State) : Prop where
  context : st'.context = st.context
  schemas : st'.schemas = st.schemas
  lineNumber : st'.lineNumber = st.lineNumber
  suppressed : st.suppressed = true → st'.suppressed = true
  deferred : st'.deferred = cfg'.keptChanges st.deferred

/-- The second treatment is that of the same line in a run that leaves out more tables, all of
`cfg'`. -/
structure Treatment.Reduced (cfg' : Config) (t t' : Treatment) : Prop where
  stillOpen : t'.stillOpen = t.stillOpen
  preamble : t'.preamble = t.preamble
  suppressed : t.suppressed = true → t'.suppressed = true
  line : t'.suppressed = false → t'.line = t.line
  schemas : t'.events.filterMap Event.schema? = t.events.filterMap Event.schema?
  changes : t'.events.filterMap Event.change? =
    cfg'.keptChanges (t.events.filterMap Event.change?)

/-- The second step is that over the same line in a run that leaves out more tables, all of `cfg'`:
it fails if the first does, and of the lines written it lacks none of a declaration and at most the
one line of the statement. -/
structure Step.Reduced (cfg' : Config) (s s' : Step) : Prop where
  state : State.Reduced cfg' s.state s'.state
  error? : s'.error? = s.error?
  output : ∃ declaration own, s.output = declaration ++ own ∧
    (s'.output = declaration ++ own ∨ s'.output = declaration) ∧ own.length ≤ 1 ∧
    (declaration = [] ∨ ∃ schema, declaration = databaseDeclaration schema)

variable {cfg : Config} {more : List Text}

@[simp] theorem Config.keptChanges_nil : cfg.keptChanges [] = [] := rfl

theorem Config.keptChanges_append (changes added : List DeferredChange) :
    cfg.keptChanges (changes ++ added) = cfg.keptChanges changes ++ cfg.keptChanges added :=
  List.filter_append ..

theorem skips_leavingOut (hmore : ∀ t ∈ cfg.skipTables, t ∈ more) {table : Text}
    (h : cfg.skips table = true) : (cfg.leavingOut more).skips table = true := by
  rw [Config.skips_iff] at h ⊢
  exact hmore table h

theorem withholds_leavingOut (hmore : ∀ t ∈ cfg.skipTables, t ∈ more) {before before' : Bool}
    (hbefore : before = true → before' = true) {table? : Option Text}
    (h : cfg.withholds before table? = true) :
    (cfg.leavingOut more).withholds before' table? = true := by
  cases table? with
  | none => exact hbefore h
  | some table => exact skips_leavingOut hmore h

/-- Of the changes that the first run defers the second defers those for tables that it keeps. -/
theorem deferral?_leavingOut [Quoting] (hmore : ∀ t ∈ cfg.skipTables, t ∈ more) (line : Text) :
    ((cfg.leavingOut more).deferral? line).toList =
      (cfg.leavingOut more).keptChanges (cfg.deferral? line).toList := by
  -- Both runs drop the changes of tables they leave out; the second drops all that the first does,
  -- so its filter alone is enough.
  have hfilter : (cfg.leavingOut more).deferral? line =
      (cfg.deferral? line).filter fun d => !(cfg.leavingOut more).skips d.table := by
    unfold Config.deferral?
    split
    · rfl
    · rw [Option.filter_filter]
      congr 1
      funext d
      cases h : cfg.skips d.table with
      | false => simp
      | true => simp [skips_leavingOut hmore h]
  rw [hfilter, Config.keptChanges]
  cases cfg.deferral? line with
  | none => rfl
  | some d =>
    rw [Option.filter_some]
    split <;> simp_all

/-! ## The kinds of lines -/

namespace Treatment

variable {st st' : State}

theorem reduced_ofCreateTable [Quoting] (hmore : ∀ t ∈ cfg.skipTables, t ∈ more)
    (h : State.Reduced (cfg.leavingOut more) st st') (line : Text) :
    Reduced (cfg.leavingOut more) (ofCreateTable cfg st line)
      (ofCreateTable (cfg.leavingOut more) st' line) := by
  have hnew : st'.newSchema? line = st.newSchema? line := by
    rw [State.newSchema?, h.schemas, State.newSchema?]
  exact {
    stillOpen := rfl
    preamble := by rw [preamble_ofCreateTable, preamble_ofCreateTable, hnew]
    suppressed := withholds_leavingOut hmore h.suppressed
    line := fun _ => rfl
    schemas := by rw [schemas_ofCreateTable, schemas_ofCreateTable, hnew]
    changes := by rw [changes_ofCreateTable, changes_ofCreateTable, Config.keptChanges_nil] }

theorem reduced_ofInsert [Quoting] (hmore : ∀ t ∈ cfg.skipTables, t ∈ more)
    (h : State.Reduced (cfg.leavingOut more) st st') (line : Text) (continued : Bool) :
    Reduced (cfg.leavingOut more) (ofInsert cfg st line continued)
      (ofInsert (cfg.leavingOut more) st' line continued) where
  stillOpen := rfl
  preamble := rfl
  suppressed := withholds_leavingOut hmore h.suppressed
  line := fun _ => rfl
  schemas := by rw [schemas_ofInsert, schemas_ofInsert]
  changes := by rw [changes_ofInsert, changes_ofInsert, Config.keptChanges_nil]

theorem reduced_ofBlock (h : State.Reduced (cfg.leavingOut more) st st') (line : Text) :
    Reduced (cfg.leavingOut more) (ofBlock st line) (ofBlock st' line) where
  stillOpen := rfl
  preamble := rfl
  suppressed := id
  line := fun _ => rfl
  schemas := by
    simp only [ofBlock, h.context, h.lineNumber]
  changes := by
    simp only [ofBlock]
    split <;> split <;> rfl

theorem reduced_ofCreateIndex (hmore : ∀ t ∈ cfg.skipTables, t ∈ more) (line : Text) :
    Reduced (cfg.leavingOut more) (ofCreateIndex cfg line)
      (ofCreateIndex (cfg.leavingOut more) line) where
  stillOpen := by
    simp only [ofCreateIndex]
    split <;> split <;> rfl
  preamble := by rw [preamble_ofCreateIndex, preamble_ofCreateIndex]
  suppressed := by
    simp only [ofCreateIndex]
    split
    · next m hm =>
      obtain ⟨hfind, hskip⟩ := Option.filter_eq_some_iff.mp hm
      rw [hfind, Option.filter_some, if_pos (skips_leavingOut hmore hskip)]
      exact id
    · exact fun h => by cases h
  line := by
    simp only [ofCreateIndex]
    split <;> split <;> simp
  schemas := by rw [schemas_ofCreateIndex, schemas_ofCreateIndex]
  changes := by rw [changes_ofCreateIndex, changes_ofCreateIndex, Config.keptChanges_nil]

/-- The default of a sequence, which the first run defers, may be withheld by the second. It is so
because the line names its table as the statement's table as well. -/
theorem reduced_ofAlterTable [Quoting] (hmore : ∀ t ∈ cfg.skipTables, t ∈ more)
    (h : State.Reduced (cfg.leavingOut more) st st') {line : Text}
    (hline : ∀ d, cfg.deferral? line = some d → AlterTable.table? line = some d.table)
    (next : Text) :
    Reduced (cfg.leavingOut more) (ofAlterTable cfg st line next)
      (ofAlterTable (cfg.leavingOut more) st' line next) := by
  have hdeferral := deferral?_leavingOut hmore line
  -- The other fields are read off the two treatments; whether a kept line is the same in both
  -- depends on this one.
  have hsuppressed : (ofAlterTable cfg st line next).suppressed = true →
      (ofAlterTable (cfg.leavingOut more) st' line next).suppressed = true := by
    rw [ofAlterTable_eq, ofAlterTable_eq]
    split
    · exact id
    · simp only [Bool.or_eq_true, Option.isSome_iff_exists]
      rintro ((⟨d, hd⟩ | ⟨target, htarget⟩) | hbefore)
      · cases hskip : (cfg.leavingOut more).skips d.table with
        -- The second run does not defer this change, but withholds its line for the table.
        | true => exact .inr (by rw [hline d hd]; exact hskip)
        | false =>
          refine .inl (.inl ⟨d, Option.mem_toList.mp ?_⟩)
          rw [hdeferral, hd]
          simp [Config.keptChanges, hskip]
      · obtain ⟨hfind, hskip⟩ := Option.filter_eq_some_iff.mp htarget
        refine .inl (.inr ⟨target, ?_⟩)
        exact Option.filter_eq_some_iff.mpr ⟨hfind, skips_leavingOut hmore hskip⟩
      · exact .inr (withholds_leavingOut hmore h.suppressed hbefore)
  refine {
    stillOpen := ?_
    preamble := ?_
    suppressed := hsuppressed
    line := fun hkept => ?_
    schemas := by rw [schemas_ofAlterTable, schemas_ofAlterTable]
    changes := by rw [changes_ofAlterTable, changes_ofAlterTable, hdeferral] }
  · rw [ofAlterTable_eq, ofAlterTable_eq]
    split <;> rfl
  · rw [ofAlterTable_eq, ofAlterTable_eq]
    split <;> rfl
  · -- A line that the second run keeps is no change that the first defers.
    have hkept' := Bool.eq_false_iff.mpr (mt hsuppressed (Bool.eq_false_iff.mp hkept))
    rw [ofAlterTable_eq] at hkept hkept' ⊢
    rw [ofAlterTable_eq]
    split at hkept
    · cases hkept
    · next howner =>
      rw [if_neg howner] at hkept'
      simp only [Bool.or_eq_false_iff] at hkept hkept'
      simp [if_neg howner, hkept.1.1, hkept'.1.1]

/-- A line of a statement. The default of a sequence has to name the statement's table. -/
theorem reduced_ofStatement [Quoting] (hmore : ∀ t ∈ cfg.skipTables, t ∈ more)
    (h : State.Reduced (cfg.leavingOut more) st st') {kind : Statement} {line : Text}
    (hline : kind = .alterTable →
      ∀ d, cfg.deferral? line = some d → AlterTable.table? line = some d.table)
    (next : Text) :
    Reduced (cfg.leavingOut more) (ofStatement cfg st kind line next)
      (ofStatement (cfg.leavingOut more) st' kind line next) := by
  cases kind with
  | createTable => exact reduced_ofCreateTable hmore h line
  | alterTable => exact reduced_ofAlterTable hmore h (hline rfl) next
  | insert =>
    simp only [ofStatement, h.context]
    exact reduced_ofInsert hmore h line _
  | block => exact reduced_ofBlock h line

/-- A sequence value that cannot be read stops both runs; one that is read is written by both, or
withheld. -/
theorem reduced_ofSequenceValue (hmore : ∀ t ∈ cfg.skipTables, t ∈ more)
    (h : State.Reduced (cfg.leavingOut more) st st') (line : Text) :
    (∃ e, ofSequenceValue cfg st line = .error e ∧
        ofSequenceValue (cfg.leavingOut more) st' line = .error e) ∨
      ∃ t t', ofSequenceValue cfg st line = .ok t ∧
        ofSequenceValue (cfg.leavingOut more) st' line = .ok t' ∧
        Reduced (cfg.leavingOut more) t t' := by
  unfold ofSequenceValue
  rw [h.lineNumber]
  cases SequenceValue.read? line with
  | none => exact .inl ⟨_, rfl, rfl⟩
  | some read =>
    obtain ⟨table, value⟩ := read
    refine .inr ⟨_, _, rfl, rfl, ?_⟩
    exact {
      stillOpen := rfl
      preamble := rfl
      suppressed := skips_leavingOut hmore
      line := fun _ => rfl
      schemas := by split <;> split <;> rfl
      changes := by split <;> split <;> rfl }

/-- What two such treatments write. -/
theorem Reduced.output {cfg' : Config} {t t' : Treatment} (h : Reduced cfg' t t') :
    ∃ own, t.output = t.preamble ++ own ∧
      (t'.output = t.preamble ++ own ∨ t'.output = t.preamble) ∧ own.length ≤ 1 := by
  refine ⟨if t.suppressed then [] else [t.line], rfl, ?_, by split <;> simp⟩
  rw [Treatment.output, h.preamble]
  cases hsup : t'.suppressed with
  | true => exact .inr (by simp)
  | false =>
    have hsup' := Bool.eq_false_iff.mpr (mt h.suppressed (Bool.eq_false_iff.mp hsup))
    exact .inl (by simp [hsup', h.line hsup])

end Treatment

/-! ## States -/

namespace State.Reduced

variable {cfg' : Config} {st st' : State}

theorem advanced (h : Reduced cfg' st st') : Reduced cfg' st.advanced st'.advanced where
  context := h.context
  schemas := h.schemas
  lineNumber := congrArg (· + 1) h.lineNumber
  suppressed := h.suppressed
  deferred := h.deferred

theorem count (h : Reduced cfg' st st') (c : Counter) : Reduced cfg' (st.count c) (st'.count c) :=
  ⟨h.context, h.schemas, h.lineNumber, h.suppressed, h.deferred⟩

theorem afterStatement (h : Reduced cfg' st st') (kind : Statement) {t t' : Treatment}
    (ht : Treatment.Reduced cfg' t t') :
    Reduced cfg' (st.afterStatement kind t) (st'.afterStatement kind t') where
  context := by simp [ht.stillOpen]
  schemas := by simp [h.schemas, ht.schemas]
  lineNumber := by simp [h.lineNumber]
  suppressed := ht.suppressed
  deferred := by simp [h.deferred, ht.changes, Config.keptChanges_append]

theorem afterSingle (h : Reduced cfg' st st') {t t' : Treatment}
    (ht : Treatment.Reduced cfg' t t') :
    Reduced cfg' (st.afterSingle t) (st'.afterSingle t') where
  context := by simp [h.context]
  schemas := by simp [h.schemas, ht.schemas]
  lineNumber := by simp [h.lineNumber]
  suppressed := ht.suppressed
  deferred := by simp [h.deferred, ht.changes, Config.keptChanges_append]

end State.Reduced

/-! ## Steps and runs -/

/-- Where the line is the default of a sequence that ALTER TABLE handles, the statement's table is
the table of the sequence. -/
def Visit.OwnsDefault [Quoting] (cfg : Config) (v : Visit) : Prop :=
  v.kind? cfg = some (.statement .alterTable) → AlterTable.ownerChange.occursIn v.line = false →
    ∀ table ∈ (AlterTable.sequenceDefault.find (AlterTable.written v.line)).map (·.group 1),
      AlterTable.table? v.line = some table

instance [Quoting] (cfg : Config) : DecidablePred (Visit.OwnsDefault cfg) := fun v =>
  inferInstanceAs (Decidable (v.kind? cfg = some (.statement .alterTable) →
    AlterTable.ownerChange.occursIn v.line = false →
      ∀ table ∈ (AlterTable.sequenceDefault.find (AlterTable.written v.line)).map (·.group 1),
        AlterTable.table? v.line = some table))

theorem Visit.OwnsDefault.table?_eq [Quoting] {v : Visit} (h : v.OwnsDefault cfg)
    (hv : v.kind? cfg = some (.statement .alterTable)) {d : DeferredChange}
    (hd : cfg.deferral? v.line = some d) : AlterTable.table? v.line = some d.table := by
  obtain ⟨howner, ⟨m, hm, rfl⟩, -⟩ := Config.deferral?_eq_some_iff.mp hd
  exact h hv howner (m.group 1) (by simp [hm])

/-- A step keeps the relation between the two runs. -/
theorem Step.reduced [Quoting] (hmore : ∀ t ∈ cfg.skipTables, t ∈ more) {v : Visit}
    (hv : v.OwnsDefault cfg) {st' : State} (h : State.Reduced (cfg.leavingOut more) v.before st') :
    Step.Reduced (cfg.leavingOut more) (v.step cfg)
      (step (cfg.leavingOut more) st' v.line v.next) := by
  let v' : Visit := ⟨st', v.line, v.next⟩
  have hkind : v'.kind? (cfg.leavingOut more) = v.kind? cfg := by
    simp only [Visit.kind?, v', h.context]
  show Step.Reduced _ (v.step cfg) (v'.step (cfg.leavingOut more))
  -- Both runs take the line for the same kind, since their contexts agree; one case for each kind.
  rcases hk : v.kind? cfg with _ | (_ | _ | kind | _) <;> rw [hk] at hkind
  · rw [Visit.step_of_forbidden hk, Visit.step_of_forbidden hkind]
    exact ⟨h.advanced, by simp [Step.error?, v', h.lineNumber], [], [], rfl, .inl rfl, by simp,
      .inl rfl⟩
  · have hst := h.advanced.count .sequenceValue
    rw [Visit.step_of_sequenceValue hk, Visit.step_of_sequenceValue hkind]
    rcases Treatment.reduced_ofSequenceValue hmore hst v.line with
      ⟨e, he, he'⟩ | ⟨t, t', ht, ht', hred⟩
    · simp only [he, he', v']
      exact ⟨hst, rfl, [], [], rfl, .inl rfl, by simp, .inl rfl⟩
    · obtain ⟨own, hout, hout', hown⟩ := hred.output
      obtain ⟨_, _, -, hform⟩ := Treatment.ofSequenceValue_eq_ok ht
      have hpreamble : t.preamble = [] := by rw [hform]
      rw [hpreamble] at hout hout'
      simp only [ht, ht', v']
      exact ⟨hst.afterSingle hred, rfl, [], own, hout, hout', hown, .inl rfl⟩
  · have hred := Treatment.reduced_ofCreateIndex hmore v.line
    obtain ⟨own, hout, hout', hown⟩ := hred.output
    rw [Treatment.preamble_ofCreateIndex] at hout hout'
    rw [Visit.step_of_createIndex hk, Visit.step_of_createIndex hkind]
    exact ⟨(h.advanced.count .createIndex).afterSingle hred, rfl, [], own, hout, hout', hown,
      .inl rfl⟩
  · have hred : Treatment.Reduced (cfg.leavingOut more) (v.treatment cfg kind)
        (v'.treatment (cfg.leavingOut more) kind) :=
      Treatment.reduced_ofStatement hmore h.advanced
        (fun hkind d hd => hv.table?_eq (hkind ▸ hk) hd) v.next
    obtain ⟨own, hout, hout', hown⟩ := hred.output
    rw [Visit.step_of_statement hk, Visit.step_of_statement hkind]
    refine ⟨h.advanced.afterStatement kind hred, rfl, _, own, hout, hout', hown, ?_⟩
    rw [Visit.treatment, Treatment.preamble_ofStatement]
    split
    · -- Of a withheld CREATE TABLE line the declaration of its database stays.
      cases v.before.advanced.newSchema? v.line with
      | none => exact .inl rfl
      | some schema => exact .inr ⟨schema, by simp⟩
    · exact .inl rfl
  · rw [Visit.step_of_unrecognized hk, Visit.step_of_unrecognized hkind]
    exact ⟨h.advanced.count .unrecognized, rfl, [], [], rfl, .inl rfl, by simp, .inl rfl⟩

/-- **Leaving out more only deletes.** Take two runs over a dump, of which the second leaves out
more tables. If every default of a sequence names the table of its statement, then the two go step
by step through the same contexts, schemas and line numbers and fail at the same line, if at all;
the second writes at each step what the first writes, less at most the one line of the statement;
and the changes that wait in it are those of the first for tables that it keeps. -/
theorem leaving_out_more_only_deletes [Quoting] (cfg : Config) {more : List Text}
    (hmore : ∀ t ∈ cfg.skipTables, t ∈ more) {lines : List (Text × Text)}
    (hdefaults : ∀ v ∈ visits cfg {} lines, v.OwnsDefault cfg) :
    List.Forall₂ (Step.Reduced (cfg.leavingOut more)) (run cfg {} lines)
      (run (cfg.leavingOut more) {} lines) :=
  run_lockstep (fun _ _ hv h => Step.reduced hmore hv h) (fun _ _ h => ⟨h.error?, h.state⟩)
    ⟨rfl, rfl, rfl, id, rfl⟩ lines hdefaults

/-- A table, the default of its key and a row: left out, only the database of the table remains. -/
theorem only_declaration_remains :
    let cfg : Config := ⟨[], false, false⟩
    let lines : List (Text × Text) :=
      [("CREATE TABLE a.t ();", ""),
        ("ALTER TABLE ONLY a.t ALTER COLUMN id SET DEFAULT nextval('a.s'::regclass);", ""),
        ("INSERT INTO a.t VALUES (1);", "")]
    List.Forall₂ (Step.Reduced (cfg.leavingOut ["a.t"])) (run cfg {} lines)
        (run (cfg.leavingOut ["a.t"]) {} lines) ∧
      (run cfg {} lines).map (·.output.length) = [3, 0, 1] ∧
      (stateAfter {} (run cfg {} lines)).deferred = [⟨"a.t", "id"⟩] ∧
      (run (cfg.leavingOut ["a.t"]) {} lines).map (·.output.length) = [2, 0, 0] ∧
      (stateAfter {} (run (cfg.leavingOut ["a.t"]) {} lines)).deferred = [] := by
  intro cfg lines
  have hdefaults : ∀ v ∈ visits cfg {} lines, v.OwnsDefault cfg := by decide +kernel
  exact ⟨leaving_out_more_only_deletes cfg (by simp [cfg]) hdefaults, by decide +kernel⟩

end DumpDialect
