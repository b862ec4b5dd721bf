import DumpDialect.Proofs.ColumnList.Entries
import DumpDialect.Proofs.Conversion.Deferral
import DumpDialect.Proofs.CreateTable.Symbols

/-!
# Lines stay lines

Whatever is written for a line of a dump is made of stretches of that line and of fixed texts, and
none of them holds an LF. So each text that is written is one line.

- `Text.IsOneLine`: a text without LF, and how such texts arise from others.
- `Match.isOneLine_group`, `isOneLine_applyRules`: what patterns and rules make of a line.
- `Visit.isOneLine_of_mem_output`, `Visit.isOneLine_deferred`: what a step writes and defers.
- `isOneLine_of_mem_convert`: what is written for a dump.
-/

namespace DumpDialect

/-! ## Texts -/

/-- The text holds no LF. -/
def Text.IsOneLine (t : Text) : Prop := Symbol.lineFeed ∉ t

instance : DecidablePred Text.IsOneLine := fun t =>
  inferInstanceAs (Decidable (Symbol.lineFeed ∉ t))

namespace Text

variable {t u : Text}

theorem isOneLine_append_iff : (t ++ u).IsOneLine ↔ t.IsOneLine ∧ u.IsOneLine := by
  simp [IsOneLine]

theorem IsOneLine.append (ht : t.IsOneLine) (hu : u.IsOneLine) : (t ++ u).IsOneLine :=
  isOneLine_append_iff.mpr ⟨ht, hu⟩

theorem IsOneLine.of_subset (h : t ⊆ u) (hu : u.IsOneLine) : t.IsOneLine := fun hmem => hu (h hmem)

theorem isOneLine_joined {separator : Text} (hseparator : separator.IsOneLine) {texts : List Text}
    (h : ∀ t ∈ texts, t.IsOneLine) : (joined separator texts).IsOneLine :=
  not_mem_joined hseparator h

end Text

theorem Identifier.isOneLine_quote [Quoting] {identifier : Text} (h : identifier.IsOneLine) :
    (quote identifier).IsOneLine :=
  not_mem_quote (by decide) (by decide) h

theorem ColumnList.isOneLine_quote [Quoting] {columns : Text} (h : columns.IsOneLine) :
    (quote columns).IsOneLine := by
  refine Text.isOneLine_joined (by decide) fun name hname => ?_
  obtain ⟨name, hmem, rfl⟩ := List.mem_map.mp hname
  obtain ⟨field, hfield, rfl⟩ := List.mem_map.mp (List.mem_of_mem_filter hmem)
  refine Identifier.isOneLine_quote (h.of_subset ?_)
  exact List.Subset.trans (Text.trim_subset field) (Text.subset_of_mem_fields hfield)

/-! ## Patterns and rules -/

section Match

variable {p : Pattern} {t : Text} {m : Match}

theorem Match.isOneLine_group (h : p.find t = some m) (ht : t.IsOneLine) (n : Nat) :
    (m.group n).IsOneLine := by
  obtain ⟨rfl, hm⟩ := Pattern.matches_of_find h
  refine ht.of_subset fun s hs => ?_
  simp [Match.group_subset hm n hs]

theorem Match.isOneLine_groupAtStart (h : p.atStart? t = some m) (ht : t.IsOneLine) (n : Nat) :
    (m.group n).IsOneLine := by
  obtain ⟨rfl, hm⟩ := Pattern.matches_of_at? h
  exact ht.of_subset (List.subset_append_of_subset_left _ (Match.group_subset hm n))

theorem Match.isOneLine_after (h : p.atStart? t = some m) (ht : t.IsOneLine) :
    m.after.IsOneLine := by
  obtain ⟨rfl, -⟩ := Pattern.matches_of_at? h
  exact (Text.isOneLine_append_iff.mp ht).2

theorem Rule.isOneLine_apply {r : Rule} (hr : r.fixedText.IsOneLine) (ht : t.IsOneLine) :
    (r.apply t).IsOneLine :=
  Rule.not_mem_apply hr ht

theorem isOneLine_applyRules {rules : List Rule} (h : ∀ r ∈ rules, r.fixedText.IsOneLine)
    (ht : t.IsOneLine) : (applyRules rules t).IsOneLine :=
  not_mem_applyRules h ht

end Match

/-! ## The statements -/

section Lines

variable {line : Text} (h : line.IsOneLine)

include h

theorem Insert.isOneLine_quoteColumns [Quoting] : (quoteColumns line).IsOneLine := by
  rw [quoteColumns]
  split
  · next m hm =>
    have htable := Match.isOneLine_groupAtStart hm h 1
    have hnames := ColumnList.isOneLine_quote (Match.isOneLine_groupAtStart hm h 2)
    have hafter := Match.isOneLine_after hm h
    have hinto : (Text.ofString "INSERT INTO ").IsOneLine := by decide
    have hopen : (Text.ofString " (").IsOneLine := by decide
    have hclose : (Text.ofString ")").IsOneLine := by decide
    exact ((((hinto.append htable).append hopen).append hnames).append hclose).append hafter
  · exact h

theorem Insert.isOneLine_written [Quoting] (cfg : Config) : (written cfg line).IsOneLine := by
  have hheaded : (headed cfg line).IsOneLine := by
    rw [headed]
    split
    · split
      · exact Rule.isOneLine_apply (by decide) (isOneLine_quoteColumns h)
      · exact isOneLine_quoteColumns h
    · exact h
  exact isOneLine_applyRules (by decide) (isOneLine_applyRules (by decide) hheaded)

theorem CreateTable.isOneLine_convert [Quoting] : (convert line).IsOneLine :=
  not_mem_convert (by decide +kernel) h

theorem AlterTable.isOneLine_written [Quoting] : (written line).IsOneLine := by
  have hbare : (applyRules rules line).IsOneLine := isOneLine_applyRules (by decide) h
  rw [written, quoteKey]
  split
  · next m hm =>
    have hgroup := Match.isOneLine_groupAtStart hm hbare
    have hadd : (Text.ofString "ADD CONSTRAINT ").IsOneLine := by decide
    have hspace : (Text.ofString " ").IsOneLine := by decide
    have hopen : (Text.ofString " (").IsOneLine := by decide
    have hclose : (Text.ofString ");").IsOneLine := by decide
    exact ((((((((hgroup 1).append hadd).append (hgroup 2)).append hspace).append
      (hgroup 3)).append hopen).append (ColumnList.isOneLine_quote (hgroup 4))).append hclose)
  · exact hbare

theorem SequenceValue.isOneLine_written {table value : Text}
    (hread : read? line = some (table, value)) :
    (written table value).IsOneLine := by
  obtain ⟨m, hm, heq⟩ := Option.map_eq_some_iff.mp hread
  obtain ⟨rfl, rfl⟩ := Prod.mk.inj heq
  have hgroup := Match.isOneLine_group hm h
  have halter : (Text.ofString "ALTER TABLE ").IsOneLine := by decide
  have hvalue : (Text.ofString " AUTO_INCREMENT = ").IsOneLine := by decide
  have hend : (Text.ofString ";").IsOneLine := by decide
  exact (((halter.append (hgroup 1)).append hvalue).append (hgroup 2)).append hend

/-- A database is declared in two lines. -/
theorem isOneLine_databaseDeclaration {st : State} {schema : Text}
    (hschema : st.newSchema? line = some schema) :
    ∀ out ∈ databaseDeclaration schema, out.IsOneLine := by
  obtain ⟨hbind, -⟩ := Option.filter_eq_some_iff.mp hschema
  obtain ⟨table, htable, hname⟩ := Option.bind_eq_some_iff.mp hbind
  obtain ⟨m, hm, rfl⟩ := Option.map_eq_some_iff.mp htable
  have hline : schema.IsOneLine := by
    rw [CreateTable.schema?] at hname
    split at hname
    · cases hname
      exact (Match.isOneLine_groupAtStart hm h 1).of_subset (List.takeWhile_sublist _).subset
    · cases hname
  have hdrop : (Text.ofString "DROP DATABASE IF EXISTS ").IsOneLine := by decide
  have hcreate : (Text.ofString "CREATE DATABASE ").IsOneLine := by decide
  have hend : (Text.ofString ";").IsOneLine := by decide
  rw [databaseDeclaration, List.forall_mem_cons, List.forall_mem_singleton]
  exact ⟨(hdrop.append hline).append hend, (hcreate.append hline).append hend⟩

end Lines

/-! ## Steps -/

theorem Treatment.isOneLine_of_mem_output {t : Treatment} (hline : t.line.IsOneLine)
    (hpreamble : ∀ out ∈ t.preamble, out.IsOneLine) {out : Text} (hout : out ∈ t.output) :
    out.IsOneLine := by
  rw [output, List.mem_append] at hout
  rcases hout with hout | hout
  · exact hpreamble out hout
  · split at hout
    · cases hout
    · exact List.mem_singleton.mp hout ▸ hline

theorem Treatment.isOneLine_ofStatement [Quoting] (cfg : Config) (st : State) (kind : Statement)
    {line : Text} (next : Text) (h : line.IsOneLine) :
    (ofStatement cfg st kind line next).line.IsOneLine := by
  cases kind with
  | createTable => exact CreateTable.isOneLine_convert h
  | alterTable =>
    rw [ofStatement, ofAlterTable_eq]
    split
    · exact h
    · show (if _ then [] else AlterTable.written line : Text).IsOneLine
      split
      · exact List.not_mem_nil
      · exact AlterTable.isOneLine_written h
  | insert => exact Insert.isOneLine_written h cfg
  | block => exact h

theorem Treatment.isOneLine_ofCreateIndex (cfg : Config) {line : Text} (h : line.IsOneLine) :
    (ofCreateIndex cfg line).line.IsOneLine := by
  have hwritten : (applyRules CreateIndex.rules line).IsOneLine :=
    isOneLine_applyRules (by decide) h
  unfold ofCreateIndex
  simp only
  split <;> exact hwritten

namespace Visit

variable [Quoting] {cfg : Config} {v : Visit} (h : v.line.IsOneLine)

include h

/-- What a step writes for a line is lines. -/
theorem isOneLine_of_mem_output {out : Text} (hout : out ∈ (v.step cfg).output) :
    out.IsOneLine := by
  rw [Step.output, result_step] at hout
  rcases hk : v.kind? cfg with _ | (_ | _ | kind | _) <;> simp only [hk] at hout
  · cases hout
  · cases hread : SequenceValue.read? v.line with
    | none => simp [hread] at hout
    | some read =>
      simp only [hread] at hout
      split at hout
      · cases hout
      · exact List.mem_singleton.mp hout ▸ SequenceValue.isOneLine_written h hread
  · refine Treatment.isOneLine_of_mem_output (Treatment.isOneLine_ofCreateIndex cfg h) ?_ hout
    rw [Treatment.preamble_ofCreateIndex]
    simp
  · have hline : (v.treatment cfg kind).line.IsOneLine :=
      Treatment.isOneLine_ofStatement cfg v.before.advanced kind v.next h
    refine Treatment.isOneLine_of_mem_output hline ?_ hout
    rw [preamble_treatment hk]
    intro out hout
    obtain ⟨schema, hschema, hout⟩ := List.mem_flatMap.mp hout
    rw [Option.mem_toList, declared?] at hschema
    split at hschema
    · exact isOneLine_databaseDeclaration h hschema out hout
    · cases hschema
  · cases hout

/-- A change that a line defers is made by a statement of one line. -/
theorem isOneLine_deferred {d : DeferredChange} (hd : v.Defers cfg d) : d.statement.IsOneLine := by
  obtain ⟨m, hm, rfl⟩ := hd.column
  have hgroup := Match.isOneLine_group hm (AlterTable.isOneLine_written h)
  have halter : (Text.ofString "ALTER TABLE ").IsOneLine := by decide
  have hmodify : (Text.ofString " MODIFY ").IsOneLine := by decide
  have hend : (Text.ofString " integer auto_increment;").IsOneLine := by decide
  exact (((halter.append (hgroup 1)).append hmodify).append
    (Identifier.isOneLine_quote (hgroup 2))).append hend

end Visit

/-! ## Whole dumps -/

/-- What is written for a dump of lines is lines. -/
theorem isOneLine_of_mem_convert [Quoting] (cfg : Config) {lines : List Text}
    (h : ∀ pair ∈ withLookahead lines, pair.1.IsOneLine) {out : Text}
    (hout : out ∈ (convert cfg lines).output) : out.IsOneLine := by
  have hvisit : ∀ v ∈ visits cfg {} (withLookahead lines), v.line.IsOneLine :=
    fun v hv => h _ (mem_of_mem_visits hv)
  have hbanner : ∀ out ∈ banner, out.IsOneLine := by decide
  rw [output_convert, List.mem_append, List.mem_append] at hout
  rcases hout with (hout | hout) | hout
  · exact hbanner out hout
  · obtain ⟨v, hv, hout⟩ := List.mem_flatMap.mp hout
    exact Visit.isOneLine_of_mem_output (hvisit v hv) hout
  · split at hout
    · obtain ⟨d, hd, rfl⟩ := List.mem_map.mp hout
      obtain ⟨v, hv, hd⟩ := List.mem_filterMap.mp hd
      exact Visit.isOneLine_deferred (hvisit v hv) (Visit.deferred?_eq_some_iff.mp hd)
    · cases hout

end DumpDialect
