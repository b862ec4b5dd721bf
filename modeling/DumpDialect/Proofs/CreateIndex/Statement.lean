import DumpDialect.Proofs.Conversion.Accounting
import DumpDialect.Proofs.Conversion.Openings
import DumpDialect.Proofs.CreateIndex.Rules
import DumpDialect.Proofs.Pattern.Preferred
import DumpDialect.Quoting

/-!
# CREATE INDEX statements

The statement of an index as it is dumped is known by how it starts, and its table is read from
what the rules leave of it.

- `Index.target_find`: the table that is read.
- `Index.kind?_line`: what the line is taken for.
- `Index.written_unless_skipped`: what is written, and what else the statement does.
-/

namespace DumpDialect.CreateIndex

open Pattern

namespace Index

/-! ## The table -/

theorem unique_prefers {prev : Option Symbol} (x : Index) {t : Text}
    (ht : ¬ Text.ofString "UNIQUE " <+: t) :
    (optional (group 1 "UNIQUE ")).Prefers prev x.uniqueWord t
      (if x.unique then [(1, Text.ofString "UNIQUE ")] else []) := by
  rw [uniqueWord]
  cases x.unique with
  | true => exact (prefers_word.group 1).alt_left _
  | false =>
    refine Prefers.optional_nil (outcomes_eq_nil_iff.mpr fun w rest groups hsplit hm => ht ?_)
    obtain ⟨-, -, rfl, -⟩ := hm
    exact ⟨rest, hsplit.symm⟩

/-- The table is read from what is left. -/
theorem target_find (x : Index) :
    ∃ m, target.find x.written = some m ∧ m.group 2 = x.name ∧ m.group 3 = x.table.text := by
  let behind : Text := " (" ++ listText Entry.column x.entries
  have hink : ∀ s ∈ x.name, s.isInk = true := fun s hs => by
    simp [Symbol.isInk, Symbol.isBlank_of_isWord (x.isWord_name.2 s hs)]
  have hname {prev : Option Symbol} {t : Text} :
      (group 2 ink).Prefers prev x.name (Text.ofString " ON " ++ t ++ behind) [(2, x.name)] := by
    rw [List.append_assoc]
    exact (prefers_someOf x.isWord_name.1 hink (Text.forall_head?_append (by decide) _)).group 2
  -- `ONLY ` is optional in the pattern and tried first; a table of that name would be read as the
  -- clause.
  have honly {prev : Option Symbol} :
      (optional "ONLY ").Prefers prev [] (x.table.text ++ behind) [] := by
    refine Prefers.optional_nil (outcomes_eq_nil_iff.mpr fun w rest groups hsplit hm => ?_)
    obtain ⟨rfl, -⟩ := hm
    have hwords : x.table.text ++ .char ' ' :: (Text.ofString "(" ++
        listText Entry.column x.entries) = Text.ofString "ONLY" ++ .char ' ' :: rest := by
      simpa [Text.ofString, behind] using hsplit
    exact x.table_ne.2
      (Text.eq_of_append_cons_eq_of_front blank_not_mem_table (by decide) hwords).1
  have htable {prev : Option Symbol} :
      (group 3 (someOf fun s => !s.isBlank && s ≠ .char '(')).Prefers prev x.table.text behind
        [(3, x.table.text)] :=
    (prefers_someOf x.table.text_ne_nil x.table.ends_at_blank
      (Text.forall_head?_append (by decide) _)).group 3
  have hhead : ¬ Text.ofString "UNIQUE " <+: Text.ofString "INDEX " ++
      (x.name ++ (Text.ofString " ON " ++ (x.table.text ++ behind))) := by simp [Text.ofString]
  have hfound : target.Prefers none (Text.ofString "CREATE " ++ (x.uniqueWord ++
      (Text.ofString "INDEX " ++ (x.name ++ (Text.ofString " ON " ++ ([] ++ x.table.text))))))
      behind ((if x.unique then [(1, Text.ofString "UNIQUE ")] else []) ++
        [(2, x.name), (3, x.table.text)]) := by
    refine prefers_word.inOrder_cons (Prefers.inOrder_cons ?_ ?_)
    · simpa using x.unique_prefers hhead
    · refine prefers_word.inOrder_cons (Prefers.inOrder_cons hname ?_)
      exact prefers_word.inOrder_cons (Prefers.inOrder_cons honly htable)
  have hwritten : x.written = (Text.ofString "CREATE " ++ (x.uniqueWord ++
      (Text.ofString "INDEX " ++ (x.name ++ (Text.ofString " ON " ++ ([] ++ x.table.text)))))) ++
      behind := by simp [written, front, behind]
  refine ⟨_, hwritten ▸ hfound.find, ?_, ?_⟩ <;>
    cases x.unique <;> simp [Match.group, Match.group?, List.lookup_cons]

/-! ## What the line is taken for -/

/-- The first words of the statement. -/
theorem exists_line_eq (x : Index) :
    ∃ behind, x.line =
      Text.ofString "CREATE " ++ (x.uniqueWord ++ Text.ofString "INDEX") ++
        .char ' ' :: behind := by
  refine ⟨x.name ++ (Text.ofString " ON " ++
    ((if x.only then Text.ofString "ONLY " else []) ++ x.rest)), ?_⟩
  simp [line, front, Text.ofString]

theorem header_opens (x : Index) : header.opens x.line = true := by
  obtain ⟨behind, hline⟩ := x.exists_line_eq
  let rest : Text := .char ' ' :: behind
  have hhead : ¬ Text.ofString "UNIQUE " <+: Text.ofString "INDEX" ++ rest := by
    simp [Text.ofString]
  have hindent {t : Text} : blanks.Prefers none [] (Text.ofString "CREATE " ++ t ++ rest) [] := by
    rw [List.append_assoc]
    exact prefers_run (List.forall_mem_nil _) (Text.forall_head?_append (by decide) _)
  have hkeywords {prev : Option Symbol} : (inOrder [optional (group 1 "UNIQUE "), "INDEX"]).Prefers
      prev (x.uniqueWord ++ Text.ofString "INDEX") rest
      ((if x.unique then [(1, Text.ofString "UNIQUE ")] else []) ++ []) :=
    (x.unique_prefers hhead).inOrder_cons prefers_word.inOrder_singleton
  obtain ⟨groups, hfound⟩ : ∃ groups, header.Prefers none
      ([] ++ (Text.ofString "CREATE " ++ (x.uniqueWord ++ Text.ofString "INDEX"))) rest groups :=
    ⟨_, Prefers.inOrder_cons hindent (prefers_word.inOrder_cons hkeywords)⟩
  rw [hline, opens, atStart?, ← List.nil_append (Text.ofString "CREATE " ++ _), hfound.at?]
  rfl

theorem trimStart_line (x : Index) : x.line.trimStart = x.line := by
  rw [line_eq]
  exact Text.trimStart_append (List.forall_mem_nil _) (s := .char 'C') (by decide) _

/-- A statement of another kind starts with other words. -/
theorem opens_eq_false_of_words {s : Symbol} {v : Text} {ps : List Pattern} (x : Index)
    (hs : s.isBlank = false)
    (hwords : ∀ u ∈ ["CREATE UNIQUE INDEX", "CREATE INDEX"].map Text.ofString,
      ¬ s :: v <+: u ∧ ¬ u <+: s :: v) :
    (inOrder (blanks :: word (s :: v) :: ps)).opens x.line = false := by
  obtain ⟨behind, hline⟩ := x.exists_line_eq
  have hmem : Text.ofString "CREATE " ++ (x.uniqueWord ++ Text.ofString "INDEX") ∈
      ["CREATE UNIQUE INDEX", "CREATE INDEX"].map Text.ofString := by
    rw [uniqueWord]
    cases x.unique <;> decide
  obtain ⟨hbeyond, hwithin⟩ := hwords _ hmem
  refine Bool.eq_false_iff.mpr fun hopens => ?_
  have hbegins := prefix_trimStart_of_opens hs hopens
  rw [trimStart_line, hline] at hbegins
  exact Text.not_prefix_append hbeyond hwithin _ hbegins

theorem marker_occursIn (x : Index) : SequenceValue.marker.occursIn x.line = false := by
  have hlist : .char '.' ∉ listText Entry.text x.entries := by
    have hend : .char '.' ∉ Text.ofString ");" := by decide
    have hentries : .char '.' ∉ Text.joined ", " (x.entries.map Entry.text) := by
      refine Text.not_mem_joined (by decide) (List.forall_mem_map.mpr fun e _ => ?_)
      exact e.not_mem_text (by decide) (by decide)
    exact fun h => (List.mem_append.mp h).elim hentries hend
  -- The mark holds a dot; the only word with one is the table, which is excluded by assumption.
  have hdot {w : Text} (hw : .char '.' ∉ w) : ¬ Text.ofString "pg_catalog.setval" <:+: w :=
    fun h => hw (h.subset (by decide))
  have hfixed : ∀ w ∈ ["CREATE", "UNIQUE", "INDEX", "ON", "ONLY", "USING", ""].map Text.ofString,
      .char '.' ∉ w := by decide
  have htable : ¬ Text.ofString "pg_catalog.setval" <:+: x.table.text := fun h => by
    have hmarked := occursIn_word_iff.mpr h
    exact Bool.false_ne_true (x.noSequenceValue.symm.trans hmarked)
  refine Bool.eq_false_iff.mpr fun hoccurs => ?_
  have hword := occursIn_word_iff.mp hoccurs
  rw [line_eq, Text.infix_append_cons_iff (by decide) (by decide),
    Text.infix_append_separated (by decide) (by decide)] at hword
  obtain ⟨w, hmem, hword⟩ | hword := hword
  · refine forall_headWords (fun w hw => hdot (hfixed w hw)) (hdot ?_) htable (hdot ?_) w hmem hword
    · exact x.isWord_name.not_mem (by decide)
    · exact x.isWord_method.not_mem (by decide)
  · exact hdot hlist hword

/-- The line is taken for an index, and defines no type. -/
theorem kind?_line (x : Index) (cfg : Config) {st : State} (hst : st.context = none)
    (next : Text) : Visit.kind? cfg ⟨st, x.line, next⟩ = some .createIndex := by
  have hblock : Block.opening.opens x.line = false := by
    refine Bool.eq_false_iff.mpr fun hopens => ?_
    refine Block.not_mem_of_opening (s := .char '(') hopens (by decide) (by decide) ?_
    rw [line_eq]
    simp
  have htable : CreateTable.header.opens x.line = false :=
    x.opens_eq_false_of_words (by decide) (by decide)
  have halter : AlterTable.header.opens x.line = false :=
    x.opens_eq_false_of_words (by decide) (by decide)
  have hinsert : Insert.header.opens x.line = false :=
    x.opens_eq_false_of_words (by decide) (by decide)
  rw [Visit.kind?, typeDeclaration_occursIn, Bool.and_false, if_neg Bool.false_ne_true]
  simp [LineKind.of, hst, hblock, x.marker_occursIn, htable, halter, hinsert, x.header_opens]

/-! ## The statement -/

/-- **An index is written without its method and its operator classes**, and for the table itself
if it was dumped for the table without its partitions. The statement of a table that is left out is
withheld, with one warning. Either way it declares no database, defers no change and leaves no
statement open. -/
theorem written_unless_skipped [Quoting] (x : Index) (cfg : Config) {st : State}
    (hst : st.context = none) (next : Text) :
    let s := step cfg st x.line next
    s.result = .ok (if cfg.skips x.table.text then [] else [x.written]) ∧
      s.events.countP Event.isWarning = (if cfg.skips x.table.text then 1 else 0) ∧
      s.state.context = none ∧ s.state.schemas = st.schemas ∧ s.state.deferred = st.deferred := by
  intro s
  obtain ⟨m, hfind, -, htable⟩ := x.target_find
  have hstep : s = Visit.step cfg ⟨st, x.line, next⟩ := rfl
  rw [hstep, Visit.step_of_createIndex (x.kind?_line cfg hst next)]
  cases hskips : cfg.skips x.table.text <;>
    simp [Treatment.ofCreateIndex, applyRules_line, hfind, htable, hskips, Treatment.output,
      State.advanced, hst, Option.filter, Event.schema?, Event.change?, Event.isWarning_eq,
      Event.counter?]

end Index

/-- A unique index of a partitioned table, with a column that is searched by patterns. -/
def emailIndex : Index where
  unique := true
  name := "user_email_idx"
  only := true
  table := ⟨some "public", "users", by decide, by decide⟩
  method := "btree"
  entries := [⟨"email", some "text", by decide, by decide, by decide⟩,
    ⟨"tenant_id", none, by decide, by decide, by decide⟩]
  isWord_name := by decide
  isWord_method := by decide
  noSuffix := by decide
  entries_ne_nil := by decide
  name_ne := by decide
  table_ne := by decide
  noSequenceValue := by decide +kernel

/-- It is written for MySQL unless its table is left out. -/
theorem email_index_written :
    emailIndex.line = "CREATE UNIQUE INDEX user_email_idx ON ONLY public.users USING btree " ++
        "(email text_pattern_ops, tenant_id);" ∧
      (step ⟨[], false, false⟩ {} emailIndex.line []).result =
        .ok ["CREATE UNIQUE INDEX user_email_idx ON public.users (email, tenant_id);"] ∧
      (step ⟨["public.users"], false, false⟩ {} emailIndex.line []).result = .ok [] := by
  have houtside : ({} : State).context = none := rfl
  have hkept := (emailIndex.written_unless_skipped ⟨[], false, false⟩ houtside []).1
  have hskipped :=
    (emailIndex.written_unless_skipped ⟨["public.users"], false, false⟩ houtside []).1
  exact ⟨by decide +kernel, hkept.trans (by decide +kernel), hskipped.trans (by decide +kernel)⟩

end DumpDialect.CreateIndex
