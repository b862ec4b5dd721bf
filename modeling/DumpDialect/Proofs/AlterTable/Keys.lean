import Mathlib.Data.List.Infix
import DumpDialect.Proofs.AlterTable.QuoteKey
import DumpDialect.Proofs.Conversion.History
import DumpDialect.Proofs.Conversion.Openings
import DumpDialect.Proofs.Insert.Columns
import DumpDialect.Proofs.Pattern.Leading
import DumpDialect.Proofs.Text.Classes
import DumpDialect.Quoting

/-!
# Keys

pg_dump adds a unique or primary key on the second line of an ALTER TABLE statement, and writes
behind the columns that the key is checked at the end of a transaction, if it is. The rules drop
that clause and leave the blank in front of it, and the columns are quoted only where the semicolon
follows the parenthesis at once. So the columns of a key are quoted unless its check is deferred.

- `Key`, `Key.line`: the lines that add a key.
- `Key.Foreign`: two words around a blank that stand in no such line.
- `Key.applyRules_line`, `Key.quoteKey_bare`: the two passes over the line.
- `Key.step_line`: what the step over the line writes.
- `Key.columns_quoted_iff`: the keys whose columns are quoted.
-/

namespace DumpDialect.AlterTable

open Pattern

/-- The clause of a key that is checked at the end of a transaction. -/
def deferral : Text := "DEFERRABLE INITIALLY DEFERRED"

/-- A key that is added to a table, with its columns, and whether its check is deferred. -/
structure Key extends KeyHead where
  columns : List Text
  deferred : Bool
  columns_ne_nil : columns ≠ []
  isWord : ∀ c ∈ columns, c.IsWord

namespace Key

variable (key : Key)

/-- What stands behind the columns in the dump. -/
def ending : Text := if key.deferred then " DEFERRABLE INITIALLY DEFERRED;" else ";"

/-- The line that adds the key. -/
def line : Text := key.front ++ (Text.joined ", " key.columns ++ .char ')' :: key.ending)

/-- What stands behind the columns once the clause is dropped. -/
def bareEnding : Text := if key.deferred then " ;" else ";"

/-- The line without the clause. -/
def bare : Text := key.front ++ (Text.joined ", " key.columns ++ .char ')' :: key.bareEnding)

/-- The columns in backticks. -/
def quotedColumns [Quoting] : List Text := key.columns.map Quoting.inBackticks

/-- The line with its columns in backticks. -/
def quoted [Quoting] : Text :=
  key.front ++ (Text.joined "," key.quotedColumns ++ [.char ')', .char ';'])

/-- The line has its columns in backticks, with or without a blank behind each comma, and no clause
behind them. -/
def IsQuoted [Quoting] (written : Text) : Prop :=
  ∃ separator ∈ [Text.ofString ",", ", "], ∃ ending ∈ [Text.ofString ";", " ;"],
    written = key.front ++ (Text.joined separator key.quotedColumns ++ .char ')' :: ending)

/-! ## Blanks in the line -/

variable {key} {p q : Text}

theorem not_mem_name {s : Symbol} (hs : s.isInk = false) : s ∉ key.name := fun hmem => by
  rw [key.isInk s hmem] at hs
  cases hs

/-- The words that name a kind. -/
def kindWords : List Text := ["UNIQUE", "PRIMARY", "KEY"]

/-- The symbols in front of blanks in a line that adds a key, the name and the kind apart. -/
def blankFronts : Text := " DT,)"

/-- The word in front of a blank ends otherwise than what stands in front of the blanks of a line
that adds a key, and neither of the two words around the blank fits the name of a kind. -/
structure Foreign (p q : Text) : Prop where
  ne_nil : p ≠ []
  noBlank : .char ' ' ∉ p
  noBlankBehind : .char ' ' ∉ q
  ends : ∀ s ∈ p.getLast?, s ∉ blankFronts
  noKind : ∀ v ∈ kindWords, ¬ p <:+ v ∧ ¬ q <+: v

instance (p q : Text) : Decidable (Foreign p q) :=
  decidable_of_iff (p ≠ [] ∧ .char ' ' ∉ p ∧ .char ' ' ∉ q ∧ (∀ s ∈ p.getLast?, s ∉ blankFronts) ∧
      ∀ v ∈ kindWords, ¬ p <:+ v ∧ ¬ q <+: v)
    ⟨fun ⟨hne, hp, hq, hends, hkind⟩ => ⟨hne, hp, hq, hends, hkind⟩,
      fun ⟨hne, hp, hq, hends, hkind⟩ => ⟨hne, hp, hq, hends, hkind⟩⟩

namespace Foreign

theorem not_suffix (h : Foreign p q) {t : Text} {s : Symbol} (hs : s ∈ blankFronts) :
    ¬ p <:+ t ++ [s] := by
  rintro ⟨front, hfront⟩
  have hlast := congrArg List.getLast? hfront
  rw [List.getLast?_append_of_ne_nil _ h.ne_nil, List.getLast?_concat] at hlast
  exact h.ends s hlast hs

theorem not_infix (h : Foreign p q) {t : Text}
    (ht : ∀ s ∈ t, [s, .char ' '] <:+: t → s ∈ blankFronts) : ¬ p ++ .char ' ' :: q <:+: t := by
  intro hword
  obtain ⟨p', s, rfl⟩ : ∃ p' s, p = p' ++ [s] := by
    rw [← List.dropLast_append_getLast h.ne_nil]
    exact ⟨_, _, rfl⟩
  have hpair : [s, .char ' '] <:+: t := by
    refine List.IsInfix.trans ⟨p', q, ?_⟩ hword
    simp
  exact h.ends s List.getLast?_concat (ht s (hpair.subset List.mem_cons_self) hpair)

theorem not_infix_of_not_mem {t : Text} (ht : .char ' ' ∉ t) : ¬ p ++ .char ' ' :: q <:+: t :=
  fun hword => ht (hword.subset (by simp))

/-- Two words around a blank stand behind a blank if neither of them fits the word in front of it
and what follows. -/
theorem infix_of_infix_word (h : Foreign p q) {w t : Text} (hw : .char ' ' ∉ w)
    (hapart : ¬ p <:+ w ∨ ¬ q <+: t) (hword : p ++ .char ' ' :: q <:+: w ++ .char ' ' :: t) :
    p ++ .char ' ' :: q <:+: t := by
  rcases Text.infix_append_cons_cases h.noBlank h.noBlankBehind hword with h' | ⟨hp, hq⟩ | h'
  · exact absurd h' (not_infix_of_not_mem hw)
  · exact absurd hq (hapart.resolve_left (not_not_intro hp))
  · exact h'

theorem infix_of_infix_kind (h : Foreign p q) {v : Text} (hv : v ∈ kindWords) {t : Text}
    (hword : p ++ .char ' ' :: q <:+: v ++ .char ' ' :: t) : p ++ .char ' ' :: q <:+: t := by
  have hblank : ∀ v ∈ kindWords, .char ' ' ∉ v := by decide
  exact h.infix_of_infix_word (hblank v hv) (.inl (h.noKind v hv).1) hword

theorem not_prefix_kind (h : Foreign p q) {v : Text} (hv : v ∈ kindWords) {t : Text} :
    ¬ q <+: v ++ .char ' ' :: t :=
  fun hword => (h.noKind v hv).2 (Text.prefix_of_prefix_append_cons h.noBlankBehind hword)

/-- Two such words do not stand in front of the columns. -/
theorem infix_of_infix_front (h : Foreign p q) {t : Text}
    (hword : p ++ .char ' ' :: q <:+: key.front ++ t) :
    p ++ .char ' ' :: q <:+: .char '(' :: t := by
  have hkeyword : Text.ofString "    ADD CONSTRAINT" =
      Text.ofString "    ADD CONSTRAIN" ++ [.char 'T'] := by
    decide
  have hname : .char ' ' ∉ key.name := not_mem_name (by decide)
  -- Both kinds of key share the words up to the name; neither these nor the name hold the pair, so
  -- it stands behind them.
  have hbehind {t : Text} (hname' : ¬ q <+: t)
      (hword : p ++ .char ' ' :: q <:+:
        "    ADD CONSTRAINT" ++ .char ' ' :: (key.name ++ .char ' ' :: t)) :
      p ++ .char ' ' :: q <:+: t := by
    rcases Text.infix_append_cons_cases h.noBlank h.noBlankBehind hword with h' | ⟨hp, -⟩ | h'
    · exact absurd h' (h.not_infix (by decide))
    · exact absurd (hkeyword ▸ hp) (h.not_suffix (by decide))
    · exact h.infix_of_infix_word hname (.inr hname') h'
  -- `PRIMARY KEY` is two words where `UNIQUE` is one, so the step over a word of the kind is made
  -- once more.
  cases hkind : key.kind with
  | unique =>
    have hfront : key.front ++ t = "    ADD CONSTRAINT" ++ .char ' ' :: (key.name ++ .char ' ' ::
        (Text.ofString "UNIQUE" ++ .char ' ' :: .char '(' :: t)) := by
      simp [KeyHead.front, hkind, KeyKind.text, Text.ofString]
    rw [hfront] at hword
    exact h.infix_of_infix_kind (by decide) (hbehind (h.not_prefix_kind (by decide)) hword)
  | primary =>
    have hfront : key.front ++ t = "    ADD CONSTRAINT" ++ .char ' ' :: (key.name ++ .char ' ' ::
        (Text.ofString "PRIMARY" ++ .char ' ' ::
          (Text.ofString "KEY" ++ .char ' ' :: .char '(' :: t))) := by
      simp [KeyHead.front, hkind, KeyKind.text, Text.ofString]
    rw [hfront] at hword
    exact h.infix_of_infix_kind (by decide) (h.infix_of_infix_kind (by decide)
      (hbehind (h.not_prefix_kind (by decide)) hword))

/-- Two such words do not stand in a list of columns. -/
theorem infix_of_infix_columns (h : Foreign p q) {columns : List Text}
    (hcolumns : ∀ c ∈ columns, c.IsWord) {front t : Text} (hfront : .char ' ' ∉ front)
    (hword : p ++ .char ' ' :: q <:+: front ++ (Text.joined ", " columns ++ t)) :
    ∃ w, .char ' ' ∉ w ∧ p ++ .char ' ' :: q <:+: w ++ t := by
  -- `front` is what has been read since the last blank; it starts afresh behind each `, `.
  induction columns generalizing front with
  | nil => exact ⟨front, hfront, hword⟩
  | cons c columns ih =>
    obtain ⟨hc, hcolumns⟩ := List.forall_mem_cons.mp hcolumns
    have hblank : .char ' ' ∉ front ++ c := fun hmem =>
      (List.mem_append.mp hmem).elim hfront (hc.not_mem (by decide))
    cases columns with
    | nil =>
      have hjoined : Text.joined ", " [c] = c := List.append_nil c
      rw [hjoined, ← List.append_assoc] at hword
      exact ⟨front ++ c, hblank, hword⟩
    | cons c' columns =>
      have hsplit : front ++ (Text.joined ", " (c :: c' :: columns) ++ t) =
          ((front ++ c) ++ [.char ',']) ++ .char ' ' ::
            (Text.joined ", " (c' :: columns) ++ t) := by
        rw [Text.joined_cons_cons]
        simp [Text.ofString]
      rw [hsplit] at hword
      have hrest := h.infix_of_infix_word (by simpa using hblank)
        (.inl (h.not_suffix (s := .char ',') (by decide))) hword
      exact @ih hcolumns [] (by simp) hrest

/-- Two such words do not stand in a line that adds a key, but for what follows the columns. -/
theorem infix_of_infix_line (h : Foreign p q) {rest : Text}
    (hword : p ++ .char ' ' :: q <:+:
      key.front ++ (Text.joined ", " key.columns ++ .char ')' :: rest))
    (hrest : .char ' ' ∉ rest ∨ ∃ t, rest = .char ' ' :: t) : p ++ .char ' ' :: q <:+: rest := by
  have hcolumns : p ++ .char ' ' :: q <:+:
      [.char '('] ++ (Text.joined ", " key.columns ++ .char ')' :: rest) :=
    h.infix_of_infix_front hword
  obtain ⟨w, hw, hbehind⟩ := h.infix_of_infix_columns key.isWord (by decide) hcolumns
  have hclosed : .char ' ' ∉ w ++ [.char ')'] := by simpa using hw
  rcases hrest with hrest | ⟨t, rfl⟩
  · refine absurd hbehind (not_infix_of_not_mem ?_)
    simp [hw, hrest]
  · have hsplit : w ++ .char ')' :: .char ' ' :: t = (w ++ [.char ')']) ++ .char ' ' :: t := by simp
    rw [hsplit] at hbehind
    exact (h.infix_of_infix_word hclosed (.inl (h.not_suffix (by decide))) hbehind).trans
      (List.suffix_cons ..).isInfix

theorem not_infix_line (h : Foreign p q)
    (hclause : ¬ p ++ .char ' ' :: q <:+: Text.ofString " DEFERRABLE INITIALLY DEFERRED;") :
    ¬ p ++ .char ' ' :: q <:+: key.line := by
  intro hword
  rw [line, ending] at hword
  split at hword
  · exact hclause (h.infix_of_infix_line hword (.inr ⟨deferral ++ [.char ';'], by decide +kernel⟩))
  · exact not_infix_of_not_mem (by decide) (h.infix_of_infix_line hword (.inl (by decide)))

theorem not_infix_bare (h : Foreign p q) : ¬ p ++ .char ' ' :: q <:+: key.bare := by
  intro hword
  rw [bare, bareEnding] at hword
  split at hword
  · exact h.not_infix (by decide) (h.infix_of_infix_line hword (.inr ⟨";", by decide⟩))
  · exact not_infix_of_not_mem (by decide) (h.infix_of_infix_line hword (.inl (by decide)))

theorem not_infix_quoted [Quoting] (h : Foreign p q) : ¬ p ++ .char ' ' :: q <:+: key.quoted := by
  intro hword
  refine not_infix_of_not_mem ?_ (h.infix_of_infix_front hword)
  have hcolumns : .char ' ' ∉ Text.joined "," key.quotedColumns := by
    refine Text.not_mem_joined (by decide) fun column hmem => ?_
    obtain ⟨c, hc, rfl⟩ := List.mem_map.mp hmem
    rw [Quoting.inBackticks_eq]
    have hword := (key.isWord c hc).not_mem (s := .char ' ') (by decide)
    have hdoubled : .char ' ' ∉ doubleQuotes Identifier.backtick c :=
      mt (mem_doubleQuotes_iff (by decide)).mp hword
    simp [hdoubled]
  simp [hcolumns]

end Foreign

/-! ## The rules -/

theorem foreign_table : Foreign "ALTER" "TABLE" := by decide

/-- The words of a header do not stand in a line that adds a key. -/
theorem header_not_within_line :
    ¬ Text.ofString "ALTER" ++ .char ' ' :: Text.ofString "TABLE" <:+: key.line :=
  foreign_table.not_infix_line (by decide +kernel)

theorem not_within_of_foreign_table {t : Text}
    (h : ¬ Text.ofString "ALTER" ++ .char ' ' :: Text.ofString "TABLE" <:+: t) :
    ¬ Text.ofString "ALTER TABLE " <:+: t := by
  have hsplit : Text.ofString "ALTER TABLE " =
      Text.ofString "ALTER" ++ .char ' ' :: Text.ofString "TABLE" ++ [.char ' '] := by
    decide
  rw [hsplit]
  exact fun hword => h ((List.prefix_append ..).isInfix.trans hword)

/-- The clause stands behind the columns only. -/
theorem notBegunIn_deferral :
    Text.NotBegunIn deferral (key.front ++ (Text.joined ", " key.columns ++ [.char ')'])) := by
  have hforeign : Foreign "DEFERRABLE" "INITIALLY" := by decide
  have hsplit : deferral =
      Text.ofString "DEFERRABLE" ++ .char ' ' :: Text.ofString "INITIALLY" ++ " DEFERRED" := by
    decide
  refine ⟨fun hword => ?_, ?_⟩
  · rw [hsplit] at hword
    have hwithin := (List.prefix_append _ (Text.ofString " DEFERRED")).isInfix.trans hword
    exact absurd (hforeign.infix_of_infix_line hwithin (.inl (by simp))) (by decide)
  · rintro s hs
    rw [← List.append_assoc, List.getLast?_concat] at hs
    cases hs
    decide

/-- The rule that drops the clause. -/
def deferrable : Rule := .once "deferrable" (.word deferral) []

theorem deferrable_apply : deferrable.apply key.line = key.bare := by
  have hpass : deferrable.PassesOver (key.front ++ (Text.joined ", " key.columns ++ [.char ')'])) :=
    ⟨deferral, rfl, by decide, notBegunIn_deferral⟩
  have hending : deferrable.apply key.ending = key.bareEnding := by
    rw [ending, bareEnding]
    cases key.deferred <;> decide +kernel
  have hline : key.line =
      key.front ++ (Text.joined ", " key.columns ++ [.char ')']) ++ key.ending := by
    simp [line]
  rw [hline, hpass.apply_append, hending]
  simp [bare]

/-- The rules drop the clause, and nothing else. -/
theorem applyRules_line : applyRules rules key.line = key.bare := by
  -- The first rule is kept off by the header words, the third by `USING`; only the clause is left
  -- to drop.
  have honly : (Pattern.word "ALTER TABLE ONLY").occursIn key.line = false := by
    refine Bool.eq_false_iff.mpr fun hoccurs => ?_
    have hsplit : Text.ofString "ALTER TABLE ONLY" =
        Text.ofString "ALTER" ++ .char ' ' :: Text.ofString "TABLE" ++ " ONLY" := by decide
    have hword := occursIn_word_iff.mp hoccurs
    rw [hsplit] at hword
    exact header_not_within_line ((List.prefix_append ..).isInfix.trans hword)
  have husing : (inOrder ["USING ", ink, ";"]).occursIn key.bare = false := by
    refine Bool.eq_false_iff.mpr fun hoccurs => ?_
    obtain ⟨before, w, after, _, hsplit, hm⟩ := occursIn_iff.mp hoccurs
    simp only [matches_inOrder_cons, ink, matches_someOf] at hm
    obtain ⟨_, _, _, _, rfl, rfl, ⟨rfl, rfl⟩, method, _, _, _, rfl, rfl, ⟨-, hink, rfl⟩, _, _, _, _,
      rfl, rfl, ⟨rfl, rfl⟩, rfl, rfl⟩ := hm
    have hforeign : Foreign "USING" (method ++ [.char ';']) := by
      have hnot : ∀ v ∈ kindWords, ¬ Text.ofString "USING" <:+ v ∧ .char ';' ∉ v := by
        decide
      refine ⟨by decide, by decide, ?_, by decide,
        fun v hv => ⟨(hnot v hv).1, fun hsemicolon => ?_⟩⟩
      · intro hmem
        rcases List.mem_append.mp hmem with hmem | hmem
        · exact absurd (hink _ hmem) (by decide)
        · exact absurd hmem (by decide)
      · exact (hnot v hv).2 (hsemicolon.subset (by simp))
    have hwithin : Text.ofString "USING" ++ .char ' ' :: (method ++ [.char ';']) <:+: key.bare :=
      ⟨before, after, by simp [hsplit, Text.ofString]⟩
    exact hforeign.not_infix_bare hwithin
  have hrules : rules = [.once "only" "ALTER TABLE ONLY" ["ALTER TABLE"], deferrable,
      .once "using_index_method" (inOrder ["USING ", ink, ";"]) [";"]] := rfl
  rw [hrules, applyRules_cons, Rule.apply_eq_self honly, applyRules_cons, deferrable_apply,
    applyRules_cons, Rule.apply_eq_self husing, applyRules_nil]

/-! ## The columns -/

theorem isBareName {c : Text} (hc : c.IsWord) : ColumnList.IsBareName c where
  ne_nil := hc.1
  noBlank s hs := Symbol.isBlank_of_isWord (hc.2 s hs)
  noComma := hc.not_mem (by decide)
  noBacktick := hc.not_mem (by decide)
  noDoubleQuote := hc.not_mem (by decide)

theorem not_mem_columns : .char ')' ∉ Text.joined ", " key.columns :=
  Text.not_mem_joined (by decide) fun c hc => (key.isWord c hc).not_mem (by decide)

theorem quote_columns [Quoting] :
    ColumnList.quote (Text.joined ", " key.columns) = Text.joined "," key.quotedColumns := by
  have hname (c : Text) (hc : c ∈ key.columns) := isBareName (key.isWord c hc)
  rw [ColumnList.quote_joined hname, quotedColumns]
  congr 1
  refine List.map_congr_left fun c hc => ?_
  rw [Quoting.plain c (hname c hc).noBacktick]

/-- Behind the clause a blank is left in front of the semicolon, and the columns are not found. -/
theorem quoteKey_bare [Quoting] :
    quoteKey key.bare = if key.deferred then key.bare else key.quoted := by
  split
  · next hdeferred =>
    rw [bare, bareEnding, if_pos hdeferred]
    refine KeyHead.quoteKey_eq_self fun list rest hlist heq => ?_
    have hafter := (Text.eq_of_append_cons_eq_of_front not_mem_columns hlist heq).2
    exact absurd (congrArg List.head? hafter) (by simp [Text.ofString])
  · next hdeferred =>
    have hend : Text.ofString ";" = [.char ';'] := by decide
    rw [bare, bareEnding, if_neg hdeferred, hend, KeyHead.quoteKey_append not_mem_columns,
      quote_columns, quoted]

/-- The line as it is written: its columns are in backticks unless there was a clause. -/
theorem written_line [Quoting] :
    written key.line = if key.deferred then key.bare else key.quoted := by
  rw [written, applyRules_line, quoteKey_bare]

/-! ## The step -/

/-- What is searched for a sequence as default of a column has a word before and behind a blank. -/
theorem sequenceDefault_occursIn {t : Text}
    (h : ∀ p q, Foreign p q → ¬ p ++ .char ' ' :: q <:+: t) :
    sequenceDefault.occursIn t = false := by
  refine Bool.eq_false_iff.mpr fun hoccurs => ?_
  obtain ⟨before, w, after, _, rfl, hm⟩ := occursIn_iff.mp hoccurs
  simp only [sequenceDefault, matches_inOrder_cons, matches_eitherCase] at hm
  obtain ⟨indent, _, _, _, rfl, rfl, -, keyword, more, _, _, rfl, rfl, ⟨hkeyword, -⟩, -⟩ := hm
  have hsplit : Text.ofString "alter table " = Text.ofString "alter" ++ .char ' ' ::
      (Text.ofString "table" ++ [.char ' ']) := by decide
  rw [hsplit] at hkeyword
  -- The letters are compared folded, so the two words found are any spelling of `alter table`.
  obtain ⟨p, behind, rfl, hp, hbehind⟩ := List.map_eq_append_iff.mp hkeyword
  obtain ⟨s, table, rfl, hs, htable⟩ := List.map_eq_cons_iff.mp hbehind
  obtain ⟨q, rest, rfl, hq, -⟩ := List.map_eq_append_iff.mp htable
  obtain rfl : s = .char ' ' := Symbol.eq_of_folded hs (by decide)
  have hnot : ∀ v ∈ kindWords, ¬ Text.ofString "alter" <:+ v.map Symbol.folded ∧
      ¬ Text.ofString "table" <+: v.map Symbol.folded := by decide
  have hfronts : ∀ s ∈ blankFronts, s.folded ≠ .char 'r' := by decide
  have hblank {w : Text} (hw : .char ' ' ∉ w.map Symbol.folded) : .char ' ' ∉ w :=
    fun hmem => hw (List.mem_map_of_mem hmem)
  have hforeign : Foreign p q := by
    refine ⟨?_, hblank (by rw [hp]; decide), hblank (by rw [hq]; decide), fun s hs hmem => ?_,
      fun v hv => ⟨fun h => (hnot v hv).1 (hp ▸ h.map Symbol.folded),
        fun h => (hnot v hv).2 (hq ▸ h.map Symbol.folded)⟩⟩
    · rintro rfl
      exact absurd hp (by decide)
    · have hlast := congrArg (Option.map Symbol.folded) hs
      rw [← List.getLast?_map, hp] at hlast
      exact hfronts s hmem (Option.some.inj hlast).symm
  exact h p q hforeign ⟨before ++ indent, rest ++ (more ++ after), by simp⟩

theorem ownerChange_occursIn : ownerChange.occursIn key.line = false :=
  occursIn_inOrder_eq_false
    (not_within_of_foreign_table header_not_within_line)

theorem header_opens_eq_false {t : Text}
    (h : ¬ Text.ofString "ALTER" ++ .char ' ' :: Text.ofString "TABLE" <:+: t) :
    header.opens t = false := by
  refine Bool.eq_false_iff.mpr fun hopens => not_within_of_foreign_table h ?_
  obtain ⟨w, rest, _, rfl, hm⟩ := opens_iff.mp hopens
  exact (hm.word_infix (by simp)).trans (List.prefix_append w rest).isInfix

theorem table?_line : table? key.line = none := by
  rw [table?, Statement.table?_eq_none_iff, applyRules_line]
  exact header_opens_eq_false foreign_table.not_infix_bare

theorem deferral?_line [Quoting] (cfg : Config) : cfg.deferral? key.line = none := by
  have hnone : sequenceDefault.occursIn (written key.line) = false := by
    refine sequenceDefault_occursIn fun p q h => ?_
    rw [written_line]
    split
    · exact h.not_infix_bare
    · exact h.not_infix_quoted
  rw [occursIn, Option.isSome_eq_false_iff, Option.isNone_iff_eq_none] at hnone
  rw [Config.deferral?, ownerChange_occursIn, hnone]
  rfl

/-- The semicolon at the end of the line ends the statement. -/
theorem closes_written [Quoting] : closes (written key.line) = true := by
  have hend : ∃ front, written key.line = front ++ [.char ';'] := by
    rw [written_line]
    split
    · next h => exact ⟨key.front ++ (Text.joined ", " key.columns ++ [.char ')', .char ' ']), by
        simp [bare, bareEnding, h, Text.ofString]⟩
    · exact ⟨key.front ++ (Text.joined "," key.quotedColumns ++ [.char ')']), by simp [quoted]⟩
  obtain ⟨front, hfront⟩ := hend
  have hsemicolon : statementEnd.occursIn (written key.line) = true := by
    rw [hfront]
    exact occursIn_iff.mpr ⟨front, [.char ';'] ++ [], [], [] ++ [], (List.append_nil _).symm,
      .inOrder_cons ⟨by decide, rfl⟩ ⟨.inl rfl, rfl, rfl⟩⟩
  rw [closes, hsemicolon, Bool.true_or]

/-! ## The step -/

/-- The call that marks a line that sets the value of a sequence. -/
def valueMark : Text := "pg_catalog.setval"

/-- Such a mark could stand in the name of the key only. -/
theorem marker_occursIn_iff :
    SequenceValue.marker.occursIn key.line = true ↔ valueMark <:+: key.name := by
  -- The mark holds no blank, so it lies in one of the three parts that the blanks around the name
  -- make of the line.
  let behind : Text :=
    key.kind.text ++
      (Text.ofString " (" ++ (Text.joined ", " key.columns ++ .char ')' :: key.ending))
  have hline : key.line =
      "    ADD CONSTRAINT" ++ .char ' ' :: (key.name ++ .char ' ' :: behind) := by
    simp [line, KeyHead.front, behind, Text.ofString]
  have hfront : (word valueMark).occursIn "    ADD CONSTRAINT" = false := by decide
  have hbehind : (word valueMark).occursIn behind = false := by
    refine occursIn_word_of_not_mem (s := .char '.') (by decide) ?_
    have hparenthesis : .char '.' ∉ Text.ofString " (" := by decide
    have hcolumns : .char '.' ∉ Text.joined ", " key.columns :=
      Text.not_mem_joined (by decide) fun c hc => (key.isWord c hc).not_mem (by decide)
    have hkind : .char '.' ∉ key.kind.text := by
      cases key.kind <;> decide
    have hending : .char '.' ∉ key.ending := by
      rw [ending]
      cases key.deferred <;> decide
    simp [behind, hparenthesis, hcolumns, hkind, hending]
  have hmarker : SequenceValue.marker = word valueMark := rfl
  rw [hmarker, hline, occursIn_word_append_cons (by decide) (by decide), hfront,
    occursIn_word_append_cons (by decide) (by decide), hbehind, Bool.false_or, Bool.or_false,
    occursIn_word_iff]

theorem opening_opens (kind : Statement) : kind.opening.opens key.line = false := by
  refine Bool.eq_false_iff.mpr fun hopens => ?_
  have hfirst : key.line.firstInk? = some (.char 'A') := by
    have hline : ∃ rest : Text, key.line = "    " ++ .char 'A' :: rest := by
      refine ⟨"DD CONSTRAINT " ++ (key.name ++ (" " ++ (key.kind.text ++ " ("))) ++
        (Text.joined ", " key.columns ++ .char ')' :: key.ending), ?_⟩
      simp [line, KeyHead.front, Text.ofString]
    obtain ⟨rest, hline⟩ := hline
    rw [hline]
    exact Text.firstInk?_append KeyHead.indent_blank (by decide) rest
  have hletter := Statement.letter_of_opens hopens
  rw [hfirst] at hletter
  cases kind with
  | alterTable =>
    have hheader : header.opens key.line = false :=
      header_opens_eq_false header_not_within_line
    rw [show Statement.opening .alterTable = header from rfl, hheader] at hopens
    cases hopens
  | createTable | insert | block => exact absurd hletter (by decide)

theorem typeDeclaration_occursIn : CreateTable.typeDeclaration.occursIn key.line = false := by
  have hforeign : Foreign "CREATE" "TYPE" := by decide
  have hsplit : Text.ofString "CREATE TYPE " =
      Text.ofString "CREATE" ++ .char ' ' :: Text.ofString "TYPE" ++ [.char ' '] := by
    decide
  refine Bool.eq_false_iff.mpr fun hoccurs => ?_
  have hword := occursIn_word_iff.mp hoccurs
  rw [hsplit] at hword
  exact hforeign.not_infix_line (by decide) ((List.prefix_append ..).isInfix.trans hword)

variable {cfg : Config} {st : State} {next : Text}

/-- The visit of the line. -/
def visit (key : Key) (st : State) (next : Text) : Visit := ⟨st, key.line, next⟩

theorem kind?_visit (hopen : st.context = some .alterTable) :
    (key.visit st next).kind? cfg =
      some (if valueMark <:+: key.name then .sequenceValue else .statement .alterTable) := by
  rw [Visit.kind?, visit, typeDeclaration_occursIn, Bool.and_false, if_neg Bool.false_ne_true,
    hopen]
  split
  · next hmark =>
    rw [LineKind.of_marker (by decide) (marker_occursIn_iff.mpr hmark)]
  · next hmark =>
    have hunmarked := Bool.eq_false_iff.mpr (mt marker_occursIn_iff.mp hmark)
    rw [LineKind.of_continues _ opening_opens hunmarked]

/-- The line is written, with the clause dropped and the columns in backticks unless there was a
clause, and ends the statement. -/
theorem step_line [Quoting] (hopen : st.context = some .alterTable) (hkept : st.suppressed = false)
    (hnext : cfg.skippedTarget? next = none) (hname : ¬ valueMark <:+: key.name) :
    (step cfg st key.line next).result = .ok [if key.deferred then key.bare else key.quoted] ∧
      (step cfg st key.line next).state.context = none := by
  have hkind : (key.visit st next).kind? cfg = some (.statement .alterTable) := by
    rw [kind?_visit hopen, if_neg hname]
  have htreatment : (key.visit st next).treatment cfg .alterTable =
      Treatment.ofAlterTable cfg st.advanced key.line next := rfl
  have hsuppressed : st.advanced.suppressed = false := hkept
  have hstep := Visit.step_of_statement hkind
  rw [htreatment, Treatment.ofAlterTable_eq, ownerChange_occursIn, if_neg Bool.false_ne_true,
    deferral?_line, table?_line, hnext, closes_written, written_line, hsuppressed] at hstep
  rw [show step cfg st key.line next = (key.visit st next).step cfg from rfl, hstep]
  exact ⟨rfl, rfl⟩

/-! ## Quoted columns -/

theorem isQuoted_quoted [Quoting] : key.IsQuoted key.quoted := ⟨",", by simp, ";", by simp, rfl⟩

/-- A list begins with its first column. -/
private theorem head?_joined {separator c rest : Text} (hc : c ≠ []) (columns : List Text) :
    (Text.joined separator (c :: columns) ++ rest).head? = c.head? := by
  obtain ⟨s, c, rfl⟩ := List.exists_cons_of_ne_nil hc
  cases columns with
  | nil => rfl
  | cons c' columns =>
    rw [Text.joined_cons_cons]
    rfl

/-- A column without backticks is not quoted. -/
theorem not_isQuoted_bare [Quoting] : ¬ key.IsQuoted key.bare := by
  rintro ⟨separator, -, ending, -, heq⟩
  obtain ⟨c, columns, hcolumns⟩ := List.exists_cons_of_ne_nil key.columns_ne_nil
  have hc := key.isWord c (by simp [hcolumns])
  have hhead := congrArg List.head? (List.append_cancel_left heq)
  rw [quotedColumns, hcolumns, List.map_cons, head?_joined hc.1,
    head?_joined (by simp [Quoting.inBackticks_eq]), Quoting.inBackticks_eq] at hhead
  have hbacktick : Identifier.backtick ∈ c := List.mem_of_mem_head? hhead
  exact hc.not_mem (by decide) hbacktick

/-- The columns of a key are quoted, on the line that ends the statement, if the check of the key is
not deferred; and its name must not read like the value of a sequence. -/
theorem columns_quoted_iff [Quoting] (key : Key) (hopen : st.context = some .alterTable)
    (hkept : st.suppressed = false) (hnext : cfg.skippedTarget? next = none) :
    ((∃ written, key.IsQuoted written ∧ (step cfg st key.line next).result = .ok [written]) ∧
        (step cfg st key.line next).state.context = none) ↔
      key.deferred = false ∧ ¬ valueMark <:+: key.name := by
  constructor
  · -- A name that reads like a value would leave the statement open, a clause dropped would leave
    -- the columns as they were.
    rintro ⟨⟨written, hquoted, hresult⟩, hclosed⟩
    have hname : ¬ valueMark <:+: key.name := by
      intro hmark
      have hcontext := Visit.context_step cfg (key.visit st next)
      rw [kind?_visit hopen, if_pos hmark] at hcontext
      have hstays : (step cfg st key.line next).state.context = st.context := hcontext
      rw [hclosed, hopen] at hstays
      cases hstays
    refine ⟨Bool.eq_false_iff.mpr fun hdeferred => ?_, hname⟩
    rw [(step_line hopen hkept hnext hname).1, if_pos hdeferred] at hresult
    obtain rfl : key.bare = written := by simpa using hresult
    exact not_isQuoted_bare hquoted
  · rintro ⟨hdeferred, hname⟩
    obtain ⟨hresult, hclosed⟩ := step_line hopen hkept hnext hname
    rw [hdeferred, if_neg Bool.false_ne_true] at hresult
    exact ⟨⟨key.quoted, isQuoted_quoted, hresult⟩, hclosed⟩

/-- A unique key of two columns. -/
def emailKey (deferred : Bool) : Key :=
  ⟨⟨"user_email_key", .unique, by decide, by decide⟩, ["email", "tenant_id"], deferred, by decide,
    by decide⟩

/-- The columns of a key that is checked at once are quoted. -/
theorem email_columns_quoted :
    (emailKey false).line = "    ADD CONSTRAINT user_email_key UNIQUE (email, tenant_id);" ∧
      ∃ written, (emailKey false).IsQuoted written ∧
        (step ⟨[], false, false⟩ { context := some .alterTable } (emailKey false).line []).result =
          .ok [written] := by
  refine ⟨by decide +kernel, ?_⟩
  exact ((columns_quoted_iff (emailKey false) rfl rfl (by decide)).mpr ⟨rfl, by decide +kernel⟩).1

/-- The columns of the same key with a deferred check are not. -/
theorem deferred_email_columns_not_quoted :
    (emailKey true).line = "    ADD CONSTRAINT user_email_key UNIQUE (email, tenant_id)" ++
        " DEFERRABLE INITIALLY DEFERRED;" ∧
      (step ⟨[], false, false⟩ { context := some .alterTable } (emailKey true).line []).output =
        ["    ADD CONSTRAINT user_email_key UNIQUE (email, tenant_id) ;"] ∧
      ¬ (emailKey true).IsQuoted
          "    ADD CONSTRAINT user_email_key UNIQUE (email, tenant_id) ;" := by
  have hbare : (emailKey true).bare =
      "    ADD CONSTRAINT user_email_key UNIQUE (email, tenant_id) ;" := by decide +kernel
  exact ⟨by decide +kernel, by decide +kernel, hbare ▸ not_isQuoted_bare⟩

end Key

end DumpDialect.AlterTable
