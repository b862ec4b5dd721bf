import DumpDialect.Proofs.Conversion.Openings
import DumpDialect.Proofs.Identifier
import DumpDialect.Proofs.Pattern.Rewriting

/-!
# What comes through of an INSERT line

An INSERT line is rewritten several times before its quotes are counted and its end is looked at.
The symbols that the rewriting is about are few (`isEdited`), and all others come through in their
order. So the quotes that are counted are those of the line, and a line that ends with a
parenthesis and a semicolon still ends so.

- `filter_valued`, `filter_written`: the symbols that come through.
- `foreign_text_kept`: text beyond ASCII, and bytes that are no text.
- `count_quote_valued`: the quotes of a line.
- `suffix_written_iff`, `parenthesisEnd_written`: the end of a line.
-/

namespace DumpDialect.Insert

open Pattern

/-- The single quote, which begins and ends a value. -/
abbrev quote : Symbol := .char '\x27'

/-- The symbols that rewriting an INSERT line can take away, add or change: blanks and digits, the
signs and escapes in values, what stands around the names of columns, and the capitals of the
header. -/
def isEdited (s : Symbol) : Bool :=
  s.isBlank || s.isDigit || s.isIn "-+\\xX,()\x60\x22INSERT IGNORE INTO "

/-- A line whose columns are quoted has a header with a list of columns. -/
theorem quoteColumns_cases [Quoting] (line : Text) :
    quoteColumns line = line ∨
      ∃ indent keyword table gap names after : Text,
        line = indent ++ (keyword ++ (table ++ (gap ++ ("(" ++ (names ++ (")" ++ after)))))) ∧
        (∀ s ∈ indent, s.isBlank = true) ∧ keyword.map Symbol.folded = "insert into " ∧
        (∀ s ∈ gap, s.isBlank = true) ∧
        quoteColumns line =
          "INSERT INTO " ++ table ++ " (" ++ ColumnList.quote names ++ ")" ++ after := by
  rw [quoteColumns]
  split
  · next m hm =>
    obtain ⟨before, found, after, groups⟩ := m
    obtain ⟨hline, hmatch⟩ := matches_of_at? hm
    clear hm
    simp only [columns, matches_inOrder_cons, matches_inOrder_nil, matches_blanks,
      matches_eitherCase, matches_word, matches_group, ink, matches_someOf] at hline hmatch
    obtain ⟨indent, _, _, _, rfl, rfl, ⟨hindent, rfl⟩, keyword, _, _, _, rfl, rfl, ⟨hkeyword, rfl⟩,
      table, _, _, _, rfl, rfl, ⟨_, rfl, -, -, rfl⟩, gap, _, _, _, rfl, rfl, ⟨hgap, rfl⟩,
      _, _, _, _, rfl, rfl, ⟨rfl, rfl⟩, names, _, _, _, rfl, rfl, ⟨_, rfl, -, -, rfl⟩,
      _, _, _, _, rfl, rfl, ⟨rfl, rfl⟩, rfl, rfl⟩ := hmatch
    refine .inr ⟨indent, keyword, table, gap, names, after, ?_, hindent, hkeyword, hgap, ?_⟩
    · simpa using hline
    · rfl
  · exact .inl rfl

/-- The pattern for the columns finds the keyword in either case, but a line that opens the
statement has it in capitals. -/
theorem keyword_of_opens {indent keyword rest : Text} (hindent : ∀ s ∈ indent, s.isBlank = true)
    (hkeyword : keyword.map Symbol.folded = "insert into ")
    (h : header.opens (indent ++ (keyword ++ rest)) = true) : keyword = "INSERT INTO " := by
  have hlength : (Text.ofString "INSERT INTO ").length = keyword.length := by
    rw [← keyword.length_map Symbol.folded, hkeyword]
    decide
  have hword : Text.ofString "insert into " = .char 'i' :: Text.ofString "nsert into " := by decide
  obtain ⟨first, more, rfl, hfolded, -⟩ := List.map_eq_cons_iff.mp (hkeyword.trans hword)
  have hink : first.isBlank = false := by
    cases hblank : first.isBlank with
    | false => rfl
    | true =>
      rw [Symbol.folded_of_isBlank hblank] at hfolded
      rw [hfolded] at hblank
      cases hblank
  have hprefix : Text.ofString "INSERT INTO " <+: (indent ++ (first :: more ++ rest)).trimStart :=
    prefix_trimStart_of_opens (s := .char 'I') (by decide) h
  rw [List.cons_append, Text.trimStart_append hindent hink, ← List.cons_append] at hprefix
  -- The keyword found and the one that opens the line begin at the same symbol and have one length.
  have hbegins := List.prefix_of_prefix_length_le hprefix (List.prefix_append _ rest)
    (Nat.le_of_eq hlength)
  exact (hbegins.eq_of_length hlength).symm

section Kept

variable {keep : Symbol → Bool} (hkeep : ∀ s, isEdited s = true → keep s = false)

include hkeep

theorem filter_edited {t : Text} (ht : ∀ s ∈ t, isEdited s = true) : t.filter keep = [] := by
  refine List.filter_eq_nil_iff.mpr fun s hs => ?_
  rw [hkeep s (ht s hs)]
  exact Bool.false_ne_true

/-- A run of blanks. -/
theorem filter_blanks {t : Text} (ht : ∀ s ∈ t, s.isBlank = true) : t.filter keep = [] :=
  filter_edited hkeep fun s hs => by simp [isEdited, ht s hs]

/-! ## The rules -/

theorem ignoreRule_keeps : ignoreRule.Keeps keep := by
  rintro w w' ⟨⟨before, found, after, groups⟩, prev, hm, rfl, rfl⟩
  simp only [ignoreRule, Rule.once, matches_inOrder_cons] at hm
  obtain ⟨_, _, _, _, rfl, rfl, ⟨-, rfl, rfl⟩, indent, _, _, _, rfl, rfl, ⟨hindent, -⟩,
    _, _, _, _, rfl, rfl, ⟨rfl, rfl⟩, rfl, rfl⟩ := hm
  have hold : (Text.ofString "INSERT INTO ").filter keep = [] :=
    filter_edited hkeep (by decide)
  have hnew : (Text.ofString "INSERT IGNORE INTO ").filter keep = [] :=
    filter_edited hkeep (by decide)
  simp [ignoreRule, Rule.once, Match.expand, filter_blanks hkeep hindent, hold, hnew]

theorem valueRules_keep : ∀ r ∈ valueRules, r.Keeps keep := by
  have hback : keep (.char '\\') = false := hkeep _ (by decide)
  have hx : keep (.char 'x') = false := hkeep _ (by decide)
  have hX : keep (.char 'X') = false := hkeep _ (by decide)
  simp only [valueRules, List.forall_mem_cons]
  -- The rule for zones drops a sign and digits, the other two change backslashes and an x; all else
  -- is put back from groups.
  refine ⟨?_, ?_, ?_, fun _ h => by cases h⟩
  · rintro w w' ⟨⟨before, found, after, groups⟩, prev, hm, rfl, rfl⟩
    simp only [Rule.throughout, matches_inOrder_cons] at hm
    obtain ⟨_, _, _, _, rfl, rfl, ⟨rfl, rfl⟩, time, _, _, _, rfl, rfl, ⟨inner, rfl, -⟩,
      sign, _, _, _, rfl, rfl, hsign, zone, _, _, _, rfl, rfl, hzone,
      _, _, _, _, rfl, rfl, ⟨rfl, rfl⟩, rfl, rfl⟩ := hm
    have hsign' : sign.filter keep = [] := by
      refine filter_edited hkeep fun s hs => ?_
      have hall : ∀ s ∈ Text.ofString "-+", isEdited s = true := by decide
      exact hall s (List.contains_iff_mem.mp (hsign.allows s hs))
    have hzone' : zone.filter keep = [] := by
      refine filter_edited hkeep fun s hs => ?_
      simp [isEdited, (matches_exactly.mp hzone).2.1 s hs]
    simp [Rule.throughout, Match.expand, Match.group, Match.group?, hsign', hzone']
  · rintro w w' ⟨⟨before, found, after, groups⟩, prev, hm, rfl, rfl⟩
    simp only [Rule.throughout, matches_inOrder_cons] at hm
    obtain ⟨_, _, _, _, rfl, rfl, ⟨rfl, rfl⟩, x, _, _, _, rfl, rfl, ⟨inner, rfl, -⟩, rfl, rfl⟩ := hm
    simp [Rule.throughout, Match.expand, Match.group, Match.group?, Text.ofString, hback]
  · rintro w w' ⟨⟨before, found, after, groups⟩, prev, hm, rfl, rfl⟩
    simp only [Rule.throughout, matches_inOrder_cons] at hm
    obtain ⟨_, _, _, _, rfl, rfl, ⟨rfl, rfl⟩, x, _, _, _, rfl, rfl, ⟨inner, rfl, -⟩,
      _, _, _, _, rfl, rfl, ⟨rfl, rfl⟩, rfl, rfl⟩ := hm
    simp [Rule.throughout, Match.expand, Match.group, Match.group?, Text.ofString,
      List.filter_cons, hback, hx, hX]

theorem escapeRules_keep : ∀ r ∈ escapeRules, r.Keeps keep := by
  have hback : keep (.char '\\') = false := hkeep _ (by decide)
  simp only [escapeRules, List.forall_mem_cons]
  refine ⟨?_, ?_, fun _ h => by cases h⟩ <;>
  · rintro w w' ⟨⟨before, found, after, groups⟩, prev, hm, rfl, rfl⟩
    obtain ⟨rfl, rfl⟩ := matches_word.mp hm
    simp [Rule.throughout, Match.expand, Text.ofString, List.filter_cons, hback]

/-! ## The line -/

theorem filter_quoteColumns [Quoting] {line : Text} (hopens : header.opens line = true) :
    (quoteColumns line).filter keep = line.filter keep := by
  have hopen : (Text.ofString "(").filter keep = [] := filter_edited hkeep (by decide)
  have hspace : (Text.ofString " (").filter keep = [] := filter_edited hkeep (by decide)
  have hinto : (Text.ofString "INSERT INTO ").filter keep = [] := filter_edited hkeep (by decide)
  rcases quoteColumns_cases line with h |
    ⟨indent, keyword, table, gap, names, after, hline, hindent, hkeyword, hgap, h⟩
  · rw [h]
  · have hkeyword' : keyword.filter keep = [] := by
      rw [keyword_of_opens hindent hkeyword (hline ▸ hopens), hinto]
    have hnames : (ColumnList.quote names).filter keep = names.filter keep :=
      ColumnList.filter_quote (fun s hs => hkeep s (by simp [isEdited, hs]))
        (hkeep _ (by decide)) (hkeep _ (by decide)) (hkeep _ (by decide)) names
    rw [h, hline]
    simp only [List.filter_append, hinto, hspace, hopen, hnames, hkeyword',
      filter_blanks hkeep hindent, filter_blanks hkeep hgap, List.nil_append, List.append_assoc]

/-- The symbols that the rewriting is not about come through in their order. -/
theorem filter_valued [Quoting] (cfg : Config) (line : Text) :
    (valued cfg line).filter keep = line.filter keep := by
  rw [valued, filter_applyRules (valueRules_keep hkeep), headed]
  split
  · next table htable =>
    have hopens : header.opens line = true := by
      rw [← Bool.not_eq_false]
      intro hcloses
      have hnone : Statement.insert.table? line = none := Statement.table?_eq_none_iff.mpr hcloses
      rw [hnone] at htable
      cases htable
    split
    · rw [(ignoreRule_keeps hkeep).filter_apply, filter_quoteColumns hkeep hopens]
    · exact filter_quoteColumns hkeep hopens
  · rfl

theorem filter_written [Quoting] (cfg : Config) (line : Text) :
    (written cfg line).filter keep = line.filter keep := by
  rw [written, filter_applyRules (escapeRules_keep hkeep), filter_valued hkeep]

end Kept

/-- Text beyond ASCII that is neither blank nor a digit, and bytes that are part of no character. -/
def isForeign : Symbol → Bool
  | .char c => decide (0x80 ≤ c.toNat) && !(Symbol.char c).isBlank && !(Symbol.char c).isDigit
  | .raw _ => true

theorem isForeign_of_isEdited {s : Symbol} (h : isEdited s = true) : isForeign s = false := by
  simp only [isEdited, Bool.or_eq_true] at h
  rcases h with (hblank | hdigit) | hother
  · cases s with
    | raw b => cases hblank
    | char c => simp [isForeign, hblank]
  · cases s with
    | raw b => cases hdigit
    | char c => simp [isForeign, hdigit]
  · have hall : ∀ s ∈ Text.ofString "-+\\xX,()\x60\x22INSERT IGNORE INTO ",
        isForeign s = false := by
      decide
    exact hall s (List.contains_iff_mem.mp hother)

/-- **Foreign text is kept.** Whatever an INSERT line is, and however it is rewritten, its text
beyond ASCII and the bytes that are no text come out as they went in: none is lost, added, doubled
or moved past another. -/
theorem foreign_text_kept [Quoting] (cfg : Config) (st : State) (line : Text) (continued : Bool) :
    (Treatment.ofInsert cfg st line continued).line.filter isForeign = line.filter isForeign := by
  rw [Treatment.ofInsert_eq]
  exact filter_written (fun _ => isForeign_of_isEdited) cfg line

/-- The quotes of a line are counted right, although it is rewritten before. -/
theorem count_quote_valued [Quoting] (cfg : Config) (line : Text) :
    (valued cfg line).count quote = line.count quote := by
  have hkeep : ∀ s, isEdited s = true → (s == quote) = false := by
    intro s hs
    cases heq : s == quote with
    | false => rfl
    | true =>
      obtain rfl := eq_of_beq heq
      exact absurd hs (by decide)
  rw [List.count_eq_length_filter, filter_valued hkeep, ← List.count_eq_length_filter]

/-! ## The end of the line -/

/-- The end of the statement does not reach over a parenthesis to what stands in front of it. -/
private theorem suffix_of_parenthesis (front front' : Text) {after : Text}
    (h : Text.ofString ");" <:+ front ++ (")" ++ after)) :
    Text.ofString ");" <:+ front' ++ (")" ++ after) := by
  have hend : Text.ofString ");" = [.char ')', .char ';'] := by decide
  have hpar : Text.ofString ")" = [.char ')'] := by decide
  rw [hend, hpar] at h ⊢
  obtain ⟨u, hu⟩ := h
  have hsuffix : [.char ')', .char ';'] <:+ [.char ')'] ++ after := by
    rcases List.append_eq_append_iff.mp hu with ⟨a, -, ha⟩ | ⟨a, -, ha⟩
    · -- The end begins in front of the parenthesis, if anywhere but at it.
      match a, ha with
      | [], ha => exact ha ▸ List.suffix_refl _
      | [_], ha => simp at ha
      | _ :: _ :: _, ha => simp at ha
    · exact ⟨a, ha.symm⟩
  exact hsuffix.trans (List.suffix_append ..)

/-- Quoting the columns of a line neither loses nor makes the end of the statement. -/
theorem suffix_quoteColumns_iff [Quoting] (line : Text) :
    Text.ofString ");" <:+ quoteColumns line ↔ Text.ofString ");" <:+ line := by
  rcases quoteColumns_cases line with hq |
    ⟨indent, keyword, table, gap, names, after, hline, -, -, -, hq⟩
  · rw [hq]
  · have hline' : line = indent ++ (keyword ++ (table ++ (gap ++ ("(" ++ names)))) ++
        (")" ++ after) := by simpa using hline
    rw [hq, hline', List.append_assoc]
    exact ⟨suffix_of_parenthesis _ _, suffix_of_parenthesis _ _⟩

/-- Rewriting a line neither loses nor makes the end of the statement. -/
theorem suffix_written_iff [Quoting] (cfg : Config) (line : Text) :
    Text.ofString ");" <:+ written cfg line ↔ Text.ofString ");" <:+ line := by
  have hvalue : ∀ r ∈ valueRules, r.Spares ");" := by decide
  have hescape : ∀ r ∈ escapeRules, r.Spares ");" := by decide
  have hignore : ignoreRule.Spares ");" := by decide
  rw [written, suffix_applyRules_iff hescape, valued, suffix_applyRules_iff hvalue, headed]
  split
  · split
    · rw [hignore.suffix_apply_iff, suffix_quoteColumns_iff]
    · exact suffix_quoteColumns_iff line
  · rfl

theorem parenthesisEnd_occursIn {t : Text} (h : Text.ofString ");" <:+ t) :
    parenthesisEnd.occursIn t = true := by
  obtain ⟨front, rfl⟩ := h
  exact occursIn_iff.mpr ⟨front, Text.ofString ");" ++ [], [], [] ++ [], by simp,
    .inOrder_cons ⟨rfl, rfl⟩ ⟨.inl rfl, rfl, rfl⟩⟩

/-- A line that ends the statement still does so when it is rewritten. -/
theorem parenthesisEnd_written [Quoting] (cfg : Config) {line : Text}
    (h : Text.ofString ");" <:+ line) :
    parenthesisEnd.occursIn (written cfg line) = true :=
  parenthesisEnd_occursIn ((suffix_written_iff cfg line).mpr h)

end DumpDialect.Insert
