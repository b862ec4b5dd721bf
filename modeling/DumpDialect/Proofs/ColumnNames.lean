import DumpDialect.Proofs.AlterTable.QuoteKey
import DumpDialect.Proofs.CreateTable.Definition
import DumpDialect.Proofs.Insert.Columns
import DumpDialect.Quoting

/-!
# The places that quote a column

A column is named in the definition of its table, in the lists of INSERT statements and in the lists
of keys. In a definition the name reaches to the first blank; in a list it reaches to the next
comma, and the list to the first closing parenthesis. None of the three looks at double quotes, so a
name between double quotes is read in part if it has these symbols in it, and comes out in backticks
where it has none of them.

- `ColumnName`, `ColumnName.quote_text`: names as PostgreSQL writes them.
- `ColumnName.quote_list_iff`: a list of one name.
- `ColumnName.definition_quoted_iff`, `ColumnName.insert_quoted_iff`, `ColumnName.key_quoted_iff`:
  the three places.
- `ColumnName.places_agree_iff`: all of them.
-/

namespace DumpDialect

open Identifier
open Quoting (inBackticks inBackticks_eq)

/-! ## Names -/

/-- How PostgreSQL writes the name of a column: a word bare, and any name between double quotes with
each double quote in it doubled. -/
inductive ColumnName where
  | bare (word : Text) (isWord : word.IsWord)
  | quoted (name : Text) (ne_nil : name ≠ []) (isOneLine : name.IsOneLine)

namespace ColumnName

/-- The name itself. -/
def name : ColumnName → Text
  | bare word _ => word
  | quoted name _ _ => name

/-- The name as it is written. -/
def text : ColumnName → Text
  | bare word _ => word
  | quoted name _ _ => doubleQuote :: doubleQuotes doubleQuote name ++ [doubleQuote]

theorem quote_text [Quoting] (q : ColumnName) : Identifier.quote q.text = inBackticks q.name := by
  cases q with
  | bare word hword =>
    have hback : backtick ∉ word := hword.not_mem (by decide)
    rw [text, name, quote_of_not_mem hback (hword.not_mem (by decide)), Quoting.plain word hback]
  | quoted name _ _ => exact quote_inDoubleQuotes name

/-- What stands in double quotes, or begins there, comes into backticks. -/
theorem exists_quote_cons [Quoting] (t : Text) :
    ∃ w, Identifier.quote (doubleQuote :: t) = inBackticks w := by
  rw [Identifier.quote, isBetween_backtick_cons, if_neg Bool.false_ne_true]
  split
  · exact ⟨_, rfl⟩
  · exact ⟨_, rfl⟩

/-! ## Lists of one name -/

theorem quote_list_of_not_mem [Quoting] {t : Text} (hcomma : .char ',' ∉ t) (hne : t ≠ [])
    (htrim : t.trim = t) : ColumnList.quote t = Identifier.quote t := by
  have hnames : ColumnList.names t = [t] := by
    rw [ColumnList.names_of_not_mem hcomma (htrim.symm ▸ hne), htrim]
  rw [ColumnList.quote, hnames, List.map_singleton]
  exact List.append_nil _

theorem text_ne_nil (q : ColumnName) : q.text ≠ [] := by
  cases q with
  | bare word hword => exact hword.1
  | quoted name _ _ => simp [text]

theorem trim_text (q : ColumnName) : q.text.trim = q.text := by
  cases q with
  | bare word hword =>
    exact Text.trim_eq_self fun s hs => Symbol.isBlank_of_isWord (hword.2 s hs)
  | quoted name _ _ => exact Text.trim_enclosed (by decide) _

theorem mem_text_iff {s : Symbol} (hs : s ≠ doubleQuote) (q : ColumnName) :
    s ∈ q.text ↔ s ∈ q.name := by
  cases q with
  | bare word _ => rfl
  | quoted name _ _ => simp [text, ColumnName.name, hs, mem_doubleQuotes_iff hs]

/-- A name with a comma is cut there, and the first part gets a backtick at its end. -/
theorem quote_list_ne [Quoting] {front : Text} (hfront : .char ',' ∉ front) (back rest : Text) :
    ColumnList.quote (doubleQuote :: doubleQuotes doubleQuote front ++ .char ',' :: back) ≠
      backtick :: doubleQuotes backtick front ++ .char ',' :: rest := by
  let first := doubleQuote :: doubleQuotes doubleQuote front
  have hcomma : .char ',' ∉ first := by
    simp [first, mem_doubleQuotes_iff, hfront]
  -- Trimming keeps the double quote in front, so what is quoted is never in double quotes itself.
  obtain ⟨u, htrim⟩ :=
    @Text.exists_trim_cons doubleQuote (by decide) (doubleQuotes doubleQuote front)
  obtain ⟨w, hquote⟩ := exists_quote_cons u
  have hnone : .char ',' ∉ inBackticks w := by
    rw [← hquote, ← htrim]
    exact not_mem_quote (by decide) (by decide) fun hmem => hcomma (Text.trim_subset first hmem)
  rw [ColumnList.quote, ColumnList.names_append_cons hcomma (by rw [htrim]; simp), List.map_cons,
    htrim, hquote]
  intro heq
  have hseparator : Text.ofString "," = [.char ','] := by decide
  -- The first comma on either side ends the first entry, whether or not the list has more of them.
  cases hnames : (ColumnList.names back).map Identifier.quote with
  | nil =>
    have hjoined : Text.joined "," [inBackticks w] = inBackticks w := List.append_nil _
    rw [hnames, hjoined] at heq
    exact hnone (heq ▸ by simp)
  | cons second more =>
    rw [hnames, Text.joined_cons_cons, hseparator, List.append_assoc, List.singleton_append] at heq
    have hopen : .char ',' ∉ backtick :: doubleQuotes backtick front := by
      simp [mem_doubleQuotes_iff, hfront]
    have hsame := (Text.eq_of_append_cons_eq_of_front hnone hopen heq).1
    rw [inBackticks_eq] at hsame
    exact doubleQuotes_append_ne backtick w front (List.cons.inj hsame).2

/-- A list of one name is quoted as the name unless the name holds a comma. -/
theorem quote_list_iff [Quoting] (q : ColumnName) :
    ColumnList.quote q.text = inBackticks q.name ↔ .char ',' ∉ q.name := by
  constructor
  · intro heq hmem
    cases q with
    | bare word hword => exact hword.not_mem (by decide) hmem
    | quoted name _ _ =>
      obtain ⟨front, back, rfl, hfront⟩ := List.eq_append_cons_of_mem hmem
      refine quote_list_ne hfront (doubleQuotes doubleQuote back ++ [doubleQuote])
        (doubleQuotes backtick back ++ [backtick]) ?_
      simp only [text, ColumnName.name, inBackticks_eq] at heq
      rw [doubleQuotes_append_cons (by decide), doubleQuotes_append_cons (by decide)] at heq
      simpa using heq
  · intro hcomma
    rw [quote_list_of_not_mem (mt (mem_text_iff (by decide) q).mp hcomma) q.text_ne_nil q.trim_text,
      q.quote_text]

/-! ## Lists of columns -/

/-- An INSERT line with this column. -/
def insertLine (column : Text) : Text := "INSERT INTO t (" ++ (column ++ ") VALUES (1);")

/-- A line that adds a key on this column. -/
def keyLine (column : Text) : Text := "    ADD CONSTRAINT k UNIQUE (" ++ (column ++ ");")

theorem insertLine_inj {c c' : Text} : insertLine c = insertLine c' ↔ c = c' := by
  rw [insertLine, insertLine, List.append_cancel_left_eq, List.append_cancel_right_eq]

theorem keyLine_inj {c c' : Text} : keyLine c = keyLine c' ↔ c = c' := by
  rw [keyLine, keyLine, List.append_cancel_left_eq, List.append_cancel_right_eq]

/-- The list of an INSERT line is quoted up to the first closing parenthesis. -/
theorem quoteColumns_insertLine [Quoting] {list : Text} (hne : list ≠ []) (hlist : .char ')' ∉ list)
    (rest : Text) :
    Insert.quoteColumns ("INSERT INTO t (" ++ (list ++ .char ')' :: rest)) =
      "INSERT INTO t (" ++ (ColumnList.quote list ++ .char ')' :: rest) := by
  have hline (u : Text) : Text.ofString "INSERT INTO t (" ++ (u ++ .char ')' :: rest) =
      "INSERT INTO " ++ ("t" ++ (" (" ++ (u ++ (")" ++ rest)))) := by
    simp [Text.ofString]
  rw [hline, hline, Insert.quoteColumns_of_list (by decide) (by decide) hne hlist]

/-- The place in an INSERT line reads the name if it holds no comma and no closing parenthesis. -/
theorem insert_quoted_iff [Quoting] (q : ColumnName) :
    Insert.quoteColumns (insertLine q.text) = insertLine (inBackticks q.name) ↔
      .char ',' ∉ q.name ∧ .char ')' ∉ q.name := by
  have hend : Text.ofString ") VALUES (1);" = .char ')' :: Text.ofString " VALUES (1);" := by decide
  by_cases hclosed : .char ')' ∈ q.name
  · refine iff_of_false (fun heq => ?_) fun h => h.2 hclosed
    cases q with
    | bare word hword => exact hword.not_mem (by decide) hclosed
    | quoted name _ _ =>
      obtain ⟨front, back, rfl, hfront⟩ := List.eq_append_cons_of_mem hclosed
      let list := doubleQuote :: doubleQuotes doubleQuote front
      let rest := doubleQuotes doubleQuote back ++ [doubleQuote] ++ Text.ofString ") VALUES (1);"
      have hlist : .char ')' ∉ list := by
        simp [list, mem_doubleQuotes_iff, hfront]
      have hline : insertLine (text (quoted _ ‹_› ‹_›)) =
          "INSERT INTO t (" ++ (list ++ .char ')' :: rest) := by
        simp only [insertLine, text, list, rest]
        rw [doubleQuotes_append_cons (by decide)]
        simp
      rw [hline, quoteColumns_insertLine (List.cons_ne_nil _ _) hlist] at heq
      -- What is left of the name ends in a double quote, and the name in backticks does not.
      have hbehind := List.append_cancel_left heq
      have hsplit : ColumnList.quote list ++ .char ')' :: rest =
          (ColumnList.quote list ++ .char ')' :: doubleQuotes doubleQuote back ++ [doubleQuote]) ++
            Text.ofString ") VALUES (1);" := by
        simp [rest]
      rw [hsplit] at hbehind
      have hlast := congrArg List.getLast? (List.append_cancel_right hbehind)
      rw [List.getLast?_concat, inBackticks_eq, List.getLast?_concat] at hlast
      exact absurd hlast (by decide)
  · have hlist : .char ')' ∉ q.text := mt (mem_text_iff (by decide) q).mp hclosed
    have hquoted :
        Insert.quoteColumns (insertLine q.text) = insertLine (ColumnList.quote q.text) := by
      rw [insertLine, hend, quoteColumns_insertLine q.text_ne_nil hlist, insertLine, hend]
    rw [hquoted, insertLine_inj, quote_list_iff, and_iff_left hclosed]

/-- The place in a line that adds a key does so as well. -/
theorem key_quoted_iff [Quoting] (q : ColumnName) :
    AlterTable.quoteKey (keyLine q.text) = keyLine (inBackticks q.name) ↔
      .char ',' ∉ q.name ∧ .char ')' ∉ q.name := by
  let head : AlterTable.KeyHead := ⟨"k", .unique, by decide, by decide⟩
  have hend : Text.ofString ");" = [.char ')', .char ';'] := by decide
  have hfront : Text.ofString "    ADD CONSTRAINT k UNIQUE (" = head.front := by decide
  have hquote {list : Text} (hlist : .char ')' ∉ list) (rest : Text) :
      AlterTable.quoteKey (head.front ++ (list ++ .char ')' :: .char ';' :: rest)) =
        keyLine (ColumnList.quote list) := by
    rw [AlterTable.KeyHead.quoteKey_append hlist, keyLine, hend, hfront]
  by_cases hclosed : .char ')' ∈ q.name
  · refine iff_of_false (fun heq => ?_) fun h => h.2 hclosed
    have hmem : .char ')' ∈ inBackticks q.name := by
      simp [inBackticks_eq, mem_doubleQuotes_iff, hclosed]
    -- The pattern may find a `);` inside the name, or none at all; the name comes out wrong either
    -- way.
    by_cases hlist : ∃ list rest : Text, .char ')' ∉ list ∧
        q.text ++ ");" = list ++ .char ')' :: .char ';' :: rest
    · obtain ⟨list, rest, hnot, hsplit⟩ := hlist
      rw [keyLine, hsplit, hfront, hquote hnot, keyLine_inj] at heq
      have hnotQuoted : .char ')' ∉ ColumnList.quote list :=
        ColumnList.not_mem_quote (by decide) (by decide) (by decide) (by decide) hnot
      exact hnotQuoted (heq ▸ hmem)
    · have hself := @AlterTable.KeyHead.quoteKey_eq_self head _ (q.text ++ ");")
        fun list rest hnot hsplit => hlist ⟨list, rest, hnot, hsplit⟩
      rw [← hfront] at hself
      have hsame := keyLine_inj.mp (hself.symm.trans heq)
      cases q with
      | bare word hword => exact hword.not_mem (by decide) hclosed
      | quoted name _ _ =>
        rw [inBackticks_eq] at hsame
        exact absurd (List.cons.inj hsame).1 (by decide)
  · have hlist : .char ')' ∉ q.text := mt (mem_text_iff (by decide) q).mp hclosed
    rw [keyLine, hend, hfront, hquote hlist, keyLine_inj, quote_list_iff, and_iff_left hclosed]

/-! ## Definitions -/

/-- A line that defines this column. -/
def columnLine (column : Text) : Text := "    " ++ (column ++ " integer,")

/-- No rule takes an integer for another type. -/
theorem applyRules_integer : applyRules Column.typeRules " integer," = " integer," := by
  decide +kernel

/-- Rules that find nothing in a front leave it where it is. -/
theorem exists_applyRules_append {rules : List Rule} {u : Text}
    (h : ∀ r ∈ rules, r.Misses u ∨ r.PassesOver u) (t : Text) :
    ∃ t', applyRules rules (u ++ t) = u ++ t' := by
  induction rules generalizing t with
  | nil => exact ⟨t, rfl⟩
  | cons r rules ih =>
    obtain ⟨hr, hrules⟩ := List.forall_mem_cons.mp h
    rw [applyRules_cons]
    rcases hr with hr | hr
    · rw [Rule.apply_eq_self (hr.occursIn t)]
      exact ih hrules t
    · rw [hr.apply_append]
      exact ih hrules (r.apply t)

/-- If the rules run over the whole line, the blanks in front of a name stay, and so does the double
quote behind them. -/
theorem exists_applyRules_indent (t : Text) :
    ∃ t', applyRules Column.typeRules ("    \"" ++ t) = "    \"" ++ t' := by
  have hrules : ∀ r ∈ Column.typeRules.dropLast,
      r.Misses "    \"" ∨ r.PassesOver "    \"" := by decide +kernel
  obtain ⟨t', happly⟩ := exists_applyRules_append hrules t
  have hcitext : Column.citext.pattern.occursIn ("    \"" ++ t') = false := by
    refine Bool.eq_false_iff.mpr fun hoccurs => ?_
    obtain ⟨w, after, groups, hsplit, hm⟩ := Pattern.exists_of_occursIn_anchored rfl hoccurs
    obtain ⟨name, -, hname, hdot⟩ := @Column.citext_within [] _ _ _ _ hsplit hm
    rw [List.prefix_nil.mp hname] at hdot
    cases hdot
  have hsplit : Column.typeRules = Column.typeRules.dropLast ++ [Column.citext] := rfl
  rw [hsplit, applyRules_append, happly, applyRules_cons, Rule.apply_eq_self hcitext,
    applyRules_nil]
  exact ⟨t', rfl⟩

/-- A text that ends in a double quote when it is doubled ends in one itself. -/
theorem eq_of_doubleQuotes_eq_concat {front inner : Text}
    (h : doubleQuotes doubleQuote front = inner ++ [doubleQuote]) :
    inner = doubleQuotes doubleQuote front.dropLast ++ [doubleQuote] ∧
      front = front.dropLast ++ [doubleQuote] := by
  rcases List.eq_nil_or_concat front with rfl | ⟨f, s, rfl⟩
  · exact absurd (congrArg List.length h) (by simp [doubleQuotes])
  · rw [List.concat_eq_append, doubleQuotes_append] at h
    rw [List.concat_eq_append, List.dropLast_concat]
    by_cases hs : s = doubleQuote
    · subst hs
      have hpair : doubleQuotes doubleQuote [doubleQuote] = [doubleQuote] ++ [doubleQuote] := rfl
      rw [hpair, ← List.append_assoc] at h
      exact ⟨(List.append_cancel_right h).symm, rfl⟩
    · have hone : doubleQuotes doubleQuote [s] = [s] := by simp [doubleQuotes, hs]
      rw [hone] at h
      exact absurd (List.append_inj' h rfl).2 (by simpa using hs)

/-- A part of a name is no shorter in backticks than the name up to its first blank. -/
theorem exists_quote_part [Quoting] {front : Text} (hfront : ∀ s ∈ front, s.isBlank = false) :
    ∃ w, Identifier.quote (doubleQuote :: doubleQuotes doubleQuote front) =
        backtick :: w ++ [backtick] ∧
      .char ' ' ∉ w ∧ (doubleQuotes backtick front).length ≤ w.length := by
  have hspace : .char ' ' ∉ front := fun hmem => absurd (hfront _ hmem) (by decide)
  rw [Identifier.quote, isBetween_backtick_cons, if_neg Bool.false_ne_true]
  split
  · -- The name ends in a double quote up to the blank, and the text in doubled ones.
    next hbetween =>
    obtain ⟨inner, hinner⟩ := isBetween_iff.mp hbetween
    obtain ⟨hinside, hfrontsplit⟩ := eq_of_doubleQuotes_eq_concat (List.cons.inj hinner).2
    refine ⟨doubleQuotes backtick front, ?_, ?_, Nat.le_refl _⟩
    · rw [hinner, withoutEnds_between, hinside, undouble_double_concat, ← hfrontsplit,
        inBackticks_eq]
    · rw [mem_doubleQuotes_iff (by decide)]
      exact hspace
  · refine ⟨doubleQuotes backtick (doubleQuote :: doubleQuotes doubleQuote front),
      inBackticks_eq _, ?_, ?_⟩
    · simp [mem_doubleQuotes_iff, hspace]
    · have hcount : (doubleQuotes doubleQuote front).count backtick = front.count backtick := by
        rw [List.count_eq_countP, List.countP_eq_length_filter,
          filter_doubleQuotes (by decide), ← List.countP_eq_length_filter, ← List.count_eq_countP]
      simp only [length_doubleQuotes, List.length_cons, List.count_cons, hcount]
      omega

theorem isInk_text {t : Text} (ht : ∀ s ∈ t, s.isBlank = false) :
    ∀ s ∈ doubleQuote :: doubleQuotes doubleQuote t, s.isInk = true := by
  have hquote : doubleQuote.isInk = true := by decide
  intro s hs
  rcases List.mem_cons.mp hs with rfl | hs
  · exact hquote
  · rcases mem_of_mem_doubleQuotes hs with rfl | hs
    · exact hquote
    · simp [Symbol.isInk, ht s hs]

/-- A name in double quotes as it is written in a definition, as far as a blank in it. -/
theorem columnLine_quoted {front back : Text} {s : Symbol} (hs : s.isBlank = true) :
    columnLine (doubleQuote :: doubleQuotes doubleQuote (front ++ s :: back) ++ [doubleQuote]) =
      "    " ++ ((doubleQuote :: doubleQuotes doubleQuote front) ++ s ::
        (doubleQuotes doubleQuote back ++ [doubleQuote] ++ Text.ofString " integer,")) := by
  have hquote : s ≠ doubleQuote := by
    rintro rfl
    exact absurd hs (by decide)
  rw [columnLine, doubleQuotes_append_cons hquote]
  simp

/-- A name with a space is cut there, and what is in front of the space is quoted. -/
theorem convert_ne_of_space [Quoting] {front back : Text}
    (hline : (front ++ .char ' ' :: back).IsOneLine)
    (hfront : ∀ s ∈ front, s.isBlank = false) {line : Text}
    (htext : line = columnLine
      (doubleQuote :: doubleQuotes doubleQuote (front ++ .char ' ' :: back) ++ [doubleQuote]))
    (hdef : Column.isDefinition line = true) :
    Column.convert line ≠ columnLine (inBackticks (front ++ .char ' ' :: back)) := by
  have hindent : ∀ s ∈ Text.ofString "    ", s.isBlank = true := by decide
  have hrest : (doubleQuotes doubleQuote back ++ [doubleQuote] ++
      Text.ofString " integer,").IsOneLine := by
    have hback : Text.IsOneLine back := hline.of_subset fun s hs => by simp [hs]
    have hdoubled : Text.IsOneLine (doubleQuotes doubleQuote back) :=
      mt (mem_doubleQuotes_iff (by decide)).mp hback
    have hquoted : Text.IsOneLine [doubleQuote] := by decide
    have hend : Text.IsOneLine " integer," := by decide
    exact (hdoubled.append hquoted).append hend
  have hsplit := htext.trans (columnLine_quoted (by decide))
  rw [hsplit, Column.convert_append hindent (List.cons_ne_nil _ _) (isInk_text hfront) hrest
    (hsplit ▸ hdef)]
  obtain ⟨w, hw, hblank, hlength⟩ := exists_quote_part hfront
  rw [hw, columnLine, inBackticks_eq, doubleQuotes_append_cons (by decide)]
  intro heq
  -- Up to the first blank there is more on the left.
  have hbehind := (List.cons.inj (List.append_cancel_left heq)).2
  have hprefix : w ++ [backtick] <+: doubleQuotes backtick front ++ .char ' ' ::
      (doubleQuotes backtick back ++ [backtick] ++ Text.ofString " integer,") := by
    refine ⟨_, hbehind.trans ?_⟩
    simp
  have hnone : .char ' ' ∉ w ++ [backtick] := by simp [hblank]
  have hle := (Text.prefix_of_prefix_append_cons hnone hprefix).length_le
  rw [List.length_append, List.length_singleton] at hle
  omega

/-- A name with another blank is not taken apart, and stays in its double quotes. -/
theorem convert_ne_of_blank [Quoting] {name front back : Text} {s : Symbol} (hs : s.isBlank = true)
    (hspace : s ≠ .char ' ') (hfront : ∀ s ∈ front, s.isBlank = false) {line : Text}
    (htext : line = columnLine
      (doubleQuote :: doubleQuotes doubleQuote (front ++ s :: back) ++ [doubleQuote]))
    (hdef : Column.isDefinition line = true) :
    Column.convert line ≠ columnLine (inBackticks name) := by
  have hindent : ∀ s ∈ Text.ofString "    ", s.isBlank = true := by decide
  let rest := doubleQuotes doubleQuote back ++ [doubleQuote] ++ Text.ofString " integer,"
  have hstop : ∀ s' ∈ (s :: rest).head?, s'.isInk = false := by
    rintro _ ⟨⟩
    simp [Symbol.isInk, hs]
  have hsplit := htext.trans (columnLine_quoted hs)
  -- Only a space separates the name from its type; behind another blank no parts are found, and the
  -- rules for types keep the double quote in front.
  have hparts : Column.parts? line = none := by
    rw [hsplit, Column.parts?_append hindent (List.cons_ne_nil _ _) (isInk_text hfront) hstop]
    simp [hspace]
  have hfirst : line = "    \"" ++ (doubleQuotes doubleQuote front ++ s :: rest) := by
    rw [hsplit]
    simp [rest, Text.ofString]
  obtain ⟨t', happly⟩ := exists_applyRules_indent (doubleQuotes doubleQuote front ++ s :: rest)
  rw [Column.convert, if_pos hdef, hparts]
  simp only
  rw [hfirst, happly]
  intro heq
  have hfour : Text.ofString "    \"" = Text.ofString "    " ++ [doubleQuote] := by decide
  rw [hfour, List.append_assoc, columnLine, inBackticks_eq] at heq
  have hhead := (List.cons.inj (List.append_cancel_left heq)).1
  exact absurd hhead (by decide)

/-- A name with a blank is not read as a whole. -/
theorem convert_ne [Quoting] {name : Text} (hline : name.IsOneLine) {front back : Text} {s : Symbol}
    (hname : name = front ++ s :: back) (hs : s.isBlank = true)
    (hfront : ∀ s ∈ front, s.isBlank = false) {line : Text}
    (htext : line = columnLine (doubleQuote :: doubleQuotes doubleQuote name ++ [doubleQuote]))
    (hdef : Column.isDefinition line = true) :
    Column.convert line ≠ columnLine (inBackticks name) := by
  rw [hname] at htext
  by_cases hspace : s = .char ' '
  · subst hspace
    rw [hname] at hline ⊢
    exact convert_ne_of_space hline hfront htext hdef
  · exact convert_ne_of_blank hs hspace hfront htext hdef

/-- The place in a definition reads the name if it holds no blank. -/
theorem definition_quoted_iff [Quoting] (q : ColumnName)
    (hdef : Column.isDefinition (columnLine q.text) = true) :
    Column.convert (columnLine q.text) = columnLine (inBackticks q.name) ↔
      ∀ s ∈ q.name, s.isBlank = false := by
  have hlineEnd : Text.ofString " integer," = .char ' ' :: Text.ofString "integer," := by decide
  constructor
  · intro heq s hs
    refine Bool.eq_false_iff.mpr fun hblank => ?_
    cases q with
    | bare word hword =>
      rw [Symbol.isBlank_of_isWord (hword.2 s hs)] at hblank
      cases hblank
    | quoted name _ hline =>
      have hfind : (List.find? Symbol.isBlank name).isSome = true :=
        List.find?_isSome.mpr ⟨s, hs, hblank⟩
      obtain ⟨b, hb⟩ := Option.isSome_iff_exists.mp hfind
      obtain ⟨hblank, front, back, hname, hfront⟩ := List.find?_eq_some_iff_append.mp hb
      exact convert_ne hline hname hblank (fun s hs => by simpa using hfront s hs) rfl hdef heq
  · intro hname
    have hink : ∀ s ∈ q.text, s.isInk = true := by
      cases q with
      | bare word hword => exact fun s hs => by simp [Symbol.isInk, hname s hs]
      | quoted name _ _ =>
        intro s hs
        rcases List.mem_append.mp hs with hs | hs
        · exact isInk_text hname s hs
        · obtain rfl := List.mem_singleton.mp hs
          decide
    rw [columnLine, hlineEnd] at hdef ⊢
    rw [Column.convert_append (by decide) q.text_ne_nil hink (by decide) hdef, q.quote_text,
      ← hlineEnd, applyRules_integer, columnLine]

/-- The three places that quote a column read the same name, and put it into backticks, if it holds
no blank, no comma and no closing parenthesis. -/
theorem places_agree_iff [Quoting] (q : ColumnName)
    (hdef : Column.isDefinition (columnLine q.text) = true) :
    (Column.convert (columnLine q.text) = columnLine (inBackticks q.name) ↔
        ∀ s ∈ q.name, s.isBlank = false) ∧
      (Insert.quoteColumns (insertLine q.text) = insertLine (inBackticks q.name) ↔
        .char ',' ∉ q.name ∧ .char ')' ∉ q.name) ∧
      (AlterTable.quoteKey (keyLine q.text) = keyLine (inBackticks q.name) ↔
        .char ',' ∉ q.name ∧ .char ')' ∉ q.name) :=
  ⟨q.definition_quoted_iff hdef, q.insert_quoted_iff, q.key_quoted_iff⟩

/-- A name with a double quote in it comes through everywhere. -/
theorem name_with_quote_agrees :
    Column.convert (columnLine "\"x\"\"y\"") = columnLine "`x\"y`" ∧
      Insert.quoteColumns (insertLine "\"x\"\"y\"") = insertLine "`x\"y`" ∧
      AlterTable.quoteKey (keyLine "\"x\"\"y\"") = keyLine "`x\"y`" := by
  let q : ColumnName := .quoted "x\"y" (by decide) (by decide)
  obtain ⟨hdefinition, hinsert, hkey⟩ := places_agree_iff q (by decide +kernel)
  have htext : q.text = "\"x\"\"y\"" := by decide +kernel
  have hquoted : inBackticks q.name = "`x\"y`" := by decide +kernel
  rw [htext, hquoted] at hdefinition hinsert hkey
  exact ⟨hdefinition.mpr (by decide), hinsert.mpr (by decide), hkey.mpr (by decide)⟩

/-- A name with a blank is cut in a definition, one with a comma or a parenthesis in the lists. -/
theorem names_cut :
    Column.convert "    \"a b\" integer," = "    `\"a` b\" integer," ∧
      Insert.quoteColumns "INSERT INTO t (\"a,b\") VALUES (1);" =
        "INSERT INTO t (`\"a`,`b\"`) VALUES (1);" ∧
      Insert.quoteColumns "INSERT INTO t (\"a)b\") VALUES (1);" =
        "INSERT INTO t (`\"a`)b\") VALUES (1);" ∧
      AlterTable.quoteKey "    ADD CONSTRAINT k UNIQUE (\"a)b\");" =
        "    ADD CONSTRAINT k UNIQUE (\"a)b\");" := by
  decide +kernel

end ColumnName

end DumpDialect
