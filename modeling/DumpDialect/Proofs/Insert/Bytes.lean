import DumpDialect.Proofs.Insert.Boundaries
import DumpDialect.Proofs.Insert.Columns
import DumpDialect.Proofs.Insert.Keyword
import DumpDialect.Proofs.Insert.ValueRules
import DumpDialect.Proofs.Text.Line
import DumpDialect.Proofs.Text.Utf8

/-!
# Values of any bytes

A value of a dump may hold bytes that encode no characters. Such a value comes through as it is, for
each of its symbols is written with the bytes that it was read from, and no rule is about bytes that
are not ASCII.

- `ByteRow.decode_dumped`, `ByteRow.encode_line`: a row as bytes and as text.
- `ByteRow.written_line`: what is written for a row.
- `ByteRow.step_line`, `ByteRow.run_lines`: a row, and rows one after the other.
- `ByteRow.convertText_of_rows`, `ByteRow.encode_text_of_rows`: a dump of such rows.
-/

namespace DumpDialect

/-! ## Words of ASCII -/

/-- A word character of ASCII. -/
def Symbol.isAsciiWord : Symbol → Bool
  | .char c => c.toNat < 0x80 && isWord (.char c)
  | .raw _ => false

theorem Symbol.isBlank_of_isAsciiWord {s : Symbol} (h : s.isAsciiWord = true) :
    s.isBlank = false := by
  have hall : ∀ n < 0x80, isWord (.char (Char.ofNat n)) = true →
      isBlank (.char (Char.ofNat n)) = false := by decide
  cases s with
  | raw b => rfl
  | char c =>
    simp only [isAsciiWord, Bool.and_eq_true, decide_eq_true_eq] at h
    have hc := hall c.toNat h.1
    rw [Char.ofNat_toNat] at hc
    exact hc h.2

/-- The text is made of word characters of ASCII and of the symbols in `more`. -/
def Text.OfWords (more t : Text) : Prop := ∀ s ∈ t, s.isAsciiWord = true ∨ s ∈ more

instance (more : Text) : DecidablePred (Text.OfWords more) := fun t =>
  inferInstanceAs (Decidable (∀ s ∈ t, s.isAsciiWord = true ∨ s ∈ more))

namespace Text.OfWords

variable {more t : Text}

theorem not_mem (h : OfWords more t) {s : Symbol} (hs : s.isAsciiWord = false ∧ s ∉ more) :
    s ∉ t := by
  intro hmem
  rcases h s hmem with hword | hmore
  · rw [hs.1] at hword
    cases hword
  · exact hs.2 hmore

theorem isSome_char? (h : OfWords more t) (hmore : ∀ s ∈ more, s.char?.isSome = true) :
    ∀ s ∈ t, s.char?.isSome = true := by
  intro s hs
  rcases h s hs with hword | hs
  · cases s with
    | char c => rfl
    | raw b => cases hword
  · exact hmore s hs

theorem joined {separator : Text} {texts : List Text} (hseparator : OfWords more separator)
    (h : ∀ t ∈ texts, OfWords more t) : OfWords more (Text.joined separator texts) := by
  induction texts with
  | nil =>
    intro s hs
    cases hs
  | cons t texts ih =>
    obtain ⟨ht, htexts⟩ := List.forall_mem_cons.mp h
    cases texts with
    | nil => simpa [Text.joined, List.intercalate] using ht
    | cons u texts =>
      intro s hs
      rw [joined_cons_cons, List.mem_append, List.mem_append] at hs
      rcases hs with (hs | hs) | hs
      · exact ht s hs
      · exact hseparator s hs
      · exact ih htexts s hs

end Text.OfWords

namespace Insert

open Pattern

/-! ## Rows -/

/-- The bytes of LF, CR, the single quote and the backslash. -/
def specialBytes : List UInt8 := [0x0A, 0x0D, 0x27, 0x5C]

/-- A row of a dump with a list of columns, whose value may hold almost any bytes. -/
structure ByteRow where
  table : Text
  columns : List Text
  value : List UInt8
  table_ne_nil : table ≠ []
  table_word : Text.OfWords "." table
  table_marker : SequenceValue.marker.occursIn table = false
  columns_ne_nil : columns ≠ []
  column_word : ∀ c ∈ columns, c ≠ [] ∧ Text.OfWords [] c
  value_plain : ∀ b ∈ value, b ∉ specialBytes
  value_marker : SequenceValue.marker.occursIn (Text.decode value) = false
  value_time : ¬ ZonedTime (Text.decode value)

namespace ByteRow

/-- The columns as they are dumped. -/
def list (r : ByteRow) : Text := Text.joined ", " r.columns

/-- The columns in backticks. -/
def quotedList (r : ByteRow) : Text :=
  Text.joined "," (r.columns.map fun c => Identifier.backtick :: c ++ [Identifier.backtick])

/-- What stands in front of the value, with this list of columns. -/
def front (r : ByteRow) (list : Text) : Text :=
  "INSERT INTO " ++ (r.table ++ (" (" ++ (list ++ (")" ++ " VALUES (1, "))))

/-- The row with this list of columns as text. -/
def line (r : ByteRow) (list : Text) : Text :=
  r.front list ++ quote :: (Text.decode r.value ++ quote :: ");")

/-- The row with this list of columns as bytes. -/
def bytes (r : ByteRow) (list : Text) : List UInt8 :=
  Text.encode (r.front list ++ [quote]) ++ (r.value ++ Text.encode (quote :: ");"))

/-- The bytes of the row as it is dumped. -/
def dumped (r : ByteRow) : List UInt8 := r.bytes r.list

/-- The bytes of the row as it is written: its columns are in backticks. -/
def converted (r : ByteRow) : List UInt8 := r.bytes r.quotedList

/-! ## Symbols of a row -/

/-- The list holds words of ASCII, and nothing else but what stands between and around them. -/
def IsList (list : Text) : Prop := Text.OfWords ", \x60" list

theorem isInk_of_mem_table (r : ByteRow) {s : Symbol} (h : s ∈ r.table) : s.isInk = true := by
  rcases r.table_word s h with hs | hs
  · rw [Symbol.isInk, Symbol.isBlank_of_isAsciiWord hs, Bool.not_false]
  · obtain rfl := List.mem_singleton.mp hs
    decide

theorem isBare_column (r : ByteRow) {c : Text} (hc : c ∈ r.columns) : ColumnList.IsBareName c := by
  obtain ⟨hne, hword⟩ := r.column_word c hc
  refine ⟨hne, fun s hs => ?_, hword.not_mem (by decide), hword.not_mem (by decide),
    hword.not_mem (by decide)⟩
  exact Symbol.isBlank_of_isAsciiWord ((hword s hs).resolve_right List.not_mem_nil)

theorem isList_list (r : ByteRow) : IsList r.list := by
  refine .joined (fun s hs => .inr ?_) fun c hc s hs => ?_
  · exact (by decide : Text.ofString ", " ⊆ Text.ofString ", \x60") hs
  · exact .inl (((r.column_word c hc).2 s hs).resolve_right List.not_mem_nil)

theorem isList_quotedList (r : ByteRow) : IsList r.quotedList := by
  refine .joined (fun s hs => .inr ?_) fun quoted hquoted s hs => ?_
  · exact (by decide : Text.ofString "," ⊆ Text.ofString ", \x60") hs
  · obtain ⟨c, hc, rfl⟩ := List.mem_map.mp hquoted
    rw [List.cons_append, List.mem_cons, List.mem_append, List.mem_singleton] at hs
    rcases hs with rfl | hs | rfl
    · exact .inr (by decide)
    · exact .inl (((r.column_word c hc).2 s hs).resolve_right List.not_mem_nil)
    · exact .inr (by decide)

theorem list_ne_nil (r : ByteRow) : r.list ≠ [] := by
  obtain ⟨c, columns, hcolumns⟩ := List.exists_cons_of_ne_nil r.columns_ne_nil
  have hne : c ≠ [] := (r.column_word c (by simp [hcolumns])).1
  rw [list, hcolumns]
  cases columns with
  | nil => simpa [Text.joined, List.intercalate] using hne
  | cons c' columns =>
    rw [Text.joined_cons_cons]
    simp [hne]

/-- The symbols that no value holds. -/
def specials : Text := [quote, backslash, .lineFeed, .carriageReturn]

theorem not_mem_value (r : ByteRow) {s : Symbol} (hs : s ∈ specials) :
    s ∉ Text.decode r.value := by
  have hbyte : ∀ s ∈ specials, ∃ b ∈ specialBytes, b ∈ s.bytes := by decide
  intro hmem
  obtain ⟨b, hb, hbytes⟩ := hbyte s hs
  exact r.value_plain b (Text.bytes_subset_of_mem_decode hmem hbytes) hb

section List

variable (r : ByteRow) {list : Text} (hlist : IsList list)

include hlist

theorem not_mem_front {s : Symbol} (hs : s ∈ specials) : s ∉ r.front list := by
  have hspecial : ∀ s ∈ specials, (s.isAsciiWord = false ∧ s ∉ Text.ofString ".") ∧
      (s.isAsciiWord = false ∧ s ∉ Text.ofString ", \x60") ∧ s ∉ Text.ofString "INSERT INTO " ∧
      s ∉ Text.ofString " (" ∧ s ∉ Text.ofString ")" ∧ s ∉ Text.ofString " VALUES (1, " := by
    decide
  obtain ⟨htable, hcolumns, hinto, hopen, hclose, hvalues⟩ := hspecial s hs
  simp only [front, List.mem_append, not_or]
  exact ⟨hinto, r.table_word.not_mem htable, hopen, hlist.not_mem hcolumns, hclose, hvalues⟩

theorem fields_line :
    (r.line list).fields quote = [r.front list, Text.decode r.value, Text.ofString ");"] := by
  have hend : Text.fields quote ");" = [Text.ofString ");"] := by decide
  have hquote : quote ∈ specials := by decide
  rw [line, Text.fields_append_cons, Text.fields_append_cons, hend,
    Text.fields_of_not_mem (r.not_mem_front hlist hquote),
    Text.fields_of_not_mem (r.not_mem_value hquote)]
  rfl

theorem count_quote_line : (r.line list).count quote = 2 := by
  have hquote : quote ∈ specials := by decide
  have hend : (Text.ofString ");").count quote = 0 := by decide
  rw [line, List.count_append, List.count_cons_self, List.count_append, List.count_cons_self, hend,
    List.count_eq_zero_of_not_mem (r.not_mem_front hlist hquote),
    List.count_eq_zero_of_not_mem (r.not_mem_value hquote)]

theorem backslash_not_mem_line : backslash ∉ r.line list := by
  have hback : backslash ∈ specials := by decide
  simp only [line, List.mem_append, List.mem_cons, not_or]
  exact ⟨r.not_mem_front hlist hback, by decide, r.not_mem_value hback, by decide, by decide⟩

theorem isBare_line : (r.line list).IsBare := by
  have hend : ∀ s ∈ Text.ofString ");", s.isLineEnd = false := by decide
  have hspecial {t : Text} (ht : ∀ s ∈ specials, s ∉ t) : ∀ s ∈ t, s.isLineEnd = false := by
    intro s hs
    have hfeed : s ≠ .lineFeed := fun heq => ht .lineFeed (by decide) (heq ▸ hs)
    have hreturn : s ≠ .carriageReturn := fun heq => ht .carriageReturn (by decide) (heq ▸ hs)
    simp [Symbol.isLineEnd, hfeed, hreturn]
  intro s hs
  simp only [line, List.mem_append, List.mem_cons] at hs
  rcases hs with hs | rfl | hs | rfl | hs
  · exact hspecial (fun s => r.not_mem_front hlist) s hs
  · decide
  · exact hspecial (fun s => r.not_mem_value) s hs
  · decide
  · exact hend s hs

/-! ## Bytes -/

theorem isSome_char?_front : ∀ s ∈ r.front list, s.char?.isSome = true := by
  have hall : ∀ t ∈ ([Text.ofString "INSERT INTO ", " (", ")", " VALUES (1, "] : List Text),
      ∀ s ∈ t, s.char?.isSome = true := by decide
  intro s hs
  simp only [front, List.mem_append] at hs
  rcases hs with hs | hs | hs | hs | hs | hs
  · exact hall _ (by simp) s hs
  · exact r.table_word.isSome_char? (by decide) s hs
  · exact hall _ (by simp) s hs
  · exact hlist.isSome_char? (by decide) s hs
  · exact hall _ (by simp) s hs
  · exact hall _ (by simp) s hs

/-- A row is read from its bytes, whatever they encode in the value. -/
theorem decode_bytes : Text.decode (r.bytes list) = r.line list := by
  have hfront : ∀ s ∈ r.front list ++ [quote], s.char?.isSome = true := by
    intro s hs
    rcases List.mem_append.mp hs with hs | hs
    · exact r.isSome_char?_front hlist s hs
    · obtain rfl := List.mem_singleton.mp hs
      rfl
  have hback : Text.decode (Text.encode (quote :: ");")) = quote :: ");" :=
    Text.decode_encode (by decide)
  have hanew : Text.StartsAnew (Text.encode (quote :: ");")) := by decide +kernel
  rw [bytes, Text.decode_encode_append hfront, Text.decode_append r.value hanew, hback, line,
    List.append_assoc, List.singleton_append]

end List

/-- A row is written with the bytes of its value. -/
theorem encode_line (r : ByteRow) (list : Text) : Text.encode (r.line list) = r.bytes list := by
  have hsplit :
      r.line list = r.front list ++ [quote] ++ (Text.decode r.value ++ quote :: ");") := by
    simp [line]
  rw [hsplit, bytes]
  simp only [Text.encode_append, Text.encode_decode]

/-! ## What is written for a row -/

/-- A row is not taken for the value of a sequence. Blanks and quotes keep those parts of it apart
that could hold the marker. -/
theorem marker_line (r : ByteRow) {list : Text} (hlist : IsList list) :
    SequenceValue.marker.occursIn (r.line list) = false := by
  have hmarker : SequenceValue.marker = word "pg_catalog.setval" := rfl
  have hne : Text.ofString "pg_catalog.setval" ≠ [] := by decide
  have hblank : Symbol.char ' ' ∉ Text.ofString "pg_catalog.setval" := by decide
  have hquote : quote ∉ Text.ofString "pg_catalog.setval" := by decide
  have hdot : Symbol.char '.' ∈ Text.ofString "pg_catalog.setval" := by decide
  have hnone {t : Text} (ht : Symbol.char '.' ∉ t) :
      (word "pg_catalog.setval").occursIn t = false := occursIn_word_of_not_mem hdot ht
  let columns : Text := "(" ++ (list ++ (")" ++ " VALUES (1, "))
  have hcolumns : Symbol.char '.' ∉ columns := by
    simp only [columns, List.mem_append, not_or]
    exact ⟨by decide, hlist.not_mem (by decide), by decide, by decide⟩
  -- Two blanks and two quotes cut the line into five parts; the marker holds neither symbol, so it
  -- would lie in one of them.
  have hsplit : r.line list = Text.ofString "INSERT INTO" ++ .char ' ' ::
      (r.table ++ .char ' ' :: (columns ++ quote :: (Text.decode r.value ++ quote :: ");"))) := by
    simp [line, front, columns, Text.ofString]
  have htable := r.table_marker
  have hvalue := r.value_marker
  rw [hmarker] at htable hvalue ⊢
  rw [hsplit, occursIn_word_append_cons hne hblank, occursIn_word_append_cons hne hblank,
    occursIn_word_append_cons hne hquote, occursIn_word_append_cons hne hquote, htable, hvalue,
    hnone (by decide), hnone hcolumns, hnone (by decide)]
  rfl

theorem opens_line (r : ByteRow) (list : Text) : header.opens (r.line list) = true := by
  refine opens_iff.mpr ⟨"INSERT INTO " ++ r.table, " (" ++ (list ++ (")" ++ " VALUES (1, ")) ++
    quote :: (Text.decode r.value ++ quote :: ");"), [(1, r.table)], by simp [line, front], ?_⟩
  simp only [header, matches_inOrder_cons, matches_inOrder_nil, matches_blanks, matches_word,
    matches_group, ink, matches_someOf]
  exact ⟨[], _, [], _, rfl, rfl, ⟨by simp, rfl⟩, _, r.table, [], _, rfl, rfl, ⟨rfl, rfl⟩,
    r.table, [], _, [], by simp, rfl,
    ⟨[], rfl, r.table_ne_nil, fun s => r.isInk_of_mem_table, rfl⟩, rfl, rfl⟩

/-- The rules for values find nothing in a row. -/
theorem applyRules_line (r : ByteRow) {list : Text} (hlist : IsList list) :
    applyRules escapeRules (applyRules valueRules (r.line list)) = r.line list := by
  refine applyRules_eq_self (r.backslash_not_mem_line hlist) ?_
  intro field hfield hzoned
  have hdigit := hzoned.isDigit_head?
  rw [r.fields_line hlist] at hfield
  simp only [List.mem_cons, List.not_mem_nil, or_false] at hfield
  rcases hfield with rfl | rfl | rfl
  · exact absurd hdigit Bool.false_ne_true
  · exact r.value_time hzoned
  · exact absurd hdigit (by decide)

theorem quoteColumns_line [Quoting] (r : ByteRow) :
    quoteColumns (r.line r.list) = r.line r.quotedList := by
  have hopen : Symbol.char ')' ∉ r.list := r.isList_list.not_mem (by decide)
  have hline (list : Text) : r.line list = "INSERT INTO " ++ (r.table ++ (" (" ++ (list ++ (")" ++
      (" VALUES (1, " ++ quote :: (Text.decode r.value ++ quote :: ");")))))) := by
    simp [line, front]
  have hink : ∀ s ∈ r.table, s.isInk = true := fun s => r.isInk_of_mem_table
  rw [hline, quoteColumns_of_list r.table_ne_nil hink r.list_ne_nil hopen, hline, list,
    ColumnList.quote_joined fun c => r.isBare_column]
  rfl

variable {cfg : Config}

theorem written_line [Quoting] (hignore : cfg.insertIgnore = false) (r : ByteRow) :
    written cfg (r.line r.list) = r.line r.quotedList := by
  rw [written, valued, headed_of_opens (r.opens_line r.list), if_neg (by simp [hignore]),
    r.quoteColumns_line, r.applyRules_line r.isList_quotedList]

/-! ## Runs over rows -/

/-- What a run asks of the choices: no table is left out, the keyword is kept, and CREATE TYPE is no
error. -/
structure KeepsRows (cfg : Config) : Prop where
  skips : cfg.skipTables = []
  ignore : cfg.insertIgnore = false
  strict : cfg.strict = false

/-- A row is written, no statement is open after it, and nothing waits for the end because of it. -/
theorem step_line [Quoting] (hcfg : KeepsRows cfg) (r : ByteRow) {st : State}
    (hst : st.context = none) (next : Text) :
    (step cfg st (r.line r.list) next).result = .ok [r.line r.quotedList] ∧
      (step cfg st (r.line r.list) next).state.context = none ∧
      (step cfg st (r.line r.list) next).state.deferred = st.deferred := by
  have hkind : LineKind.of st.context (r.line r.list) = .statement .insert :=
    LineKind.of_opens (.inl hst) (r.opens_line r.list) (r.marker_line r.isList_list)
  have hwithheld :
      cfg.withholds st.suppressed (Statement.insert.table? (r.line r.list)) = false := by
    have htable : Statement.insert.table? (r.line r.list) ≠ none := by
      rw [ne_eq, Statement.table?_eq_none_iff, Bool.not_eq_false]
      exact r.opens_line r.list
    obtain ⟨table, htable⟩ := Option.ne_none_iff_exists'.mp htable
    simp [htable, Config.withholds, Config.skips, hcfg.skips]
  have hends : Text.ofString ");" <:+ r.line r.list :=
    ⟨r.front r.list ++ quote :: (Text.decode r.value ++ [quote]), by simp [line]⟩
  obtain ⟨hresult, hcontext, -, -⟩ :=
    step_of_line hcfg.strict next hkind (by simp [hst] : _ ↔ 0 % 2 = 1) hwithheld
  refine ⟨?_, ?_, ?_⟩
  · rw [hresult, if_neg Bool.false_ne_true, r.written_line hcfg.ignore]
  · have heven : (0 + (r.line r.list).count quote) % 2 = 0 := by
      rw [r.count_quote_line r.isList_list]
    rw [hcontext, if_pos ⟨parenthesisEnd_written cfg hends, heven⟩]
  · let v : Visit := ⟨st, r.line r.list, next⟩
    have hk : v.kind? cfg = some (.statement .insert) := by
      rw [Visit.kind?_of_lenient hcfg.strict, hkind]
    have hdeferred : v.deferred? cfg = none := by simp [Visit.deferred?, hk]
    have hstate := v.deferred_step cfg
    rwa [hdeferred, Option.toList_none, List.append_nil] at hstate

/-- Rows one after the other. The induction is on the rows; no statement is open in front of any. -/
theorem run_lines [Quoting] (hcfg : KeepsRows cfg) {rows : List ByteRow}
    {lines : List (Text × Text)}
    (hlines : lines.map Prod.fst = rows.map fun r => r.line r.list) {st : State}
    (hst : st.context = none) :
    (run cfg st lines).flatMap Step.output = rows.map (fun r => r.line r.quotedList) ∧
      errorOf (run cfg st lines) = none ∧
      (stateAfter st (run cfg st lines)).deferred = st.deferred := by
  induction rows generalizing lines st with
  | nil =>
    obtain rfl := List.map_eq_nil_iff.mp hlines
    exact ⟨rfl, rfl, rfl⟩
  | cons r rows ih =>
    obtain ⟨⟨line, next⟩, rest, rfl, rfl, hrest⟩ := List.map_eq_cons_iff.mp hlines
    obtain ⟨hresult, hcontext, hdeferred⟩ := step_line hcfg r hst next
    obtain ⟨houtput, herror, hlast⟩ := ih hrest hcontext
    have hrun : run cfg st ((r.line r.list, next) :: rest) =
        step cfg st (r.line r.list) next ::
          run cfg (step cfg st (r.line r.list) next).state rest := by
      rw [run_cons, hresult]
    have hfirst : errorOf [step cfg st (r.line r.list) next] = none := by
      simp [errorOf, Step.error?, hresult]
    rw [hrun]
    refine ⟨?_, ?_, ?_⟩
    · rw [List.flatMap_cons, houtput, Step.output, hresult]
      rfl
    · rw [← List.singleton_append, errorOf_append hfirst, herror]
    · rw [stateAfter_cons, hlast, hdeferred]

/-- A dump of rows is converted without an error, row by row. -/
theorem convertText_of_rows [Quoting] (hcfg : KeepsRows cfg) {rows : List ByteRow} {t : Text}
    (hmade : IsMadeOf Symbol.lineFeed (rows.map fun r => r.line r.list) t) :
    (convertText cfg t).error? = none ∧
      (convertText cfg t).output = banner ++ rows.map fun r => r.line r.quotedList := by
  have hbare : ∀ line ∈ rows.map fun r => r.line r.list, line ≠ [] ∧ Text.IsBare line := by
    intro line hline
    obtain ⟨r, -, rfl⟩ := List.mem_map.mp hline
    exact ⟨by simp [ByteRow.line], r.isBare_line r.isList_list⟩
  have hlines : (withLookahead t.lines).map Prod.fst = rows.map fun r => r.line r.list :=
    (map_fst_withLookahead t.lines).trans (hmade.bareLines_eq hbare)
  obtain ⟨houtput, herror, hdeferred⟩ := run_lines hcfg hlines (rfl : ({} : State).context = none)
  rw [convertText, convert]
  simp only [herror, houtput, hdeferred, List.map_nil, List.append_nil, and_self]

/-! ## Files of rows -/

private theorem decode_flatMap (rows : List ByteRow) :
    Text.decode ((rows.map dumped).flatMap (· ++ [0x0A])) =
      (rows.map fun r => r.line r.list).flatMap (· ++ [.lineFeed]) := by
  induction rows with
  | nil => rfl
  | cons r rows ih =>
    have hanew (rest : List UInt8) : Text.StartsAnew (0x0A :: rest) := by
      intro b hb
      obtain rfl := Option.some.inj hb
      decide
    have hfeed (rest : List UInt8) : Text.decode (0x0A :: rest) = .lineFeed :: Text.decode rest :=
      Text.decode_char_append '\n' rest
    rw [List.map_cons, List.flatMap_cons, List.append_assoc, List.singleton_append,
      Text.decode_append _ (hanew _), hfeed, ih, dumped, r.decode_bytes r.isList_list,
      List.map_cons, List.flatMap_cons, List.append_assoc, List.singleton_append]

/-- The text of a file that is made of rows is made of them as well. -/
theorem isMadeOf_lines {rows : List ByteRow} {file : List UInt8}
    (h : IsMadeOf 0x0A (rows.map dumped) file) :
    IsMadeOf Symbol.lineFeed (rows.map fun r => r.line r.list)
      (Text.decode file).unifyLineEnds := by
  have hmade : IsMadeOf Symbol.lineFeed (rows.map fun r => r.line r.list) (Text.decode file) := by
    rcases h with rfl | h
    · exact .inl (decode_flatMap rows)
    · have hfeed : Text.decode [0x0A] = [.lineFeed] := Text.decode_char_append '\n' []
      refine .inr ?_
      rw [← decode_flatMap, ← h, Text.decode_append file (by decide +kernel), hfeed]
  have hreturn : Symbol.carriageReturn ∉ Text.decode file := by
    refine hmade.not_mem (by decide) fun line hline hmem => ?_
    obtain ⟨r, -, rfl⟩ := List.mem_map.mp hline
    exact absurd (r.isBare_line r.isList_list _ hmem) (by decide)
  rwa [Text.unifyLineEnds_eq_self hreturn]

/-- A file of rows is converted to the banner and the rows with their columns in backticks. -/
theorem encode_text_of_rows [Quoting] (hcfg : KeepsRows cfg) {rows : List ByteRow}
    {file : List UInt8} (h : IsMadeOf 0x0A (rows.map dumped) file) :
    (convertText cfg (Text.decode file).unifyLineEnds).error? = none ∧
      Text.encode (convertText cfg (Text.decode file).unifyLineEnds).text =
        (banner.map Text.encode ++ rows.map converted).flatMap (· ++ [0x0A]) := by
  obtain ⟨herror, houtput⟩ := convertText_of_rows hcfg (isMadeOf_lines h)
  have hrow : Text.encode ∘ (fun r : ByteRow => r.line r.quotedList) = converted :=
    funext fun r => r.encode_line r.quotedList
  refine ⟨herror, ?_⟩
  rw [Conversion.text, houtput, Text.encode_flatMap_lineFeed, List.map_append, List.map_map, hrow]

end ByteRow

end Insert

end DumpDialect
