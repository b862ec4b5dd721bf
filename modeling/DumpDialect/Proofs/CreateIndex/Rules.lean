import DumpDialect.CreateIndex
import DumpDialect.CreateTable.Basic
import DumpDialect.SequenceValue
import DumpDialect.Proofs.Identifier
import DumpDialect.Proofs.Pattern.Leading
import DumpDialect.Proofs.Text.Classes
import DumpDialect.Proofs.Text.Pieces

/-!
# Indexes

pg_dump writes an index with its method and, for a column that is searched by patterns, with an
operator class. The rules look for these anywhere in the line, from the left: for ON ONLY, for USING
and a word, and for a word that ends like an operator class. In a line as it is dumped they find
them in their places and nowhere else.

- `Entry`, `TableName`, `Index`: an index as it is dumped.
- `onOnly_replaceFirst`, `usingMethod_replaceFirst`, `operatorClass_replaceAll`: the rules.
- `Index.applyRules_line`: the line that is left.
-/

namespace DumpDialect.CreateIndex

open Pattern

/-! ## Indexes as they are dumped -/

/-- How the name of an operator class for patterns ends. -/
abbrev suffix : Text := "_pattern_ops"

/-- An entry in the list of an index: a column, and the type that its operator class is for, if it
has one. -/
structure Entry where
  column : Text
  type? : Option Text
  isWord : column.IsWord
  isWord_type : ∀ t ∈ type?, t.IsWord
  noSuffix : ¬ suffix <:+ column

theorem isWord_suffix : ∀ s ∈ suffix, s.isWord = true := by decide

/-- The entry in the dump. -/
def Entry.text (e : Entry) : Text :=
  e.column ++ e.type?.elim [] fun t => .char ' ' :: (t ++ suffix)

/-- The list of an index, of so much of each entry, and the end of the statement. -/
def listText (shown : Entry → Text) (entries : List Entry) : Text :=
  Text.joined ", " (entries.map shown) ++ ");"

/-- The name of a table, with its schema or without it. -/
structure TableName where
  schema? : Option Text
  name : Text
  isWord : ∀ w ∈ name :: schema?.toList, w.IsWord
  noSuffix : ∀ w ∈ name :: schema?.toList, ¬ suffix <:+ w

/-- The name in the dump. -/
def TableName.text (t : TableName) : Text := t.schema?.elim t.name fun s => s ++ .char '.' :: t.name

/-- An index of a dump. -/
structure Index where
  unique : Bool
  name : Text
  only : Bool
  table : TableName
  method : Text
  entries : List Entry
  isWord_name : name.IsWord
  isWord_method : method.IsWord
  noSuffix : ¬ suffix <:+ name
  entries_ne_nil : entries ≠ []
  name_ne : name ≠ "USING"
  table_ne : table.text ≠ "USING" ∧ table.text ≠ "ONLY"
  noSequenceValue : SequenceValue.marker.occursIn table.text = false

namespace Index

variable (x : Index)

/-- The keyword of a unique index. -/
def uniqueWord : Text := if x.unique then "UNIQUE " else []

/-- The statement up to its table. -/
def front : Text := "CREATE " ++ (x.uniqueWord ++ ("INDEX " ++ (x.name ++ " ON ")))

/-- The statement from its table on, as it is in the dump. -/
def rest : Text :=
  x.table.text ++ (" USING " ++ (x.method ++ (" (" ++ listText Entry.text x.entries)))

/-- The statement in the dump. -/
def line : Text := x.front ++ ((if x.only then Text.ofString "ONLY " else []) ++ x.rest)

/-- The statement for MySQL. -/
def written : Text := x.front ++ (x.table.text ++ (" (" ++ listText Entry.column x.entries))

end Index

/-! ## Names -/

namespace TableName

variable {t : TableName}

/-- The name begins with a word that is no operator class. -/
theorem exists_run (t : TableName) :
    ∃ run rest, t.text = run ++ rest ∧ run.IsWord ∧ ¬ suffix <:+ run ∧
      ∀ s ∈ rest.head?, s = .char '.' := by
  obtain ⟨_ | schema, name, isWord, noSuffix⟩ := t
  · exact ⟨name, [], (List.append_nil name).symm, isWord name (by simp), noSuffix name (by simp),
      by simp⟩
  · refine ⟨schema, .char '.' :: name, rfl, isWord schema (by simp), noSuffix schema (by simp), ?_⟩
    rintro _ ⟨⟩
    rfl

/-- A name is of word symbols, but for the dot. -/
theorem mem_text {s : Symbol} (hs : s ∈ t.text) : s.isWord = true ∨ s = .char '.' := by
  obtain ⟨_ | schema, name, isWord, noSuffix⟩ := t
  · exact .inl ((isWord name (by simp)).2 s hs)
  · obtain hschema | hdot := List.mem_append.mp hs
    · exact .inl ((isWord schema (by simp)).2 s hschema)
    · obtain rfl | hname := List.mem_cons.mp hdot
      · exact .inr rfl
      · exact .inl ((isWord name (by simp)).2 s hname)

theorem not_mem_text {s : Symbol} (hs : s.isWord = false) (hdot : s ≠ .char '.') :
    s ∉ t.text := fun hmem => by
  obtain hword | rfl := mem_text hmem
  · rw [hs] at hword
    cases hword
  · exact hdot rfl

/-- The name is read as far as the blank behind it. -/
theorem ends_at_blank (t : TableName) :
    ∀ s ∈ t.text, (!s.isBlank && decide (s ≠ .char '(')) = true := by
  intro s hs
  have hblank : s.isBlank = false := by
    obtain hword | rfl := mem_text hs
    · exact Symbol.isBlank_of_isWord hword
    · decide
  have hopen : s ≠ .char '(' := by
    rintro rfl
    exact not_mem_text (by decide) (by decide) hs
  simp [hblank, hopen]

theorem text_ne_nil (t : TableName) : t.text ≠ [] := by
  obtain ⟨run, rest, htext, hrun, -⟩ := t.exists_run
  rw [htext]
  exact List.append_ne_nil_of_left_ne_nil hrun.1 rest

end TableName

/-! ## Lists -/

section Lists

variable {e e' : Entry} {more : List Entry} {shown : Entry → Text}

theorem listText_singleton : listText shown [e] = shown e ++ .char ')' :: [.char ';'] := by
  simp [listText, Text.joined, Text.ofString]

theorem listText_cons_cons :
    listText shown (e :: e' :: more) =
      shown e ++ .char ',' :: .char ' ' :: listText shown (e' :: more) := by
  simp [listText, Text.joined_cons_cons, Text.ofString]

/-- A list begins with its first column, and there the word ends. -/
theorem exists_listText (e : Entry) (more : List Entry) :
    ∃ rest, listText Entry.text (e :: more) = e.column ++ rest ∧
      ∀ s ∈ rest.head?, s.isWord = false := by
  have hcomma : (Symbol.char ',').isWord = false := by decide
  have hclose : (Symbol.char ')').isWord = false := by decide
  have hblank : (Symbol.char ' ').isWord = false := by decide
  have hbehind {t : Text} (ht : ∀ s ∈ t.head?, s.isWord = false) :
      ∃ rest, e.text ++ t = e.column ++ rest ∧ ∀ s ∈ rest.head?, s.isWord = false := by
    cases htype : e.type? with
    | none => exact ⟨t, by simp [Entry.text, htype], ht⟩
    | some type =>
      exact ⟨.char ' ' :: (type ++ suffix ++ t), by simp [Entry.text, htype], by simpa using hblank⟩
  cases more with
  | nil =>
    rw [listText_singleton]
    exact hbehind (by simpa using hclose)
  | cons e' more =>
    rw [listText_cons_cons]
    exact hbehind (by simpa using hcomma)

theorem Entry.not_mem_text (e : Entry) {s : Symbol} (hs : s.isWord = false)
    (hblank : s ≠ .char ' ') : s ∉ e.text := by
  have hcolumn := e.isWord.not_mem hs
  have hsuffix : s ∉ suffix := fun hmem => by
    rw [isWord_suffix s hmem] at hs
    cases hs
  cases htype : e.type? with
  | none => simp [Entry.text, htype, hcolumn]
  | some type =>
    have hword := (e.isWord_type type htype).not_mem hs
    simp [Entry.text, htype, hcolumn, hword, hsuffix, hblank]

theorem count_blank_text (e : Entry) : e.text.count (.char ' ') ≤ 1 := by
  have hcolumn : .char ' ' ∉ e.column := e.isWord.not_mem (by decide)
  cases htype : e.type? with
  | none => simp [Entry.text, htype, List.count_eq_zero_of_not_mem hcolumn]
  | some type =>
    have hword : .char ' ' ∉ type := (e.isWord_type type htype).not_mem (by decide)
    have hsuffix : .char ' ' ∉ suffix := by decide
    simp [Entry.text, htype, List.count_eq_zero_of_not_mem hcolumn,
      List.count_eq_zero_of_not_mem hword, List.count_eq_zero_of_not_mem hsuffix]

/-- There is one blank in an entry, so a word with more blanks does not stand in a list, unless it
begins with the blank in front of an entry. -/
theorem not_infix_listText {s : Symbol} {v : Text} (hs : s ≠ .char ' ')
    (hcount : 2 ≤ (s :: v).count (.char ' ')) (hcomma : .char ',' ∉ s :: v)
    (hclose : .char ')' ∉ s :: v) (entries : List Entry) :
    ¬ s :: v <:+: listText Entry.text entries := by
  have htext (e : Entry) : ¬ s :: v <:+: e.text := fun h => by
    have hle := h.sublist.count_le (.char ' ')
    have hone := count_blank_text e
    omega
  have hend : ¬ s :: v <:+: [.char ';'] := fun h => by
    have hle := h.sublist.count_le (.char ' ')
    have hnone : [Symbol.char ';'].count (.char ' ') = 0 := by decide
    omega
  -- Entry by entry: the comma between two entries is not in the word, so the word lies on one side.
  induction entries with
  | nil =>
    intro h
    have hle := h.sublist.count_le (.char ' ')
    have hnone : (listText Entry.text []).count (.char ' ') = 0 := by decide
    omega
  | cons e more ih =>
    intro h
    cases more with
    | nil =>
      rw [listText_singleton, Text.infix_append_cons_iff (List.cons_ne_nil s v) hclose] at h
      exact h.elim (htext e) hend
    | cons e' more =>
      rw [listText_cons_cons, Text.infix_append_cons_iff (List.cons_ne_nil s v) hcomma] at h
      exact h.elim (htext e) fun h => ih (Text.infix_of_infix_cons hs h)

end Lists

/-! ## The rules -/

/-- The pattern of the first rule. -/
def onOnly : Pattern := " ON ONLY "

/-- The pattern of the second rule. -/
def usingMethod : Pattern := inOrder [" USING ", identifier]

/-- The pattern of the third rule. -/
def operatorClass : Pattern := inOrder [" ", identifier, word suffix, wordEdge]

theorem applyRules_rules (t : Text) :
    applyRules rules t =
      operatorClass.replaceAll [] (usingMethod.replaceFirst [] (onOnly.replaceFirst [" ON "] t)) :=
  rfl

/-- A pattern that begins with a word between blanks does not match at another word. -/
theorem at?_eq_none_of_ne {p : Pattern} {v u w : Text}
    (h : p.opening? = some (.char ' ' :: (v ++ .char ' ' :: u))) (hv : .char ' ' ∉ v)
    (hw : .char ' ' ∉ w) (hne : w ≠ v) (t : Text) :
    p.at? ⟨none, .char ' ' :: (w ++ .char ' ' :: t)⟩ = none := by
  refine at?_eq_none_iff.mpr fun found rest groups hsplit hm => hne ?_
  obtain ⟨more, rfl⟩ := hm.opening_prefix h
  simp only [List.cons_append, List.append_assoc, List.cons.injEq, true_and] at hsplit
  exact (Text.eq_of_append_cons_eq_of_front hw hv hsplit).1

/-- Behind an operator class no word goes on. -/
theorem atWordEdge_suffix_iff {prev : Option Symbol} {rest : Text} :
    (Cursor.mk (lastOf prev suffix) rest).atWordEdge = true ↔
      ∀ s ∈ rest.head?, s.isWord = false :=
  Cursor.atWordEdge_iff (s := .char 's') rfl (by decide) prev

/-- Where a word does not end like an operator class none is found. -/
theorem operatorClass_at?_eq_none {run rest : Text} (hrun : ∀ s ∈ run, s.isWord = true)
    (hsuffix : ¬ suffix <:+ run) (hrest : ∀ s ∈ rest.head?, s.isWord = false) :
    operatorClass.at? ⟨none, .char ' ' :: (run ++ rest)⟩ = none := by
  refine at?_eq_none_iff.mpr fun found behind groups hsplit hm => ?_
  simp only [operatorClass, matches_inOrder_cons, identifier, matches_someOf] at hm
  obtain ⟨_, _, _, _, rfl, rfl, ⟨rfl, rfl⟩, type, _, _, _, rfl, rfl, ⟨-, htype, rfl⟩,
    _, _, _, _, rfl, rfl, ⟨rfl, rfl⟩, _, _, _, _, rfl, rfl, ⟨hedge, rfl, rfl⟩, rfl, rfl⟩ := hm
  have hword : ∀ s ∈ type ++ suffix, s.isWord = true :=
    List.forall_mem_append.mpr ⟨htype, isWord_suffix⟩
  have hbehind := atWordEdge_suffix_iff.mp hedge
  have hsplit' : run ++ rest = (type ++ suffix) ++ behind := by
    simpa [Text.ofString] using hsplit
  obtain ⟨rfl, -⟩ := Text.eq_of_runs_eq hrun hword hrest hbehind hsplit'
  exact hsuffix (List.suffix_append type suffix)

/-- An operator class is found where it stands. -/
theorem operatorClass_prefers {type rest : Text} (htype : type.IsWord)
    (hrest : ∀ s ∈ rest.head?, s.isWord = false) :
    operatorClass.Prefers none (.char ' ' :: (type ++ suffix)) rest [] := by
  have hnext {prev : Option Symbol} :
      (inOrder [word suffix, wordEdge]).Prefers prev suffix rest [] :=
    prefers_word.inOrder_cons (prefers_wordEdge (atWordEdge_suffix_iff.mpr hrest))
  have htries : identifier.Tries (some (.char ' ')) type (suffix ++ rest) [] _ :=
    tries_someOf htype.1 htype.2 hrest
  -- Where the run of the type reaches into the suffix, there is no whole one left behind it.
  have hpassed : ∀ c : Cursor, (∃ here gone, suffix = here ++ gone ∧ here ≠ [] ∧
      c.rest = gone ++ rest) → (inOrder [word suffix, wordEdge]).outcomes c = [] := by
    rintro ⟨prev, _⟩ ⟨here, gone, hsplit, hne, rfl⟩
    refine outcomes_inOrder_eq_nil fun hprefix => ?_
    have hwithin : suffix <+: gone := by
      cases rest with
      | nil => rwa [List.append_nil] at hprefix
      | cons s rest =>
        refine Text.prefix_of_prefix_append_cons (fun hmem => ?_) hprefix
        have hword := isWord_suffix s hmem
        rw [hrest s rfl] at hword
        cases hword
    have hlength := congrArg List.length hsplit
    have hle := hwithin.length_le
    rw [List.length_append] at hlength
    have hpos := List.length_pos_iff.mpr hne
    omega
  exact prefers_word.inOrder_cons (htries.seq hpassed hnext)

theorem operatorClass_replaceAll_text (e : Entry) {rest : Text}
    (hrest : ∀ s ∈ rest.head?, s.isWord = false) :
    operatorClass.replaceAll [] (e.text ++ rest) =
      e.column ++ operatorClass.replaceAll [] rest := by
  have hleading : operatorClass.leading? = some (.char ' ') := by decide
  rw [Entry.text, List.append_assoc,
    replaceAll_append hleading (e.isWord.not_mem (by decide)) []]
  cases htype : e.type? with
  | none => rfl
  | some type =>
    rw [Option.elim_some, replaceAll_of_prefers hleading
      (operatorClass_prefers (e.isWord_type type htype) hrest) []]
    rfl

/-- The operator classes are dropped, one after the other. -/
theorem operatorClass_replaceAll_listText (e : Entry) (more : List Entry) :
    operatorClass.replaceAll [] (listText Entry.text (e :: more)) =
      listText Entry.column (e :: more) := by
  have hleading : operatorClass.leading? = some (.char ' ') := by decide
  induction more generalizing e with
  | nil =>
    rw [listText_singleton, operatorClass_replaceAll_text e (by simp; decide), listText_singleton]
    rfl
  | cons e' more ih =>
    obtain ⟨rest, hlist, hrest⟩ := exists_listText e' more
    have hnone :
        operatorClass.at? ⟨none, .char ' ' :: listText Entry.text (e' :: more)⟩ = none := by
      rw [hlist]
      exact operatorClass_at?_eq_none e'.isWord.2 e'.noSuffix hrest
    rw [listText_cons_cons, operatorClass_replaceAll_text e (by simp; decide), listText_cons_cons,
      replaceAll_cons_of_none hleading [] (at?_eq_none_of_leading hleading (by decide) _ _),
      replaceAll_cons_of_none hleading [] hnone, ih e']

/-! ## The statement -/

namespace Index

variable {x : Index}

/-- The words of the statement in front of its name, but for the first. -/
def keywords (x : Index) : List Text := (if x.unique then ["UNIQUE"] else []) ++ ["INDEX"]

/-- The words of the statement as far as its table, but for the first. -/
def words (x : Index) : List Text := x.keywords ++ [x.name, "ON", x.table.text]

theorem front_eq (x : Index) :
    x.front = "CREATE" ++ (Text.separated (.char ' ') x.keywords ++
      .char ' ' :: (x.name ++ Text.ofString " ON ")) := by
  cases hunique : x.unique <;> simp [front, uniqueWord, keywords, hunique, Text.ofString]

theorem front_append (x : Index) (t : Text) :
    x.front ++ (x.table.text ++ t) = "CREATE" ++ (Text.separated (.char ' ') x.words ++ t) := by
  rw [front_eq, words]
  simp [Text.separated, Text.ofString]

theorem mem_keywords {w : Text} (h : w ∈ x.keywords) : w ∈ [Text.ofString "UNIQUE", "INDEX"] := by
  cases hunique : x.unique <;> simp_all [keywords]

theorem forall_words {P : Text → Prop} {x : Index}
    (hfixed : ∀ w ∈ ["UNIQUE", "INDEX", "ON"].map Text.ofString, P w) (hname : P x.name)
    (htable : P x.table.text) : ∀ w ∈ x.words, P w := by
  simp only [List.map_cons, List.map_nil, List.forall_mem_cons] at hfixed
  cases hunique : x.unique <;> simp [words, keywords, hunique, hfixed, hname, htable]

theorem blank_not_mem_name : .char ' ' ∉ x.name := x.isWord_name.not_mem (by decide)

theorem blank_not_mem_table : .char ' ' ∉ x.table.text :=
  TableName.not_mem_text (by decide) (by decide)

/-- The words of the statement in front of its list, but for the first, with the empty word behind
the last blank. -/
def headWords (x : Index) : List Text :=
  x.keywords ++ [x.name, Text.ofString "ON"] ++ (if x.only then [Text.ofString "ONLY"] else []) ++
    [x.table.text, Text.ofString "USING", x.method, []]

theorem line_eq (x : Index) :
    x.line = "CREATE" ++ Text.separated (.char ' ') x.headWords ++
      .char '(' :: listText Entry.text x.entries := by
  rw [line, front_eq, rest, headWords]
  cases x.only <;> simp [Text.separated, Text.ofString]

theorem forall_headWords {P : Text → Prop} {x : Index}
    (hfixed : ∀ w ∈ ["CREATE", "UNIQUE", "INDEX", "ON", "ONLY", "USING", ""].map Text.ofString, P w)
    (hname : P x.name) (htable : P x.table.text) (hmethod : P x.method) :
    ∀ w ∈ Text.ofString "CREATE" :: x.headWords, P w := by
  have hempty : Text.ofString "" = [] := rfl
  simp only [List.map_cons, List.map_nil, List.forall_mem_cons, hempty] at hfixed
  cases hunique : x.unique <;> cases honly : x.only <;>
    simp [headWords, keywords, hunique, honly, hfixed, hname, htable, hmethod]

theorem blank_not_mem_headWords (x : Index) :
    ∀ w ∈ Text.ofString "CREATE" :: x.headWords, .char ' ' ∉ w :=
  forall_headWords (by decide) blank_not_mem_name blank_not_mem_table
    (x.isWord_method.not_mem (by decide))

/-- Which words are neighbours: in front of the fixed ones any may stand, and in front of the names
only some of the fixed ones. -/
theorem isChain_headWords {R : Text → Text → Prop} {x : Index}
    (hfixed : ∀ b ∈ ["UNIQUE", "INDEX", "ON", "USING", ""].map Text.ofString, ∀ a, R a b)
    (hname : R "INDEX" x.name) (hmethod : R "USING" x.method)
    (htable : R (if x.only then "ONLY" else "ON" : String) x.table.text)
    (honly : x.only = true → R "ON" "ONLY") :
    (Text.ofString "CREATE" :: x.headWords).IsChain R := by
  have hempty : Text.ofString "" = [] := rfl
  simp only [List.map_cons, List.map_nil, List.forall_mem_cons, hempty] at hfixed
  cases hunique : x.unique <;> cases hkind : x.only <;>
    simp [headWords, keywords, hunique, hkind, hfixed, hname, hmethod] at htable honly ⊢ <;>
    simp [htable, honly]

/-- Two words do not stand in the statement, with a blank between them and one behind, if they are
not neighbours among its words. -/
theorem not_infix_line {w y : Text} (hw : w.IsWord) (hy : y.IsWord)
    (h : (Text.ofString "CREATE" :: x.headWords).IsChain fun a b => ¬ (w <:+ a ∧ b = y)) :
    ¬ w ++ .char ' ' :: (y ++ [.char ' ']) <:+: x.line := by
  have hnot {s : Symbol} (hs : s.isWord = false) (hblank : s ≠ .char ' ') :
      s ∉ w ++ .char ' ' :: (y ++ [.char ' ']) := by
    simp [hw.not_mem hs, hy.not_mem hs, hblank]
  have hcount : List.count (.char ' ') (w ++ Symbol.char ' ' :: (y ++ [.char ' '])) = 2 := by
    have hw' : Symbol.char ' ' ∉ w := hw.not_mem (by decide)
    have hy' : Symbol.char ' ' ∉ y := hy.not_mem (by decide)
    simp [List.count_eq_zero_of_not_mem hw', List.count_eq_zero_of_not_mem hy']
  rw [line_eq, Text.infix_append_cons_iff (by simp) (hnot (by decide) (by decide))]
  -- In front of the list the words are neighbours in the chain; inside it two blanks are too many.
  rintro (hhead | hlist)
  · refine Text.not_infix_of_isChain_fields (hw.not_mem (by decide)) (hy.not_mem (by decide)) ?_
      hhead
    rwa [Text.fields_append_separated x.blank_not_mem_headWords]
  · obtain ⟨s, w, rfl⟩ := List.exists_cons_of_ne_nil hw.1
    refine not_infix_listText ?_ (Nat.le_of_eq hcount.symm) (hnot (by decide) (by decide))
      (hnot (by decide) (by decide)) x.entries hlist
    rintro rfl
    exact absurd (hw.2 _ List.mem_cons_self) (by decide)

theorem typeDeclaration_occursIn (x : Index) :
    CreateTable.typeDeclaration.occursIn x.line = false := by
  have hsplit : Text.ofString "CREATE TYPE " =
      Text.ofString "CREATE" ++ .char ' ' :: (Text.ofString "TYPE" ++ [.char ' ']) := by decide
  have hfixed : ∀ b ∈ ["UNIQUE", "INDEX", "ON", "USING", ""].map Text.ofString, b ≠ "TYPE" := by
    decide
  refine Bool.eq_false_iff.mpr fun hoccurs => ?_
  have hword := occursIn_word_iff.mp hoccurs
  rw [hsplit] at hword
  refine not_infix_line (by decide) (by decide) (isChain_headWords ?_ ?_ ?_ ?_ ?_) hword
  · exact fun b hb a h => hfixed b hb h.2
  · exact fun h => absurd h.1 (by decide)
  · exact fun h => absurd h.1 (by decide)
  · cases x.only <;> exact fun h => absurd h.1 (by decide)
  · exact fun _ h => absurd h.1 (by decide)

theorem onOnly_replaceFirst_only (x : Index) :
    onOnly.replaceFirst [" ON "] (x.front ++ (Text.ofString "ONLY " ++ x.rest)) =
      x.front ++ x.rest := by
  have hleading : onOnly.leading? = some (.char ' ') := by decide
  have hopening : onOnly.opening? = some (.char ' ' :: (Text.ofString "ON" ++ .char ' ' ::
      Text.ofString "ONLY ")) := by decide
  have hline : x.front ++ (Text.ofString "ONLY " ++ x.rest) =
      "CREATE" ++ (Text.separated (.char ' ') x.keywords ++ .char ' ' :: x.name) ++
        (Text.ofString " ON ONLY " ++ x.rest) := by
    rw [front_eq]
    simp [Text.ofString]
  -- The name may itself be `ON`, so what stands behind it has to be looked at.
  have hname : onOnly.at? ⟨none, .char ' ' :: (x.name ++ (Text.ofString " ON ONLY " ++ x.rest))⟩ =
      none := by
    refine at?_eq_none_iff.mpr fun found behind groups hsplit hm => ?_
    obtain ⟨rfl, -⟩ := matches_word.mp hm
    have hwords : x.name ++ .char ' ' :: (Text.ofString "ON ONLY " ++ x.rest) =
        Text.ofString "ON" ++ .char ' ' :: (Text.ofString "ONLY " ++ behind) := by
      simpa [Text.ofString] using hsplit
    obtain ⟨-, hbehind⟩ :=
      Text.eq_of_append_cons_eq_of_front blank_not_mem_name (by decide) hwords
    simp [Text.ofString] at hbehind
  have hkeywords : onOnly.PassesOver (Text.separated (.char ' ') x.keywords)
      (.char ' ' :: (x.name ++ (Text.ofString " ON ONLY " ++ x.rest))) := by
    have hother : ∀ w ∈ [Text.ofString "UNIQUE", "INDEX"], .char ' ' ∉ w ∧ w ≠ "ON" := by decide
    refine passesOver_separated hleading (fun w hw => ?_) _
    obtain ⟨hblank, hne⟩ := hother w (mem_keywords hw)
    exact ⟨hblank, at?_eq_none_of_ne hopening (by decide) hblank hne⟩
  have hfound : onOnly.Prefers none " ON ONLY " x.rest [] := prefers_word
  -- Each blank in front of the match starts an attempt; all of them fail.
  have hpasses : onOnly.PassesOver ("CREATE" ++ (Text.separated (.char ' ') x.keywords ++
      .char ' ' :: x.name)) (Text.ofString " ON ONLY " ++ x.rest) :=
    PassesOver.append (at?_eq_none_of_front hleading (by decide) _)
      (PassesOver.append hkeywords (PassesOver.word hleading blank_not_mem_name hname))
  rw [hline, replaceFirst_append_of_none hleading _ hpasses, replaceFirst_of_prefers hfound,
    front_eq]
  simp [Match.expand, Text.ofString]

/-- The first rule finds its words only where they are dumped. -/
theorem onOnly_replaceFirst (x : Index) :
    onOnly.replaceFirst [" ON "] x.line = x.front ++ x.rest := by
  cases honly : x.only with
  | true =>
    rw [line, honly, if_pos rfl]
    exact onOnly_replaceFirst_only x
  | false =>
    have hfixed : ∀ b ∈ ["UNIQUE", "INDEX", "ON", "USING", ""].map Text.ofString, b ≠ "ONLY" := by
      decide
    have hsplit : Text.ofString " ON ONLY " = [.char ' '] ++ (Text.ofString "ON" ++ .char ' ' ::
        (Text.ofString "ONLY" ++ [.char ' '])) := by decide
    -- Without the clause no two words of the line in a row are `ON` and `ONLY`: the table is not
    -- named so.
    have hnone : onOnly.occursIn x.line = false := by
      refine Bool.eq_false_iff.mpr fun hoccurs => ?_
      have hword := occursIn_word_iff.mp hoccurs
      rw [hsplit] at hword
      refine not_infix_line (by decide) (by decide) (isChain_headWords ?_ ?_ ?_ ?_ ?_)
        ((List.suffix_append _ _).isInfix.trans hword)
      · exact fun b hb a h => hfixed b hb h.2
      · exact fun h => absurd h.1 (by decide)
      · exact fun h => absurd h.1 (by decide)
      · exact fun h => x.table_ne.2 h.2
      · exact fun h => absurd (honly ▸ h) Bool.false_ne_true
    rw [replaceFirst, Option.not_isSome_iff_eq_none.mp (Bool.eq_false_iff.mp hnone), line, honly]
    rfl

theorem usingMethod_replaceFirst (x : Index) :
    usingMethod.replaceFirst [] (x.front ++ x.rest) =
      x.front ++ (x.table.text ++ (" (" ++ listText Entry.text x.entries)) := by
  have hleading : usingMethod.leading? = some (.char ' ') := by decide
  have hopening : usingMethod.opening? =
      some (.char ' ' :: (Text.ofString "USING" ++ [.char ' '])) := by decide
  have hpass {w : Text} (hblank : .char ' ' ∉ w) (hne : w ≠ "USING") : .char ' ' ∉ w ∧
      ∀ t, usingMethod.at? ⟨none, .char ' ' :: (w ++ .char ' ' :: t)⟩ = none :=
    ⟨hblank, at?_eq_none_of_ne hopening (by decide) hblank hne⟩
  have hfixed : ∀ w ∈ ["UNIQUE", "INDEX", "ON"].map Text.ofString, .char ' ' ∉ w ∧ w ≠ "USING" := by
    decide
  have hwords := forall_words (fun w hw => hpass (hfixed w hw).1 (hfixed w hw).2)
    (hpass blank_not_mem_name x.name_ne) (hpass blank_not_mem_table x.table_ne.1)
  let behind : Text := " (" ++ listText Entry.text x.entries
  have hpasses : usingMethod.PassesOver ("CREATE" ++ Text.separated (.char ' ') x.words)
      (Text.ofString " USING " ++ (x.method ++ behind)) :=
    PassesOver.append (at?_eq_none_of_front hleading (by decide) _)
      (passesOver_separated hleading hwords _)
  have hmethod {prev : Option Symbol} : identifier.Prefers prev x.method behind [] :=
    prefers_someOf x.isWord_method.1 x.isWord_method.2 (by simp [behind, Text.ofString]; decide)
  have hfound : usingMethod.Prefers none (" USING " ++ x.method) behind [] :=
    prefers_word.inOrder_cons hmethod
  rw [rest, front_append, ← List.append_assoc, replaceFirst_append_of_none hleading _ hpasses,
    ← List.append_assoc (Text.ofString " USING "), replaceFirst_of_prefers hfound, front_append]
  simp [Match.expand, behind]

theorem operatorClass_replaceAll (x : Index) :
    operatorClass.replaceAll [] (x.front ++ (x.table.text ++
      (" (" ++ listText Entry.text x.entries))) = x.written := by
  have hleading : operatorClass.leading? = some (.char ' ') := by decide
  have hblank : (Symbol.char ' ').isWord = false := by decide
  have hpass {w : Text} (hw : w.IsWord) (hsuffix : ¬ suffix <:+ w) : .char ' ' ∉ w ∧
      ∀ t, operatorClass.at? ⟨none, .char ' ' :: (w ++ .char ' ' :: t)⟩ = none :=
    ⟨hw.not_mem hblank, fun t => operatorClass_at?_eq_none hw.2 hsuffix (by simpa using hblank)⟩
  have hfixed : ∀ w ∈ ["UNIQUE", "INDEX", "ON"].map Text.ofString, w.IsWord ∧ ¬ suffix <:+ w := by
    decide
  -- A table in quotes is no word, but it ends in a run of word symbols like one.
  have htable (t : Text) :
      operatorClass.at? ⟨none, .char ' ' :: (x.table.text ++ .char ' ' :: t)⟩ = none := by
    obtain ⟨run, rest, htext, hrun, hsuffix, hrest⟩ := x.table.exists_run
    rw [htext, List.append_assoc]
    refine operatorClass_at?_eq_none hrun.2 hsuffix ?_
    cases rest with
    | nil => simpa using hblank
    | cons s rest =>
      rintro _ ⟨⟩
      rw [hrest s rfl]
      decide
  have hwords := forall_words (fun w hw => hpass (hfixed w hw).1 (hfixed w hw).2)
    (hpass x.isWord_name x.noSuffix) ⟨blank_not_mem_table, htable⟩
  have hopen :
      operatorClass.at? ⟨none, Text.ofString " (" ++ listText Entry.text x.entries⟩ = none :=
    @operatorClass_at?_eq_none [] (.char '(' :: listText Entry.text x.entries)
      (List.forall_mem_nil _) (by decide) (by simp; decide)
  have hpasses : operatorClass.PassesOver ("CREATE" ++ (Text.separated (.char ' ') x.words ++
      Text.ofString " (")) (listText Entry.text x.entries) :=
    PassesOver.append (at?_eq_none_of_front hleading (by decide) _)
      (PassesOver.append (passesOver_separated hleading hwords _)
        (PassesOver.word hleading (by decide) hopen))
  obtain ⟨e, more, hentries⟩ := List.exists_cons_of_ne_nil x.entries_ne_nil
  have hline (list : Text) : x.front ++ (x.table.text ++ (Text.ofString " (" ++ list)) =
      "CREATE" ++ (Text.separated (.char ' ') x.words ++ Text.ofString " (") ++ list := by
    rw [front_append]
    simp
  rw [hline, replaceAll_append_of_none hleading [] hpasses, written, hline, hentries,
    operatorClass_replaceAll_listText]

/-- The rules leave the statement for MySQL. -/
theorem applyRules_line (x : Index) : applyRules rules x.line = x.written := by
  rw [applyRules_rules, onOnly_replaceFirst, usingMethod_replaceFirst, operatorClass_replaceAll]

end Index

end DumpDialect.CreateIndex
