import DumpDialect.Proofs.CreateTable.Definition
import DumpDialect.Proofs.Pattern.Ends
import DumpDialect.Quoting

/-!
# Casts of defaults

A literal that is a default has a cast to the type of its column behind it, and the cast is to be
removed whole. The rule for casts reads the name of a type up to the first symbol that cannot go on
with it. So of a name behind a schema, and of an interval with its fields, only the first word is
removed, and since its `::` is gone the rule for what casts are left does not find the rest.

- `FullType`: the names that are written behind `::`, and what is left of them.
- `FullType.typeCast_apply`: the cast.
- `PlainType`, `BareLiteral`: the types of columns and the literals that no rule changes.
- `ColumnFrame.cast_removed_iff`: the line that is written.
-/

namespace DumpDialect

open Pattern

namespace TypeName

/-! ## Names that are not read as a whole -/

/-- The fields of an interval: what stands in front of the last word, and the last word. -/
def intervalFields : List (Text × Text) :=
  [(" ", "year"), (" ", "month"), (" ", "day"), (" ", "hour"), (" ", "minute"), (" ", "second"),
    (" year to ", "month"), (" day to ", "hour"), (" day to ", "minute"), (" day to ", "second"),
    (" hour to ", "minute"), (" hour to ", "second"), (" minute to ", "second")]

/-- What stands between the first word of a name and its last. -/
inductive Joins : Text → Text → Text → Prop where
  | schema {schema name : Text} (hschema : schema.IsWord) (hname : name.IsWord) :
      Joins schema "." name
  | fields {lead name : Text} (h : (lead, name) ∈ intervalFields) : Joins "interval" lead name

/-- A type as it is written in a cast, without the mark of an array. -/
inductive FullType where
  | whole (T : CastType)
  | split (first lead name size : Text) (joins : Joins first lead name) (isSize : IsSize size)

namespace FullType

/-- The type with the mark of an array, as it is written. -/
def text : FullType → Text → Text
  | whole T, array => T.text ++ array
  | split first lead name size _ _, array => first ++ ((lead ++ name) ++ (size ++ array))

/-- What is left of the type. -/
def left : FullType → Text → Text
  | whole _, _ => []
  | split _ lead name size _ _, array => (lead ++ name) ++ (size ++ array)

/-- The type is read as a whole. -/
def IsWhole : FullType → Prop
  | whole _ => True
  | split .. => False

end FullType

/-! ## What they hold -/

theorem Joins.isWord {first lead name : Text} (h : Joins first lead name) : first.IsWord := by
  cases h with
  | schema hschema _ => exact hschema
  | fields _ => decide

theorem Joins.ends {first lead name : Text} (h : Joins first lead name) (rest : Text) :
    Ends ((lead ++ name) ++ rest) := by
  cases h with
  | schema _ _ => exact .of_cons (by decide) _
  | @fields lead name h =>
    -- The fields of an interval start with a blank, and none of the types read as two words goes on
    -- so.
    have hall : ∀ f ∈ intervalFields, (f.1 ++ f.2).head? = some (.char ' ') ∧
        ∀ s ∈ Text.ofString "vpw",
          ¬ [.char ' ', s] <+: f.1 ++ f.2 ∧ ¬ f.1 ++ f.2 <+: [.char ' ', s] := by
      decide
    obtain ⟨hhead, hblank⟩ := hall _ h
    obtain ⟨stem, hstem⟩ := List.head?_eq_some_iff.mp hhead
    refine ⟨?_, ?_, fun s hs => Text.not_prefix_append (hblank s hs).1 (hblank s hs).2 rest⟩
    · simp only at hstem
      rw [hstem]
      rintro _ ⟨⟩
      decide
    · simp only at hstem
      rw [hstem]
      intro hparen
      cases hparen

/-- The words of a name hold no parenthesis, and no blank in front of a capital `D`. -/
theorem Joins.words {first lead name : Text} (h : Joins first lead name) :
    lead ++ name ≠ [] ∧ ¬ Text.ofString " D" <:+: lead ++ name ∧
      ∀ s ∈ lead ++ name, (s.isWord || s.isIn " .") = true := by
  cases h with
  | schema _ hname =>
    have hall : ∀ s ∈ Text.ofString "." ++ name, (s.isWord || s.isIn " .") = true := by
      refine List.forall_mem_append.mpr ⟨by decide, fun s hs => ?_⟩
      exact Bool.or_eq_true_iff.mpr (.inl (hname.2 s hs))
    refine ⟨List.cons_ne_nil _ _, fun h => ?_, hall⟩
    have hblank : .char ' ' ∈ Text.ofString "." ++ name := h.subset (by decide)
    exact List.not_mem_append (by decide) (hname.not_mem (by decide)) hblank
  | fields h =>
    have hall : ∀ f ∈ intervalFields, f.1 ++ f.2 ≠ [] ∧ ¬ Text.ofString " D" <:+: f.1 ++ f.2 ∧
        ∀ s ∈ f.1 ++ f.2, (s.isWord || s.isIn " .") = true := by decide
    exact hall _ h

theorem ends_nil : Ends [] := ⟨by simp, by simp, by decide⟩

/-- Digits stand between the parentheses of a size. -/
theorem IsSize.not_empty {size : Text} (h : IsSize size) : ¬ Text.ofString "()" <:+: size := by
  have hprefers : (optional TypeName.size).Prefers Option.none size [] [] := size_prefers h ends_nil
  have hat := hprefers.at?
  obtain ⟨-, hm⟩ := matches_of_at? hat
  intro hpair
  have hholds := hm.holdsPair hpair
  revert hholds
  decide

/-- No blank in front of a capital `D` stands in a type name that is read as a whole. -/
theorem CastType.no_blank_capital (T : CastType) {array : Text}
    (harray : array ∈ [[], Text.ofString "[]"]) :
    ¬ Text.ofString " D" <:+: "::" ++ (T.text ++ array) := by
  have hprefers : cast.Prefers none ("::" ++ (T.text ++ array)) [] [] :=
    T.prefers_array harray ends_nil (by decide)
  have hat := hprefers.at?
  obtain ⟨-, hm⟩ := matches_of_at? hat
  intro hpair
  have hholds := hm.holdsPair hpair
  revert hholds
  decide

end TypeName

namespace Column

open DumpDialect.TypeName

variable {array ending : Text}

/-! ## The cast -/

/-- What stands behind the words of a name. -/
theorem IsSize.behind {size : Text} (hsize : IsSize size)
    (harray : array ∈ [[], Text.ofString "[]"]) (hending : ending ∈ endings) :
    (∀ s ∈ [quote, .char ':', .char 'D', .lineFeed], s ∉ size ++ (array ++ ending)) ∧
      ¬ Text.ofString "()" <:+: size ++ (array ++ ending) := by
  have hsizes : ∀ s ∈ [quote, .char ':', .char 'D', .lineFeed],
      s ∉ Text.ofString "(),0123456789" := by decide
  have hends : ∀ a ∈ [[], Text.ofString "[]"], ∀ e ∈ endings,
      (∀ s ∈ [quote, .char ':', .char 'D', .lineFeed], s ∉ a ++ e) ∧ .char ')' ∉ a ++ e := by
    decide
  obtain ⟨hnot, hparen⟩ := hends array harray ending hending
  refine ⟨fun s hs => List.not_mem_append (fun hmem => hsizes s hs (hsize.subset hmem)) (hnot s hs),
    fun h => hsize.not_empty ?_⟩
  exact @Text.infix_of_infix_append _ _ [.char '('] (.char ')') hparen h

/-- What is left of a type begins no other match. -/
theorem FullType.left_spec (T : FullType) (harray : array ∈ [[], Text.ofString "[]"])
    (hending : ending ∈ endings) :
    (∀ s ∈ [quote, .char ':', .lineFeed], s ∉ T.left array ++ ending) ∧
      ¬ Text.ofString " D" <:+: T.left array ++ ending ∧
      ¬ Text.ofString "()" <:+: T.left array ++ ending := by
  cases T with
  -- A type read as a whole leaves nothing but the end of the line.
  | whole T =>
    have hall : ∀ e ∈ endings, (∀ s ∈ [quote, .char ':', .lineFeed], s ∉ e) ∧
        ¬ Text.ofString " D" <:+: e ∧ ¬ Text.ofString "()" <:+: e := by decide
    exact hall ending hending
  | split first lead name size joins isSize =>
    obtain ⟨-, hblank, hwords⟩ := joins.words
    obtain ⟨hnot, hfunction⟩ := IsSize.behind isSize harray hending
    have hword {s : Symbol} (hs : (s.isWord || s.isIn " .") = false) : s ∉ lead ++ name :=
      fun hmem => by
        rw [hwords s hmem] at hs
        cases hs
    have hstems : ∀ s ∈ [quote, .char ':', .lineFeed], (s.isWord || s.isIn " .") = false := by
      decide
    have hsub : ∀ s ∈ [quote, .char ':', .lineFeed],
        s ∈ [quote, .char ':', .char 'D', .lineFeed] := by decide
    have hsplit : FullType.left (.split first lead name size joins isSize) array ++ ending =
        (lead ++ name) ++ (size ++ (array ++ ending)) := by
      simp [FullType.left]
    rw [hsplit]
    refine ⟨fun s hs => List.not_mem_append (hword (hstems s hs)) (hnot s (hsub s hs)),
      fun h => hblank ?_, fun h => hfunction ?_⟩
    · exact @Text.infix_of_infix_append _ _ [.char ' '] (.char 'D') (hnot _ (by decide)) h
    · exact @Text.infix_of_front_append _ _ [.char ')'] (.char '(') (hword (by decide)) h

/-- The cast is removed but for what is left of the type. -/
theorem FullType.typeCast_apply (T : FullType) (harray : array ∈ [[], Text.ofString "[]"])
    (hending : ending ∈ endings) :
    typeCast.apply (("::" ++ T.text array) ++ ending) = T.left array ++ ending := by
  cases T with
  | whole T => exact typeCast_ending T harray hending
  | split first lead name size joins isSize =>
    let T : CastType := ⟨first, [], .word joins.isWord.1 joins.isWord.2, .none⟩
    let rest := (lead ++ name) ++ ((size ++ array) ++ ending)
    have hbare : ([] : Text) ∈ [[], Text.ofString "[]"] := List.mem_cons_self
    obtain ⟨hnot, -⟩ := FullType.left_spec (.split first lead name size joins isSize) harray hending
    have hcolons : ¬ Text.ofString "::" <:+: rest := fun h =>
      hnot (.char ':') (by decide) (by simpa [FullType.left, rest] using h.subset (by decide))
    have hbrackets : ¬ Text.ofString "[]" <+: rest := by
      obtain ⟨hne, -, hwords⟩ := joins.words
      refine @Text.not_prefix_of_not_mem _ (.char '[') _ _ hne fun hmem => ?_
      exact absurd (hwords _ hmem) (by decide)
    have happly := Column.typeCast_apply T hbare (joins.ends _) hbrackets hcolons
    simpa [T, rest, CastType.text, FullType.text, FullType.left] using happly

/-- In front of the type and in it nothing is found that would be taken for a sequence. -/
theorem FullType.behind_spec (T : FullType) (harray : array ∈ [[], Text.ofString "[]"])
    (hending : ending ∈ endings) :
    (∀ s ∈ [quote, .lineFeed], s ∉ "::" ++ T.text array) ∧
      ¬ Text.ofString " D" <:+: ("::" ++ T.text array) ++ ending := by
  cases T with
  | whole T =>
    have hnone : ∀ s ∈ [quote, .lineFeed], isInType s = false ∧
        s ∉ Text.ofString "::" ∧ ∀ a ∈ [[], Text.ofString "[]"], s ∉ a := by decide
    have hcapital : ∀ e ∈ endings, .char 'D' ∉ e := by decide
    refine ⟨fun s hs => ?_, fun h => T.no_blank_capital harray ?_⟩
    · obtain ⟨hclass, hcolons, harrays⟩ := hnone s hs
      refine List.not_mem_append hcolons
        (List.not_mem_append (fun hmem => ?_) (harrays array harray))
      rw [T.isInType_text s hmem] at hclass
      cases hclass
    · exact @Text.infix_of_infix_append _ _ [.char ' '] (.char 'D') (hcapital ending hending) h
  | split first lead name size joins isSize =>
    obtain ⟨hnot, hcapital, -⟩ :=
      FullType.left_spec (.split first lead name size joins isSize) harray hending
    have hfirst : ∀ s ∈ [quote, .char ' ', .lineFeed], s ∉ Text.ofString "::" ++ first := by
      have hclasses : ∀ s ∈ [quote, .char ' ', .lineFeed], s ∉ Text.ofString "::" ∧
          s.isWord = false := by decide
      intro s hs
      exact List.not_mem_append (hclasses s hs).1 (joins.isWord.not_mem (hclasses s hs).2)
    have hsub : ∀ s ∈ [quote, .lineFeed], s ∈ [quote, .char ' ', .lineFeed] ∧
        s ∈ [quote, .char ':', .lineFeed] := by decide
    let left := FullType.left (.split first lead name size joins isSize) array
    have hsplit : "::" ++ FullType.text (.split first lead name size joins isSize) array =
        (Text.ofString "::" ++ first) ++ left := by
      simp [FullType.text, FullType.left, left]
    -- The first word holds no blank, so a blank with a D behind it stands in what is left.
    rw [hsplit, List.append_assoc _ left]
    refine ⟨fun s hs => List.not_mem_append (hfirst s (hsub s hs).1) fun hmem =>
      hnot s (hsub s hs).2 (List.mem_append_left _ hmem), fun h => hcapital ?_⟩
    exact @Text.infix_of_front_append _ _ [.char 'D'] (.char ' ') (hfirst _ (by decide)) h

/-! ## Types that no rule changes -/

/-- The rule for a time with a zone as default. -/
def timestampOffset : Rule :=
  typeStart "timestamp_default_offset"
    [" timestamp", precision, " DEFAULT '", group 2 dateTime, zoneOffset, "'"]
    [" timestamp", .group 1, " DEFAULT '", .group 2, "'"]

theorem timeRules_eq : timeRules = timeRules.take 4 ++ timestampOffset :: timeRules.drop 5 := rfl

/-- The type of a column in which no rule finds anything, with a literal as default behind it. -/
structure PlainType (type : Text) : Prop where
  noDefault : ¬ Text.ofString " DEFAULT" <:+: .char ' ' :: type
  noRule : ∀ r ∈ typeRules, r.pattern.occursIn (upTo (.char ' ' :: type)) = false
  isOneLine : type.IsOneLine

namespace PlainType

variable {type literal : Text}

/-- The rule is for the start of a definition, and no match of it reaches a quote. -/
def IsAtStart (r : Rule) : Prop :=
  r.pattern.anchor?.isSome = true ∧ r.pattern.isLocal = true ∧ r.pattern.allows quote = false

instance : DecidablePred IsAtStart := fun _ => inferInstanceAs (Decidable (_ ∧ _))

/-- A rule for the start of a definition does not look behind the quote that it does not hold. -/
theorem occursIn (h : PlainType type) {r : Rule} (hr : r ∈ typeRules) (hstart : IsAtStart r)
    (t : Text) : r.pattern.occursIn (upTo (.char ' ' :: type) ++ t) = false := by
  obtain ⟨hanchor, hlocal, hquote⟩ := hstart
  obtain ⟨v, hanchor⟩ := Option.isSome_iff_exists.mp hanchor
  let front := .char ' ' :: type ++ Text.ofString " DEFAULT "
  have hsplit (t : Text) : upTo (.char ' ' :: type) ++ t = front ++ quote :: t := by
    simp [upTo, front, Text.ofString]
  have hnone := h.noRule r hr
  rw [← List.append_nil (upTo _), hsplit] at hnone
  rw [hsplit]
  exact occursIn_eq_false_of_same_front hanchor hlocal (fun w rest groups hw hm =>
    Text.prefix_of_prefix_append_cons (hm.not_mem hquote) ⟨rest, hw.symm⟩) hnone rfl

theorem isHead (h : PlainType type) : IsHead (.char ' ' :: type) := by
  refine ⟨h.noDefault, fun hcolons => ?_⟩
  have hnone := h.noRule residualCast (by simp [typeRules_eq, castRules_eq])
  rw [Bool.eq_false_iff, Ne, occursIn_residualCast_iff] at hnone
  exact hnone (hcolons.trans (List.prefix_append ..).isInfix)

/-- A zone is taken off a literal with the colon of a time only. -/
theorem occursIn_offset (h : PlainType type) (hcolon : .char ':' ∉ literal) (rest : Text) :
    timestampOffset.pattern.occursIn (upTo (.char ' ' :: type) ++ (literal ++ quote :: rest)) =
      false := by
  refine Bool.eq_false_iff.mpr fun hoccurs => ?_
  obtain ⟨w, after, _, hsplit, hm⟩ := exists_of_occursIn_anchored rfl hoccurs
  simp only [timestampOffset, typeStart, Rule.once, matches_inOrder_cons, matches_group] at hm
  obtain ⟨_, _, _, _, rfl, -, ⟨-, rfl, -⟩, _, _, _, _, rfl, -, ⟨rfl, -⟩,
    size, _, _, _, rfl, -, hsize, _, _, _, _, rfl, -, ⟨rfl, -⟩,
    time, zone, _, _, rfl, -, ⟨_, -, htime⟩, _⟩ := hm
  have hcapital : .char 'D' ∉ Text.ofString " timestamp" ++ size :=
    List.not_mem_append (by decide) (hsize.not_mem (by decide))
  have hword : ¬ Text.ofString " DEFAULT" <:+: Text.ofString " timestamp" ++ size := fun h =>
    hcapital (h.subset (by decide))
  -- The default begins at one place only, so the time begins with the literal.
  have hsplit' : (.char ' ' :: type) ++ ((.char ' ' :: Text.ofString "DEFAULT") ++
      (Text.ofString " '" ++ (literal ++ quote :: rest))) =
        (Text.ofString " timestamp" ++ size) ++ ((.char ' ' :: Text.ofString "DEFAULT") ++
          (Text.ofString " '" ++ (time ++ (zone ++ after)))) := by
    simpa [upTo, Text.ofString] using hsplit
  obtain ⟨-, hliteral⟩ := Text.eq_of_append_word_eq (by decide) h.noDefault hword hsplit'
  have htimes := List.append_cancel_left hliteral
  have hquote : quote ∉ time := htime.not_mem (by decide)
  have hbegins : time <+: literal := by
    refine @Text.prefix_of_prefix_append_cons _ rest _ _ hquote ?_
    rw [htimes]
    exact List.prefix_append ..
  have hholds : Text.ofString ":" <:+: time := by
    rw [dateTime] at htime
    exact htime.word_infix (by simp)
  exact hcolon (hbegins.subset (hholds.subset (by decide)))

theorem citext (h : PlainType type) (t : Text) :
    Column.citext.pattern.occursIn (upTo (.char ' ' :: type) ++ t) = false := by
  have hnone := h.noRule Column.citext (by simp [typeRules_eq, defaultRules_eq])
  rw [upTo] at hnone ⊢
  rw [List.append_assoc]
  refine occursIn_eq_false_of_same_front rfl rfl (fun w rest groups hw hm => ?_) hnone rfl
  obtain ⟨name, rfl, hname, -⟩ := citext_within hw hm
  exact List.cons_prefix_cons.mpr ⟨rfl, hname⟩

end PlainType

/-! ## The default -/

/-- A literal in which nothing is found that could go with a cast or a function. -/
structure BareLiteral (literal : Text) : Prop where
  bare : ∀ s ∈ Text.ofString ":,()'", s ∉ literal
  noLongtext : ¬ Text.ofString " longtext DEFAULT " <:+: literal
  isOneLine : literal.IsOneLine

namespace BareLiteral

variable {type literal : Text}

/-- A word with an opening parenthesis and a default in it stands neither in the literal nor behind
it. -/
theorem not_within (h : BareLiteral literal) {v rest : Text} (hquote : quote ∉ v)
    (hparen : .char '(' ∈ v) (hcapital : Text.ofString " D" <:+: v)
    (hrest : ¬ Text.ofString " D" <:+: rest) : ¬ v <:+: literal ++ quote :: rest := by
  rw [Text.infix_append_cons_iff (List.ne_nil_of_mem hparen) hquote]
  exact not_or.mpr ⟨fun hwithin => h.bare (.char '(') (by decide) (hwithin.subset hparen),
    fun hwithin => hrest (hcapital.trans hwithin)⟩

/-- Of the cast behind the literal only what is left of the type stays. -/
theorem applyRules_castRules (h : BareLiteral literal) (T : FullType)
    (harray : array ∈ [[], Text.ofString "[]"]) (hending : ending ∈ endings) :
    applyRules castRules (literal ++ quote :: (("::" ++ T.text array) ++ ending)) =
      literal ++ quote :: (T.left array ++ ending) := by
  obtain ⟨-, hbehind⟩ := FullType.behind_spec T harray hending
  obtain ⟨hleft, -, -⟩ := FullType.left_spec T harray hending
  have hcolons : ¬ Text.ofString "::" <:+: literal := fun hwithin =>
    h.bare (.char ':') (by decide) (hwithin.subset (by decide))
  -- All but the rule for casts open with a default, of which there is none behind the literal.
  have hinteger : ∀ r ∈ integerDefaults,
      r.pattern.occursIn (literal ++ quote :: (("::" ++ T.text array) ++ ending)) = false := by
    have hopens : ∀ r ∈ integerDefaults, r.pattern.opening? = some " DEFAULT ('" := by decide
    have hword : Text.ofString " DEFAULT (" <:+: Text.ofString " DEFAULT ('" :=
      ⟨[], [quote], by decide⟩
    intro r hr
    exact occursIn_of_opening (hopens r hr) fun hwithin =>
      h.not_within (by decide) (by decide) ⟨[], _, rfl⟩ hbehind (hword.trans hwithin)
  have hsequence : sequenceDefault.pattern.occursIn
      (literal ++ quote :: (("::" ++ T.text array) ++ ending)) = false :=
    occursIn_of_opening rfl (h.not_within (by decide) (by decide) ⟨[], _, rfl⟩ hbehind)
  refine Column.applyRules_castRules hcolons hinteger hsequence
    (FullType.typeCast_apply T harray hending) ?_
  exact fun hwithin => hleft (.char ':') (by decide) (hwithin.subset (by decide))

/-- Behind a type that no rule changes the literal stays. -/
theorem applyRules_typeRules (h : BareLiteral literal) (htype : PlainType type) (T : FullType)
    (harray : array ∈ [[], Text.ofString "[]"]) (hending : ending ∈ endings) :
    applyRules typeRules (upTo (.char ' ' :: type) ++
        (literal ++ quote :: (("::" ++ T.text array) ++ ending))) =
      upTo (.char ' ' :: type) ++ (literal ++ quote :: (T.left array ++ ending)) := by
  let rest := T.left array ++ ending
  have hnames : ∀ r ∈ nameRules, PlainType.IsAtStart r := by decide
  have hname (t : Text) : ∀ r ∈ nameRules,
      r.pattern.occursIn (upTo (.char ' ' :: type) ++ t) = false := fun r hr =>
    htype.occursIn (List.mem_of_mem_take hr) (hnames r hr) t
  have htimes : ∀ r ∈ timeRules.take 4 ++ timeRules.drop 5, PlainType.IsAtStart r := by decide
  have htime : ∀ r ∈ timeRules,
      r.pattern.occursIn (upTo (.char ' ' :: type) ++ (literal ++ quote :: rest)) = false := by
    intro r hr
    have hmem : r ∈ typeRules := List.mem_of_mem_drop (List.mem_of_mem_take hr)
    rw [timeRules_eq, List.mem_append, List.mem_cons] at hr
    rcases hr with hr | rfl | hr
    · exact htype.occursIn hmem (htimes r (List.mem_append_left _ hr)) _
    · exact htype.occursIn_offset (h.bare _ (by decide)) rest
    · exact htype.occursIn hmem (htimes r (List.mem_append_right _ hr)) _
  obtain ⟨hleft, hcapital, hfunction⟩ := FullType.left_spec T harray hending
  -- The rule for long texts is not anchored: its words may not stand in the literal either.
  have hlongtext : ¬ Text.ofString " longtext DEFAULT " <:+:
      upTo (.char ' ' :: type) ++ (literal ++ quote :: rest) := by
    have hnone := htype.noRule longtextDefault (by simp [typeRules_eq, defaultRules_eq])
    rw [Bool.eq_false_iff, Ne, occursIn_longtextDefault_iff] at hnone
    have hfront : .char ' ' :: type ++ Text.ofString " DEFAULT " <+: upTo (.char ' ' :: type) :=
      ⟨[quote], by simp [upTo, Text.ofString]⟩
    rw [infix_upTo_iff (by decide) (by decide)]
    refine not_or.mpr ⟨fun hwithin => hnone (hwithin.trans hfront.isInfix),
      not_or.mpr ⟨h.noLongtext, fun hwithin => hcapital ?_⟩⟩
    have hword : Text.ofString " D" <:+: Text.ofString " longtext DEFAULT " :=
      ⟨" longtext", "EFAULT ", by decide⟩
    exact hword.trans hwithin
  have hpair : ¬ Text.ofString "()" <:+: literal ++ quote :: rest := by
    rw [Text.infix_append_cons_iff (by decide) (by decide)]
    exact not_or.mpr ⟨fun hwithin => h.bare (.char '(') (by decide) (hwithin.subset (by decide)),
      hfunction⟩
  have hobject : objectDefault.pattern.occursIn (literal ++ quote :: rest) = false :=
    occursIn_of_opening rfl (h.not_within (by decide) (by decide) ⟨[], _, rfl⟩ hcapital)
  -- Names, casts, times, defaults: the second group alone finds something.
  rw [typeRules_eq, applyRules_append, applyRules_append, applyRules_append,
    applyRules_of_not_occursIn (hname _),
    applyRules_append_of_passesOver htype.isHead.passesOver_castRules,
    h.applyRules_castRules T harray hending, applyRules_of_not_occursIn htime]
  exact applyRules_defaultRules htype.isHead hlongtext hpair hobject (htype.citext _)

end BareLiteral

/-! ## The line -/

theorem FullType.isOneLine_text (T : FullType) (harray : array ∈ [[], Text.ofString "[]"]) :
    (T.text array).IsOneLine := by
  obtain ⟨hnot, -⟩ :=
    FullType.behind_spec T harray (List.mem_cons_self : Text.ofString "" ∈ endings)
  exact fun hmem => hnot .lineFeed (by decide) (List.mem_append_right _ hmem)

/-- Nothing is left of a type that is read as a whole, and only of such a type. -/
theorem FullType.left_eq_nil_iff (T : FullType) : T.left array = [] ↔ T.IsWhole := by
  cases T with
  | whole T => exact iff_of_true rfl trivial
  | split first lead name size joins isSize =>
    refine iff_of_false (fun h => joins.words.1 ?_) id
    exact (List.append_eq_nil_iff.mp h).1

/-- **The cast of a default is removed whole if and only if its type is read as a whole.** Of a type
behind a schema, and of an interval with its fields, all but the first word stays behind the
literal. -/
theorem ColumnFrame.cast_removed_iff [Quoting] (c : ColumnFrame) {type literal : Text}
    (htype : PlainType type) (hliteral : BareLiteral literal) (T : FullType)
    (harray : array ∈ [[], Text.ofString "[]"])
    (hdef : isDefinition (c.line (withDefault type literal (T.text array))) = true) :
    convert (c.line (withDefault type literal (T.text array))) =
        c.written (withLiteral type literal ++ T.left array) ∧
      (convert (c.line (withDefault type literal (T.text array))) =
        c.written (withLiteral type literal) ↔ T.IsWhole) := by
  have hquotes : doubleQuotes quote literal = literal :=
    doubleQuotes_of_not_mem (hliteral.bare quote (by decide))
  have hline := isOneLine_withDefault htype.isOneLine hliteral.isOneLine
    (FullType.isOneLine_text T harray)
  have hwritten : convert (c.line (withDefault type literal (T.text array))) =
      c.written (withLiteral type literal ++ T.left array) := by
    have hrest : .char ' ' :: ((withLiteral type literal ++ T.left array) ++ c.ending) =
        upTo (.char ' ' :: type) ++ (literal ++ quote :: (T.left array ++ c.ending)) := by
      rw [List.append_assoc, cons_withLiteral, hquotes]
    rw [c.convert_line hdef hline, cons_withDefault, hquotes,
      hliteral.applyRules_typeRules htype T harray c.isEnding, ColumnFrame.written, hrest]
  refine ⟨hwritten, ?_⟩
  rw [hwritten, ← @FullType.left_eq_nil_iff array T]
  constructor
  · intro h
    have hlength := congrArg List.length h
    simp only [ColumnFrame.written, List.length_append, List.length_cons] at hlength
    exact List.eq_nil_of_length_eq_zero (by omega)
  · intro h
    rw [h, List.append_nil]

/-- The cast to an array of times with a precision is removed. -/
theorem ColumnFrame.zoned_cast_removed :
    convert "    c timestamp(3) DEFAULT 'a b'::timestamp(3) without time zone[] NOT NULL," =
      "    `c` timestamp(3) DEFAULT 'a b' NOT NULL," := by
  let c : ColumnFrame := ⟨"    ", "c", " NOT NULL,", by decide, by decide, by decide⟩
  let T : CastType := ⟨"timestamp(3) without time zone", [],
    @IsName.zoned "timestamp" "(3)" " without time zone" (by decide) (.digit (by decide))
      (by decide),
    .none⟩
  have htype : PlainType "timestamp(3)" := ⟨by decide +kernel, by decide +kernel, by decide⟩
  have hliteral : BareLiteral "a b" := ⟨by decide, by decide +kernel, by decide⟩
  have hline : c.line (withDefault "timestamp(3)" "a b" (FullType.text (.whole T) "[]")) =
      "    c timestamp(3) DEFAULT 'a b'::timestamp(3) without time zone[] NOT NULL," := by
    decide +kernel
  have hwritten : c.written (withLiteral "timestamp(3)" "a b") =
      "    `c` timestamp(3) DEFAULT 'a b' NOT NULL," := by
    decide +kernel
  have hremoved := (@ColumnFrame.cast_removed_iff "[]" .doubling c _ _ htype hliteral (.whole T)
    (by decide) (by decide +kernel)).2
  rw [← hline, ← hwritten]
  exact hremoved.mpr trivial

/-- Of a type behind a schema the name is left, and of an interval its fields; a literal that reads
like a default goes in part. -/
theorem ColumnFrame.cast_with_schema_left :
    convert "    c public.mood DEFAULT 'x'::public.mood NOT NULL," =
        "    `c` public.mood DEFAULT 'x'.mood NOT NULL," ∧
      convert "    c interval DEFAULT '1'::interval day to second," =
        "    `c` interval DEFAULT '1' day to second," ∧
      convert "    c mood DEFAULT 'a longtext DEFAULT b'::mood," =
        "    `c` mood DEFAULT 'a longtext," := by
  decide +kernel

end Column

end DumpDialect
