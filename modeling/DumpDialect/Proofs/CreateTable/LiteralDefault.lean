import DumpDialect.Proofs.CreateTable.CharacterTypes
import DumpDialect.Proofs.Pattern.Counting
import DumpDialect.Proofs.Pattern.Ends
import DumpDialect.Quoting

/-!
# Literals as defaults

The default of a column of characters is to be written as it is, without its cast. The rules that
are not bound to the start of a definition look into the literal too. Each of them takes symbols
away, so the literal comes through if and only if none of them finds anything in it.

- `PlainLiteral`: the literals in which nothing is found.
- `applyRules_of_plain`, `plain_of_applyRules`: the two directions.
- `literal_kept_iff`: the line that is written.
-/

namespace DumpDialect.Column

open Pattern

/-! ## Literals in which nothing is found -/

/-- A literal that holds nothing of what the rules look for anywhere in a definition. -/
structure PlainLiteral (literal : Text) : Prop where
  noCast : ¬ Text.ofString "::" <:+: literal
  noFunction : ¬ Text.ofString "()" <:+: literal
  noLongtext : ¬ Text.ofString " longtext DEFAULT " <:+: literal
  noSequence : ¬ HoldsCall " DEFAULT nextval(" literal
  noObject : ¬ HoldsCall " DEFAULT json_build_object(" literal

variable {size literal ending : Text}

/-- The start of the definition, once its type is written. -/
def varcharHead (size : Text) : Text := .char ' ' :: ("varchar(" ++ (size ++ ")"))

theorem not_mem_varcharHead (hsize : ∀ s ∈ size, s.isDigit = true) {s : Symbol}
    (hs : (s.isDigit || s.isIn " varchar()") = false) : s ∉ varcharHead size := by
  obtain ⟨hdigit, hnot⟩ := Bool.or_eq_false_iff.mp hs
  intro hmem
  have hmem' : s ∈ Text.ofString " varchar()" ∨ s ∈ size := by
    simp only [varcharHead, List.mem_cons, List.mem_append] at hmem
    rcases hmem with rfl | hmem | hmem | hmem
    · exact .inl (by decide)
    · exact .inl ((by decide : Text.ofString "varchar(" ⊆ Text.ofString " varchar()") hmem)
    · exact .inr hmem
    · exact .inl ((by decide : Text.ofString ")" ⊆ Text.ofString " varchar()") hmem)
  rcases hmem' with hmem' | hmem'
  · rw [Symbol.isIn, List.contains_iff_mem.mpr hmem'] at hnot
    cases hnot
  · rw [hsize s hmem'] at hdigit
    cases hdigit

theorem isHead_varcharHead (hsize : ∀ s ∈ size, s.isDigit = true) : IsHead (varcharHead size) :=
  ⟨fun h => not_mem_varcharHead hsize (s := .char 'D') (by decide) (h.subset (by decide)),
    fun h => not_mem_varcharHead hsize (s := .char ':') (by decide) (h.subset (by decide))⟩

theorem isOneLine_upTo_varcharHead (hsize : ∀ s ∈ size, s.isDigit = true) :
    (upTo (varcharHead size)).IsOneLine := by
  have hhead : (varcharHead size).IsOneLine := not_mem_varcharHead hsize (by decide)
  exact hhead.append (by decide)

/-- Only the rules that look anywhere in a definition do anything behind the type. -/
theorem applyRules_varying (hsize : ∀ s ∈ size, s.isDigit = true) (rest : Text) :
    applyRules typeRules (upTo (.char ' ' :: ("character varying(" ++ (size ++ ")"))) ++ rest) =
      applyRules defaultRules (upTo (varcharHead size) ++ applyRules castRules rest) := by
  have hmisses : ∀ r ∈ timeRules, r.Misses " varchar(" := by decide
  have hname : upTo (.char ' ' :: ("character varying(" ++ (size ++ ")"))) ++ rest =
      Text.ofString " character varying(" ++
        (size ++ (Text.ofString ")" ++ (Text.ofString " DEFAULT '" ++ rest))) := by
    simp [upTo, Text.ofString]
  have hhead (t : Text) : upTo (varcharHead size) ++ t =
      Text.ofString " varchar(" ++
        (size ++ (Text.ofString ")" ++ (Text.ofString " DEFAULT '" ++ t))) := by
    simp [upTo, varcharHead, Text.ofString]
  rw [typeRules_eq, applyRules_append, applyRules_append, applyRules_append, hname,
    nameRules_varying hsize (by simp [Text.ofString]), ← hhead,
    applyRules_append_of_passesOver (isHead_varcharHead hsize).passesOver_castRules, hhead,
    applyRules_of_misses hmisses]

/-- The type that is written has no dot, so it is not read as a type of another schema. -/
theorem occursIn_citext_varcharHead (hsize : ∀ s ∈ size, s.isDigit = true) (rest : Text) :
    citext.pattern.occursIn (upTo (varcharHead size) ++ rest) = false := by
  refine Bool.eq_false_iff.mpr fun hoccurs => ?_
  obtain ⟨w, after, _, hsplit, hm⟩ := exists_of_occursIn_anchored rfl hoccurs
  have htype : .char ' ' :: ((Text.ofString "varchar(" ++ (size ++ Text.ofString ")")) ++
      .char ' ' :: (Text.ofString "DEFAULT '" ++ rest)) = w ++ after := by
    rw [← hsplit]
    simp [upTo, varcharHead, Text.ofString]
  obtain ⟨name, -, hname, hdot⟩ := citext_within htype hm
  exact not_mem_varcharHead hsize (s := .char '.') (by decide)
    (List.mem_cons_of_mem _ (hname.subset hdot))

/-- The cast behind the literal. -/
def varyingCast (ending : Text) : Text := ("::" ++ "character varying") ++ ending

theorem typeCast_varying (hending : ending ∈ endings) :
    typeCast.apply (varyingCast ending) = ending := by
  let varying : TypeName.CastType := ⟨"character varying", [], .several (by decide), .none⟩
  have hname : varying.text ++ [] = Text.ofString "character varying" := by decide
  have happly := typeCast_ending varying List.mem_cons_self hending
  rwa [hname] at happly

/-- A plain literal stays, without its cast. -/
theorem applyRules_of_plain (hsize : ∀ s ∈ size, s.isDigit = true) (hliteral : literal.IsOneLine)
    (hending : ending ∈ endings) (h : PlainLiteral literal) :
    applyRules defaultRules (upTo (varcharHead size) ++
        applyRules castRules (doubleQuotes quote literal ++ quote :: varyingCast ending)) =
      upTo (varcharHead size) ++ (doubleQuotes quote literal ++ quote :: ending) := by
  have hbehind : ∀ e ∈ endings, (∀ v ∈ integerCasts, ¬ v <:+: varyingCast e) ∧
      .char ')' ∉ varyingCast e ∧ (varyingCast e).IsOneLine ∧
      (∀ v ∈ [Text.ofString "::", "()", " longtext DEFAULT "], ¬ v <:+: e) ∧ .char ')' ∉ e ∧
      e.IsOneLine := by decide
  obtain ⟨hinteger, hparen, hcastLine, hnot, hparen', hendLine⟩ := hbehind ending hending
  have hcolons : ¬ Text.ofString "::" <:+: doubleQuotes quote literal :=
    mt (infix_doubleQuotes_iff (by decide)).mp h.noCast
  have hsequence : sequenceDefault.pattern.occursIn
      (doubleQuotes quote literal ++ quote :: varyingCast ending) = false :=
    Bool.eq_false_iff.mpr
      (mt (occursIn_sequenceDefault_literal_iff hliteral hcastLine hparen).mp h.noSequence)
  have hobject : objectDefault.pattern.occursIn
      (doubleQuotes quote literal ++ quote :: ending) = false := by
    refine Bool.eq_false_iff.mpr ?_
    rw [Ne, occursIn_objectDefault_iff (isOneLine_quoted hliteral hendLine),
      holdsCall_append_cons_iff hparen', holdsCall_doubleQuotes_iff (by decide)]
    exact h.noObject
  have hfunction : ¬ Text.ofString "()" <:+: doubleQuotes quote literal ++ quote :: ending := by
    rw [Text.infix_append_cons_iff (by decide) (by decide), infix_doubleQuotes_iff (by decide)]
    exact not_or.mpr ⟨h.noFunction, hnot _ (by decide)⟩
  have hlongtext : ¬ Text.ofString " longtext DEFAULT " <:+:
      upTo (varcharHead size) ++ (doubleQuotes quote literal ++ quote :: ending) := by
    rw [infix_upTo_iff (by decide) (by decide), infix_doubleQuotes_iff (by decide)]
    refine not_or.mpr ⟨fun hwithin => ?_, not_or.mpr ⟨h.noLongtext, hnot _ (by decide)⟩⟩
    exact List.not_mem_append (not_mem_varcharHead hsize (by decide)) (by decide)
      (hwithin.subset (by decide : .char 'g' ∈ Text.ofString " longtext DEFAULT "))
  rw [applyRules_castRules hcolons (occursIn_integerDefaults hcolons hinteger) hsequence
    (typeCast_varying hending) (hnot _ (by decide))]
  exact applyRules_defaultRules (isHead_varcharHead hsize) hlongtext hfunction hobject
    (occursIn_citext_varcharHead hsize _)

/-! ## Literals that come through -/

/-- If all quotes come through, no number that is written as a string was found. -/
theorem occursIn_integerDefaults_of_quotes {front t : Text}
    (h : (front ++ t).countP (· == quote) ≤
      (applyRules defaultRules (front ++ applyRules castRules t)).countP (· == quote)) :
    ∀ r ∈ integerDefaults, r.pattern.occursIn t = false := by
  have hinteger : ∀ r ∈ integerDefaults, r.Takes (· == quote) := by decide
  have hcasts : ∀ r ∈ [sequenceDefault, typeCast, residualCast], r.AddsNo (· == quote) := by decide
  have hdefaults : ∀ r ∈ defaultRules, r.AddsNo (· == quote) := by decide
  have hlater := countP_applyRules_le hdefaults (front ++ applyRules castRules t)
  have hafter := countP_applyRules_le hcasts (applyRules integerDefaults t)
  refine occursIn_of_countP_le hinteger ?_
  rw [castRules_eq, applyRules_append] at h hlater
  rw [List.countP_append] at h hlater
  omega

/-- What the rules for casts leave of a literal is not longer than the literal, and shorter if a
sequence was found. -/
theorem exists_applyRules_castRules (hending : ending ∈ endings)
    (hinteger : ∀ r ∈ integerDefaults,
      r.pattern.occursIn (literal ++ quote :: varyingCast ending) = false) :
    ∃ left, applyRules castRules (literal ++ quote :: varyingCast ending) =
        residualCast.apply (left ++ quote :: ending) ∧ left.length ≤ literal.length ∧
      (sequenceDefault.pattern.occursIn (literal ++ quote :: varyingCast ending) = true →
        left.length < literal.length) := by
  have htakes : sequenceDefault.Takes fun _ => true := by decide
  have hcast : typeCast.AddsNo fun _ => true := by decide
  have hends : ∀ e ∈ endings, sequenceDefault.LeavesEnd (quote :: varyingCast e) := by
    decide
  -- The rule for sequences may cut inside the literal, but never behind its closing quote.
  obtain ⟨front, hfront⟩ := (hends ending hending).suffix_apply (List.suffix_append literal _)
  obtain ⟨left, hleft, hle⟩ := Rule.exists_apply_append_cons (r := typeCast) rfl rfl
    (q := quote) (by decide) (by simpa using hcast.replaces)
    front (varyingCast ending)
  rw [typeCast_varying hending] at hleft
  have hsequence : front.length ≤ literal.length := by
    have hcount := htakes.addsNo.countP_apply_le
      (literal ++ quote :: varyingCast ending)
    rw [← hfront] at hcount
    simpa using hcount
  refine ⟨left, ?_, Nat.le_trans hle hsequence, fun hoccurs => Nat.lt_of_le_of_lt hle ?_⟩
  · rw [castRules_eq, applyRules_append, applyRules_of_not_occursIn hinteger, applyRules_cons,
      ← hfront, applyRules_cons, hleft]
    rfl
  · have hcount := htakes.countP_apply_lt hoccurs
    rw [← hfront] at hcount
    simpa using hcount

/-- A literal with a function is looked for as far as the function. -/
theorem occursIn_functionDefault_of_literal {head rest : Text} (hliteral : literal.IsOneLine)
    (h : Text.ofString "()" <:+: literal) :
    functionDefault.pattern.occursIn (upTo head ++ (literal ++ rest)) = true := by
  obtain ⟨front, back, rfl⟩ := h
  have hinLine : ∀ s ∈ quote :: front, s.isInLine = true := by
    refine isInLine_iff.mpr fun hmem => ?_
    rcases List.mem_cons.mp hmem with heq | hmem
    · exact absurd heq (by decide)
    · exact hliteral (by simp [hmem])
  exact occursIn_iff.mpr ⟨head,
    Text.ofString " DEFAULT " ++ ((quote :: front) ++ (Text.ofString "()" ++ [])), back ++ rest, _,
    by simp [upTo, Text.ofString], .inOrder_cons ⟨rfl, rfl⟩
      (.inOrder_cons ⟨hinLine, rfl⟩ (.inOrder_cons ⟨rfl, rfl⟩ ⟨rfl, rfl⟩))⟩

/-- If a literal comes through, no rule found anything: each of them takes symbols away. -/
theorem occursIn_of_applyRules (hsize : ∀ s ∈ size, s.isDigit = true) (hending : ending ∈ endings)
    (h : applyRules defaultRules (upTo (varcharHead size) ++
        applyRules castRules (literal ++ quote :: varyingCast ending)) =
      upTo (varcharHead size) ++ (literal ++ quote :: ending)) :
    sequenceDefault.pattern.occursIn (literal ++ quote :: varyingCast ending) = false ∧
      ∀ r ∈ residualCast :: defaultRules,
        r.pattern.occursIn (upTo (varcharHead size) ++ (literal ++ quote :: ending)) = false := by
  have hends : ∀ e ∈ endings, (varyingCast e).countP (· == quote) = e.countP (· == quote) := by
    decide
  let t := literal ++ quote :: varyingCast ending
  -- Quotes are counted first, since the rules for integers take them away wherever they match; then
  -- all symbols.
  have hcount : (upTo (varcharHead size) ++ t).countP (· == quote) ≤
      (applyRules defaultRules (upTo (varcharHead size) ++ applyRules castRules t)).countP
        (· == quote) := by
    rw [h]
    simp [t, hends ending hending]
  have hinteger := occursIn_integerDefaults_of_quotes hcount
  obtain ⟨left, hcasts, hle, hless⟩ := exists_applyRules_castRules hending hinteger
  have hresidual := (isHead_varcharHead hsize).passesOver_castRules residualCast
    (by simp [castRules_eq])
  have htakes : ∀ r ∈ residualCast :: defaultRules, r.Takes fun _ => true := by decide
  rw [hcasts, ← hresidual.apply_append, ← applyRules_cons] at h
  have hnone := occursIn_of_countP_le htakes (by
    rw [h]
    simpa using hle)
  rw [applyRules_of_not_occursIn hnone] at h
  obtain rfl := List.append_cancel_right (List.append_cancel_left h)
  exact ⟨Bool.eq_false_iff.mpr fun hoccurs => Nat.lt_irrefl _ (hless hoccurs), hnone⟩

/-- Only a plain literal comes through. -/
theorem plain_of_applyRules (hsize : ∀ s ∈ size, s.isDigit = true) (hliteral : literal.IsOneLine)
    (hending : ending ∈ endings)
    (h : applyRules defaultRules (upTo (varcharHead size) ++
        applyRules castRules (doubleQuotes quote literal ++ quote :: varyingCast ending)) =
      upTo (varcharHead size) ++ (doubleQuotes quote literal ++ quote :: ending)) :
    PlainLiteral literal := by
  have hends : ∀ e ∈ endings, e.IsOneLine ∧ (varyingCast e).IsOneLine := by decide
  obtain ⟨hendLine, hcastLine⟩ := hends ending hending
  obtain ⟨hsequence, hnone⟩ := occursIn_of_applyRules hsize hending h
  have hnot {v : Text} (hne : v ≠ []) (hv : quote ∉ v)
      (hwithin : ¬ v <:+: upTo (varcharHead size) ++
        (doubleQuotes quote literal ++ quote :: ending)) :
      ¬ v <:+: literal := by
    rw [infix_upTo_iff hne hv, infix_doubleQuotes_iff hv] at hwithin
    exact fun h => hwithin (.inr (.inl h))
  have hcall {v t : Text} (hv : quote ∉ v) (ht : .char ')' ∉ t)
      (hholds : ¬ HoldsCall v (doubleQuotes quote literal ++ quote :: t)) :
      ¬ HoldsCall v literal := by
    rwa [holdsCall_append_cons_iff ht, holdsCall_doubleQuotes_iff hv] at hholds
  have hparen : ∀ e ∈ endings, .char ')' ∉ e ∧ .char ')' ∉ varyingCast e := by decide
  have hdoubled := isOneLine_doubleQuotes hliteral
  -- Each condition of a plain literal is one rule that finds nothing.
  simp only [defaultRules_eq, List.forall_mem_cons] at hnone
  obtain ⟨hcolons, hlongtext, hfunction, hobject, -⟩ := hnone
  rw [Bool.eq_false_iff, Ne, occursIn_residualCast_iff] at hcolons
  rw [Bool.eq_false_iff, Ne, occursIn_longtextDefault_iff] at hlongtext
  rw [Bool.eq_false_iff, Ne, occursIn_sequenceDefault_iff (isOneLine_quoted hliteral hcastLine)]
    at hsequence
  rw [Bool.eq_false_iff, Ne, occursIn_objectDefault_iff ((isOneLine_upTo_varcharHead hsize).append
    (isOneLine_quoted hliteral hendLine))] at hobject
  refine ⟨hnot (by decide) (by decide) hcolons, fun hcall => ?_,
    hnot (by decide) (by decide) hlongtext, hcall (by decide) (hparen _ hending).2 hsequence,
    hcall (by decide) (hparen _ hending).1 fun h => hobject (h.append_left _)⟩
  rw [occursIn_functionDefault_of_literal hdoubled
    ((infix_doubleQuotes_iff (by decide)).mpr hcall)] at hfunction
  cases hfunction

/-! ## The line -/

/-- **The literal of a default is kept if and only if it is plain.** The definition of a column of
characters is then written with its new type and the literal as it is, and its cast is gone. -/
theorem ColumnFrame.literal_kept_iff [Quoting] (c : ColumnFrame) {size literal : Text}
    (hsize : ∀ s ∈ size, s.isDigit = true) (hliteral : literal.IsOneLine)
    (hdef : isDefinition (c.line (withDefault ("character varying(" ++ (size ++ ")")) literal
      "character varying")) = true) :
    convert (c.line (withDefault ("character varying(" ++ (size ++ ")")) literal
        "character varying")) = c.written (withLiteral ("varchar(" ++ (size ++ ")")) literal) ↔
      PlainLiteral literal := by
  have hsized : size.IsOneLine := fun hmem => absurd (hsize _ hmem) (by decide)
  have htype : (Text.ofString "character varying(" ++ (size ++ Text.ofString ")")).IsOneLine :=
    Text.IsOneLine.append (by decide) (hsized.append (by decide))
  have hcast : Text.IsOneLine "character varying" := by decide
  have hline := isOneLine_withDefault htype hliteral hcast
  rw [c.convert_line hdef hline, cons_withDefault, applyRules_varying hsize,
    ColumnFrame.written, List.append_cancel_left_eq, List.append_cancel_left_eq, cons_withLiteral]
  exact ⟨plain_of_applyRules hsize hliteral c.isEnding,
    applyRules_of_plain hsize hliteral c.isEnding⟩

/-- A literal with a quote, a comma and parentheses is kept. -/
theorem ColumnFrame.literal_with_quote_kept :
    convert "    c character varying(9) DEFAULT 'it''s, (b)'::character varying NOT NULL," =
      "    `c` varchar(9) DEFAULT 'it''s, (b)' NOT NULL," := by
  let c : ColumnFrame := ⟨"    ", "c", " NOT NULL,", by decide, by decide, by decide⟩
  have hplain : PlainLiteral "it's, (b)" :=
    ⟨by decide +kernel, by decide +kernel, by decide +kernel,
      fun h => absurd h.isInfix (by decide +kernel), fun h => absurd h.isInfix (by decide +kernel)⟩
  have hline : c.line (withDefault "character varying(9)" "it's, (b)" "character varying") =
      "    c character varying(9) DEFAULT 'it''s, (b)'::character varying NOT NULL," := by
    decide +kernel
  have hwritten : c.written (withLiteral "varchar(9)" "it's, (b)") =
      "    `c` varchar(9) DEFAULT 'it''s, (b)' NOT NULL," := by
    decide +kernel
  have hkept := (@ColumnFrame.literal_kept_iff .doubling c "9" "it's, (b)" (by decide) (by decide)
    (by decide +kernel)).mpr hplain
  rw [← hline, ← hwritten]
  exact hkept

/-- A literal with colons loses what follows them, and a literal with a function goes with the
default. -/
theorem ColumnFrame.literal_with_call_not_kept :
    let line (literal : Text) : Text :=
      "    c character varying(5) DEFAULT '" ++ literal ++ "'::character varying"
    convert (line "a::b") = "    `c` varchar(5) DEFAULT 'a'" ∧
      convert (line "f()") = "    `c` varchar(5)'" := by
  decide +kernel

end DumpDialect.Column
