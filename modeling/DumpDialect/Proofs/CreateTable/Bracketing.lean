import DumpDialect.Proofs.CreateTable.CastDefault
import DumpDialect.Proofs.Pattern.Brackets
import DumpDialect.Quoting

/-!
# Brackets of a definition

Some of the rules for the definition of a column find the end of what they take by a symbol: the
last closing parenthesis of the line, the last `()`, the next blank or the next comma. What they
take need not be an expression then, and what is left of the default is not one either.

- `cuttingRules`, `mem_cuttingRules_or_isNeutral`: the rules that can cut a definition.
- `cuts`: what they cut of a line.
- `wellBracketed_convert`: a line stays well bracketed if nothing is cut, and does not if one
  stretch is.
-/

namespace DumpDialect.Column

open Pattern

/-- The rules that take more or less than an expression from some definitions. -/
def cuttingRules : List Rule :=
  integerDefaults ++ [sequenceDefault, residualCast, longtextDefault, functionDefault, citext]

/-! ## Rules that cut nothing -/

theorem nameRules_pairs : ∀ r ∈ nameRules, r.Pairs := by decide +kernel

theorem typeCast_pairs : typeCast.Pairs := by decide

theorem timeRules_pairs : ∀ r ∈ timeRules.take 4 ++ timeRules.drop 5, r.Pairs := by
  decide +kernel

/-- The precision of a time is kept. -/
theorem group_precision {prev : Option Symbol} {w rest : Text} {groups : List (Nat × Text)}
    (h : precision.Matches prev w rest groups) :
    groups = [(1, w)] ∨ w = [] ∧ groups = [] := by
  refine (matches_optional.mp h).imp_left fun hgroup => ?_
  obtain ⟨inner, rfl, hprecision⟩ := matches_group.mp hgroup
  rw [hprecision.groups_eq_nil (by decide)]

/-- A time with a zone loses the zone, in which there are no brackets. -/
theorem timestampOffset_keeps : timestampOffset.Keeps Symbol.isBracket := by
  have hnot : ∀ s ∈ Text.ofString "'()", zoneOffset.allows s = false := by decide
  rintro w w' ⟨⟨before, found, after, groups⟩, prev, hm, rfl, rfl⟩
  obtain ⟨_, _, _, _, rfl, rfl, ⟨-, rfl, rfl⟩, h₁⟩ := matches_inOrder_cons.mp hm
  obtain ⟨_, _, _, _, rfl, rfl, ⟨rfl, rfl⟩, h₂⟩ := matches_inOrder_cons.mp h₁
  obtain ⟨size, _, sizeGroups, _, rfl, rfl, hsize, h₃⟩ := matches_inOrder_cons.mp h₂
  obtain ⟨_, _, _, _, rfl, rfl, ⟨rfl, rfl⟩, h₄⟩ := matches_inOrder_cons.mp h₃
  obtain ⟨time, _, _, _, rfl, rfl, ⟨inner, rfl, htime⟩, h₅⟩ := matches_inOrder_cons.mp h₄
  obtain ⟨zone, _, zoneGroups, _, rfl, rfl, hzone, h₆⟩ := matches_inOrder_cons.mp h₅
  obtain ⟨_, _, _, _, rfl, rfl, ⟨rfl, rfl⟩, ⟨rfl, rfl⟩⟩ := matches_inOrder_cons.mp h₆
  obtain rfl := htime.groups_eq_nil (by decide)
  obtain rfl := hzone.groups_eq_nil (by decide)
  -- Only the zone is lost; the groups give back the rest, with or without a precision.
  have hzone' : zone.filter Symbol.isBracket = [] := by
    refine List.filter_eq_nil_iff.mpr fun s hs hbracket => ?_
    have hallowed := hzone.allows s hs
    rw [hnot s (List.contains_iff_mem.mp hbracket)] at hallowed
    cases hallowed
  rcases group_precision hsize with rfl | ⟨rfl, rfl⟩
  · simp [timestampOffset, typeStart, Rule.once, Match.expand, Match.group, Match.group?, hzone',
      List.lookup_cons]
  · simp [timestampOffset, typeStart, Rule.once, Match.expand, Match.group, Match.group?, hzone',
      List.lookup_cons]

/-- Of a JSON object the name of the function is replaced. -/
theorem objectDefault_keeps : objectDefault.Keeps Symbol.isBracket := by
  have hopen : (Text.ofString " DEFAULT json_object(").filter Symbol.isBracket =
      (Text.ofString " DEFAULT json_build_object(").filter Symbol.isBracket := by decide
  rintro w w' ⟨⟨before, found, after, groups⟩, prev, hm, rfl, rfl⟩
  simp only [objectDefault, Rule.once, matches_inOrder_cons] at hm
  obtain ⟨_, _, _, _, rfl, rfl, ⟨rfl, rfl⟩, args, _, _, _, rfl, rfl, ⟨inner, rfl, -⟩,
    _, _, _, _, rfl, rfl, ⟨rfl, rfl⟩, rfl, rfl⟩ := hm
  simp [objectDefault, Rule.once, Match.expand, Match.group, Match.group?, hopen]

/-- All other rules replace a stretch by one with the same brackets, or pairs by pairs. -/
theorem mem_cuttingRules_or_isNeutral {r : Rule} (h : r ∈ typeRules) :
    r ∈ cuttingRules ∨ r.IsNeutral := by
  rw [typeRules_eq, castRules_eq, timeRules_eq, defaultRules_eq] at h
  simp only [List.mem_append, List.mem_cons, List.not_mem_nil, or_false] at h
  rcases h with h | (h | rfl | rfl | rfl) | (h | rfl | h) | rfl | rfl | rfl | rfl
  · exact .inr (nameRules_pairs r h).isNeutral
  · exact .inl (List.mem_append_left _ h)
  · exact .inl (by simp [cuttingRules])
  · exact .inr typeCast_pairs.isNeutral
  · exact .inl (by simp [cuttingRules])
  · exact .inr (timeRules_pairs r (List.mem_append_left _ h)).isNeutral
  · exact .inr timestampOffset_keeps.isNeutral
  · exact .inr (timeRules_pairs r (List.mem_append_right _ h)).isNeutral
  · exact .inl (by simp [cuttingRules])
  · exact .inl (by simp [cuttingRules])
  · exact .inr objectDefault_keeps.isNeutral
  · exact .inl (by simp [cuttingRules])

/-! ## Lines -/

/-- What the rules cut of a line, as they run on the definition behind the name of a column or on a
line that is no definition. -/
def cuts (line : Text) : List (Rule × Match) :=
  match if isDefinition line then parts? line else none with
  | some parts => DumpDialect.cuts (parts.indent ++ parts.name) typeRules parts.definition
  | none => DumpDialect.cuts [] typeRules line

/-- The parts of a line are all of it but an LF at its end. -/
theorem eq_of_parts? {line : Text} {parts : Parts} (h : parts? line = some parts) :
    ∃ last ∈ [[], [Symbol.lineFeed]],
      line = (parts.indent ++ parts.name) ++ (parts.definition ++ last) := by
  simp only [parts?] at h
  split at h
  · next hlast =>
    cases h
    refine ⟨_, List.contains_iff_mem.mp (Bool.and_eq_true_iff.mp hlast).2, ?_⟩
    rw [List.takeWhile_append_dropWhile, List.append_assoc, List.takeWhile_append_dropWhile,
      List.takeWhile_append_dropWhile]
  · cases h

theorem mem_typeRules_of_mem_cuts {line : Text} {c : Rule × Match} (h : c ∈ cuts line) :
    c.1 ∈ typeRules ∧ ¬ c.1.IsNeutral := by
  rw [cuts] at h
  split at h
  · exact ⟨(mem_of_mem_cuts h).1, not_isNeutral_of_mem_cuts h⟩
  · exact ⟨(mem_of_mem_cuts h).1, not_isNeutral_of_mem_cuts h⟩

/-- **A well bracketed line stays so if nothing of it is cut, and is not well bracketed any more if
one stretch is.** Only the eight rules cut. -/
theorem wellBracketed_convert [Quoting] {line : Text} (h : line.WellBracketed) :
    (∀ c ∈ cuts line, c.1 ∈ cuttingRules) ∧
      (cuts line = [] → (convert line).WellBracketed) ∧
      ((cuts line).length = 1 → ¬ (convert line).WellBracketed) := by
  refine ⟨fun c hc => ?_, ?_⟩
  · obtain ⟨hmem, hneutral⟩ := mem_typeRules_of_mem_cuts hc
    exact (mem_cuttingRules_or_isNeutral hmem).resolve_right hneutral
  · rw [convert, cuts]
    cases hparts : if isDefinition line = true then parts? line else none with
    | none =>
      have hall := @wellBracketed_applyRules [] line typeRules h
      rwa [List.nil_append] at hall
    | some parts =>
      obtain ⟨last, hlast, hline⟩ := eq_of_parts? (Option.ite_none_right_eq_some.mp hparts).2
      have hends : ∀ t ∈ [[], [Symbol.lineFeed]], t.filter Symbol.isBracket = [] := by decide
      -- The name gets backticks, which are no brackets, and the rules see the rest only.
      have hdefinition : ((parts.indent ++ parts.name) ++ parts.definition).WellBracketed :=
        (Text.wellBracketed_congr (by simp [hline, hends last hlast])).mp h
      have hname : (Identifier.quote parts.name).filter Symbol.isBracket =
          parts.name.filter Symbol.isBracket :=
        Identifier.filter_quote (by decide) (by decide) parts.name
      have hwritten (t : Text) : (parts.indent ++ Identifier.quote parts.name ++ t).WellBracketed ↔
          ((parts.indent ++ parts.name) ++ t).WellBracketed :=
        Text.wellBracketed_congr (by simp [hname])
      simp only
      rw [hwritten]
      exact wellBracketed_applyRules hdefinition

/-- A default that is a call is kept with its arguments, and cut if there is a call in them. -/
theorem call_kept_and_cut :
    (convert "    c integer DEFAULT f(1, 'a)') NOT NULL,").WellBracketed ∧
      ¬ (convert "    c integer DEFAULT f(g()),").WellBracketed := by
  have hkept : cuts "    c integer DEFAULT f(1, 'a)') NOT NULL," = [] :=
    List.isEmpty_iff.mp (by decide +kernel)
  exact ⟨(wellBracketed_convert (by decide)).2.1 hkept,
    (wellBracketed_convert (by decide)).2.2 (by decide +kernel)⟩

/-- For each of the eight rules its name, a line that it cuts, and what is written for the line. -/
def cutLines : List (String × Text × Text) :=
  [("int_cast_default", "    c integer DEFAULT ('5'::integer + 1),",
      "    `c` integer DEFAULT 5 + 1),"),
    ("smallint_cast_default", "    c smallint DEFAULT ('5'::smallint + 1),",
      "    `c` smallint DEFAULT 5 + 1),"),
    ("bigint_cast_default", "    c bigint DEFAULT ('5'::bigint + 1),",
      "    `c` bigint DEFAULT 5 + 1),"),
    ("sequence_default", "    c integer DEFAULT nextval('a') || ')',", "    `c` integer ',"),
    ("residual_cast", "    c char DEFAULT ('x'::\"char\"),", "    `c` char DEFAULT ('x',"),
    ("longtext_default", "    c text DEFAULT f(a, b),", "    `c` longtext, b),"),
    ("function_default", "    c integer DEFAULT f(g()),", "    `c` integer),"),
    ("citext", "    c public.range(public.citext),", "    `c` text),")]

/-- Each of the eight rules cuts a definition. -/
theorem cuttingRules_cut :
    cutLines.Forall fun c =>
      isDefinition c.2.1 = true ∧ Text.WellBracketed c.2.1 ∧
        (cuts c.2.1).map (·.1.name) = [c.1] ∧ convert c.2.1 = c.2.2 ∧
          ¬ Text.WellBracketed c.2.2 := by
  decide +kernel

end DumpDialect.Column
