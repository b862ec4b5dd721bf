import DumpDialect.Proofs.CreateTable.Definition

/-!
# Characters with a length

Characters with a length keep it, and arrays of them become `longtext`. The rule for an array comes
first, and tells by the `[` behind the length whether the type is one.

- `size_prefers`, `size_prefers_group`: a length up to what closes it.
- `head?_of_size_eq`: an array is known by what stands behind its length.
- `sizedVaryingArray_apply`, `sizedCharacterArray_apply`, `sizedVarying_apply`,
  `sizedCharacter_apply`: the four rules.
- `nameRules_varyingArray`, `nameRules_characterArray`, `nameRules_varying`, `nameRules_character`:
  what all rules for names make of the four types.
-/

namespace DumpDialect.Column

open Pattern

/-! ## The rules -/

/-- The rule for an array of characters with a length. -/
def sizedVaryingArray : Rule :=
  typeStart "varchar_n_array" [" character varying(", Pattern.run Symbol.isDigit, ")[]"]
    [" longtext"]

/-- The rule for an array of characters of a fixed length. -/
def sizedCharacterArray : Rule :=
  typeStart "char_n_array" [" character", blanks, "(", Pattern.run Symbol.isDigit, ")[]"]
    [" longtext"]

/-- The rule for characters with a length. -/
def sizedVarying : Rule :=
  typeStart "varchar_n" [" character varying(", group 1 (Pattern.run Symbol.isDigit), ")"]
    [" varchar(", .group 1, ")"]

/-- The rule for characters of a fixed length. -/
def sizedCharacter : Rule :=
  typeStart "char_n" [" character", blanks, "(", group 1 (Pattern.run Symbol.isDigit), ")"]
    [" char(", .group 1, ")"]

/-- The rules for the names of types in front of those for characters. -/
def wordRules : List Rule := nameRules.take 14

/-- The blanks in front of a length may be left out. -/
theorem blanks_prefers_nil (prev : Option Symbol) {t rest : Text} :
    blanks.Prefers prev [] ((Text.ofString "(" ++ t) ++ rest) [] := by
  rw [List.append_assoc]
  exact prefers_run (by simp) (Text.forall_head?_append (by decide) _)

theorem character_eq :
    Text.ofString " character(" = Text.ofString " character" ++ Text.ofString "(" := by
  decide

/-- No parenthesis stands behind the first word of the name. -/
theorem occursIn_sizedCharacterArray (rest : Text) :
    sizedCharacterArray.pattern.occursIn (" character varying" ++ rest) = false := by
  refine Bool.eq_false_iff.mpr fun hoccurs => ?_
  obtain ⟨w, after, _, hsplit, hm⟩ := exists_of_occursIn_anchored rfl hoccurs
  simp only [sizedCharacterArray, typeStart, Rule.once, matches_inOrder_cons] at hm
  obtain ⟨_, _, _, _, rfl, rfl, ⟨-, rfl, -⟩, _, _, _, _, rfl, rfl, ⟨rfl, rfl⟩, gap, _, _, _, rfl,
    rfl, ⟨hgap, -⟩, _, _, _, _, rfl, rfl, ⟨rfl, rfl⟩, -⟩ := hm
  have hname : Text.ofString " character varying" =
      " character" ++ (Text.ofString " " ++ Text.ofString "varying") := by decide
  rw [hname] at hsplit
  simp only [List.nil_append, List.append_assoc] at hsplit
  obtain ⟨-, hbehind⟩ := Text.eq_of_runs_eq (by decide) hgap
    (Text.forall_head?_append (by decide) _) (Text.forall_head?_append (by decide) _)
    (List.append_cancel_left hsplit)
  exact absurd (List.cons.inj hbehind).1 (by decide)

section Sized

variable {size rest : Text} (hsize : ∀ s ∈ size, s.isDigit = true)
include hsize

/-! ## Lengths -/

/-- A length is a run of digits up to what closes it. -/
theorem size_prefers (prev : Option Symbol) :
    (inOrder [Pattern.run Symbol.isDigit, word ")[]"]).Prefers prev (size ++ Text.ofString ")[]")
      rest [] :=
  (prefers_run hsize (Text.forall_head?_append (by decide) rest)).inOrder_cons
    prefers_word.inOrder_singleton

theorem size_prefers_group (prev : Option Symbol) :
    (inOrder [group 1 (Pattern.run Symbol.isDigit), word ")"]).Prefers prev
      (size ++ Text.ofString ")") rest [(1, size)] :=
  ((prefers_run hsize (Text.forall_head?_append (by decide) rest)).group 1).inOrder_cons
    prefers_word.inOrder_singleton

/-- A length that is read as that of an array has the mark of an array behind it. -/
theorem head?_of_size_eq {digits after : Text} (hdigits : ∀ s ∈ digits, s.isDigit = true)
    (h : size ++ (Text.ofString ")" ++ rest) = digits ++ (Text.ofString ")[]" ++ after)) :
    rest.head? = some (.char '[') := by
  obtain ⟨-, hbehind⟩ := Text.eq_of_runs_eq hsize hdigits (Text.forall_head?_append (by decide) _)
    (Text.forall_head?_append (by decide) _) h
  exact congrArg List.head? (List.cons.inj hbehind).2

/-! ## Each rule by itself -/

theorem sizedVaryingArray_apply :
    sizedVaryingArray.apply (" character varying(" ++ (size ++ (Text.ofString ")[]" ++ rest))) =
      " longtext" ++ rest := by
  have hprefers : sizedVaryingArray.pattern.Prefers none
      ([] ++ (Text.ofString " character varying(" ++ (size ++ Text.ofString ")[]"))) rest [] :=
    prefers_start.inOrder_cons (prefers_word.inOrder_cons (size_prefers hsize _))
  have happly := Rule.apply_of_prefers rfl hprefers
  simpa [sizedVaryingArray, typeStart, Rule.once, Match.expand] using happly

theorem sizedCharacterArray_apply :
    sizedCharacterArray.apply (" character(" ++ (size ++ (Text.ofString ")[]" ++ rest))) =
      " longtext" ++ rest := by
  have hprefers : sizedCharacterArray.pattern.Prefers none
      ([] ++ (Text.ofString " character" ++ ([] ++ (Text.ofString "(" ++
        (size ++ Text.ofString ")[]"))))) rest [] :=
    prefers_start.inOrder_cons (prefers_word.inOrder_cons
      ((blanks_prefers_nil _).inOrder_cons
        (prefers_word.inOrder_cons (size_prefers hsize _))))
  have happly := Rule.apply_of_prefers rfl hprefers
  rw [character_eq]
  simpa [sizedCharacterArray, typeStart, Rule.once, Match.expand] using happly

theorem sizedVarying_apply :
    sizedVarying.apply (" character varying(" ++ (size ++ (Text.ofString ")" ++ rest))) =
      " varchar(" ++ (size ++ (Text.ofString ")" ++ rest)) := by
  have hprefers : sizedVarying.pattern.Prefers none
      ([] ++ (Text.ofString " character varying(" ++ (size ++ Text.ofString ")"))) rest
      [(1, size)] :=
    prefers_start.inOrder_cons (prefers_word.inOrder_cons (size_prefers_group hsize _))
  have happly := Rule.apply_of_prefers rfl hprefers
  simpa [sizedVarying, typeStart, Rule.once, Match.expand, Match.group, Match.group?] using happly

theorem sizedCharacter_apply :
    sizedCharacter.apply (" character(" ++ (size ++ (Text.ofString ")" ++ rest))) =
      " char(" ++ (size ++ (Text.ofString ")" ++ rest)) := by
  have hprefers : sizedCharacter.pattern.Prefers none
      ([] ++ (Text.ofString " character" ++ ([] ++ (Text.ofString "(" ++
        (size ++ Text.ofString ")"))))) rest [(1, size)] :=
    prefers_start.inOrder_cons (prefers_word.inOrder_cons
      ((blanks_prefers_nil _).inOrder_cons
        (prefers_word.inOrder_cons (size_prefers_group hsize _))))
  have happly := Rule.apply_of_prefers rfl hprefers
  rw [character_eq]
  simpa [sizedCharacter, typeStart, Rule.once, Match.expand, Match.group, Match.group?] using happly

/-- A length with something else than the mark of an array behind it. -/
theorem occursIn_sizedVaryingArray (hrest : rest.head? ≠ some (.char '[')) :
    sizedVaryingArray.pattern.occursIn
      (" character varying(" ++ (size ++ (Text.ofString ")" ++ rest))) = false := by
  refine Bool.eq_false_iff.mpr fun hoccurs => ?_
  obtain ⟨w, after, _, hsplit, hm⟩ := exists_of_occursIn_anchored rfl hoccurs
  simp only [sizedVaryingArray, typeStart, Rule.once, matches_inOrder_cons] at hm
  obtain ⟨_, _, _, _, rfl, rfl, ⟨-, rfl, -⟩, _, _, _, _, rfl, rfl, ⟨rfl, rfl⟩, digits, _, _, _, rfl,
    rfl, ⟨hdigits, -⟩, _, _, _, _, rfl, rfl, ⟨rfl, rfl⟩, rfl, rfl⟩ := hm
  simp only [List.nil_append, List.append_assoc] at hsplit
  exact hrest (head?_of_size_eq hsize hdigits (List.append_cancel_left hsplit))

theorem occursIn_sizedCharacterArray_sized (hrest : rest.head? ≠ some (.char '[')) :
    sizedCharacterArray.pattern.occursIn (" character(" ++ (size ++ (Text.ofString ")" ++ rest))) =
      false := by
  refine Bool.eq_false_iff.mpr fun hoccurs => ?_
  obtain ⟨w, after, _, hsplit, hm⟩ := exists_of_occursIn_anchored rfl hoccurs
  simp only [sizedCharacterArray, typeStart, Rule.once, matches_inOrder_cons] at hm
  obtain ⟨_, _, _, _, rfl, rfl, ⟨-, rfl, -⟩, _, _, _, _, rfl, rfl, ⟨rfl, rfl⟩, gap, _, _, _, rfl,
    rfl, ⟨hgap, -⟩, _, _, _, _, rfl, rfl, ⟨rfl, rfl⟩, digits, _, _, _, rfl, rfl, ⟨hdigits, -⟩, _, _,
    _, _, rfl, rfl, ⟨rfl, rfl⟩, rfl, rfl⟩ := hm
  rw [character_eq] at hsplit
  simp only [List.nil_append, List.append_assoc] at hsplit
  have hopen (t : Text) : ∀ s ∈ (Text.ofString "(" ++ t).head?, s.isBlank = false :=
    Text.forall_head?_append (by decide) t
  obtain ⟨-, hbehind⟩ := Text.eq_of_runs_eq (u := []) (by simp) hgap (hopen _) (hopen _)
    (List.append_cancel_left hsplit)
  exact hrest (head?_of_size_eq hsize hdigits (List.append_cancel_left hbehind))

/-! ## All rules for names -/

theorem nameRules_varyingArray :
    applyRules nameRules (" character varying(" ++ (size ++ (Text.ofString ")[]" ++ rest))) =
      " longtext" ++ rest := by
  have hsplit : nameRules = wordRules ++ sizedVaryingArray :: nameRules.drop 15 := rfl
  have hword : ∀ r ∈ wordRules, r.Misses " character varying(" := by decide
  have hlater : ∀ r ∈ nameRules.drop 15, r.Misses " longtext" := by decide
  rw [hsplit]
  exact applyRules_of_first (fun r hr => (hword r hr).occursIn _) (sizedVaryingArray_apply hsize)
    hlater

theorem nameRules_characterArray :
    applyRules nameRules (" character(" ++ (size ++ (Text.ofString ")[]" ++ rest))) =
      " longtext" ++ rest := by
  have hsplit : nameRules = nameRules.take 16 ++ sizedCharacterArray :: nameRules.drop 17 := rfl
  have hfront : ∀ r ∈ nameRules.take 16, r.Misses " character(" := by decide
  have hlater : ∀ r ∈ nameRules.drop 17, r.Misses " longtext" := by decide
  rw [hsplit]
  exact applyRules_of_first (fun r hr => (hfront r hr).occursIn _) (sizedCharacterArray_apply hsize)
    hlater

/-- Characters with a length become `varchar`. -/
theorem nameRules_varying (hrest : rest.head? ≠ some (.char '[')) :
    applyRules nameRules (" character varying(" ++ (size ++ (Text.ofString ")" ++ rest))) =
      " varchar(" ++ (size ++ (Text.ofString ")" ++ rest)) := by
  have hsplit : nameRules = (wordRules ++ sizedVaryingArray :: ((nameRules.drop 15).take 1 ++
    sizedCharacterArray :: (nameRules.drop 17).take 1)) ++ sizedVarying :: nameRules.drop 19 := rfl
  have hword : ∀ r ∈ wordRules, r.Misses " character varying(" := by decide
  have harray : ∀ r ∈ (nameRules.drop 15).take 1, r.Misses " character varying(" := by decide
  have hfixed : ∀ r ∈ (nameRules.drop 17).take 1, r.Misses " character varying(" := by decide
  have hlater : ∀ r ∈ nameRules.drop 19, r.Misses " varchar(" := by decide
  have hname : Text.ofString " character varying(" = " character varying" ++ Text.ofString "(" := by
    decide
  have hcharacter (t : Text) :
      sizedCharacterArray.pattern.occursIn (" character varying(" ++ t) = false := by
    rw [hname, List.append_assoc]
    exact occursIn_sizedCharacterArray _
  -- Two rules for arrays begin like the type; the one fails behind its size, the other behind its
  -- first word. The rest of the rules miss.
  rw [hsplit]
  refine applyRules_of_first ?_ (sizedVarying_apply hsize) hlater
  rw [List.forall_mem_append, List.forall_mem_cons, List.forall_mem_append, List.forall_mem_cons]
  exact ⟨fun r hr => (hword r hr).occursIn _, occursIn_sizedVaryingArray hsize hrest,
    fun r hr => (harray r hr).occursIn _, hcharacter _, fun r hr => (hfixed r hr).occursIn _⟩

/-- Characters of a fixed length become `char`. -/
theorem nameRules_character (hrest : rest.head? ≠ some (.char '[')) :
    applyRules nameRules (" character(" ++ (size ++ (Text.ofString ")" ++ rest))) =
      " char(" ++ (size ++ (Text.ofString ")" ++ rest)) := by
  have hsplit : nameRules = (nameRules.take 16 ++ sizedCharacterArray ::
    (nameRules.drop 17).take 3) ++ sizedCharacter :: nameRules.drop 21 := rfl
  have hfront : ∀ r ∈ nameRules.take 16, r.Misses " character(" := by decide
  have hvarying : ∀ r ∈ (nameRules.drop 17).take 3, r.Misses " character(" := by decide
  have hlater : ∀ r ∈ nameRules.drop 21, r.Misses " char(" := by decide
  rw [hsplit]
  refine applyRules_of_first ?_ (sizedCharacter_apply hsize) hlater
  rw [List.forall_mem_append, List.forall_mem_cons]
  exact ⟨fun r hr => (hfront r hr).occursIn _, occursIn_sizedCharacterArray_sized hsize hrest,
    fun r hr => (hvarying r hr).occursIn _⟩

end Sized

end DumpDialect.Column
