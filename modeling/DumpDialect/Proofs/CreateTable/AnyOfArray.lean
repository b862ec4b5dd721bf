import DumpDialect.Proofs.CreateTable.Parentheses
import DumpDialect.Proofs.Pattern.Preferred

/-!
# Comparisons with the elements of an array

`= ANY (ARRAY[...])` becomes `IN (...)`, but the parenthesis that closes the comparison stays, and
is made up for at the end of the line. So the line keeps its grouping only if nothing but closing
parentheses follow the comparison; where more follows, a condition moves out of the parentheses that
it stood in, or the statement is left with a parenthesis too many.

- `parenthesizedArrayRule_apply`, `arrayRule_apply`, `doubledRule_apply`: the rules, one by one.
- `ArrayTest.convert_line`: the line that is written.
- `ArrayTest.in_place_iff`: where the comparison is all that changes.
-/

namespace DumpDialect.CheckConstraint

open Pattern

/-- The rule that drops the opening parenthesis in front of an array. -/
def parenthesizedArrayRule : Rule := anyRules[0]

/-- The rule that writes an array as a list. -/
def arrayRule : Rule := anyRules[1]

/-- The rule that drops the inner of two parentheses around a list. -/
def doubledRule : Rule := anyRules[2]

variable {front list after : Text}

/-! ## The rules -/

/-- No comparison begins in a front without one. -/
private theorem at?_eq_none_of_any {p : Pattern} {gone here rest : Text}
    (hp : ∀ prev w rest groups, p.Matches prev w rest groups → Text.ofString "= ANY " <+: w)
    (hfront : ¬ Text.ofString "ANY" <:+: front) (hsplit : front = gone ++ here) (hne : here ≠ [])
    (hrest : Text.ofString "= ANY " <+: rest) : p.at? ⟨gone.getLast?, here ++ rest⟩ = none := by
  refine at?_eq_none_iff.mpr fun w rest' groups hw hm => hfront ?_
  obtain ⟨rest, rfl⟩ := hrest
  have hany : Text.ofString "= ANY " = .char '=' :: Text.ofString " ANY " := by decide
  have hw : here ++ (Text.ofString "= ANY " ++ rest) = w ++ rest' := hw
  have hbegins : Text.ofString "= ANY " <+: here ++ (Text.ofString "= ANY " ++ rest) := by
    rw [hw]
    exact (hp _ _ _ _ hm).trans (List.prefix_append w rest')
  rw [hany] at hbegins
  have hhere := Text.prefix_of_prefix_append (by decide) hne hbegins
  have hword : Text.ofString "ANY" <:+: Text.ofString "= ANY " := by decide
  rw [hsplit]
  exact (hword.trans (hany ▸ hhere.isInfix)).trans (List.suffix_append gone here).isInfix

/-- What a rule for arrays writes for the comparison behind a front without one. -/
private theorem apply_of_prefers {r : Rule} (hscope : r.scope = .leftmost)
    (hbegin : ∀ prev w rest groups, r.pattern.Matches prev w rest groups →
      Text.ofString "= ANY " <+: w)
    (hfront : ¬ Text.ofString "ANY" <:+: front) {w : Text} {groups : List (Nat × Text)}
    (hw : Text.ofString "= ANY " <+: w)
    (hprefers : r.pattern.Prefers front.getLast? w after groups) :
    r.apply (front ++ (w ++ after)) =
      front ++ (Match.mk front w after groups).expand r.replacement ++ after := by
  have hfind := hprefers.find_append fun gone here hsplit hne =>
    at?_eq_none_of_any hbegin hfront hsplit hne (hw.trans (List.prefix_append w after))
  simp only [Rule.apply, hscope]
  rw [replaceFirst, hfind]

/-- The elements of an array reach up to the bracket. -/
private theorem tries_list (hlist : list.IsOneLine) (prev : Option Symbol) (rest : Text) :
    (many .least Symbol.isInLine).Tries prev list rest [] fun c =>
      ∃ gone here, list = gone ++ here ∧ here ≠ [] ∧ c = ⟨lastOf prev gone, here ++ rest⟩ :=
  tries_least fun s hs => by
    rw [Symbol.isInLine, decide_eq_true_iff]
    rintro rfl
    exact hlist hs

theorem parenthesizedArrayRule_apply (hfront : ¬ Text.ofString "ANY" <:+: front)
    (hlist : list.IsOneLine) (hbracket : .char ']' ∉ list) (after : Text) :
    parenthesizedArrayRule.apply (front ++ ("= ANY (ARRAY[" ++ (list ++ ("])" ++ after)))) =
      front ++ ("= ANY ARRAY[" ++ (list ++ ("])" ++ after))) := by
  -- The list is taken by the shortest run, which does not stop early: nothing in the list begins
  -- the end.
  have hrest (prev : Option Symbol) : (inOrder [many .least Symbol.isInLine, "])"]).Prefers prev
      (list ++ "])") after [] := by
    refine (tries_list hlist prev ("])" ++ after)).seq ?_ prefers_word
    rintro _ ⟨gone, here, rfl, hne, rfl⟩
    exact @outcomes_inOrder_eq_nil _ _ _ []
      (Text.not_prefix_of_not_mem hne fun h => hbracket (List.mem_append_right _ h))
  have harray (prev : Option Symbol) :
      (inOrder [group 1 (inOrder ["ARRAY[", many .least Symbol.isInLine, "])"])]).Prefers prev
        ("ARRAY[" ++ (list ++ "])")) after [(1, "ARRAY[" ++ (list ++ "])"))] :=
    (prefers_word.inOrder_cons (hrest _)).group 1
  have hprefers : parenthesizedArrayRule.pattern.Prefers front.getLast?
      ("= ANY (" ++ ("ARRAY[" ++ (list ++ "])"))) after [(1, "ARRAY[" ++ (list ++ "])"))] :=
    prefers_word.inOrder_cons (harray _)
  have hword : Text.ofString "= ANY (ARRAY[" = "= ANY (" ++ Text.ofString "ARRAY[" := by decide
  have hwritten : Text.ofString "= ANY ARRAY[" = "= ANY " ++ Text.ofString "ARRAY[" := by decide
  have happly := apply_of_prefers rfl
    (fun _ _ _ _ h => (by decide : _ <+: _).trans h.word_begins) hfront
    ((by decide : Text.ofString "= ANY " <+: Text.ofString "= ANY (").trans
      (List.prefix_append ..)) hprefers
  have hexpand : (Match.mk front ("= ANY (" ++ ("ARRAY[" ++ (list ++ "])"))) after
      [(1, "ARRAY[" ++ (list ++ "])"))]).expand parenthesizedArrayRule.replacement =
        Text.ofString "= ANY " ++
          ((Text.ofString "ARRAY[" ++ (list ++ Text.ofString "])")) ++ ([] : Text)) := rfl
  rw [hexpand] at happly
  rw [hword, hwritten]
  simpa using happly

theorem arrayRule_apply (hfront : ¬ Text.ofString "ANY" <:+: front)
    (hlist : list.IsOneLine) (hbracket : .char ']' ∉ list) (after : Text) :
    arrayRule.apply (front ++ ("= ANY ARRAY[" ++ (list ++ ("]" ++ after)))) =
      front ++ ("IN (" ++ (list ++ (")" ++ after))) := by
  have hrest (prev : Option Symbol) :
      (inOrder [group 1 (many .least Symbol.isInLine), "]"]).Prefers prev (list ++ "]") after
        [(1, list)] := by
    refine ((tries_list hlist prev ("]" ++ after)).group 1).seq ?_ prefers_word
    rintro _ ⟨gone, here, rfl, hne, rfl⟩
    exact @outcomes_inOrder_eq_nil _ _ _ []
      (Text.not_prefix_of_not_mem hne fun h => hbracket (List.mem_append_right _ h))
  have hprefers : arrayRule.pattern.Prefers front.getLast? ("= ANY ARRAY[" ++ (list ++ "]")) after
      [(1, list)] :=
    prefers_word.inOrder_cons (hrest _)
  have happly := apply_of_prefers rfl
    (fun _ _ _ _ h => (by decide : _ <+: _).trans h.word_begins) hfront
    ((by decide : Text.ofString "= ANY " <+: Text.ofString "= ANY ARRAY[").trans
      (List.prefix_append ..)) hprefers
  have hexpand : (Match.mk front ("= ANY ARRAY[" ++ (list ++ "]")) after [(1, list)]).expand
      arrayRule.replacement = Text.ofString "IN (" ++ (list ++ (Text.ofString ")" ++ [])) := rfl
  rw [hexpand] at happly
  simpa using happly

/-- A list behind a front has one opening parenthesis only. -/
private theorem not_doubled (hfront : ¬ Text.ofString " IN ((" <:+: front)
    (hlist : .char '(' ∉ list) : ¬ Text.ofString " IN ((" <:+: front ++ ("IN (" ++ list) := by
  have hcount : (Text.ofString "IN (" ++ list).count (.char '(') = 1 := by
    rw [List.count_append, List.count_eq_zero_of_not_mem hlist]
    rfl
  have hdouble : (Text.ofString " IN ((").count (.char '(') = 2 := rfl
  have hbegins : ∀ k, k ≤ 6 → ((Text.ofString " IN ((").drop k).head? = some (.char 'I') →
      ((Text.ofString " IN ((").drop k).count (.char '(') = 2 := by decide
  intro hwithin
  rcases List.infix_append_iff.mp hwithin with hword | hword | ⟨w₁, w₂, hsplit, hw₁, hw₂⟩
  · exact hfront hword
  · have hle := hword.sublist.count_le (.char '(')
    omega
  · -- What stands behind the front would have to begin with the I and hold both parentheses.
    have hdrop : (Text.ofString " IN ((").drop w₁.length = w₂ := by rw [hsplit, List.drop_left]
    have hlength : w₁.length ≤ 6 := by
      have hall := congrArg List.length hsplit
      rw [List.length_append] at hall
      exact Nat.le_trans (Nat.le_add_right _ _) (Nat.le_of_eq hall.symm)
    cases w₂ with
    | nil =>
      rw [List.append_nil] at hsplit
      exact hfront (hsplit ▸ hw₁.isInfix)
    | cons s w₂ =>
      have hs : s = .char 'I' := (List.cons_prefix_cons.mp hw₂).1
      have htwo := hbegins _ hlength (by rw [hdrop, hs, List.head?_cons])
      have hle := hw₂.sublist.count_le (.char '(')
      rw [hdrop] at htwo
      omega

theorem arrayRule_eq_self {line : Text} (h : ¬ Text.ofString "= ANY ARRAY[" <:+: line) :
    arrayRule.apply line = line :=
  have hnone : (inOrder [word "= ANY ARRAY[", group 1 (many .least Symbol.isInLine),
      word "]"]).occursIn line = false := occursIn_inOrder_eq_false h
  Rule.apply_eq_self hnone

theorem doubledRule_eq_self {line : Text} (h : ¬ Text.ofString " IN ((" <:+: line) :
    doubledRule.apply line = line :=
  have hnone : (inOrder [word " IN ((", group 1 (many .least Symbol.isInLine),
      word "))"]).occursIn line = false := occursIn_inOrder_eq_false h
  Rule.apply_eq_self hnone

/-- Writing a list does not double a parenthesis. -/
theorem doubledRule_apply (hfront : ¬ Text.ofString " IN ((" <:+: front)
    (hafter : ¬ Text.ofString " IN ((" <:+: after) (hlist : .char '(' ∉ list) :
    doubledRule.apply (front ++ ("IN (" ++ (list ++ ("))" ++ after)))) =
      front ++ ("IN (" ++ (list ++ ("))" ++ after))) := by
  have hsplit : front ++ (Text.ofString "IN (" ++ (list ++ (Text.ofString "))" ++ after))) =
      (front ++ (Text.ofString "IN (" ++ list)) ++ .char ')' :: ([] ++ .char ')' :: after) := by
    have hclose : Text.ofString "))" = [.char ')', .char ')'] := by decide
    simp [hclose]
  refine doubledRule_eq_self ?_
  rw [hsplit, Text.infix_append_cons_iff (by decide) (by decide),
    Text.infix_append_cons_iff (by decide) (by decide), not_or, not_or]
  exact ⟨not_doubled hfront hlist, by decide, hafter⟩

/-- A line without a comparison with an array and without a list in two pairs of parentheses stays
as it is. -/
theorem applyRules_eq_self {line : Text}
    (harray : ∀ v ∈ [Text.ofString "= ANY (ARRAY[", "= ANY ARRAY["], ¬ v <:+: line)
    (hlist : ¬ Text.ofString " IN ((" <:+: line) : applyRules anyRules line = line := by
  obtain ⟨hparenthesized, hany, -⟩ := by simpa only [List.forall_mem_cons] using harray
  have hfirst : parenthesizedArrayRule.pattern.occursIn line = false := by
    refine Bool.eq_false_iff.mpr fun hoccurs => hparenthesized ?_
    obtain ⟨before, _, after, _, rfl, hm⟩ := occursIn_iff.mp hoccurs
    simp only [parenthesizedArrayRule, anyRules, List.getElem_cons_zero, Rule.once] at hm
    obtain ⟨_, w, _, _, rfl, rfl, ⟨rfl, rfl⟩, _, -, hm⟩ := matches_inOrder_cons.mp hm
    have hword : Text.ofString "= ANY (ARRAY[" = "= ANY (" ++ Text.ofString "ARRAY[" := by decide
    rw [hword]
    exact ((List.prefix_append_right_inj _).mpr hm.word_begins).isInfix.trans
      ⟨before, after, by simp⟩
  have hrules : applyRules anyRules line =
      doubledRule.apply (arrayRule.apply (parenthesizedArrayRule.apply line)) := rfl
  rw [hrules, Rule.apply_eq_self hfirst, arrayRule_eq_self hany, doubledRule_eq_self hlist]

/-! ## Lines without casts -/

/-- A cast of an expression in parentheses is a cast. -/
theorem parenthesizedCast_occursIn {line : Text} (h : TypeName.cast.occursIn line = false) :
    parenthesizedCast.pattern.occursIn line = false := by
  refine Bool.eq_false_iff.mpr fun hoccurs => Bool.eq_false_iff.mp h ?_
  obtain ⟨before, _, behind, _, rfl, hm⟩ := occursIn_iff.mp hoccurs
  simp only [parenthesizedCast, Rule.throughout, matches_inOrder_cons] at hm
  obtain ⟨v₁, _, _, _, rfl, rfl, -, v₂, _, _, _, rfl, rfl, -, v₃, _, _, _, rfl, rfl, -, w, _,
    groups, _, rfl, rfl, hcast, rfl, rfl⟩ := hm
  refine occursIn_iff.mpr ⟨before ++ (v₁ ++ (v₂ ++ v₃)), w, behind, groups, by simp, ?_⟩
  rw [← lastOf_none] at hcast ⊢
  simpa using hcast

theorem peelCasts_eq_self {line : Text} (h : parenthesizedCast.pattern.occursIn line = false) :
    peelCasts line = line := by
  rw [peelCasts, Rule.apply_eq_self h]
  exact if_neg (Nat.lt_irrefl _)

/-! ## The line -/

/-- A line of a CHECK constraint that compares a value with the elements of an array, and has no
casts, no other array and as many closing parentheses as opening ones. -/
structure ArrayTest where
  front : Text
  list : Text
  after : Text
  isOneLine : (front ++ "= ANY (ARRAY[" ++ list ++ "])" ++ after).IsOneLine
  noCast : TypeName.cast.occursIn (front ++ "= ANY (ARRAY[" ++ list ++ "])" ++ after) = false
  noOther : ∀ part ∈ [front, list, after],
    ¬ Text.ofString "ANY" <:+: part ∧ ¬ Text.ofString "ARRAY" <:+: part
  notDoubled : ¬ Text.ofString " IN ((" <:+: front ++ "= ANY (ARRAY[" ++ list ++ "])" ++ after
  plain : ∀ s ∈ list, s.isIn "[]()" = false
  balanced : (front ++ "= ANY (ARRAY[" ++ list ++ "])" ++ after).count (.char '(') =
    (front ++ "= ANY (ARRAY[" ++ list ++ "])" ++ after).count (.char ')')

namespace ArrayTest

variable (c : ArrayTest)

/-- The line. -/
def line : Text := c.front ++ "= ANY (ARRAY[" ++ c.list ++ "])" ++ c.after

/-- The line with the comparison, and nothing else, as a comparison with a list. -/
def inList : Text := c.front ++ "IN (" ++ c.list ++ ")" ++ c.after

theorem not_mem_list {s : Symbol} (hs : s.isIn "[]()" = true) : s ∉ c.list := fun hmem => by
  rw [c.plain s hmem] at hs
  cases hs

theorem isOneLine_parts : c.front.IsOneLine ∧ c.list.IsOneLine ∧ c.after.IsOneLine := by
  have h := c.isOneLine
  simp only [Text.isOneLine_append_iff] at h
  exact ⟨h.1.1.1.1, h.1.1.2, h.2⟩

theorem applyRules_line :
    applyRules anyRules c.line = c.front ++ ("IN (" ++ (c.list ++ ("))" ++ c.after))) := by
  have hfront : ¬ Text.ofString "ANY" <:+: c.front := (c.noOther c.front (by simp)).1
  have hlist : c.list.IsOneLine := c.isOneLine_parts.2.1
  have hbracket : .char ']' ∉ c.list := c.not_mem_list (by decide)
  have hline : c.line = c.front ++
      (Text.ofString "= ANY (ARRAY[" ++ (c.list ++ (Text.ofString "])" ++ c.after))) := by
    simp [line]
  have hend : Text.ofString "])" = "]" ++ Text.ofString ")" := by decide
  have hclose : Text.ofString "))" = ")" ++ Text.ofString ")" := by decide
  have hrules : applyRules anyRules c.line =
      doubledRule.apply (arrayRule.apply (parenthesizedArrayRule.apply c.line)) := rfl
  have hdoubled : ¬ Text.ofString " IN ((" <:+: c.front ∧
      ¬ Text.ofString " IN ((" <:+: c.after := by
    refine ⟨fun h => c.notDoubled ?_, fun h => c.notDoubled ?_⟩
    · simp only [List.append_assoc]
      exact h.trans (List.prefix_append ..).isInfix
    · exact h.trans (List.suffix_append ..).isInfix
  rw [hrules, hline, parenthesizedArrayRule_apply hfront hlist hbracket, hend, List.append_assoc,
    arrayRule_apply hfront hlist hbracket, ← List.append_assoc (Text.ofString ")"), ← hclose]
  exact doubledRule_apply hdoubled.1 hdoubled.2 (c.not_mem_list (by decide))

/-- The rules leave a closing parenthesis too many. -/
theorem count_applyRules_line :
    (applyRules anyRules c.line).count (.char ')') =
      (applyRules anyRules c.line).count (.char '(') + 1 := by
  have hcompare : (Text.ofString "= ANY (ARRAY[").count (.char '(') = 1 ∧
    (Text.ofString "= ANY (ARRAY[").count (.char ')') = 0 := ⟨rfl, rfl⟩
  have hend : (Text.ofString "])").count (.char '(') = 0 ∧
    (Text.ofString "])").count (.char ')') = 1 := ⟨rfl, rfl⟩
  have hopen : (Text.ofString "IN (").count (.char '(') = 1 ∧
    (Text.ofString "IN (").count (.char ')') = 0 := ⟨rfl, rfl⟩
  have hclose : (Text.ofString "))").count (.char '(') = 0 ∧
    (Text.ofString "))").count (.char ')') = 2 := ⟨rfl, rfl⟩
  have hbalanced := c.balanced
  rw [applyRules_line]
  simp only [List.count_append] at hbalanced ⊢
  omega

theorem isOneLine_after : Text.IsOneLine (.char ')' :: c.after) :=
  Text.IsOneLine.append (by decide : Text.IsOneLine [.char ')']) c.isOneLine_parts.2.2

/-- The comparison is written as one with a list, and a parenthesis goes at the end of the line. -/
theorem convert_line :
    convert c.line =
      c.front ++ "IN (" ++ c.list ++ ")" ++ lastParenthesis.apply (")" ++ c.after) := by
  obtain ⟨hfront, hlist, -⟩ := c.isOneLine_parts
  have hnoCast : TypeName.cast.occursIn c.line = false := c.noCast
  have hpar : Text.ofString ")" = [.char ')'] := by decide
  have hclose : Text.ofString "))" = [.char ')', .char ')'] := by decide
  have hsplit : c.front ++ (Text.ofString "IN (" ++ (c.list ++ (Text.ofString "))" ++ c.after))) =
      (c.front ++ Text.ofString "IN (" ++ c.list ++ Text.ofString ")") ++ .char ')' :: c.after := by
    simp [hpar, hclose]
  have hhead : (c.front ++ Text.ofString "IN (" ++ c.list ++ Text.ofString ")").IsOneLine :=
    ((hfront.append (by decide)).append hlist).append (by decide)
  rw [convert, peelCasts_eq_self (parenthesizedCast_occursIn hnoCast),
    show bareCast.apply c.line = c.line from Rule.apply_eq_self hnoCast,
    balance_of_count c.count_applyRules_line, applyRules_line, hsplit,
    lastParenthesis_append (hhead.append c.isOneLine_after), hpar]
  rfl

/-- **A comparison with an array is turned into one with a list, but not in place.** Take a line
that compares with the elements of an array, without casts, other arrays or doubled parentheses
around a list, and with as many closing parentheses as opening ones. The parenthesis that closed the
comparison stays, and the last parenthesis of the line goes instead, with the blanks behind it. So
the comparison is all that changes exactly if nothing follows it but closing parentheses, and a
comma or not. -/
theorem in_place_iff :
    convert c.line =
        c.front ++ "IN (" ++ c.list ++ ")" ++ lastParenthesis.apply (")" ++ c.after) ∧
      (convert c.line = c.inList ↔
        ∃ n comma, (comma = [] ∨ comma = [.char ',']) ∧
          c.after = List.replicate n (.char ')') ++ comma) := by
  refine ⟨c.convert_line, ?_⟩
  rw [← lastParenthesis_eq_iff c.isOneLine_after, convert_line, inList, List.append_right_inj]
  exact Iff.rfl

/-- The comparison as the last of two conditions, and as the first. -/
theorem last_condition_in_place :
    let check : Text := "    CONSTRAINT c CHECK ("
    (convert (check ++ "((b > 0) AND (a = ANY (ARRAY[1, 2])))),") =
        check ++ "((b > 0) AND (a IN (1, 2)))),") ∧
      convert (check ++ "((a = ANY (ARRAY[1, 2])) AND (b > 0)))") =
        check ++ "((a IN (1, 2))) AND (b > 0))" := by
  intro check
  let last : ArrayTest := {
    front := check ++ "((b > 0) AND (a "
    list := "1, 2"
    after := "))),"
    isOneLine := by decide +kernel
    noCast := by decide +kernel
    noOther := by decide +kernel
    notDoubled := by decide +kernel
    plain := by decide +kernel
    balanced := by decide +kernel }
  let first : ArrayTest := {
    front := check ++ "((a "
    list := "1, 2"
    after := ") AND (b > 0)))"
    isOneLine := by decide +kernel
    noCast := by decide +kernel
    noOther := by decide +kernel
    notDoubled := by decide +kernel
    plain := by decide +kernel
    balanced := by decide +kernel }
  constructor
  · exact last.in_place_iff.2.mpr ⟨3, ",", .inr (by decide), by decide⟩
  · exact first.in_place_iff.1.trans (by decide +kernel)

/-- A condition behind the comparison leaves the parentheses that it stood in. It was an alternative
to the comparison, and becomes one to all that stands in front of it. -/
theorem first_condition_not_in_place :
    ∃ c : ArrayTest,
      c.line = "    CONSTRAINT c CHECK (((b > 0) AND ((a = ANY (ARRAY[1, 2])) OR (c > 0))))" ∧
      c.inList = "    CONSTRAINT c CHECK (((b > 0) AND ((a IN (1, 2)) OR (c > 0))))" ∧
      convert c.line = "    CONSTRAINT c CHECK (((b > 0) AND ((a IN (1, 2))) OR (c > 0)))" ∧
      convert c.line ≠ c.inList := by
  let c : ArrayTest := {
    front := "    CONSTRAINT c CHECK (((b > 0) AND ((a "
    list := "1, 2"
    after := ") OR (c > 0))))"
    isOneLine := by decide +kernel
    noCast := by decide +kernel
    noOther := by decide +kernel
    notDoubled := by decide +kernel
    plain := by decide +kernel
    balanced := by decide +kernel }
  have hconvert :
      convert c.line = "    CONSTRAINT c CHECK (((b > 0) AND ((a IN (1, 2))) OR (c > 0)))" :=
    c.convert_line.trans (by decide +kernel)
  refine ⟨c, by decide +kernel, by decide +kernel, hconvert, ?_⟩
  rw [hconvert]
  decide +kernel

end ArrayTest

end DumpDialect.CheckConstraint
