import DumpDialect.CreateTable.Check
import DumpDialect.Proofs.Conversion.OneLine
import DumpDialect.Proofs.Text.Splitting

/-!
# The last parenthesis of a line

While a line has more closing parentheses than opening ones, the last of them is dropped, if nothing
but a comma and blanks stand behind it. Which parenthesis was one too many is not asked.

- `lastParenthesis_apply`, `lastParenthesis_cases`: what the rule does to a line.
- `lastParenthesis_append`: what it does behind a front.
- `lastParenthesis_eq_iff`: where the parenthesis that goes might as well be the first.
- `balance_eq_self`, `balance_of_count`: lines without a closing parenthesis too many, or with one.
-/

namespace DumpDialect.CheckConstraint

open Pattern

/-- What may stand behind the last parenthesis of a line: a comma or nothing, and blanks. -/
def IsTail (comma gap : Text) : Prop :=
  (comma = [] ∨ comma = [.char ',']) ∧ ∀ s ∈ gap, s.isBlank = true

variable {comma gap line : Text}

theorem IsTail.not_mem (h : IsTail comma gap) : Symbol.char ')' ∉ comma ++ gap := by
  obtain ⟨hcomma, hgap⟩ := h
  rw [List.mem_append, not_or]
  constructor
  · rcases hcomma with rfl | rfl <;> decide
  · exact fun hmem => absurd (hgap _ hmem) (by decide)

/-- The comma is known from what stands behind the parenthesis. -/
theorem IsTail.comma_eq {comma' gap' : Text} (h : IsTail comma gap) (h' : IsTail comma' gap')
    (heq : comma ++ gap = comma' ++ gap') : comma = comma' := by
  have hblank {t u : Text} (ht : ∀ s ∈ t, s.isBlank = true) : t ≠ .char ',' :: u := by
    rintro rfl
    exact absurd (ht _ List.mem_cons_self) (by decide)
  obtain ⟨rfl | rfl, hgap⟩ := h <;> obtain ⟨rfl | rfl, hgap'⟩ := h'
  · rfl
  · exact absurd heq (hblank hgap)
  · exact absurd heq.symm (hblank hgap')
  · rfl

/-- The places where the rule matches: at the last parenthesis of the line, with its tail. -/
private theorem matches_lastParenthesis_iff {prev : Option Symbol} {w after : Text}
    {groups : List (Nat × Text)} (hafter : after.IsOneLine) :
    lastParenthesis.pattern.Matches prev w after groups ↔
      after = [] ∧ ∃ comma gap, IsTail comma gap ∧ w = .char ')' :: (comma ++ gap) ∧
        groups = if comma = [] then [] else [(1, comma)] := by
  have hpar : Text.ofString ")" = [.char ')'] := by decide
  have hcomma : Text.ofString "," = [.char ','] := by decide
  simp only [lastParenthesis, Rule.once]
  constructor
  · intro h
    simp only [matches_inOrder_cons] at h
    obtain ⟨_, _, _, _, rfl, rfl, ⟨rfl, rfl⟩, comma, _, _, _, rfl, rfl, hopt, gap, _, _, _, rfl,
      rfl, ⟨hgap, rfl⟩, _, _, _, _, rfl, rfl, ⟨hend, rfl, rfl⟩, rfl, rfl⟩ := h
    refine ⟨?_, comma, gap, ?_⟩
    · -- `$` also holds in front of a line feed at the end, of which there is none.
      rcases hend with hend | hend
      · simpa using hend
      · exact absurd (by simpa [Text.IsOneLine] using congrArg (Symbol.lineFeed ∈ ·) hend) hafter
    · rcases matches_optional.mp hopt with ⟨_, rfl, rfl, rfl⟩ | ⟨rfl, rfl⟩
      · exact ⟨⟨.inr hcomma, hgap⟩, by simp [hpar], by simp [hcomma]⟩
      · exact ⟨⟨.inl rfl, hgap⟩, by simp [hpar], by simp⟩
  · rintro ⟨rfl, comma, gap, ⟨hc, hgap⟩, rfl, rfl⟩
    refine matches_inOrder_cons.mpr ⟨_, comma ++ gap, [], _, by rw [hpar]; rfl, rfl, ⟨rfl, rfl⟩,
      matches_inOrder_cons.mpr ⟨comma, gap, _, [], rfl, (List.append_nil _).symm, ?_, ?_⟩⟩
    · rcases hc with rfl | rfl
      · exact .inr ⟨rfl, rfl⟩
      · exact .inl ⟨[], rfl, hcomma.symm, rfl⟩
    · exact matches_inOrder_cons.mpr ⟨gap, [], [], [], (List.append_nil _).symm, rfl, ⟨hgap, rfl⟩,
        matches_inOrder_cons.mpr ⟨[], [], [], [], rfl, rfl, ⟨.inl rfl, rfl, rfl⟩, rfl, rfl⟩⟩

/-- The rule drops the last parenthesis and the blanks behind it. -/
theorem lastParenthesis_apply {front : Text} (htail : IsTail comma gap)
    (h : (front ++ .char ')' :: (comma ++ gap)).IsOneLine) :
    lastParenthesis.apply (front ++ .char ')' :: (comma ++ gap)) = front ++ comma := by
  have hoccurs :
      lastParenthesis.pattern.occursIn (front ++ .char ')' :: (comma ++ gap)) = true := by
    have hmatch : lastParenthesis.pattern.Matches front.getLast? (.char ')' :: (comma ++ gap)) []
        (if comma = [] then [] else [(1, comma)]) :=
      (matches_lastParenthesis_iff List.not_mem_nil).mpr ⟨rfl, comma, gap, htail, rfl, rfl⟩
    exact occursIn_iff.mpr ⟨front, _, [], _, (List.append_nil _).symm, hmatch⟩
  obtain ⟨m, hm⟩ := Option.isSome_iff_exists.mp hoccurs
  obtain ⟨ht, hmatch⟩ := matches_of_find hm
  have hafter : m.after.IsOneLine := (Text.isOneLine_append_iff.mp (ht ▸ h)).2
  obtain ⟨hnil, comma', gap', htail', hfound, hgroups⟩ :=
    (matches_lastParenthesis_iff hafter).mp hmatch
  rw [hnil, hfound, List.append_nil] at ht
  -- Two tails without a parenthesis behind the same text start at the same place, so the match is
  -- the one meant.
  obtain ⟨hfront, hrest⟩ := Text.eq_of_append_cons_eq htail.not_mem htail'.not_mem ht
  have hgroup : m.group 1 = comma' := by
    rw [Match.group, Match.group?, hgroups]
    split <;> simp_all
  have hrule : lastParenthesis.apply (front ++ .char ')' :: (comma ++ gap)) =
      m.before ++ (m.group 1 ++ []) ++ m.after := by
    show lastParenthesis.pattern.replaceFirst _ _ = _
    rw [replaceFirst, hm]
    rfl
  rw [hrule, hgroup, hnil, ← hfront, htail.comma_eq htail' hrest, List.append_nil, List.append_nil]

/-- A line has a tail behind its last parenthesis, or stays as it is. -/
theorem lastParenthesis_cases (h : line.IsOneLine) :
    lastParenthesis.apply line = line ∨
      ∃ front comma gap, IsTail comma gap ∧ line = front ++ .char ')' :: (comma ++ gap) := by
  cases hoccurs : lastParenthesis.pattern.occursIn line with
  | false => exact .inl (Rule.apply_eq_self hoccurs)
  | true =>
    obtain ⟨front, w, after, groups, rfl, hmatch⟩ := occursIn_iff.mp hoccurs
    obtain ⟨rfl, comma, gap, htail, rfl, -⟩ :=
      (matches_lastParenthesis_iff (Text.isOneLine_append_iff.mp h).2).mp hmatch
    exact .inr ⟨front, comma, gap, htail, by rw [List.append_nil]⟩

/-- What stands in front of a closing parenthesis does not matter. -/
theorem lastParenthesis_append {front rest : Text} (h : (front ++ .char ')' :: rest).IsOneLine) :
    lastParenthesis.apply (front ++ .char ')' :: rest) =
      front ++ lastParenthesis.apply (.char ')' :: rest) := by
  have hrest : Text.IsOneLine (.char ')' :: rest) := (Text.isOneLine_append_iff.mp h).2
  have hdropped {f comma gap : Text} (htail : IsTail comma gap)
      (hsplit : .char ')' :: rest = f ++ .char ')' :: (comma ++ gap)) :
      lastParenthesis.apply (front ++ .char ')' :: rest) =
        front ++ lastParenthesis.apply (.char ')' :: rest) := by
    rw [hsplit] at h hrest ⊢
    rw [← List.append_assoc] at h ⊢
    rw [lastParenthesis_apply htail h, lastParenthesis_apply htail hrest, List.append_assoc]
  rcases lastParenthesis_cases hrest with hsame | ⟨f, comma, gap, htail, hsplit⟩
  · rcases lastParenthesis_cases h with hall | ⟨f, comma, gap, htail, hsplit⟩
    · rw [hall, hsame]
    · -- The last parenthesis of the whole is not in front of the given one.
      rcases List.append_eq_append_iff.mp hsplit with ⟨between, -, heq⟩ | ⟨between, rfl, heq⟩
      · exact hdropped htail heq
      · cases between with
        | nil => exact @hdropped [] _ _ htail heq.symm
        | cons _ between => exact absurd (by simp [(List.cons.inj heq).2]) htail.not_mem
  · exact hdropped htail hsplit

/-- A text that is the same with a symbol in front of it and behind it holds that symbol only. -/
theorem eq_replicate_of_cons_eq {s : Symbol} {t : Text} (h : s :: t = t ++ [s]) :
    t = List.replicate t.length s := by
  induction t with
  | nil => rfl
  | cons s' t ih =>
    obtain ⟨rfl, ht⟩ := List.cons.inj h
    rw [List.length_cons, List.replicate_succ, ← ih ht]

/-- The parenthesis that goes might as well be the first, if only parentheses follow. -/
theorem lastParenthesis_eq_iff {after : Text} (h : Text.IsOneLine (.char ')' :: after)) :
    lastParenthesis.apply (.char ')' :: after) = after ↔
      ∃ n comma, (comma = [] ∨ comma = [.char ',']) ∧
        after = List.replicate n (.char ')') ++ comma := by
  constructor
  · intro heq
    rcases lastParenthesis_cases h with hsame | ⟨front, comma, gap, htail, hsplit⟩
    · have hlength := congrArg List.length (hsame.symm.trans heq)
      simp at hlength
    · have hafter : front ++ comma = after := by
        rw [← lastParenthesis_apply htail (hsplit ▸ h), ← hsplit, heq]
      have hgap : gap = [] := by
        have hlength := congrArg List.length hsplit
        rw [← hafter] at hlength
        simp only [List.length_cons, List.length_append] at hlength
        exact List.eq_nil_of_length_eq_zero (by omega)
      -- A text that stays the same when its first symbol is moved to its end has one symbol only.
      have hfront : .char ')' :: front = front ++ [.char ')'] := by
        rw [← hafter, hgap, List.append_nil, ← List.cons_append, List.append_cons front] at hsplit
        exact List.append_cancel_right hsplit
      refine ⟨front.length, comma, htail.1, ?_⟩
      rw [← eq_replicate_of_cons_eq hfront, hafter]
  · rintro ⟨n, comma, hcomma, rfl⟩
    have htail : IsTail comma [] := ⟨hcomma, by simp⟩
    have hsplit : .char ')' :: (List.replicate n (Symbol.char ')') ++ comma) =
        List.replicate n (.char ')') ++ .char ')' :: (comma ++ []) := by
      rw [List.append_nil, List.append_cons, ← List.replicate_succ', List.replicate_succ,
        List.cons_append]
    rw [hsplit] at h ⊢
    exact lastParenthesis_apply htail h

/-! ## Balancing -/

theorem balance_eq_self {t : Text} (h : t.count (.char ')') ≤ t.count (.char '(')) :
    balance t = t := by
  rw [balance, Nat.sub_eq_zero_of_le h]
  rfl

theorem balance_of_count {t : Text} (h : t.count (.char ')') = t.count (.char '(') + 1) :
    balance t = lastParenthesis.apply t := by
  rw [balance, h, Nat.add_sub_cancel_left]
  rfl

end DumpDialect.CheckConstraint
