import DumpDialect.Text.Basic

/-!
# Balanced parentheses

A text is balanced if each closing parenthesis closes one that was opened in front of it and none is
left open.

- `Text.Balanced.append`, `Text.Balanced.enclose`: balanced texts made of others.
- `Text.Balanced.eq_of_closed`: the parenthesis that closes one in front of a balanced text.
- `Text.Balanced.closing_mem`: an opening parenthesis is closed further on.
-/

namespace DumpDialect.Text

/-- The text holds no parentheses. -/
def IsFlat (t : Text) : Prop := .char '(' ∉ t ∧ .char ')' ∉ t

/-- Each closing parenthesis of the text closes one that was opened in front of it, and none is left
open. -/
structure Balanced (t : Text) : Prop where
  opened : ∀ front, front <+: t → front.count (.char ')') ≤ front.count (.char '(')
  closed : t.count (.char ')') = t.count (.char '(')

instance (t : Text) : Decidable (IsFlat t) := inferInstanceAs (Decidable (_ ∧ _))

variable {t u v y : Text}

theorem IsFlat.append (ht : IsFlat t) (hu : IsFlat u) : IsFlat (t ++ u) :=
  ⟨List.not_mem_append ht.1 hu.1, List.not_mem_append ht.2 hu.2⟩

theorem IsFlat.balanced (h : IsFlat t) : Balanced t where
  opened front hfront := by
    rw [List.count_eq_zero_of_not_mem (mt (hfront.subset ·) h.2)]
    exact Nat.zero_le _
  closed := by rw [List.count_eq_zero_of_not_mem h.1, List.count_eq_zero_of_not_mem h.2]

namespace Balanced

theorem append (ht : Balanced t) (hu : Balanced u) : Balanced (t ++ u) where
  opened front hfront := by
    rcases List.prefix_or_prefix_of_prefix hfront (List.prefix_append t u) with hpart | ⟨back, rfl⟩
    · exact ht.opened front hpart
    · have hback := hu.opened back ((List.prefix_append_right_inj t).mp hfront)
      have hclosed := ht.closed
      rw [List.count_append, List.count_append]
      omega
  closed := by rw [List.count_append, List.count_append, ht.closed, hu.closed]

/-- A balanced text in parentheses. -/
theorem enclose (h : Balanced t) : Balanced (.char '(' :: (t ++ [.char ')'])) where
  opened front hfront := by
    rcases List.prefix_cons_iff.mp hfront with rfl | ⟨inner, rfl, hinner⟩
    · exact Nat.le_refl 0
    · have hle : inner.count (.char ')') ≤ inner.count (.char '(') + 1 := by
        rcases List.prefix_concat_iff.mp hinner with rfl | hpart
        · have hclosed := h.closed
          simp only [List.count_append, List.count_singleton]
          simp
          omega
        · exact Nat.le_succ_of_le (h.opened inner hpart)
      simpa [List.count_cons] using hle
  closed := by simp [h.closed]

/-- Nothing is closed in a balanced text before something is opened. -/
theorem not_prefix_close (h : Balanced t) (hy : IsFlat y) : ¬ y ++ [.char ')'] <+: t := by
  intro hfront
  have hle := h.opened _ hfront
  simp only [List.count_append, List.count_eq_zero_of_not_mem hy.1,
    List.count_eq_zero_of_not_mem hy.2] at hle
  revert hle
  decide

/-- A parenthesis in front of a balanced text is closed behind it. -/
theorem eq_of_closed (h : Balanced t) (hy : IsFlat y)
    (heq : t ++ .char ')' :: u = y ++ .char ')' :: v) : t = y ∧ u = v := by
  rcases List.append_eq_append_iff.mp heq with ⟨between, rfl, hbehind⟩ | ⟨between, rfl, hbehind⟩
  · cases between with
    | nil => exact ⟨(List.append_nil t).symm, (List.cons.inj hbehind).2⟩
    | cons s between =>
      obtain ⟨rfl, -⟩ := List.cons.inj hbehind
      exact absurd (by simp) hy.2
  · cases between with
    | nil => exact ⟨List.append_nil y, (List.cons.inj hbehind).2.symm⟩
    | cons s between =>
      obtain ⟨rfl, -⟩ := List.cons.inj hbehind
      exact absurd ⟨between, by simp⟩ (h.not_prefix_close hy)

/-- What is opened in a balanced text is closed further on. -/
theorem closing_mem (h : Balanced (t ++ .char '(' :: u)) : .char ')' ∈ u := by
  refine Decidable.byContradiction fun hu => ?_
  have hfront := h.opened t (List.prefix_append ..)
  have hclosed := h.closed
  rw [List.count_append, List.count_append, List.count_cons, List.count_cons,
    List.count_eq_zero_of_not_mem hu] at hclosed
  simp at hclosed
  omega

end Balanced

end DumpDialect.Text
