import Mathlib.Data.List.Infix
import DumpDialect.Proofs.Pattern.Leading

/-!
# Ends of a text that a rule leaves alone

A rule leaves an end of a text alone if no match reaches into it and none lies in it. This is read
off the pattern: from the symbols that a match can begin and end with, and from the pairs of symbols
that can stand side by side in it.

- `Pattern.canBegin`, `Pattern.canEnd`, `Pattern.holdsPair`: the symbols and pairs of a match.
- `Rewrites.suffix_of_apart`: an end that no replaced stretch reaches into or lies in.
- `Rule.LeavesEnd`, `suffix_applyRules_of_leavesEnd`: rules that leave an end alone.
-/

namespace DumpDialect

namespace Pattern

variable {p : Pattern} {prev : Option Symbol} {w rest : Text} {groups : List (Nat × Text)}
  {s s' : Symbol}

/-! ## Symbols at the ends of a match -/

/-- Whether a match of the pattern can begin with the symbol. -/
def canBegin : Pattern → Symbol → Bool
  | one ok, s => ok s
  | word v, s => v.head? == some s
  | seq p q, s => p.canBegin s || (p.minLength == 0 && q.canBegin s)
  | alt p q, s => p.canBegin s || q.canBegin s
  | many _ ok, s | manyShortOf _ ok, s => ok s
  | group _ p, s => p.canBegin s
  | empty, _ | start, _ | finish, _ | wordEdge, _ => false

/-- Whether a match of the pattern can end with the symbol. -/
def canEnd : Pattern → Symbol → Bool
  | one ok, s => ok s
  | word v, s => v.getLast? == some s
  | seq p q, s => q.canEnd s || (q.minLength == 0 && p.canEnd s)
  | alt p q, s => p.canEnd s || q.canEnd s
  | many _ ok, s | manyShortOf _ ok, s => ok s
  | group _ p, s => p.canEnd s
  | empty, _ | start, _ | finish, _ | wordEdge, _ => false

/-- Whether the two symbols can stand side by side in a match of the pattern. -/
def holdsPair : Pattern → Symbol → Symbol → Bool
  | word v, s, s' => decide ([s, s'] <:+: v)
  | seq p q, s, s' => p.holdsPair s s' || q.holdsPair s s' || (p.canEnd s && q.canBegin s')
  | alt p q, s, s' => p.holdsPair s s' || q.holdsPair s s'
  | many _ ok, s, s' | manyShortOf _ ok, s, s' => ok s && ok s'
  | group _ p, s, s' => p.holdsPair s s'
  | empty, _, _ | one _, _, _ | start, _, _ | finish, _, _ | wordEdge, _, _ => false

theorem Matches.canBegin (hm : p.Matches prev w rest groups) (hs : s ∈ w.head?) :
    p.canBegin s = true := by
  induction p generalizing prev w rest groups with
  | one ok =>
    obtain ⟨⟨_, rfl, hok⟩, -⟩ := hm
    cases hs
    exact hok
  | word v =>
    obtain ⟨rfl, -⟩ := hm
    exact beq_iff_eq.mpr hs
  | seq p q ihp ihq =>
    obtain ⟨w₁, w₂, _, _, rfl, -, h₁, h₂⟩ := hm
    rw [Pattern.canBegin, Bool.or_eq_true, Bool.and_eq_true]
    cases w₁ with
    | nil =>
      have hempty : p.minLength = 0 := Nat.le_zero.mp h₁.minLength_le
      exact .inr ⟨beq_iff_eq.mpr hempty, ihq h₂ hs⟩
    | cons s₁ w₁ => exact .inl (ihp h₁ hs)
  | alt p q ihp ihq =>
    rw [Pattern.canBegin, Bool.or_eq_true]
    exact hm.imp (ihp · hs) (ihq · hs)
  | many | manyShortOf => exact hm.allows s (List.mem_of_head? hs)
  | group n p ih =>
    obtain ⟨_, -, hm⟩ := hm
    exact ih hm hs
  | empty =>
    obtain ⟨rfl, -⟩ := hm
    cases hs
  | start | finish | wordEdge =>
    obtain ⟨-, rfl, -⟩ := hm
    cases hs

theorem Matches.canEnd (hm : p.Matches prev w rest groups) (hs : s ∈ w.getLast?) :
    p.canEnd s = true := by
  induction p generalizing prev w rest groups with
  | one ok =>
    obtain ⟨⟨_, rfl, hok⟩, -⟩ := hm
    cases hs
    exact hok
  | word v =>
    obtain ⟨rfl, -⟩ := hm
    exact beq_iff_eq.mpr hs
  | seq p q ihp ihq =>
    obtain ⟨w₁, w₂, _, _, rfl, -, h₁, h₂⟩ := hm
    rw [Pattern.canEnd, Bool.or_eq_true, Bool.and_eq_true]
    cases w₂ with
    | nil =>
      have hempty : q.minLength = 0 := Nat.le_zero.mp h₂.minLength_le
      rw [List.append_nil] at hs
      exact .inr ⟨beq_iff_eq.mpr hempty, ihp h₁ hs⟩
    | cons s₂ w₂ =>
      rw [List.getLast?_append, List.getLast?_cons, Option.some_or] at hs
      exact .inl (ihq h₂ (List.getLast?_cons ▸ hs))
  | alt p q ihp ihq =>
    rw [Pattern.canEnd, Bool.or_eq_true]
    exact hm.imp (ihp · hs) (ihq · hs)
  | many | manyShortOf => exact hm.allows s (List.mem_of_getLast? hs)
  | group n p ih =>
    obtain ⟨_, -, hm⟩ := hm
    exact ih hm hs
  | empty =>
    obtain ⟨rfl, -⟩ := hm
    cases hs
  | start | finish | wordEdge =>
    obtain ⟨-, rfl, -⟩ := hm
    cases hs

theorem Matches.holdsPair (hm : p.Matches prev w rest groups) (h : [s, s'] <:+: w) :
    p.holdsPair s s' = true := by
  induction p generalizing prev w rest groups with
  | word v =>
    obtain ⟨rfl, -⟩ := hm
    exact decide_eq_true h
  | seq p q ihp ihq =>
    obtain ⟨w₁, w₂, _, _, rfl, -, h₁, h₂⟩ := hm
    simp only [Pattern.holdsPair, Bool.or_eq_true, Bool.and_eq_true]
    -- The pair lies in one of the two parts, or there is a symbol of it in each.
    rcases List.infix_append_iff.mp h with h | h | ⟨v₁, v₂, hsplit, hv₁, hv₂⟩
    · exact .inl (.inl (ihp h₁ h))
    · exact .inl (.inr (ihq h₂ h))
    · match v₁, hsplit with
      | [], hsplit => exact .inl (.inr (ihq h₂ (hsplit ▸ hv₂.isInfix)))
      | [_], hsplit =>
        obtain ⟨rfl, rfl⟩ := List.cons.inj hsplit
        obtain ⟨front, rfl⟩ := hv₁
        obtain ⟨back, rfl⟩ := hv₂
        exact .inr ⟨h₁.canEnd (by simp), h₂.canBegin rfl⟩
      | _ :: _ :: v₁, hsplit =>
        obtain ⟨rfl, rfl, rfl, rfl⟩ : s = _ ∧ s' = _ ∧ v₁ = [] ∧ v₂ = [] := by simpa using hsplit
        exact .inl (.inl (ihp h₁ hv₁.isInfix))
  | alt p q ihp ihq =>
    rw [Pattern.holdsPair, Bool.or_eq_true]
    exact hm.imp (ihp · h) (ihq · h)
  | many | manyShortOf =>
    exact Bool.and_eq_true_iff.mpr
      ⟨hm.allows s (h.subset (by simp)), hm.allows s' (h.subset (by simp))⟩
  | group n p ih =>
    obtain ⟨_, -, hm⟩ := hm
    exact ih hm h
  | one ok =>
    obtain ⟨⟨_, rfl, -⟩, -⟩ := hm
    exact absurd h.length_le (by simp)
  | empty =>
    obtain ⟨rfl, -⟩ := hm
    exact absurd h.length_le (by simp)
  | start | finish | wordEdge =>
    obtain ⟨-, rfl, -⟩ := hm
    exact absurd h.length_le (by simp)

end Pattern

/-! ## Ends of a text -/

/-- No match of the rule lies in the end of a text. None reaches into it, since none ends with a
symbol of it, or none ends with its first symbol and none holds its first two. -/
def Rule.LeavesEnd (ending : Text) (r : Rule) : Prop :=
  (∃ v ∈ r.pattern.opening?, ¬ v <:+: ending) ∧
    ((∀ s ∈ ending, r.pattern.canEnd s = false) ∨ (∀ s ∈ ending.head?, r.pattern.canEnd s = false ∧
      ∀ s' ∈ ending.tail.head?, r.pattern.holdsPair s s' = false))

instance (ending : Text) : DecidablePred (Rule.LeavesEnd ending) := fun _ =>
  inferInstanceAs (Decidable ((∃ v ∈ _, ¬ v <:+: ending) ∧ _))

theorem Rule.LeavesEnd.suffix_apply {r : Rule} {ending t : Text} (h : r.LeavesEnd ending)
    (ht : ending <:+ t) : ending <:+ r.apply t := by
  obtain ⟨⟨v, hopening, hv⟩, hends⟩ := h
  refine (r.rewrites t).suffix_of_apart ?_ ht
  rintro w w' ⟨m, prev, hm, -, -⟩
  refine ⟨fun b hne hsuffix hbegins => ?_, fun hwithin =>
    hv ((hm.opening_prefix hopening).isInfix.trans hwithin)⟩
  -- A match reaching into the ending would end with a symbol of it, or have two of its symbols in a
  -- row.
  have hlast : r.pattern.canEnd (b.getLast hne) = true := by
    obtain ⟨front, rfl⟩ := hsuffix
    refine hm.canEnd ?_
    rw [List.getLast?_append, List.getLast?_eq_some_getLast hne]
    rfl
  rcases hends with hends | hends
  · rw [hends _ (hbegins.subset (List.getLast_mem hne))] at hlast
    cases hlast
  · obtain ⟨back, rfl⟩ := hbegins
    match b with
    | [s] =>
      rw [List.getLast_singleton, (hends s rfl).1] at hlast
      cases hlast
    | s :: s' :: b =>
      have hpair : [s, s'] <:+: w := (List.prefix_append [s, s'] b).isInfix.trans hsuffix.isInfix
      have hholds := hm.holdsPair hpair
      rw [(hends s rfl).2 s' rfl] at hholds
      cases hholds

theorem suffix_applyRules_of_leavesEnd {rules : List Rule} {ending t : Text}
    (h : ∀ r ∈ rules, r.LeavesEnd ending) (ht : ending <:+ t) : ending <:+ applyRules rules t := by
  induction rules generalizing t with
  | nil => exact ht
  | cons r rules ih =>
    obtain ⟨hr, hrules⟩ := List.forall_mem_cons.mp h
    exact ih hrules (hr.suffix_apply ht)

end DumpDialect
