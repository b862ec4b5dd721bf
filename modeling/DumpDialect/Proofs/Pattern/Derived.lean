import DumpDialect.Proofs.Pattern.Matches
import DumpDialect.Proofs.Text.Splitting

/-!
# Matches of derived patterns

The clauses of `Matches` for the patterns that are made of others, and two bounds on a match that
are computed from the pattern alone.

- `matches_inOrder_cons`, `Matches.inOrder_cons`: patterns one after the other.
- `Matches.word_begins`, `outcomes_inOrder_eq_nil`: patterns that begin with a word.
- `matches_someOf`, `matches_exactly`, `matches_atMost`, `matches_eitherCase`: repetitions and
  keywords.
- `occursIn_word_iff`, `occursIn_word_append_cons`: where a word occurs.
- `occursIn_eq_false_of_word`, `occursIn_inOrder_word_iff`: texts without a word of a pattern.
- `Matches.allows`: the symbols that a match can hold.
- `Matches.minLength_le`: the symbols that it holds at least.
- `Matches.groups_subset`, `Match.group_subset`: the symbols of a group.
-/

namespace DumpDialect

namespace Pattern

variable {prev : Option Symbol} {w rest : Text} {groups : List (Nat × Text)} {ok : Symbol → Bool}

@[simp] theorem matches_inOrder_nil :
    (inOrder []).Matches prev w rest groups ↔ w = [] ∧ groups = [] := .rfl

theorem matches_inOrder_cons {p : Pattern} {ps : List Pattern} :
    (inOrder (p :: ps)).Matches prev w rest groups ↔ ∃ w₁ w₂ groups₁ groups₂,
      w = w₁ ++ w₂ ∧ groups = groups₁ ++ groups₂ ∧ p.Matches prev w₁ (w₂ ++ rest) groups₁ ∧
        (inOrder ps).Matches (lastOf prev w₁) w₂ rest groups₂ := by
  cases ps with
  | nil =>
    constructor
    · intro h
      exact ⟨w, [], groups, [], by simp, by simp, h, rfl, rfl⟩
    · rintro ⟨w₁, w₂, groups₁, groups₂, rfl, rfl, h, rfl, rfl⟩
      rwa [List.append_nil, List.append_nil]
  | cons q ps => exact matches_seq

theorem Matches.inOrder_cons {p : Pattern} {ps : List Pattern} {w₁ w₂ : Text}
    {groups₁ groups₂ : List (Nat × Text)} (h : p.Matches prev w₁ (w₂ ++ rest) groups₁)
    (hps : (inOrder ps).Matches (lastOf prev w₁) w₂ rest groups₂) :
    (inOrder (p :: ps)).Matches prev (w₁ ++ w₂) rest (groups₁ ++ groups₂) :=
  matches_inOrder_cons.mpr ⟨w₁, w₂, groups₁, groups₂, rfl, rfl, h, hps⟩

/-- A match of patterns of which the first is a word begins with the word. -/
theorem Matches.word_begins {v : Text} {ps : List Pattern}
    (h : (inOrder (word v :: ps)).Matches prev w rest groups) : v <+: w := by
  obtain ⟨_, _, _, _, rfl, rfl, ⟨rfl, rfl⟩, -⟩ := matches_inOrder_cons.mp h
  exact List.prefix_append ..

theorem outcomes_inOrder_eq_nil {v t : Text} {ps : List Pattern} (h : ¬ v <+: t) :
    (inOrder (word v :: ps)).outcomes ⟨prev, t⟩ = [] :=
  outcomes_eq_nil_iff.mpr fun _ rest _ ht hm =>
    h (hm.word_begins.trans ⟨rest, ht.symm⟩)

@[simp] theorem matches_run :
    (run ok).Matches prev w rest groups ↔ (∀ s ∈ w, ok s = true) ∧ groups = [] := .rfl

@[simp] theorem matches_blanks :
    blanks.Matches prev w rest groups ↔ (∀ s ∈ w, s.isBlank = true) ∧ groups = [] := .rfl

@[simp] theorem matches_someOf :
    (someOf ok).Matches prev w rest groups ↔ w ≠ [] ∧ (∀ s ∈ w, ok s = true) ∧ groups = [] := by
  constructor
  · rintro ⟨_, w₂, _, _, rfl, rfl, ⟨⟨s, rfl, hs⟩, rfl⟩, hw₂, rfl⟩
    exact ⟨by simp, List.forall_mem_cons.mpr ⟨hs, hw₂⟩, rfl⟩
  · rintro ⟨hne, hw, rfl⟩
    obtain ⟨s, w, rfl⟩ := List.exists_cons_of_ne_nil hne
    obtain ⟨hs, hw⟩ := List.forall_mem_cons.mp hw
    exact ⟨[s], w, [], [], rfl, rfl, ⟨⟨s, rfl, hs⟩, rfl⟩, hw, rfl⟩

@[simp] theorem matches_optional {p : Pattern} :
    (optional p).Matches prev w rest groups ↔
      p.Matches prev w rest groups ∨ w = [] ∧ groups = [] := .rfl

@[simp] theorem matches_exactly {n : Nat} :
    (exactly n ok).Matches prev w rest groups ↔
      w.length = n ∧ (∀ s ∈ w, ok s = true) ∧ groups = [] := by
  induction n generalizing prev w groups with
  | zero =>
    constructor
    · rintro ⟨rfl, rfl⟩
      simp
    · rintro ⟨hw, -, rfl⟩
      exact ⟨List.eq_nil_of_length_eq_zero hw, rfl⟩
  | succ n ih =>
    rw [exactly, List.replicate_succ, matches_inOrder_cons]
    constructor
    · rintro ⟨_, w₂, _, groups₂, rfl, rfl, ⟨⟨s, rfl, hs⟩, rfl⟩, h⟩
      obtain ⟨hlen, hw₂, rfl⟩ := ih.mp h
      exact ⟨by simp [hlen], List.forall_mem_cons.mpr ⟨hs, hw₂⟩, rfl⟩
    · rintro ⟨hlen, hw, rfl⟩
      obtain ⟨s, w, rfl⟩ := List.exists_cons_of_length_eq_add_one hlen
      obtain ⟨hs, hw⟩ := List.forall_mem_cons.mp hw
      refine ⟨[s], w, [], [], rfl, rfl, ⟨⟨s, rfl, hs⟩, rfl⟩, ih.mpr ⟨?_, hw, rfl⟩⟩
      simpa using hlen

@[simp] theorem matches_atMost {n : Nat} :
    (atMost ok n).Matches prev w rest groups ↔
      w.length ≤ n ∧ (∀ s ∈ w, ok s = true) ∧ groups = [] := by
  induction n generalizing prev w groups with
  | zero =>
    constructor
    · rintro ⟨rfl, rfl⟩
      simp
    · rintro ⟨hw, -, rfl⟩
      exact ⟨List.eq_nil_of_length_eq_zero (Nat.le_zero.mp hw), rfl⟩
  | succ n ih =>
    rw [atMost, matches_optional, matches_seq]
    constructor
    · rintro (⟨_, w₂, _, groups₂, rfl, rfl, ⟨⟨s, rfl, hs⟩, rfl⟩, h⟩ | ⟨rfl, rfl⟩)
      · obtain ⟨hlen, hw₂, rfl⟩ := ih.mp h
        exact ⟨by simpa using hlen, List.forall_mem_cons.mpr ⟨hs, hw₂⟩, rfl⟩
      · simp
    · rintro ⟨hlen, hw, rfl⟩
      cases w with
      | nil => exact .inr ⟨rfl, rfl⟩
      | cons s w =>
        obtain ⟨hs, hw⟩ := List.forall_mem_cons.mp hw
        refine .inl ⟨[s], w, [], [], rfl, rfl, ⟨⟨s, rfl, hs⟩, rfl⟩, ih.mpr ⟨?_, hw, rfl⟩⟩
        simpa using hlen

/-- A keyword may be written in either case. -/
@[simp] theorem matches_eitherCase {v : Text} :
    (eitherCase v).Matches prev w rest groups ↔ w.map Symbol.folded = v ∧ groups = [] := by
  induction v generalizing prev w groups with
  | nil => simp [eitherCase]
  | cons t v ih =>
    rw [eitherCase, List.map_cons, matches_inOrder_cons]
    constructor
    · rintro ⟨_, w₂, _, groups₂, rfl, rfl, ⟨⟨s, rfl, hs⟩, rfl⟩, h⟩
      obtain ⟨rfl, rfl⟩ := ih.mp h
      exact ⟨by simpa using hs, rfl⟩
    · rintro ⟨hw, rfl⟩
      obtain ⟨s, w, rfl, hs, hv⟩ := List.map_eq_cons_iff.mp hw
      exact ⟨[s], w, [], [], rfl, rfl, ⟨⟨s, rfl, by simpa using hs⟩, rfl⟩, ih.mpr ⟨hv, rfl⟩⟩

/-! ## Words -/

/-- A word occurs in a text if it stands somewhere in it. -/
theorem occursIn_word_iff {v t : Text} : (word v).occursIn t = true ↔ v <:+: t := by
  rw [occursIn_iff]
  constructor
  · rintro ⟨before, _, after, _, rfl, rfl, -⟩
    exact ⟨before, after, rfl⟩
  · rintro ⟨before, after, rfl⟩
    exact ⟨before, v, after, [], rfl, rfl, rfl⟩

/-- A text that lacks a symbol of the word does not hold the word. -/
theorem occursIn_word_of_not_mem {v t : Text} {s : Symbol} (hs : s ∈ v) (ht : s ∉ t) :
    (word v).occursIn t = false :=
  Bool.eq_false_iff.mpr fun h => ht ((occursIn_word_iff.mp h).subset hs)

/-- A word stands in front of a symbol that it lacks or behind it. -/
theorem occursIn_word_append_cons {v : Text} {s : Symbol} (hne : v ≠ []) (hs : s ∉ v)
    (t u : Text) :
    (word v).occursIn (t ++ s :: u) = ((word v).occursIn t || (word v).occursIn u) := by
  rw [Bool.eq_iff_iff, Bool.or_eq_true, occursIn_word_iff, occursIn_word_iff, occursIn_word_iff]
  exact Text.infix_append_cons_iff hne hs

/-- A match of patterns one after the other holds each word among them. -/
theorem Matches.word_infix {v : Text} {ps : List Pattern}
    (h : (inOrder ps).Matches prev w rest groups) (hv : word v ∈ ps) : v <:+: w := by
  induction ps generalizing prev w groups with
  | nil => cases hv
  | cons p ps ih =>
    obtain ⟨w₁, w₂, _, _, rfl, rfl, h₁, h₂⟩ := matches_inOrder_cons.mp h
    rcases List.mem_cons.mp hv with rfl | hv
    · obtain ⟨rfl, rfl⟩ := h₁
      exact (List.prefix_append ..).isInfix
    · exact (ih h₂ hv).trans (List.suffix_append ..).isInfix

/-- A text that lacks a word lacks patterns one after the other of which one is the word. -/
theorem occursIn_eq_false_of_word {v t : Text} {ps : List Pattern} (hv : word v ∈ ps)
    (ht : ¬ v <:+: t) : (inOrder ps).occursIn t = false := by
  refine Bool.eq_false_iff.mpr fun hoccurs => ht ?_
  obtain ⟨before, w, after, _, rfl, hm⟩ := occursIn_iff.mp hoccurs
  exact (hm.word_infix hv).trans ⟨before, after, rfl⟩

/-- A text that lacks a word lacks the patterns that begin with it. -/
theorem occursIn_inOrder_eq_false {v t : Text} {ps : List Pattern} (h : ¬ v <:+: t) :
    (inOrder (word v :: ps)).occursIn t = false :=
  occursIn_eq_false_of_word List.mem_cons_self h

/-- If what follows the word may be left out, only the word is looked for. -/
theorem occursIn_inOrder_word_iff {v t : Text} {ps : List Pattern}
    (hps : ∀ prev rest, (inOrder ps).Matches prev [] rest []) :
    (inOrder (word v :: ps)).occursIn t = true ↔ v <:+: t := by
  constructor
  · intro hoccurs
    obtain ⟨before, w, after, groups, rfl, hm⟩ := occursIn_iff.mp hoccurs
    exact hm.word_begins.isInfix.trans ⟨before, after, rfl⟩
  · rintro ⟨before, after, rfl⟩
    exact occursIn_iff.mpr ⟨before, v ++ [], after, [] ++ [], by simp,
      Matches.inOrder_cons ⟨rfl, rfl⟩ (hps _ _)⟩

/-! ## Bounds on a match -/

/-- The symbols that a match of the pattern can hold. -/
def allows : Pattern → Symbol → Bool
  | one ok, s => ok s
  | word v, s => v.contains s
  | seq p q, s => p.allows s || q.allows s
  | alt p q, s => p.allows s || q.allows s
  | many _ ok, s => ok s
  | manyShortOf _ ok, s => ok s
  | group _ p, s => p.allows s
  | empty, _ | start, _ | finish, _ | wordEdge, _ => false

/-- The number of symbols that a match of the pattern holds at least. -/
def minLength : Pattern → Nat
  | one _ => 1
  | word v => v.length
  | seq p q => p.minLength + q.minLength
  | alt p q => min p.minLength q.minLength
  | group _ p => p.minLength
  | empty | many _ _ | manyShortOf _ _ | start | finish | wordEdge => 0

theorem Matches.allows {p : Pattern} (h : p.Matches prev w rest groups) :
    ∀ s ∈ w, p.allows s = true := by
  induction p generalizing prev w rest groups with
  | empty =>
    obtain ⟨rfl, -⟩ := h
    simp
  | one ok =>
    obtain ⟨⟨s, rfl, hs⟩, -⟩ := h
    simpa [Pattern.allows] using hs
  | word v =>
    obtain ⟨rfl, -⟩ := h
    simp [Pattern.allows]
  | seq p q ihp ihq =>
    obtain ⟨w₁, w₂, _, _, rfl, -, h₁, h₂⟩ := h
    intro s hs
    rw [Pattern.allows, Bool.or_eq_true]
    exact (List.mem_append.mp hs).imp (ihp h₁ s) (ihq h₂ s)
  | alt p q ihp ihq =>
    intro s hs
    rw [Pattern.allows, Bool.or_eq_true]
    exact h.imp (fun h => ihp h s hs) (fun h => ihq h s hs)
  | many greed ok => exact h.1
  | manyShortOf barrier ok =>
    exact h.1.forall fun s t hs => (Bool.and_eq_true_iff.mp hs).1
  | group n p ih =>
    obtain ⟨inner, -, h⟩ := h
    exact ih h
  | start | finish | wordEdge =>
    obtain ⟨-, rfl, -⟩ := h
    simp

/-- A pattern without groups keeps no text. -/
theorem Matches.groups_eq_nil {p : Pattern} (h : p.Matches prev w rest groups)
    (hcount : p.groupCount = 0) : groups = [] := by
  induction p generalizing prev w rest groups with
  | seq p q ihp ihq =>
    obtain ⟨hp, hq⟩ := Nat.add_eq_zero_iff.mp hcount
    obtain ⟨w₁, w₂, _, _, -, rfl, h₁, h₂⟩ := h
    rw [ihp h₁ hp, ihq h₂ hq, List.append_nil]
  | alt p q ihp ihq =>
    obtain ⟨hp, hq⟩ := Nat.add_eq_zero_iff.mp hcount
    exact h.elim (ihp · hp) (ihq · hq)
  | group => exact absurd hcount (Nat.succ_ne_zero _)
  | empty | one | word | many | manyShortOf => exact h.2
  | start | finish | wordEdge => exact h.2.2

theorem Matches.minLength_le {p : Pattern} (h : p.Matches prev w rest groups) :
    p.minLength ≤ w.length := by
  induction p generalizing prev w rest groups with
  | one ok =>
    obtain ⟨⟨s, rfl, -⟩, -⟩ := h
    exact Nat.le_refl 1
  | word v =>
    obtain ⟨rfl, -⟩ := h
    exact Nat.le_refl _
  | seq p q ihp ihq =>
    obtain ⟨w₁, w₂, _, _, rfl, -, h₁, h₂⟩ := h
    rw [List.length_append]
    exact Nat.add_le_add (ihp h₁) (ihq h₂)
  | alt p q ihp ihq =>
    rcases h with h | h
    · exact Nat.le_trans (Nat.min_le_left ..) (ihp h)
    · exact Nat.le_trans (Nat.min_le_right ..) (ihq h)
  | group n p ih =>
    obtain ⟨inner, -, h⟩ := h
    exact ih h
  | empty | many | manyShortOf | start | finish | wordEdge => exact Nat.zero_le _

/-- A symbol that the pattern does not allow stands in no match of it. -/
theorem Matches.not_mem {p : Pattern} (h : p.Matches prev w rest groups) {s : Symbol}
    (hs : p.allows s = false) : s ∉ w :=
  fun hmem => by simp [h.allows s hmem] at hs

/-! ## Groups -/

/-- A group matches a part of what the pattern matches. -/
theorem Matches.groups_subset {p : Pattern} (h : p.Matches prev w rest groups) {n : Nat} {g : Text}
    (hg : (n, g) ∈ groups) : g ⊆ w := by
  induction p generalizing prev w rest groups with
  | seq p q ihp ihq =>
    obtain ⟨w₁, w₂, groups₁, groups₂, rfl, rfl, h₁, h₂⟩ := h
    rcases List.mem_append.mp hg with hg | hg
    · exact List.subset_append_of_subset_left w₂ (ihp h₁ hg)
    · exact List.subset_append_of_subset_right w₁ (ihq h₂ hg)
  | alt p q ihp ihq => exact h.elim (ihp · hg) (ihq · hg)
  | group m p ih =>
    obtain ⟨inner, rfl, h⟩ := h
    rcases List.mem_cons.mp hg with heq | hg
    · obtain ⟨-, rfl⟩ := Prod.mk.inj heq
      exact List.Subset.refl g
    · exact ih h hg
  | empty | one | word | many | manyShortOf =>
    obtain ⟨-, rfl⟩ := h
    cases hg
  | start | finish | wordEdge =>
    obtain ⟨-, -, rfl⟩ := h
    cases hg

end Pattern

/-- The text of a group is a part of the match. -/
theorem Match.group_subset {p : Pattern} {prev : Option Symbol} {m : Match}
    (h : p.Matches prev m.found m.after m.groups) (n : Nat) : m.group n ⊆ m.found := by
  rw [group, group?]
  cases hlookup : m.groups.lookup n with
  | none => exact List.nil_subset _
  | some g =>
    obtain ⟨front, back, hgroups, -⟩ := List.lookup_eq_some_iff.mp hlookup
    exact h.groups_subset (n := n) (by simp [hgroups])

end DumpDialect
