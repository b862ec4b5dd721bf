import DumpDialect.Proofs.Pattern.Taken
import DumpDialect.Proofs.Text.Nesting

/-!
# Rules and brackets

A rule cuts a text where it replaces a stretch by one that leads to another place: a part of an
expression, or more than an expression. A text from which nothing is cut stays well bracketed, and
one cut alone makes it ill bracketed, since it is known from the end of a text where it began.

- `Match.IsWhole`, `cuts`: the stretches that rules cut, at the turn of each rule.
- `after_applyRules`, `after_applyRules_ne`: nothing is cut, and one stretch is.
- `wellBracketed_applyRules`: what becomes of a well bracketed text.
- `Rule.IsNeutral`, `Rule.Pairs.isNeutral`: rules that cut nothing, read off their patterns.
-/

namespace DumpDialect

/-! ## Cuts -/

/-- The replacement leads to the same place as the match, in a text behind `front`. -/
def Match.IsWhole (front : Text) (replacement : List Piece) (m : Match) : Prop :=
  ∀ σ ∈ Nesting.outside.after (front ++ m.before), σ.after (m.expand replacement) = σ.after m.found

instance (front : Text) (replacement : List Piece) :
    DecidablePred (Match.IsWhole front replacement) :=
  fun _ => inferInstanceAs (Decidable (∀ σ ∈ _, _ = _))

/-- The matches that the rule takes from the text behind `front` and that are not whole. -/
def Rule.cuts (front : Text) (r : Rule) (t : Text) : List Match :=
  (r.taken t).filter fun m => !decide (m.IsWhole front r.replacement)

/-- What the rules cut as they run over the text behind `front`, each at its turn. -/
def cuts (front : Text) : List Rule → Text → List (Rule × Match)
  | [], _ => []
  | r :: rules, t => (r.cuts front t).map (r, ·) ++ cuts front rules (r.apply t)

namespace Replaced

variable {replacement : List Piece} {front before t t' : Text} {taken : List Match} {σ : Nesting}

/-- Whole matches that are replaced lead to the same place. -/
theorem after_eq (h : Replaced replacement before taken t t')
    (hwhole : ∀ m ∈ taken, m.IsWhole front replacement)
    (hσ : Nesting.outside.after (front ++ before) = some σ) : σ.after t' = σ.after t := by
  induction h generalizing σ with
  | nil => rfl
  | @keep s before taken t t' h ih =>
    rw [Nesting.after, Nesting.after]
    cases hstep : σ.step s with
    | none => rfl
    | some τ =>
      exact ih hwhole (Nesting.after_append_append hσ ((σ.after_singleton s).trans hstep))
  | @replace m taken t t' h ih =>
    obtain ⟨hm, hrest⟩ := List.forall_mem_cons.mp hwhole
    rw [Nesting.after_append, Nesting.after_append, hm σ hσ]
    cases hfound : σ.after m.found with
    | none => rfl
    | some τ =>
      exact ih hrest (Nesting.after_append_append hσ hfound)

/-- One match that is not whole leads to another place. -/
theorem after_ne {c : Match} (h : Replaced replacement before taken t t')
    (hcut : taken.filter (fun m => !decide (m.IsWhole front replacement)) = [c])
    (hσ : Nesting.outside.after (front ++ before) = some σ) (hsome : (σ.after t).isSome = true) :
    σ.after t' ≠ σ.after t := by
  induction h generalizing σ with
  | nil => cases hcut
  | @keep s before taken t t' h ih =>
    rw [Nesting.after] at hsome
    rw [Nesting.after, Nesting.after]
    cases hstep : σ.step s with
    | none =>
      rw [hstep] at hsome
      cases hsome
    | some τ =>
      rw [hstep] at hsome
      exact ih hcut (Nesting.after_append_append hσ ((σ.after_singleton s).trans hstep)) hsome
  | @replace m taken t t' h ih =>
    rw [Nesting.after_append] at hsome
    rw [Nesting.after_append, Nesting.after_append]
    cases hfound : σ.after m.found with
    | none =>
      rw [hfound] at hsome
      cases hsome
    | some τ =>
      rw [hfound, Option.bind_some] at hsome
      have hτ := Nesting.after_append_append hσ hfound
      -- A whole match leads where its text does, and the one that is not comes later. Otherwise
      -- this is the one, and all behind it are whole.
      by_cases hm : m.IsWhole front replacement
      · rw [List.filter_cons_of_neg (by simpa using hm)] at hcut
        rw [hm σ hσ, hfound]
        exact ih hcut hτ hsome
      · rw [List.filter_cons_of_pos (by simpa using hm)] at hcut
        have hwhole : ∀ m ∈ taken, m.IsWhole front replacement := by
          have hnone := List.filter_eq_nil_iff.mp (List.cons.inj hcut).2
          simpa using hnone
        have hrest : τ.after t' = τ.after t := h.after_eq hwhole hτ
        obtain ⟨ρ, hρ⟩ := Option.isSome_iff_exists.mp hsome
        intro heq
        rw [Option.bind_some, hρ] at heq
        obtain ⟨τ', hexpand, hbehind⟩ := Option.bind_eq_some_iff.mp heq
        -- The text behind the match leads from both places to the same one.
        obtain rfl := Nesting.eq_of_after_eq hbehind (hrest.trans hρ)
        refine hm fun σ' hσ' => ?_
        obtain rfl := Option.some.inj (hσ.symm.trans hσ')
        rw [hexpand, hfound]

end Replaced

variable {front t : Text} {r : Rule} {rules : List Rule}

theorem Rule.after_apply (h : r.cuts front t = []) :
    Nesting.outside.after (front ++ r.apply t) = Nesting.outside.after (front ++ t) := by
  rw [Nesting.after_append, Nesting.after_append]
  cases hσ : Nesting.outside.after front with
  | none => rfl
  | some σ =>
    have hwhole := List.filter_eq_nil_iff.mp h
    exact (r.replaced_taken t).after_eq (by simpa using hwhole) (by rwa [List.append_nil])

theorem Rule.after_apply_ne {c : Match} (h : r.cuts front t = [c])
    (hsome : (Nesting.outside.after (front ++ t)).isSome = true) :
    Nesting.outside.after (front ++ r.apply t) ≠ Nesting.outside.after (front ++ t) := by
  rw [Nesting.after_append] at hsome
  rw [Nesting.after_append, Nesting.after_append]
  cases hσ : Nesting.outside.after front with
  | none =>
    rw [hσ] at hsome
    cases hsome
  | some σ =>
    rw [hσ] at hsome
    exact (r.replaced_taken t).after_ne h (by rwa [List.append_nil]) hsome

/-- Rules that cut nothing lead to the same place. -/
theorem after_applyRules (h : cuts front rules t = []) :
    Nesting.outside.after (front ++ applyRules rules t) = Nesting.outside.after (front ++ t) := by
  induction rules generalizing t with
  | nil => rfl
  | cons r rules ih =>
    obtain ⟨hr, hrules⟩ := List.append_eq_nil_iff.mp h
    rw [applyRules_cons, ih hrules, Rule.after_apply (List.map_eq_nil_iff.mp hr)]

/-- Rules that cut one stretch lead to another place. -/
theorem after_applyRules_ne {c : Rule × Match} (h : cuts front rules t = [c])
    (hsome : (Nesting.outside.after (front ++ t)).isSome = true) :
    Nesting.outside.after (front ++ applyRules rules t) ≠ Nesting.outside.after (front ++ t) := by
  induction rules generalizing t with
  | nil => cases h
  | cons r rules ih =>
    rw [applyRules_cons]
    rcases List.append_eq_singleton_iff.mp h with ⟨hr, hrules⟩ | ⟨hr, hrules⟩
    · have happly := Rule.after_apply (List.map_eq_nil_iff.mp hr)
      rw [← happly] at hsome
      rw [← happly]
      exact ih hrules hsome
    · obtain ⟨c', hr, -⟩ := List.map_eq_singleton_iff.mp hr
      rw [after_applyRules hrules]
      exact Rule.after_apply_ne hr hsome

/-- A well bracketed text stays so if nothing is cut, and does not if one stretch is. -/
theorem wellBracketed_applyRules (h : (front ++ t).WellBracketed) :
    (cuts front rules t = [] → (front ++ applyRules rules t).WellBracketed) ∧
      ((cuts front rules t).length = 1 → ¬ (front ++ applyRules rules t).WellBracketed) := by
  have hplace : Nesting.outside.after (front ++ t) = some .outside := h
  refine ⟨fun hnone => (after_applyRules hnone).trans hplace, fun hone hbracketed => ?_⟩
  obtain ⟨c, hc⟩ := List.length_eq_one_iff.mp hone
  have hsome : (Nesting.outside.after (front ++ t)).isSome = true := by
    rw [hplace]
    rfl
  exact after_applyRules_ne hc hsome (Eq.trans hbracketed hplace.symm)

theorem mem_of_mem_cuts {c : Rule × Match} (h : c ∈ cuts front rules t) :
    c.1 ∈ rules ∧ c.1.Replaces c.2.found (c.2.expand c.1.replacement) ∧
      ¬ c.2.IsWhole front c.1.replacement := by
  induction rules generalizing t with
  | nil => cases h
  | cons r rules ih =>
    rcases List.mem_append.mp h with h | h
    · obtain ⟨m, hm, rfl⟩ := List.mem_map.mp h
      obtain ⟨htaken, hcut⟩ := List.mem_filter.mp hm
      exact ⟨List.mem_cons_self, Rule.replaces_of_mem_taken htaken, by simpa using hcut⟩
    · obtain ⟨hmem, hcut⟩ := ih h
      exact ⟨List.mem_cons_of_mem _ hmem, hcut⟩

/-! ## Rules that cut nothing -/

/-- The rule writes a text that leads wherever the match leads. -/
def Rule.IsNeutral (r : Rule) : Prop :=
  ∀ w w', r.Replaces w w' → ∀ σ : Nesting, σ.after w' = σ.after w

theorem not_isNeutral_of_mem_cuts {c : Rule × Match} (h : c ∈ cuts front rules t) :
    ¬ c.1.IsNeutral := fun hneutral => by
  obtain ⟨-, hreplaces, hcut⟩ := mem_of_mem_cuts h
  exact hcut fun σ _ => hneutral _ _ hreplaces σ

/-- A rule that keeps quotes and parentheses cuts nothing. -/
theorem Rule.Keeps.isNeutral {r : Rule} (h : r.Keeps Symbol.isBracket) : r.IsNeutral :=
  fun w w' hw => Nesting.after_congr (h w w' hw)

namespace Pattern

/-- No class of the pattern holds a quote or a parenthesis. -/
def fixesBrackets : Pattern → Bool
  | one ok | many _ ok | manyShortOf _ ok => (Text.ofString "'()").all fun s => !ok s
  | seq p q | alt p q => p.fixesBrackets && q.fixesBrackets
  | group _ p => p.fixesBrackets
  | empty | word _ | start | finish | wordEdge => true

/-- The quotes and parentheses that the words of the pattern hold, in each of its ways. -/
def skeletons : Pattern → List Text
  | word w => [w.filter Symbol.isBracket]
  | seq p q => p.skeletons.flatMap fun u => q.skeletons.map (u ++ ·)
  | alt p q => p.skeletons ++ q.skeletons
  | group _ p => p.skeletons
  | empty | one _ | many _ _ | manyShortOf _ _ | start | finish | wordEdge => [[]]

/-- The quotes and parentheses that the words of a group hold. -/
def groupSkeletons (n : Nat) : Pattern → List Text
  | seq p q | alt p q => p.groupSkeletons n ++ q.groupSkeletons n
  | group m p => (if m = n then p.skeletons else []) ++ p.groupSkeletons n
  | empty | one _ | word _ | many _ _ | manyShortOf _ _ | start | finish | wordEdge => []

variable {p : Pattern} {prev : Option Symbol} {w rest g : Text} {groups : List (Nat × Text)}

theorem filter_isBracket_of_class {ok : Symbol → Bool}
    (hfix : ((Text.ofString "'()").all fun s => !ok s) = true) (hw : ∀ s ∈ w, ok s = true) :
    w.filter Symbol.isBracket = [] := by
  refine List.filter_eq_nil_iff.mpr fun s hs hbracket => ?_
  have hnot := List.all_eq_true.mp hfix s (List.contains_iff_mem.mp hbracket)
  rw [hw s hs] at hnot
  cases hnot

theorem Matches.skeleton (h : p.Matches prev w rest groups) (hfix : p.fixesBrackets = true) :
    w.filter Symbol.isBracket ∈ p.skeletons := by
  -- What a pattern matches can have one of finitely many skeletons only if its classes hold no
  -- brackets.
  induction p generalizing prev w rest groups with
  | word v =>
    obtain ⟨rfl, -⟩ := h
    exact List.mem_singleton.mpr rfl
  | seq p q ihp ihq =>
    obtain ⟨hp, hq⟩ := Bool.and_eq_true_iff.mp hfix
    obtain ⟨w₁, w₂, _, _, rfl, -, h₁, h₂⟩ := h
    rw [List.filter_append]
    exact List.mem_flatMap.mpr ⟨_, ihp h₁ hp, List.mem_map_of_mem (ihq h₂ hq)⟩
  | alt p q ihp ihq =>
    obtain ⟨hp, hq⟩ := Bool.and_eq_true_iff.mp hfix
    exact List.mem_append.mpr (h.imp (ihp · hp) (ihq · hq))
  | group n p ih =>
    obtain ⟨inner, -, h⟩ := h
    exact ih h hfix
  | one ok =>
    obtain ⟨⟨s, rfl, hs⟩, -⟩ := h
    exact List.mem_singleton.mpr (filter_isBracket_of_class hfix (List.forall_mem_singleton.mpr hs))
  | many greed ok => exact List.mem_singleton.mpr (filter_isBracket_of_class hfix h.1)
  | manyShortOf barrier ok =>
    have hall : ∀ s ∈ w, ok s = true := h.1.forall fun s t hs => (Bool.and_eq_true_iff.mp hs).1
    exact List.mem_singleton.mpr (filter_isBracket_of_class hfix hall)
  | empty =>
    obtain ⟨rfl, -⟩ := h
    exact List.mem_singleton.mpr rfl
  | start | finish | wordEdge =>
    obtain ⟨-, rfl, -⟩ := h
    exact List.mem_singleton.mpr rfl

theorem Matches.groupSkeleton (h : p.Matches prev w rest groups) (hfix : p.fixesBrackets = true)
    {n : Nat} (hg : (n, g) ∈ groups) : g.filter Symbol.isBracket ∈ p.groupSkeletons n := by
  induction p generalizing prev w rest groups with
  | seq p q ihp ihq =>
    obtain ⟨hp, hq⟩ := Bool.and_eq_true_iff.mp hfix
    obtain ⟨w₁, w₂, _, _, rfl, rfl, h₁, h₂⟩ := h
    exact List.mem_append.mpr ((List.mem_append.mp hg).imp (ihp h₁ hp) (ihq h₂ hq))
  | alt p q ihp ihq =>
    obtain ⟨hp, hq⟩ := Bool.and_eq_true_iff.mp hfix
    exact List.mem_append.mpr (h.imp (ihp · hp hg) (ihq · hq hg))
  | group m p ih =>
    obtain ⟨inner, rfl, h⟩ := h
    rcases List.mem_cons.mp hg with heq | hg
    · obtain ⟨rfl, rfl⟩ := Prod.mk.inj heq
      rw [groupSkeletons, if_pos rfl]
      exact List.mem_append_left _ (h.skeleton hfix)
    · exact List.mem_append_right _ (ih h hfix hg)
  | empty | one | word | many | manyShortOf =>
    obtain ⟨-, rfl⟩ := h
    cases hg
  | start | finish | wordEdge =>
    obtain ⟨-, -, rfl⟩ := h
    cases hg

end Pattern

namespace Rule

/-- The quotes and parentheses that the rule writes, in each way. -/
def writtenSkeletons (r : Rule) : List Text :=
  r.replacement.foldr (fun piece skeletons =>
    (match piece with
      | .text t => [t.filter Symbol.isBracket]
      | .group n => [] :: r.pattern.groupSkeletons n).flatMap fun u => skeletons.map (u ++ ·)) [[]]

/-- All that the rule takes and writes of quotes and parentheses is pairs of parentheses. -/
def Pairs (r : Rule) : Prop :=
  r.pattern.fixesBrackets = true ∧
    ∀ u ∈ r.pattern.skeletons ++ r.writtenSkeletons, Text.isPairs u = true

instance (r : Rule) : Decidable r.Pairs := inferInstanceAs (Decidable (_ ∧ _))

theorem expand_skeleton {r : Rule} {prev : Option Symbol} {m : Match}
    (hm : r.pattern.Matches prev m.found m.after m.groups)
    (hfix : r.pattern.fixesBrackets = true) :
    (m.expand r.replacement).filter Symbol.isBracket ∈ r.writtenSkeletons := by
  rw [Match.expand, writtenSkeletons]
  induction r.replacement with
  | nil => exact List.mem_singleton.mpr rfl
  | cons piece pieces ih =>
    rw [List.flatMap_cons, List.filter_append, List.foldr_cons]
    refine List.mem_flatMap.mpr ⟨_, ?_, List.mem_map_of_mem ih⟩
    cases piece with
    | text t => exact List.mem_singleton.mpr rfl
    | group n =>
      simp only [Match.group, Match.group?]
      cases hlookup : m.groups.lookup n with
      | none => exact List.mem_cons_self
      | some g =>
        obtain ⟨front, back, hgroups, -⟩ := List.lookup_eq_some_iff.mp hlookup
        exact List.mem_cons_of_mem _ (hm.groupSkeleton hfix (by simp [hgroups]))

/-- A rule that takes and writes pairs only cuts nothing. -/
theorem Pairs.isNeutral {r : Rule} (h : r.Pairs) : r.IsNeutral := by
  rintro w w' ⟨m, prev, hm, rfl, rfl⟩ σ
  obtain ⟨hfix, hpairs⟩ := h
  rw [Nesting.after_of_isPairs (hpairs _ (List.mem_append_left _ (hm.skeleton hfix))) σ,
    Nesting.after_of_isPairs (hpairs _ (List.mem_append_right _ (expand_skeleton hm hfix))) σ]

end Rule

end DumpDialect
