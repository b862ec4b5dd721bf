import DumpDialect.Rule
import DumpDialect.Proofs.Pattern.Derived

/-!
# What a rule leaves alone

A rule replaces stretches of a text and keeps all that stands between them. `Rewrites` says so of
two texts and forgets which matches were taken, so what holds of every single replacement carries
over to the text.

- `Rule.apply_eq_self`: a text in which the pattern does not occur.
- `Rule.rewrites`: a rule rewrites.
- `Rewrites.filter_eq`: symbols that no replacement changes are the same in both texts.
- `Rewrites.suffix`: an end of the text that no replacement touches stays its end.
- `filter_applyRules`: the same for rules that run one after the other.
- `not_mem_applyRules`: a symbol that no rule writes is not added.
- `suffix_applyRules_iff`: an end of the text that no rule touches or writes is neither lost nor
  made.
-/

namespace DumpDialect

/-- The second text is the first with stretches replaced, each by a text that `R` allows for it. -/
inductive Rewrites (R : Text → Text → Prop) : Text → Text → Prop where
  | nil : Rewrites R [] []
  | keep (s : Symbol) {t t' : Text} : Rewrites R t t' → Rewrites R (s :: t) (s :: t')
  | replace {w w' t t' : Text} : R w w' → Rewrites R t t' → Rewrites R (w ++ t) (w' ++ t')

namespace Rewrites

variable {R : Text → Text → Prop} {t t' : Text}

/-- A text with nothing replaced. -/
theorem refl (t : Text) : Rewrites R t t := by
  induction t with
  | nil => exact .nil
  | cons s t ih => exact .keep s ih

theorem append_left (u : Text) (h : Rewrites R t t') : Rewrites R (u ++ t) (u ++ t') := by
  induction u with
  | nil => exact h
  | cons s u ih => exact .keep s ih

/-- Symbols that no replacement changes are the same in both texts. -/
theorem filter_eq {keep : Symbol → Bool} (hR : ∀ w w', R w w' → w'.filter keep = w.filter keep)
    (h : Rewrites R t t') : t'.filter keep = t.filter keep := by
  induction h with
  | nil => rfl
  | keep s _ ih => rw [List.filter_cons, List.filter_cons, ih]
  | replace hw _ ih => rw [List.filter_append, List.filter_append, hR _ _ hw, ih]

/-- A text in which no replaced stretch lies stays as it is. -/
theorem eq_of_none (hR : ∀ w w', R w w' → ¬ w <:+: t) (h : Rewrites R t t') : t' = t := by
  induction h with
  | nil => rfl
  | keep s _ ih => rw [ih fun w w' hw hwithin => hR w w' hw (hwithin.trans (List.infix_cons_iff.mpr
      (.inr (List.infix_refl _))))]
  | @replace w w' t t' hw _ ih => exact absurd (List.prefix_append w t).isInfix (hR w w' hw)

/-- An end of the text that no replaced stretch reaches into or lies in stays its end. -/
theorem suffix_of_apart {ending : Text}
    (hR : ∀ w w', R w w' → (∀ b, b ≠ [] → b <:+ w → ¬ b <+: ending) ∧ ¬ w <:+: ending)
    (h : Rewrites R t t') (ht : ending <:+ t) : ending <:+ t' := by
  induction h with
  | nil => exact ht
  | @keep s t t' h ih =>
    rcases List.suffix_cons_iff.mp ht with rfl | ht
    · have heq : s :: t' = s :: t := eq_of_none (fun w w' hw => (hR w w' hw).2) (.keep s h)
      exact ⟨[], heq.symm⟩
    · exact (ih ht).trans (List.suffix_cons ..)
  | @replace w w' t t' hw h ih =>
    -- The ending begins behind the stretch, since the stretch would reach into it.
    obtain ⟨front, hfront⟩ := ht
    have hending : ending <:+ t := by
      rcases List.append_eq_append_iff.mp hfront with ⟨back, rfl, rfl⟩ | ⟨back, -, rfl⟩
      · cases back with
        | nil => exact List.suffix_refl t
        | cons s back =>
          exact absurd (List.prefix_append (s :: back) t)
            ((hR _ _ hw).1 (s :: back) (List.cons_ne_nil s back) (List.suffix_append front _))
      · exact List.suffix_append ..
    exact (ih hending).trans (List.suffix_append ..)

/-- An end of the text in which no replaced stretch ends stays its end. -/
theorem suffix {ending : Text} (hR : ∀ w w', R w w' → ∃ s ∈ w.getLast?, s ∉ ending)
    (h : Rewrites R t t') (ht : ending <:+ t) : ending <:+ t' := by
  refine h.suffix_of_apart (fun w w' hw => ?_) ht
  obtain ⟨s, hs, hnot⟩ := hR w w' hw
  refine ⟨fun b hne hsuffix hbegins => ?_, fun hwithin => ?_⟩
  · obtain ⟨front, rfl⟩ := hsuffix
    rw [List.getLast?_append, List.getLast?_eq_some_getLast hne] at hs
    obtain rfl := Option.some.inj hs
    exact hnot (hbegins.subset (List.getLast_mem hne))
  · exact hnot (hwithin.subset (List.mem_of_getLast? hs))

/-- Rewriting, read backwards. -/
theorem flip (h : Rewrites R t t') : Rewrites (fun w w' => R w' w) t' t := by
  induction h with
  | nil => exact .nil
  | keep s _ ih => exact .keep s ih
  | replace hw _ ih => exact .replace hw ih

/-- A symbol that no replacement adds is not added. -/
theorem mem_of_mem {s : Symbol} (hR : ∀ w w', R w w' → s ∈ w' → s ∈ w) (h : Rewrites R t t')
    (hs : s ∈ t') : s ∈ t := by
  induction h with
  | nil => exact hs
  | keep s' _ ih => exact List.mem_cons.mpr ((List.mem_cons.mp hs).imp_right ih)
  | replace hw _ ih => exact List.mem_append.mpr ((List.mem_append.mp hs).imp (hR _ _ hw) ih)

end Rewrites

/-! ## Rules -/

namespace Pattern

theorem replaceAllFrom_cons (p : Pattern) (replacement : List Piece) (prev : Option Symbol)
    (s : Symbol) (rest : Text) :
    p.replaceAllFrom replacement prev 0 (s :: rest) =
      match (p.at? ⟨prev, s :: rest⟩).filter fun m => !m.found.isEmpty with
      | none => s :: p.replaceAllFrom replacement (some s) 0 rest
      | some m =>
        m.expand replacement ++
          p.replaceAllFrom replacement (some s) (m.found.length - 1) rest := by
  rw [replaceAllFrom, replaceAllOnto]
  cases (p.at? ⟨prev, s :: rest⟩).filter fun m => !m.found.isEmpty with
  | none => exact replaceAllOnto_eq p replacement [s] (some s) 0 rest
  | some m =>
    simp only
    rw [replaceAllOnto_eq, List.append_nil, List.reverse_reverse]

/-- Where no match starts nothing is replaced. -/
theorem replaceAllFrom_eq_self {p : Pattern} (replacement : List Piece) {prev : Option Symbol}
    {t : Text} (h : ∀ gone here, t = gone ++ here → p.at? ⟨lastOf prev gone, here⟩ = none) :
    p.replaceAllFrom replacement prev 0 t = t := by
  induction t generalizing prev with
  | nil => rw [replaceAllFrom_nil]
  | cons s t ih =>
    have hnone : p.at? ⟨prev, s :: t⟩ = none := h [] (s :: t) rfl
    rw [replaceAllFrom_of_none replacement hnone, ih]
    intro gone here hsplit
    rw [← lastOf_cons]
    exact h (s :: gone) here (congrArg (s :: ·) hsplit)

/-- A pattern that does not occur in a text matches at no place of it. -/
theorem at?_of_occursIn {p : Pattern} {t gone here : Text} (h : p.occursIn t = false)
    (ht : t = gone ++ here) : p.at? ⟨lastOf none gone, here⟩ = none := by
  rw [← Option.not_isSome_iff_eq_none]
  intro hsome
  obtain ⟨w, rest, groups, hhere, hm⟩ := isSome_at?_iff.mp hsome
  have hhere : here = w ++ rest := hhere
  rw [lastOf_none] at hm
  have hoccurs : p.occursIn t = true :=
    occursIn_iff.mpr ⟨gone, w, rest, groups, by rw [ht, hhere, List.append_assoc], hm⟩
  rw [h] at hoccurs
  cases hoccurs

end Pattern

namespace Rule

/-- A text in which the pattern of a rule does not occur stays as it is. -/
theorem apply_eq_self {r : Rule} {t : Text} (h : r.pattern.occursIn t = false) :
    r.apply t = t := by
  rw [apply]
  split
  · rw [Pattern.occursIn, Option.isSome_eq_false_iff, Option.isNone_iff_eq_none] at h
    rw [Pattern.replaceFirst, h]
  · exact Pattern.replaceAllFrom_eq_self r.replacement fun _ _ => Pattern.at?_of_occursIn h

/-- The rule replaces a match by this text. -/
def Replaces (r : Rule) (w w' : Text) : Prop :=
  ∃ (m : Match) (prev : Option Symbol), r.pattern.Matches prev w m.after m.groups ∧
    m.found = w ∧ m.expand r.replacement = w'

/-- Replacing every match rewrites, from behind the symbols that a match covers already. -/
theorem rewrites_replaceAllFrom (r : Rule) (prev : Option Symbol) (covered rest : Text) :
    Rewrites r.Replaces rest
      (r.pattern.replaceAllFrom r.replacement prev covered.length (covered ++ rest)) := by
  -- By induction on the whole text, since a match is found at once and then passed symbol by
  -- symbol.
  generalize ht : covered ++ rest = t
  induction t generalizing prev covered rest with
  | nil =>
    obtain ⟨rfl, rfl⟩ := List.append_eq_nil_iff.mp ht
    exact .nil
  | cons s t ih =>
    cases covered with
    | cons s' covered =>
      obtain ⟨rfl, rfl⟩ := List.cons.inj ht
      exact ih (some s') covered rest rfl
    | nil =>
      obtain rfl : rest = s :: t := ht
      rw [List.length_nil, Pattern.replaceAllFrom_cons]
      split
      · exact .keep s (ih (some s) [] t rfl)
      · next m hm =>
        obtain ⟨hat, hne⟩ := Option.filter_eq_some_iff.mp hm
        obtain ⟨hrest, hmatch⟩ := Pattern.matches_of_at? hat
        obtain ⟨s', found, hfound⟩ := List.exists_cons_of_ne_nil (l := m.found) (by simpa using hne)
        have hreplaces : r.Replaces m.found (m.expand r.replacement) := ⟨m, prev, hmatch, rfl, rfl⟩
        rw [hfound] at hrest hreplaces
        obtain ⟨rfl, rfl⟩ := List.cons.inj hrest
        rw [hfound, List.length_cons, Nat.add_sub_cancel]
        exact .replace hreplaces (ih (some s) found m.after rfl)

/-- A rule rewrites. -/
theorem rewrites (r : Rule) (t : Text) : Rewrites r.Replaces t (r.apply t) := by
  rw [apply]
  split
  · rw [Pattern.replaceFirst]
    split
    · next m hm =>
      obtain ⟨ht, hmatch⟩ := Pattern.matches_of_find hm
      rw [ht, List.append_assoc, List.append_assoc]
      exact .append_left _ (.replace ⟨m, _, hmatch, rfl, rfl⟩ (.refl _))
    · exact .refl t
  · exact rewrites_replaceAllFrom r none [] t

/-- The rule loses and adds none of the symbols, and leaves them in their order. -/
def Keeps (r : Rule) (keep : Symbol → Bool) : Prop :=
  ∀ w w', r.Replaces w w' → w'.filter keep = w.filter keep

/-- A match of the rule is not empty and holds none of the symbols. -/
def Avoids (r : Rule) (symbols : Text) : Prop :=
  0 < r.pattern.minLength ∧ ∀ s ∈ symbols, r.pattern.allows s = false

instance (r : Rule) (symbols : Text) : Decidable (r.Avoids symbols) :=
  inferInstanceAs (Decidable (_ ∧ _))

/-- What the rule writes besides the words of groups. -/
def fixedText (r : Rule) : Text :=
  r.replacement.flatMap fun
    | .text t => t
    | .group _ => []

/-- What the rule writes for a match is fixed or comes from the match. -/
theorem Replaces.subset {r : Rule} {w w' : Text} (h : r.Replaces w w') :
    w' ⊆ r.fixedText ++ w := by
  obtain ⟨m, prev, hm, rfl, rfl⟩ := h
  intro s hs
  obtain ⟨piece, hpiece, hs⟩ := List.mem_flatMap.mp hs
  cases piece with
  | text t => exact List.mem_append_left _ (List.mem_flatMap.mpr ⟨.text t, hpiece, hs⟩)
  | group n => exact List.mem_append_right _ (Match.group_subset hm n hs)

theorem Replaces.ne_nil {r : Rule} (hr : r.fixedText ≠ []) {w w' : Text} (h : r.Replaces w w') :
    w' ≠ [] := by
  obtain ⟨m, prev, -, -, rfl⟩ := h
  intro hnil
  refine hr (List.flatMap_eq_nil_iff.mpr fun piece hpiece => ?_)
  have hpart := List.flatMap_eq_nil_iff.mp hnil piece hpiece
  cases piece with
  | text t => exact hpart
  | group n => rfl

/-- A symbol that the rule does not write is not added. -/
theorem not_mem_apply {r : Rule} {s : Symbol} {t : Text} (hs : s ∉ r.fixedText) (ht : s ∉ t) :
    s ∉ r.apply t := by
  refine fun hmem => ht ((r.rewrites t).mem_of_mem (fun w w' hw hs' => ?_) hmem)
  exact (List.mem_append.mp (hw.subset hs')).resolve_left hs

/-- The rule takes none of the symbols away, and writes others only, in place of each match. -/
def Spares (r : Rule) (symbols : Text) : Prop :=
  r.Avoids symbols ∧ r.fixedText ≠ [] ∧ ∀ s ∈ symbols, s ∉ r.fixedText

instance (r : Rule) (symbols : Text) : Decidable (r.Spares symbols) :=
  inferInstanceAs (Decidable (_ ∧ _))

theorem Keeps.filter_apply {r : Rule} {keep : Symbol → Bool} (h : r.Keeps keep) (t : Text) :
    (r.apply t).filter keep = t.filter keep :=
  (r.rewrites t).filter_eq h

theorem Avoids.suffix_apply {r : Rule} {ending t : Text} (h : r.Avoids ending)
    (ht : ending <:+ t) : ending <:+ r.apply t := by
  refine (r.rewrites t).suffix ?_ ht
  rintro w w' ⟨m, prev, hmatch, -, -⟩
  have hne : w ≠ [] := List.ne_nil_of_length_pos (Nat.lt_of_lt_of_le h.1 hmatch.minLength_le)
  exact ⟨_, List.getLast?_eq_some_getLast hne,
    fun hending => hmatch.not_mem (h.2 _ hending) (List.getLast_mem hne)⟩

/-- An end of the text that the rule does not touch is one that it does not make. -/
theorem Spares.suffix_apply_iff {r : Rule} {ending t : Text} (h : r.Spares ending) :
    ending <:+ r.apply t ↔ ending <:+ t := by
  obtain ⟨havoids, hfixed, hnot⟩ := h
  refine ⟨(r.rewrites t).flip.suffix ?_, havoids.suffix_apply⟩
  intro w' w hw
  have hne := hw.ne_nil hfixed
  refine ⟨_, List.getLast?_eq_some_getLast hne, fun hending => ?_⟩
  rcases List.mem_append.mp (hw.subset (List.getLast_mem hne)) with hs | hs
  · exact hnot _ hending hs
  · obtain ⟨m, prev, hm, rfl, -⟩ := hw
    exact hm.not_mem (havoids.2 _ hending) hs

end Rule

theorem applyRules_of_not_occursIn {rules : List Rule} {t : Text}
    (h : ∀ r ∈ rules, r.pattern.occursIn t = false) : applyRules rules t = t := by
  induction rules with
  | nil => rfl
  | cons r rules ih =>
    obtain ⟨hr, hrules⟩ := List.forall_mem_cons.mp h
    rw [applyRules_cons, Rule.apply_eq_self hr, ih hrules]

theorem filter_applyRules {rules : List Rule} {keep : Symbol → Bool}
    (h : ∀ r ∈ rules, r.Keeps keep) (t : Text) :
    (applyRules rules t).filter keep = t.filter keep := by
  induction rules generalizing t with
  | nil => rfl
  | cons r rules ih =>
    obtain ⟨hr, hrules⟩ := List.forall_mem_cons.mp h
    rw [applyRules_cons, ih hrules, hr.filter_apply]

theorem not_mem_applyRules {rules : List Rule} {s : Symbol} (h : ∀ r ∈ rules, s ∉ r.fixedText)
    {t : Text} (ht : s ∉ t) : s ∉ applyRules rules t := by
  induction rules generalizing t with
  | nil => exact ht
  | cons r rules ih =>
    obtain ⟨hr, hrules⟩ := List.forall_mem_cons.mp h
    exact ih hrules (Rule.not_mem_apply hr ht)

theorem suffix_applyRules_iff {rules : List Rule} {ending : Text}
    (h : ∀ r ∈ rules, r.Spares ending) (t : Text) :
    ending <:+ applyRules rules t ↔ ending <:+ t := by
  induction rules generalizing t with
  | nil => rfl
  | cons r rules ih =>
    obtain ⟨hr, hrules⟩ := List.forall_mem_cons.mp h
    rw [applyRules_cons, ih hrules, hr.suffix_apply_iff]

end DumpDialect
