import DumpDialect.Rule
import DumpDialect.Proofs.Pattern.Preferred
import DumpDialect.Proofs.Pattern.Rewriting

/-!
# Patterns that begin with a fixed symbol

Each match of such a pattern begins with that symbol, and what stands in front of it does not
matter. So a front of the text without the symbol is passed over: a search goes on behind it, and a
rule leaves it as it is and does to the rest what it would do to the rest alone.

- `Pattern.opening?`, `Pattern.leading?`: the word that each match begins with, and its first
  symbol, read off the pattern.
- `Pattern.at?_congr_prev`, `Pattern.at?_eq_none_of_leading`: the matches at a place.
- `Pattern.find_append_of_none`, `Pattern.occursIn_append`: a search.
- `Pattern.replaceAll_append_of_none`, `Pattern.replaceAll_of_prefers`: replacing, over a front
  without a match and over a match.
- `Pattern.PassesOver`, `Pattern.passesOver_separated`: words in which no match begins.
- `applyRules_append_of_begin`: rules that run one after the other.
- `Rule.exists_apply_append_cons`: replacing, on the two sides of a symbol that no match holds.
- `Rule.PassesOver`, `applyRules_append_of_passesOver`: patterns that begin with a word, over a
  front in which the word does not begin.
-/

namespace DumpDialect

variable {symbols u : Text} {s : Symbol}

namespace Pattern

variable {p : Pattern} {v : Text}

/-- The word that each match of the pattern begins with, if that is read off the pattern. -/
def opening? : Pattern → Option Text
  | word v => some v
  | seq p _ => p.opening?
  | group _ p => p.opening?
  | empty | one _ | alt _ _ | many _ _ | manyShortOf _ _ | start | finish | wordEdge => none

theorem Matches.opening_prefix {prev : Option Symbol} {w rest : Text} {groups : List (Nat × Text)}
    (hm : p.Matches prev w rest groups) (h : p.opening? = some v) : v <+: w := by
  induction p generalizing prev w rest groups with
  | word v' =>
    obtain ⟨rfl, -⟩ := hm
    exact Option.some.inj h ▸ List.prefix_refl _
  | seq p q ihp _ =>
    obtain ⟨w₁, w₂, _, _, rfl, -, h₁, -⟩ := hm
    exact (ihp h₁ h).trans (List.prefix_append ..)
  | group n p ih =>
    obtain ⟨_, -, hm⟩ := hm
    exact ih hm h
  | empty | one | alt | many | manyShortOf | start | finish | wordEdge => cases h

/-- A text that lacks the word lacks the pattern. -/
theorem occursIn_of_opening {t : Text} (h : p.opening? = some v) (ht : ¬ v <:+: t) :
    p.occursIn t = false := by
  refine Bool.eq_false_iff.mpr fun hoccurs => ht ?_
  obtain ⟨before, w, after, groups, rfl, hm⟩ := occursIn_iff.mp hoccurs
  rw [List.append_assoc]
  exact ((hm.opening_prefix h).trans (List.prefix_append w after)).isInfix.trans
    (List.suffix_append before _).isInfix

/-- The symbol that each match of the pattern begins with, if that is read off the pattern. -/
def leading? : Pattern → Option Symbol
  | word w => w.head?
  | seq p _ => p.leading?
  | group _ p => p.leading?
  | empty | one _ | alt _ _ | many _ _ | manyShortOf _ _ | start | finish | wordEdge => none

/-- The matches do not depend on what stands in front of the place. -/
theorem outcomes_congr_prev (h : p.leading? = some s) (prev prev' : Option Symbol) (t : Text) :
    p.outcomes ⟨prev, t⟩ = p.outcomes ⟨prev', t⟩ := by
  induction p with
  | word w =>
    obtain ⟨w, rfl⟩ := List.head?_eq_some_iff.mp h
    cases t <;> rfl
  | seq p q ihp _ => rw [outcomes, outcomes, ihp h]
  | group n p ih => rw [outcomes, outcomes, ih h]
  | empty | one | alt | many | manyShortOf | start | finish | wordEdge => cases h

theorem leading?_eq (p : Pattern) : p.leading? = p.opening?.bind List.head? := by
  induction p with
  | word v => rfl
  | seq p q ihp _ => exact ihp
  | group n p ih => exact ih
  | empty | one | alt | many | manyShortOf | start | finish | wordEdge => rfl

theorem leading?_of_opening (h : p.opening? = some (s :: v)) : p.leading? = some s := by
  rw [leading?_eq, h]
  rfl

theorem Matches.head?_eq {prev : Option Symbol} {w rest : Text} {groups : List (Nat × Text)}
    (hm : p.Matches prev w rest groups) (h : p.leading? = some s) : w.head? = some s := by
  rw [leading?_eq] at h
  obtain ⟨v, hopening, hhead⟩ := Option.bind_eq_some_iff.mp h
  obtain ⟨more, rfl⟩ := hm.opening_prefix hopening
  rw [List.head?_append, hhead]
  rfl

theorem at?_congr_prev (h : p.leading? = some s) (prev prev' : Option Symbol) (t : Text) :
    p.at? ⟨prev, t⟩ = p.at? ⟨prev', t⟩ := by
  rw [at?, first?, outcomes_congr_prev h prev prev', at?, first?]

/-- Where another symbol stands there is no match. -/
theorem at?_eq_none_of_leading (h : p.leading? = some s) {s' : Symbol} (hs : s' ≠ s)
    (prev : Option Symbol) (t : Text) : p.at? ⟨prev, s' :: t⟩ = none := by
  rw [← Option.not_isSome_iff_eq_none, isSome_at?_iff]
  rintro ⟨w, rest, groups, hrest, hm⟩
  obtain ⟨w, rfl⟩ := List.head?_eq_some_iff.mp (hm.head?_eq h)
  exact hs (List.cons.inj hrest).1

/-! ## Searching -/

/-- What was passed before the search does not matter. -/
private theorem findFrom_eq (h : p.leading? = some s) (passed t : Text) :
    p.findFrom passed t =
      (p.find t).map fun m => { m with before := passed.reverse ++ m.before } := by
  induction t generalizing passed with
  | nil =>
    rw [find, findFrom, findFrom, at?_congr_prev h passed.head? ([] : Text).head?]
    cases p.at? ⟨([] : Text).head?, []⟩ <;> simp
  | cons s' t ih =>
    rw [find, findFrom, findFrom, at?_congr_prev h passed.head? ([] : Text).head?]
    cases p.at? ⟨([] : Text).head?, s' :: t⟩ with
    | some m => simp
    | none =>
      simp only
      rw [ih (s' :: passed), ih [s'], Option.map_map]
      congr 1
      funext m
      simp

/-- A front in which no match begins is passed over. -/
theorem find_append_of_none (h : p.leading? = some s) {t : Text}
    (hu : ∀ gone here, u = gone ++ here → here ≠ [] → p.at? ⟨none, here ++ t⟩ = none) :
    p.find (u ++ t) = (p.find t).map fun m => { m with before := u ++ m.before } := by
  induction u with
  | nil => simp
  | cons s' u ih =>
    have hnone := hu [] (s' :: u) rfl (List.cons_ne_nil s' u)
    have hrest := ih fun gone here hsplit =>
      hu (s' :: gone) here (by rw [hsplit, List.cons_append])
    rw [List.cons_append] at hnone
    rw [List.cons_append, find, findFrom, List.head?_nil, hnone, findFrom_eq h, hrest,
      Option.map_map]
    rfl

/-- No match begins in a front without the symbol. -/
theorem at?_eq_none_of_front (h : p.leading? = some s) (hu : s ∉ u) (t : Text) :
    ∀ gone here, u = gone ++ here → here ≠ [] → p.at? ⟨none, here ++ t⟩ = none := by
  intro gone here hsplit hne
  obtain ⟨s', here, rfl⟩ := List.exists_cons_of_ne_nil hne
  refine at?_eq_none_of_leading h ?_ none (here ++ t)
  rintro rfl
  exact hu (by simp [hsplit])

/-- A front without the symbol may be left out of a search. -/
theorem occursIn_append (h : p.leading? = some s) (hu : s ∉ u) (t : Text) :
    p.occursIn (u ++ t) = p.occursIn t := by
  rw [occursIn, find_append_of_none h (at?_eq_none_of_front h hu t), Option.isSome_map, occursIn]

/-! ## Replacing -/

theorem replaceAllFrom_congr_prev (h : p.leading? = some s) (replacement : List Piece)
    (prev prev' : Option Symbol) (t : Text) :
    p.replaceAllFrom replacement prev 0 t = p.replaceAllFrom replacement prev' 0 t := by
  cases t with
  | nil => rfl
  | cons s' t =>
    rw [replaceAllFrom_cons, replaceAllFrom_cons, at?_congr_prev h prev prev']

/-- Where no match begins the text goes on behind the symbol. -/
theorem replaceAll_cons_of_none (h : p.leading? = some s) (replacement : List Piece) {s' : Symbol}
    {t : Text} (hnone : p.at? ⟨none, s' :: t⟩ = none) :
    p.replaceAll replacement (s' :: t) = s' :: p.replaceAll replacement t := by
  rw [replaceAll, replaceAllFrom_of_none replacement hnone, replaceAllFrom_congr_prev h _ _ none]
  rfl

/-- A front in which no match begins is passed over. -/
theorem replaceAll_append_of_none (h : p.leading? = some s) (replacement : List Piece) {t : Text}
    (hu : ∀ gone here, u = gone ++ here → here ≠ [] → p.at? ⟨none, here ++ t⟩ = none) :
    p.replaceAll replacement (u ++ t) = u ++ p.replaceAll replacement t := by
  induction u with
  | nil => rfl
  | cons s' u ih =>
    have hnone := hu [] (s' :: u) rfl (List.cons_ne_nil s' u)
    have hrest := ih fun gone here hsplit =>
      hu (s' :: gone) here (by rw [hsplit, List.cons_append])
    rw [List.cons_append] at hnone ⊢
    rw [replaceAll_cons_of_none h replacement hnone, hrest, List.cons_append]

theorem replaceAll_append (h : p.leading? = some s) (hu : s ∉ u) (replacement : List Piece)
    (t : Text) : p.replaceAll replacement (u ++ t) = u ++ p.replaceAll replacement t :=
  replaceAll_append_of_none h replacement (at?_eq_none_of_front h hu t)

theorem replaceFirst_append_of_none (h : p.leading? = some s) (replacement : List Piece) {t : Text}
    (hu : ∀ gone here, u = gone ++ here → here ≠ [] → p.at? ⟨none, here ++ t⟩ = none) :
    p.replaceFirst replacement (u ++ t) = u ++ p.replaceFirst replacement t := by
  rw [replaceFirst, find_append_of_none h hu, replaceFirst]
  cases p.find t with
  | none => rfl
  | some m => simp [Match.expand, Match.group, Match.group?]

/-- The preferred match is replaced, and the text goes on behind it. -/
theorem replaceAll_of_prefers (h : p.leading? = some s) {w rest : Text} {groups : List (Nat × Text)}
    (hp : p.Prefers none w rest groups) (replacement : List Piece) :
    p.replaceAll replacement (w ++ rest) =
      (Match.mk [] w rest groups).expand replacement ++ p.replaceAll replacement rest := by
  have hcovered (prev : Option Symbol) (done : Text) :
      p.replaceAllFrom replacement prev done.length (done ++ rest) =
        p.replaceAllFrom replacement none 0 rest := by
    induction done generalizing prev with
    | nil => exact replaceAllFrom_congr_prev h replacement prev none rest
    | cons s' done ih => exact ih (some s')
  have hat := hp.at?
  obtain ⟨w, rfl⟩ := List.head?_eq_some_iff.mp ((matches_of_at? hat).2.head?_eq h)
  rw [List.cons_append] at hat ⊢
  rw [replaceAll, replaceAllFrom_of_some replacement hat (List.cons_ne_nil s w)]
  exact congrArg (_ ++ ·) (hcovered (some s) w)

/-- The first match of a pattern that matches where the search begins. -/
theorem replaceFirst_of_prefers {w rest : Text} {groups : List (Nat × Text)}
    (hp : p.Prefers none w rest groups) (replacement : List Piece) :
    p.replaceFirst replacement (w ++ rest) =
      (Match.mk [] w rest groups).expand replacement ++ rest := by
  rw [replaceFirst, hp.find]
  rfl

/-! ## Words between separators -/

/-- No match of the pattern begins in the text, where `t` follows. -/
def PassesOver (p : Pattern) (u t : Text) : Prop :=
  ∀ gone here, u = gone ++ here → here ≠ [] → p.at? ⟨none, here ++ t⟩ = none

theorem PassesOver.append {u' t : Text} (hu : p.PassesOver u (u' ++ t)) (hu' : p.PassesOver u' t) :
    p.PassesOver (u ++ u') t := by
  intro gone here hsplit hne
  rcases List.append_eq_append_iff.mp hsplit with ⟨between, -, hbehind⟩ | ⟨between, hfront, rfl⟩
  · exact hu' between here hbehind hne
  · cases between with
    | nil => exact hu' [] _ (List.nil_append u').symm hne
    | cons s' between =>
      rw [List.append_assoc]
      exact hu gone _ hfront (List.cons_ne_nil s' between)

/-- In a word behind the leading symbol a match can begin at that symbol only. -/
theorem PassesOver.word (h : p.leading? = some s) {w t : Text} (hw : s ∉ w)
    (hnone : p.at? ⟨none, s :: (w ++ t)⟩ = none) : p.PassesOver (s :: w) t := by
  intro gone here hsplit hne
  cases gone with
  | nil => exact (List.nil_append here ▸ hsplit) ▸ hnone
  | cons s' gone =>
    obtain ⟨-, hsplit⟩ := List.cons.inj hsplit
    exact at?_eq_none_of_front h hw t gone here hsplit hne

end Pattern

/-- No match begins in words at none of which one begins that a further separator follows. -/
theorem Pattern.passesOver_separated {p : Pattern} (h : p.leading? = some s) {words : List Text}
    (hwords : ∀ w ∈ words, s ∉ w ∧ ∀ t, p.at? ⟨none, s :: (w ++ s :: t)⟩ = none) (t : Text) :
    p.PassesOver (Text.separated s words) (s :: t) := by
  induction words with
  | nil =>
    intro gone here hsplit hne
    exact absurd (List.append_eq_nil_iff.mp hsplit.symm).2 hne
  | cons w words ih =>
    obtain ⟨⟨hw, hnone⟩, hwords⟩ := List.forall_mem_cons.mp hwords
    rw [Text.separated_cons]
    refine PassesOver.append (PassesOver.word h hw ?_) (ih hwords)
    cases words with
    | nil => exact hnone t
    | cons w' words =>
      rw [Text.separated_cons, List.append_assoc, List.cons_append]
      exact hnone (w' ++ (Text.separated s words ++ s :: t))

/-- The rule replaces every match of its pattern, and each of them begins with one of the
symbols. -/
def Rule.BeginsIn (symbols : Text) (r : Rule) : Prop :=
  r.scope = .every ∧ ∃ s ∈ symbols, r.pattern.leading? = some s

instance (symbols : Text) : DecidablePred (Rule.BeginsIn symbols) := fun _ =>
  inferInstanceAs (Decidable (_ ∧ _))

/-- A rule does to a text behind a front without the symbols what it does to the text alone. -/
theorem Rule.BeginsIn.apply_append {r : Rule} (h : r.BeginsIn symbols)
    (hu : ∀ s ∈ symbols, s ∉ u) (t : Text) : r.apply (u ++ t) = u ++ r.apply t := by
  obtain ⟨hscope, s, hs, hleading⟩ := h
  simp only [Rule.apply, hscope]
  exact Pattern.replaceAll_append hleading (hu s hs) r.replacement t

theorem applyRules_append_of_begin {rules : List Rule} (h : ∀ r ∈ rules, r.BeginsIn symbols)
    (hu : ∀ s ∈ symbols, s ∉ u) (t : Text) :
    applyRules rules (u ++ t) = u ++ applyRules rules t := by
  induction rules generalizing t with
  | nil => rfl
  | cons r rules ih =>
    obtain ⟨hr, hrules⟩ := List.forall_mem_cons.mp h
    rw [applyRules_cons, hr.apply_append hu, ih hrules, applyRules_cons]

/-! ## A symbol that no match holds -/

/-- Replacing every match goes on anew behind a symbol that no match holds. In front of it, behind
the symbols that a match covers already, the text gets no longer. -/
private theorem Rule.exists_replaceAllFrom_append_cons {r : Rule}
    (hleading : r.pattern.leading? = some s) {q : Symbol} (hq : r.pattern.allows q = false)
    (hlength : ∀ w w', r.Replaces w w' → w'.length ≤ w.length) (t : Text) (prev : Option Symbol)
    {done : Nat} (hdone : done ≤ u.length) :
    ∃ u', r.pattern.replaceAllFrom r.replacement prev done (u ++ q :: t) =
      u' ++ q :: r.pattern.replaceAll r.replacement t ∧ u'.length + done ≤ u.length := by
  induction u generalizing prev done with
  | nil =>
    obtain rfl := Nat.le_zero.mp hdone
    -- No match begins at `q`, since it would hold it.
    have hnone : r.pattern.at? ⟨prev, q :: t⟩ = none := by
      refine Pattern.at?_eq_none_iff.mpr fun w rest groups hw hm => hm.not_mem hq ?_
      obtain ⟨w, rfl⟩ := List.head?_eq_some_iff.mp (hm.head?_eq hleading)
      obtain ⟨rfl, -⟩ := List.cons.inj hw
      exact List.mem_cons_self
    refine ⟨[], ?_, Nat.le_refl _⟩
    rw [List.nil_append, Pattern.replaceAllFrom_of_none r.replacement hnone,
      Pattern.replaceAllFrom_congr_prev hleading r.replacement (some q) none t]
    rfl
  | cons s' u ih =>
    match done with
    | done + 1 =>
      obtain ⟨u', happly, hle⟩ := ih (some s') (Nat.le_of_succ_le_succ hdone)
      exact ⟨u', happly, Nat.succ_le_succ hle⟩
    | 0 =>
      rw [List.cons_append]
      cases hat : r.pattern.at? ⟨prev, s' :: (u ++ q :: t)⟩ with
      | none =>
        obtain ⟨u', happly, hle⟩ := ih (some s') (Nat.zero_le _)
        rw [Pattern.replaceAllFrom_of_none r.replacement hat, happly]
        exact ⟨s' :: u', rfl, Nat.succ_le_succ hle⟩
      | some m =>
        obtain ⟨hrest, hmatch⟩ := Pattern.matches_of_at? hat
        obtain ⟨found, hfound⟩ := List.head?_eq_some_iff.mp (hmatch.head?_eq hleading)
        -- Nor does a match reach over it, so the symbols covered end before it as well.
        have hfront : m.found <+: s' :: u :=
          Text.prefix_of_prefix_append_cons (hmatch.not_mem hq) ⟨m.after, hrest.symm⟩
        have hcovered : m.found.length - 1 ≤ u.length := by
          have hle := hfront.length_le
          rw [List.length_cons] at hle
          omega
        obtain ⟨u', happly, hle⟩ := ih (some s') hcovered
        have hshorter := hlength _ _ ⟨m, prev, hmatch, rfl, rfl⟩
        have hpos : 0 < m.found.length := by simp [hfound]
        rw [Pattern.replaceAllFrom_of_some r.replacement hat (by simp [hfound]), happly]
        refine ⟨m.expand r.replacement ++ u', (List.append_assoc ..).symm, ?_⟩
        rw [List.length_append, List.length_cons]
        omega

theorem Rule.exists_apply_append_cons {r : Rule} (hscope : r.scope = .every)
    (hleading : r.pattern.leading? = some s) {q : Symbol} (hq : r.pattern.allows q = false)
    (hlength : ∀ w w', r.Replaces w w' → w'.length ≤ w.length) (u t : Text) :
    ∃ u', r.apply (u ++ q :: t) = u' ++ q :: r.apply t ∧ u'.length ≤ u.length := by
  simp only [apply, hscope]
  exact exists_replaceAllFrom_append_cons hleading hq hlength t none (Nat.zero_le _)

/-! ## Fronts in which the word does not begin -/

/-- The word that opens the pattern does not begin in the text, whatever follows the text. -/
def Rule.PassesOver (u : Text) (r : Rule) : Prop :=
  ∃ v ∈ r.pattern.opening?, v ≠ [] ∧ Text.NotBegunIn v u

instance (u : Text) : DecidablePred (Rule.PassesOver u) := fun _ =>
  inferInstanceAs (Decidable (∃ v ∈ _, v ≠ [] ∧ Text.NotBegunIn v u))

/-- A rule does to a text behind a front in which no match begins what it does to the text alone. -/
theorem Rule.PassesOver.apply_append {r : Rule} (h : r.PassesOver u) (t : Text) :
    r.apply (u ++ t) = u ++ r.apply t := by
  obtain ⟨v, hopening, hne, hbegun⟩ := h
  obtain ⟨s, v, rfl⟩ := List.exists_cons_of_ne_nil hne
  have hleading := Pattern.leading?_of_opening hopening
  have hnone : ∀ gone here, u = gone ++ here → here ≠ [] →
      r.pattern.at? ⟨none, here ++ t⟩ = none := by
    intro gone here hsplit hne
    refine Pattern.at?_eq_none_iff.mpr fun w rest groups hw hm => ?_
    exact hbegun.not_prefix hsplit hne t ((hm.opening_prefix hopening).trans ⟨rest, hw.symm⟩)
  simp only [Rule.apply]
  split
  · exact Pattern.replaceFirst_append_of_none hleading r.replacement hnone
  · exact Pattern.replaceAll_append_of_none hleading r.replacement hnone

theorem applyRules_append_of_passesOver {rules : List Rule} (h : ∀ r ∈ rules, r.PassesOver u)
    (t : Text) : applyRules rules (u ++ t) = u ++ applyRules rules t := by
  induction rules generalizing t with
  | nil => rfl
  | cons r rules ih =>
    obtain ⟨hr, hrules⟩ := List.forall_mem_cons.mp h
    rw [applyRules_cons, hr.apply_append, ih hrules, applyRules_cons]

end DumpDialect
