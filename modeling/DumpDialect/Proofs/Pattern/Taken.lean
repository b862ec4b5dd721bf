import DumpDialect.Proofs.Pattern.Rewriting

/-!
# The matches that a rule takes

A rule takes one match or several, from left to right and without overlaps, and writes its
replacement in place of each. `Rule.taken` lists them, each with what stands in front of it and
behind it, and `Replaced` says what becomes of the text, with the place of each match in it.

- `Rule.replaced_taken`: the text that a rule makes is the text with the matches it takes replaced.
- `Rule.replaces_of_mem_taken`: each of them is a match of the rule.
-/

namespace DumpDialect

/-- The matches that replacing every match takes from the rest of a text of which `passed` was
searched already, the symbol passed last first. The first symbols of the rest are covered by a match
already. -/
def Pattern.takenFrom (p : Pattern) (passed : Text) : Nat → Text → List Match
  | _, [] => []
  | done + 1, s :: rest => p.takenFrom (s :: passed) done rest
  | 0, s :: rest =>
    match (p.at? ⟨passed.head?, s :: rest⟩).filter fun m => !m.found.isEmpty with
    | none => p.takenFrom (s :: passed) 0 rest
    | some m =>
      { m with before := passed.reverse } ::
        p.takenFrom (s :: passed) (m.found.length - 1) rest

/-- The matches that the rule takes from the text. -/
def Rule.taken (r : Rule) (t : Text) : List Match :=
  match r.scope with
  | .leftmost => (r.pattern.find t).toList
  | .every => r.pattern.takenFrom [] 0 t

/-- The second text is the first with these matches replaced, where `front` stands in front of
both. -/
inductive Replaced (replacement : List Piece) : Text → List Match → Text → Text → Prop where
  | nil (front : Text) : Replaced replacement front [] [] []
  | keep (s : Symbol) {front : Text} {taken : List Match} {t t' : Text} :
      Replaced replacement (front ++ [s]) taken t t' →
        Replaced replacement front taken (s :: t) (s :: t')
  | replace (m : Match) {taken : List Match} {t t' : Text} :
      Replaced replacement (m.before ++ m.found) taken t t' →
        Replaced replacement m.before (m :: taken) (m.found ++ t) (m.expand replacement ++ t')

namespace Replaced

variable {replacement : List Piece} {front t t' : Text} {taken : List Match}

theorem refl (front t : Text) : Replaced replacement front [] t t := by
  induction t generalizing front with
  | nil => exact .nil front
  | cons s t ih => exact .keep s (ih _)

theorem append_left (u : Text) (h : Replaced replacement (front ++ u) taken t t') :
    Replaced replacement front taken (u ++ t) (u ++ t') := by
  induction u generalizing front with
  | nil => rwa [List.append_nil] at h
  | cons s u ih => exact .keep s (ih (by rwa [List.append_assoc, List.singleton_append]))

end Replaced

namespace Rule

/-- Replacing every match, from behind the symbols that a match covers already. -/
theorem replaced_takenFrom (r : Rule) (passed covered rest : Text) :
    Replaced r.replacement (passed.reverse ++ covered)
      (r.pattern.takenFrom passed covered.length (covered ++ rest)) rest
      (r.pattern.replaceAllFrom r.replacement passed.head? covered.length (covered ++ rest)) := by
  -- As for the rewriting above; here the text passed is kept too, since each match names it.
  generalize ht : covered ++ rest = t
  induction t generalizing passed covered rest with
  | nil =>
    obtain ⟨rfl, rfl⟩ := List.append_eq_nil_iff.mp ht
    exact .nil _
  | cons s t ih =>
    cases covered with
    | cons s' covered =>
      obtain ⟨rfl, rfl⟩ := List.cons.inj ht
      have hrest := ih (s' :: passed) covered rest rfl
      rw [List.reverse_cons, List.append_assoc, List.singleton_append] at hrest
      exact hrest
    | nil =>
      obtain rfl : rest = s :: t := ht
      rw [List.length_nil, List.append_nil, Pattern.replaceAllFrom_cons, Pattern.takenFrom]
      cases hm : (r.pattern.at? ⟨passed.head?, s :: t⟩).filter fun m => !m.found.isEmpty with
      | none =>
        refine .keep s ?_
        have hrest := ih (s :: passed) [] t rfl
        rwa [List.reverse_cons, List.append_nil] at hrest
      | some m =>
        obtain ⟨hat, hne⟩ := Option.filter_eq_some_iff.mp hm
        obtain ⟨hrest, -⟩ := Pattern.matches_of_at? hat
        obtain ⟨s', found, hfound⟩ := List.exists_cons_of_ne_nil (l := m.found) (by simpa using hne)
        rw [hfound] at hrest
        obtain ⟨rfl, rfl⟩ := List.cons.inj hrest
        have hbehind := ih (s :: passed) found m.after rfl
        rw [List.reverse_cons, List.append_assoc, List.singleton_append, ← hfound] at hbehind
        have hreplaced := Replaced.replace { m with before := passed.reverse } hbehind
        simpa [hfound, Match.expand, Match.group, Match.group?] using hreplaced

/-- A rule replaces the matches that it takes. -/
theorem replaced_taken (r : Rule) (t : Text) :
    Replaced r.replacement [] (r.taken t) t (r.apply t) := by
  rw [apply, taken]
  cases r.scope with
  | leftmost =>
    simp only [Pattern.replaceFirst]
    cases hm : r.pattern.find t with
    | none => exact .refl [] t
    | some m =>
      obtain ⟨ht, -⟩ := Pattern.matches_of_find hm
      have hreplaced : Replaced r.replacement [] [m] (m.before ++ (m.found ++ m.after))
          (m.before ++ (m.expand r.replacement ++ m.after)) :=
        .append_left m.before (.replace m (.refl _ m.after))
      rw [ht]
      simpa using hreplaced
  | every => exact replaced_takenFrom r [] [] t

theorem replaces_of_mem_takenFrom {r : Rule} {passed t : Text} {done : Nat} {m : Match}
    (h : m ∈ r.pattern.takenFrom passed done t) :
    r.Replaces m.found (m.expand r.replacement) := by
  induction t generalizing passed done with
  | nil => cases done <;> cases h
  | cons s t ih =>
    cases done with
    | succ done => exact ih h
    | zero =>
      rw [Pattern.takenFrom] at h
      split at h
      · exact ih h
      · next m' hm' =>
        rcases List.mem_cons.mp h with rfl | h
        · obtain ⟨hat, -⟩ := Option.filter_eq_some_iff.mp hm'
          exact ⟨m', _, (Pattern.matches_of_at? hat).2, rfl, rfl⟩
        · exact ih h

theorem replaces_of_mem_taken {r : Rule} {t : Text} {m : Match} (h : m ∈ r.taken t) :
    r.Replaces m.found (m.expand r.replacement) := by
  rw [taken] at h
  split at h
  · exact ⟨m, _, (Pattern.matches_of_find (Option.mem_toList.mp h)).2, rfl, rfl⟩
  · exact replaces_of_mem_takenFrom h

end Rule

end DumpDialect
