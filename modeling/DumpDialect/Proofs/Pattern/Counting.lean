import DumpDialect.Proofs.Pattern.Rewriting

/-!
# How much a rule takes away

A match holds at least the words of its pattern that lie outside of a group, next to what the group
matched. So a rule that writes one group and less than those words besides makes a text poorer by
each match it replaces, and if rules that do so leave as much as there was, they have found nothing.

The symbols are counted by a class: all of them, which gives the length, or those of one kind.

- `Pattern.outside`, `Matches.countP_group_add_outside_le`: what a match holds outside of a group.
- `Rule.AddsNo`, `Rule.Takes`: rules that write no more symbols than they replace, or fewer.
- `countP_applyRules_le`, `occursIn_of_countP_le`: such rules, one after the other.
-/

namespace DumpDialect

variable {keep : Symbol → Bool} {t : Text}

namespace Pattern

/-- The number of symbols of the class that the words of the pattern outside of the group hold in
each match at least. -/
def outside (keep : Symbol → Bool) (n : Nat) : Pattern → Nat
  | word v => v.countP keep
  | seq p q => p.outside keep n + q.outside keep n
  | alt p q => min (p.outside keep n) (q.outside keep n)
  | group m p => if m = n then 0 else p.outside keep n
  | empty | one _ | many _ _ | manyShortOf _ _ | start | finish | wordEdge => 0

variable {p : Pattern} {prev : Option Symbol} {w rest g : Text} {groups : List (Nat × Text)}

theorem Matches.outside_le (h : p.Matches prev w rest groups) (keep : Symbol → Bool) (n : Nat) :
    p.outside keep n ≤ w.countP keep := by
  induction p generalizing prev w rest groups with
  | word v =>
    obtain ⟨rfl, -⟩ := h
    exact Nat.le_refl _
  | seq p q ihp ihq =>
    obtain ⟨w₁, w₂, _, _, rfl, -, h₁, h₂⟩ := h
    rw [List.countP_append]
    exact Nat.add_le_add (ihp h₁) (ihq h₂)
  | alt p q ihp ihq =>
    rcases h with h | h
    · exact Nat.le_trans (Nat.min_le_left ..) (ihp h)
    · exact Nat.le_trans (Nat.min_le_right ..) (ihq h)
  | group m p ih =>
    obtain ⟨inner, -, h⟩ := h
    rw [outside]
    split
    · exact Nat.zero_le _
    · exact ih h
  | empty | one | many | manyShortOf | start | finish | wordEdge => exact Nat.zero_le _

/-- A match holds what a group matched and the words outside of the group. -/
theorem Matches.countP_group_add_outside_le (h : p.Matches prev w rest groups) {n : Nat}
    (hg : (n, g) ∈ groups) (keep : Symbol → Bool) :
    g.countP keep + p.outside keep n ≤ w.countP keep := by
  induction p generalizing prev w rest groups with
  | seq p q ihp ihq =>
    obtain ⟨w₁, w₂, groups₁, groups₂, rfl, rfl, h₁, h₂⟩ := h
    rw [List.countP_append, outside]
    -- The group lies in one part; the words of the other part stand outside of it.
    rcases List.mem_append.mp hg with hg | hg
    · have hin := ihp h₁ hg
      have hout := h₂.outside_le keep n
      omega
    · have hin := ihq h₂ hg
      have hout := h₁.outside_le keep n
      omega
  | alt p q ihp ihq =>
    rcases h with h | h
    · exact Nat.le_trans (Nat.add_le_add_left (Nat.min_le_left ..) _) (ihp h hg)
    · exact Nat.le_trans (Nat.add_le_add_left (Nat.min_le_right ..) _) (ihq h hg)
  | group m p ih =>
    obtain ⟨inner, rfl, h⟩ := h
    rw [outside]
    rcases List.mem_cons.mp hg with heq | hg
    · obtain ⟨rfl, rfl⟩ := Prod.mk.inj heq
      exact Nat.le_of_eq (by rw [if_pos rfl, Nat.add_zero])
    · split
      · exact Nat.le_trans (Nat.le_add_right ..) (ih h hg)
      · exact ih h hg
  | empty | one | word | many | manyShortOf =>
    obtain ⟨-, rfl⟩ := h
    cases hg
  | start | finish | wordEdge =>
    obtain ⟨-, -, rfl⟩ := h
    cases hg

end Pattern

/-! ## What replacements leave -/

theorem Match.countP_group_add_outside_le {p : Pattern} {prev : Option Symbol} {m : Match}
    (h : p.Matches prev m.found m.after m.groups) (n : Nat) (keep : Symbol → Bool) :
    (m.group n).countP keep + p.outside keep n ≤ m.found.countP keep := by
  rw [group, group?]
  cases hlookup : m.groups.lookup n with
  | none => simpa using h.outside_le keep n
  | some g =>
    obtain ⟨front, back, hgroups, -⟩ := List.lookup_eq_some_iff.mp hlookup
    exact h.countP_group_add_outside_le (n := n) (by simp [hgroups]) keep

namespace Rewrites

variable {R : Text → Text → Prop} {t' : Text}

theorem countP_le (hR : ∀ w w', R w w' → w'.countP keep ≤ w.countP keep) (h : Rewrites R t t') :
    t'.countP keep ≤ t.countP keep := by
  induction h with
  | nil => exact Nat.le_refl _
  | keep s _ ih =>
    rw [List.countP_cons, List.countP_cons]
    exact Nat.add_le_add_right ih _
  | replace hw _ ih =>
    rw [List.countP_append, List.countP_append]
    exact Nat.add_le_add (hR _ _ hw) ih

end Rewrites

namespace Rule

/-- The groups that the rule writes. -/
def groupsWritten (r : Rule) : List Nat :=
  r.replacement.filterMap fun
    | .text _ => none
    | .group n => some n

/-- What a match holds at least besides the group that the rule writes. -/
def surplus (r : Rule) (keep : Symbol → Bool) : Nat :=
  r.pattern.outside keep (r.groupsWritten.headD 0)

/-- The rule writes one group at most, and no more symbols of the class besides than a match
holds besides. -/
def AddsNo (keep : Symbol → Bool) (r : Rule) : Prop :=
  r.groupsWritten.length ≤ 1 ∧ r.fixedText.countP keep ≤ r.surplus keep

/-- The rule writes one group at most, and fewer symbols of the class besides than a match holds
besides. -/
def Takes (keep : Symbol → Bool) (r : Rule) : Prop :=
  r.groupsWritten.length ≤ 1 ∧ r.fixedText.countP keep < r.surplus keep

instance (keep : Symbol → Bool) : DecidablePred (AddsNo keep) := fun _ =>
  inferInstanceAs (Decidable (_ ∧ _))

instance (keep : Symbol → Bool) : DecidablePred (Takes keep) := fun _ =>
  inferInstanceAs (Decidable (_ ∧ _))

variable {r : Rule}

theorem Takes.addsNo (h : r.Takes keep) : r.AddsNo keep := ⟨h.1, Nat.le_of_lt h.2⟩

/-- What is written for a match is the fixed text and the groups. -/
theorem countP_expand (r : Rule) (m : Match) (keep : Symbol → Bool) :
    (m.expand r.replacement).countP keep =
      r.fixedText.countP keep + (r.groupsWritten.flatMap m.group).countP keep := by
  rw [fixedText, groupsWritten, Match.expand]
  induction r.replacement with
  | nil => rfl
  | cons piece more ih =>
    rw [List.flatMap_cons, List.flatMap_cons, List.countP_append, ih]
    cases piece with
    | text u => simp [Nat.add_assoc]
    | group n => simp; omega

theorem Replaces.countP_add_surplus_le (hgroups : r.groupsWritten.length ≤ 1) {w w' : Text}
    (h : r.Replaces w w') (keep : Symbol → Bool) :
    w'.countP keep + r.surplus keep ≤ r.fixedText.countP keep + w.countP keep := by
  obtain ⟨m, prev, hm, rfl, rfl⟩ := h
  rw [countP_expand, surplus]
  match hwritten : r.groupsWritten, hgroups with
  | [], _ =>
    have hwords := hm.outside_le keep 0
    simp only [List.flatMap_nil, List.countP_nil, List.headD_nil]
    omega
  | [n], _ =>
    have hgroup := Match.countP_group_add_outside_le hm n keep
    simp only [List.flatMap_singleton, List.headD_cons]
    omega

theorem AddsNo.replaces (h : r.AddsNo keep) (w w' : Text) (hw : r.Replaces w w') :
    w'.countP keep ≤ w.countP keep := by
  have hcount := hw.countP_add_surplus_le h.1 keep
  have hfixed := h.2
  omega

theorem Takes.replaces (h : r.Takes keep) (w w' : Text) (hw : r.Replaces w w') :
    w'.countP keep < w.countP keep := by
  have hcount := hw.countP_add_surplus_le h.1 keep
  have hfixed := h.2
  omega

theorem AddsNo.countP_apply_le (h : r.AddsNo keep) (t : Text) :
    (r.apply t).countP keep ≤ t.countP keep :=
  (r.rewrites t).countP_le h.replaces

/-- Replacing every match from a place on takes symbols away if there is a match at all. -/
private theorem Takes.countP_replaceAllFrom_lt (h : r.Takes keep) {prev : Option Symbol}
    {gone here : Text} (hat : (r.pattern.at? ⟨lastOf prev gone, here⟩).isSome = true) :
    (r.pattern.replaceAllFrom r.replacement prev 0 (gone ++ here)).countP keep <
      (gone ++ here).countP keep := by
  -- By induction on the text: the match in `h` need not be the first one, and the first is enough.
  generalize ht : gone ++ here = t
  induction t generalizing prev gone with
  | nil =>
    obtain ⟨rfl, rfl⟩ := List.append_eq_nil_iff.mp ht
    obtain ⟨m, hm⟩ := Option.isSome_iff_exists.mp hat
    obtain ⟨hrest, hmatch⟩ := Pattern.matches_of_at? hm
    have hless := h.replaces _ _ ⟨m, _, hmatch, rfl, rfl⟩
    rw [(List.append_eq_nil_iff.mp hrest.symm).1] at hless
    exact absurd hless (Nat.not_lt_zero _)
  | cons s t ih =>
    cases hhead : r.pattern.at? ⟨prev, s :: t⟩ with
    | some m =>
      obtain ⟨hrest, hmatch⟩ := Pattern.matches_of_at? hhead
      have hless := h.replaces _ _ ⟨m, prev, hmatch, rfl, rfl⟩
      have hne : m.found ≠ [] := by
        intro hnil
        rw [hnil] at hless
        exact absurd hless (Nat.not_lt_zero _)
      obtain ⟨s', found, hfound⟩ := List.exists_cons_of_ne_nil hne
      have hsplit : s :: t = m.found ++ m.after := hrest
      have htail : t = found ++ m.after := (List.cons.inj (hfound ▸ hsplit)).2
      have hafter :=
        (r.rewrites_replaceAllFrom (some s) found m.after).countP_le h.addsNo.replaces
      rw [Pattern.replaceAllFrom_of_some r.replacement hhead hne, hsplit, hfound, List.length_cons,
        Nat.add_sub_cancel, htail, List.countP_append, ← hfound, List.countP_append]
      exact Nat.add_lt_add_of_lt_of_le hless hafter
    | none =>
      cases gone with
      | nil =>
        obtain rfl : here = s :: t := ht
        rw [lastOf_nil, hhead] at hat
        cases hat
      | cons s' gone =>
        obtain ⟨rfl, hgone⟩ := List.cons.inj ht
        rw [lastOf_cons] at hat
        rw [Pattern.replaceAllFrom_of_none r.replacement hhead, List.countP_cons, List.countP_cons]
        exact Nat.add_lt_add_right (ih hat hgone) _

/-- A rule that finds something takes symbols away. -/
theorem Takes.countP_apply_lt (h : r.Takes keep) (hoccurs : r.pattern.occursIn t = true) :
    (r.apply t).countP keep < t.countP keep := by
  rw [apply]
  split
  · obtain ⟨m, hm⟩ := Option.isSome_iff_exists.mp hoccurs
    obtain ⟨ht, hmatch⟩ := Pattern.matches_of_find hm
    have hless := h.replaces _ _ ⟨m, _, hmatch, rfl, rfl⟩
    rw [Pattern.replaceFirst, hm, ht]
    simp only [List.countP_append]
    omega
  · obtain ⟨gone, w, after, groups, rfl, hmatch⟩ := Pattern.occursIn_iff.mp hoccurs
    rw [List.append_assoc]
    refine h.countP_replaceAllFrom_lt (Pattern.isSome_at?_iff.mpr ⟨w, after, groups, rfl, ?_⟩)
    rwa [lastOf_none]

end Rule

/-! ## Rules that run one after the other -/

theorem countP_applyRules_le {rules : List Rule} (h : ∀ r ∈ rules, r.AddsNo keep) (t : Text) :
    (applyRules rules t).countP keep ≤ t.countP keep := by
  induction rules generalizing t with
  | nil => exact Nat.le_refl _
  | cons r rules ih =>
    obtain ⟨hr, hrules⟩ := List.forall_mem_cons.mp h
    exact Nat.le_trans (ih hrules (r.apply t)) (hr.countP_apply_le t)

/-- If rules leave as much as there was, those of them that take symbols away found nothing. -/
theorem occursIn_of_countP_le {rules : List Rule} (h : ∀ r ∈ rules, r.Takes keep)
    (hcount : t.countP keep ≤ (applyRules rules t).countP keep) :
    ∀ r ∈ rules, r.pattern.occursIn t = false := by
  induction rules with
  | nil => exact List.forall_mem_nil _
  | cons r rules ih =>
    obtain ⟨hr, hrules⟩ := List.forall_mem_cons.mp h
    have hrest := countP_applyRules_le (fun r' hr' => (hrules r' hr').addsNo) (r.apply t)
    have hnone : r.pattern.occursIn t = false := Bool.eq_false_iff.mpr fun hoccurs => by
      have hless := hr.countP_apply_lt hoccurs
      rw [applyRules_cons] at hcount
      omega
    rw [applyRules_cons, Rule.apply_eq_self hnone] at hcount
    exact List.forall_mem_cons.mpr ⟨hnone, ih hrules hcount⟩

end DumpDialect
