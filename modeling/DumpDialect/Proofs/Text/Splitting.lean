import DumpDialect.Text.Basic

/-!
# Ways to split a text

Where a text can be taken apart in one way only, and where a word stands in a text that is made of
parts.

- `Text.separated`: words, each behind a separator.
- `Text.span_run`, `Text.eq_of_runs_eq`: a run of symbols in front of another symbol.
- `Text.eq_of_append_cons_eq_of_front`, `Text.eq_of_append_cons_eq`: what stands around the first
  occurrence of a symbol, and around the last.
- `Text.prefix_of_prefix_append`, `Text.not_prefix_append`, `Text.not_prefix_of_not_mem`: where a
  word does not begin.
- `Text.NotBegunIn`: where no word begins, whatever follows.
- `Text.infix_append_cons_iff`, `Text.infix_append_cons_cases`, `Text.infix_append_of_apart`,
  `Text.infix_of_infix_cons`, `Text.infix_of_infix_append`, `Text.infix_of_infix_between`: which
  part of a text a word stands in.
-/

namespace DumpDialect.Text

variable {t u u' v v' : Text}

/-- The words, each behind a separator. -/
def separated (separator : Symbol) (words : List Text) : Text := words.flatMap (separator :: ·)

@[simp] theorem separated_nil (separator : Symbol) : separated separator [] = [] := rfl

@[simp] theorem separated_cons (separator : Symbol) (w : Text) (words : List Text) :
    separated separator (w :: words) = separator :: w ++ separated separator words := rfl

/-- A run of symbols of a class does not go on over a word that begins with another symbol. -/
theorem forall_head?_append {ok : Symbol → Bool} {w : Text}
    (h : w.head?.any (fun s => !ok s) = true) (t : Text) : ∀ s ∈ (w ++ t).head?, ok s = false := by
  cases w with
  | nil => cases h
  | cons s w =>
    rintro _ ⟨⟩
    simpa using h

/-- A run of symbols of a class ends where another symbol stands. -/
theorem span_run {ok : Symbol → Bool} (hu : ∀ s ∈ u, ok s = true)
    (hv : ∀ s ∈ v.head?, ok s = false) :
    (u ++ v).takeWhile ok = u ∧ (u ++ v).dropWhile ok = v := by
  rw [List.takeWhile_append_of_pos hu, List.dropWhile_append_of_pos hu]
  cases v with
  | nil => exact ⟨List.append_nil u, rfl⟩
  | cons s v =>
    have hs : ok s = false := hv s rfl
    rw [List.takeWhile_cons_of_neg (by simp [hs]), List.dropWhile_cons_of_neg (by simp [hs])]
    exact ⟨List.append_nil u, rfl⟩

/-- A text splits in one way only into a run and what follows it. -/
theorem eq_of_runs_eq {ok : Symbol → Bool} (hu : ∀ s ∈ u, ok s = true) (hu' : ∀ s ∈ u', ok s = true)
    (hv : ∀ s ∈ v.head?, ok s = false) (hv' : ∀ s ∈ v'.head?, ok s = false)
    (h : u ++ v = u' ++ v') : u = u' ∧ v = v' := by
  obtain ⟨htake, hdrop⟩ := span_run hu hv
  obtain ⟨htake', hdrop'⟩ := span_run hu' hv'
  rw [h] at htake hdrop
  exact ⟨htake.symm.trans htake', hdrop.symm.trans hdrop'⟩

/-- There is one way to split a text at the first occurrence of a symbol. -/
theorem eq_of_append_cons_eq_of_front {s : Symbol} (hu : s ∉ u) (hu' : s ∉ u')
    (h : u ++ s :: v = u' ++ s :: v') : u = u' ∧ v = v' := by
  have hrun {u : Text} (hu : s ∉ u) : ∀ s' ∈ u, (s' != s) = true := fun s' hs' =>
    bne_iff_ne.mpr fun heq => hu (heq ▸ hs')
  have hend (v : Text) : ∀ s' ∈ (s :: v).head?, (s' != s) = false := by
    rintro _ ⟨⟩
    exact bne_self_eq_false s
  obtain ⟨hfront, hrest⟩ := eq_of_runs_eq (hrun hu) (hrun hu') (hend v) (hend v') h
  exact ⟨hfront, (List.cons.inj hrest).2⟩

/-- There is one way to split a text at the last occurrence of a symbol. -/
theorem eq_of_append_cons_eq {s : Symbol} (hv : s ∉ v) (hv' : s ∉ v')
    (h : u ++ s :: v = u' ++ s :: v') : u = u' ∧ v = v' := by
  rcases List.append_eq_append_iff.mp h with ⟨between, rfl, heq⟩ | ⟨between, rfl, heq⟩
  · cases between with
    | nil => exact ⟨(List.append_nil u).symm, (List.cons.inj heq).2⟩
    | cons _ between => exact absurd (by simp [(List.cons.inj heq).2]) hv
  · cases between with
    | nil => exact ⟨List.append_nil u', (List.cons.inj heq).2.symm⟩
    | cons _ between => exact absurd (by simp [(List.cons.inj heq).2]) hv'

/-- A word that does not begin anew within itself is not made by a front and the same word. -/
theorem prefix_of_prefix_append {s : Symbol} {front rest : Text} (hs : s ∉ v) (hfront : front ≠ [])
    (h : s :: v <+: front ++ (s :: v ++ rest)) : s :: v <+: front := by
  rcases List.prefix_or_prefix_of_prefix h (List.prefix_append front _) with hword | hpart
  · exact hword
  · obtain ⟨back, hback⟩ := hpart
    obtain ⟨s', front, rfl⟩ := List.exists_cons_of_ne_nil hfront
    obtain ⟨rfl, hv⟩ := List.cons.inj hback
    cases back with
    | nil =>
      rw [List.append_nil] at hback
      exact hback ▸ List.prefix_refl _
    | cons s back =>
      rw [← hback, List.prefix_append_right_inj] at h
      obtain ⟨rfl, -⟩ := List.cons_prefix_cons.mp h
      exact absurd (hv ▸ by simp) hs

/-- There is one way to split a text at the first occurrence of such a word. -/
theorem eq_of_append_word_eq {s : Symbol} {rest rest' : Text} (hs : s ∉ v) (hu : ¬ s :: v <:+: u)
    (hu' : ¬ s :: v <:+: u') (h : u ++ (s :: v ++ rest) = u' ++ (s :: v ++ rest')) :
    u = u' ∧ rest = rest' := by
  have hnil {t t' front : Text} (hfront : ¬ s :: v <:+: front)
      (h : s :: v ++ t = front ++ (s :: v ++ t')) : front = [] := by
    cases front with
    | nil => rfl
    | cons s' front =>
      have hbegins : s :: v <+: (s' :: front) ++ (s :: v ++ t') := h ▸ List.prefix_append ..
      exact absurd (prefix_of_prefix_append hs (List.cons_ne_nil s' front) hbegins).isInfix hfront
  rcases List.append_eq_append_iff.mp h with ⟨between, rfl, heq⟩ | ⟨between, rfl, heq⟩
  · obtain rfl := hnil (fun h => hu' (h.trans (List.suffix_append ..).isInfix)) heq
    exact ⟨(List.append_nil u).symm, List.append_cancel_left heq⟩
  · obtain rfl := hnil (fun h => hu (h.trans (List.suffix_append ..).isInfix)) heq
    exact ⟨List.append_nil u', (List.append_cancel_left heq).symm⟩

/-- Two words of which neither begins with the other do not stand at the same place. -/
theorem not_prefix_append (h : ¬ v <+: u) (h' : ¬ u <+: v) (rest : Text) : ¬ v <+: u ++ rest :=
  fun hword => (List.prefix_or_prefix_of_prefix hword (List.prefix_append u rest)).elim h h'

/-- A word does not begin within a stretch that lacks its first symbol. -/
theorem not_prefix_of_not_mem {s : Symbol} {here rest : Text} (hne : here ≠ [])
    (hs : s ∉ here) : ¬ s :: v <+: here ++ rest := fun h => by
  obtain ⟨s', here, rfl⟩ := List.exists_cons_of_ne_nil hne
  obtain ⟨rfl, -⟩ := List.cons_prefix_cons.mp h
  exact hs List.mem_cons_self

/-- The front of a text up to a symbol holds each beginning of the text that lacks the symbol. -/
theorem prefix_of_prefix_append_cons {s : Symbol} (hs : s ∉ v) (h : v <+: t ++ s :: u) :
    v <+: t := by
  rcases List.prefix_or_prefix_of_prefix h (List.prefix_append t _) with hpart | ⟨back, rfl⟩
  · exact hpart
  · cases back with
    | nil => simp
    | cons s' back =>
      obtain ⟨rfl, -⟩ := List.cons_prefix_cons.mp ((List.prefix_append_right_inj t).mp h)
      exact absurd (by simp) hs

/-- The word does not stand in the text, and no part of it ends the text, so that it does not begin
there, whatever follows. -/
def NotBegunIn (v u : Text) : Prop := ¬ v <:+: u ∧ ∀ s ∈ u.getLast?, s ∉ v.dropLast

instance (v u : Text) : Decidable (NotBegunIn v u) :=
  inferInstanceAs (Decidable (¬ v <:+: u ∧ ∀ s ∈ u.getLast?, s ∉ v.dropLast))

theorem NotBegunIn.not_prefix {gone here : Text} (h : NotBegunIn v u) (hsplit : u = gone ++ here)
    (hne : here ≠ []) (rest : Text) : ¬ v <+: here ++ rest := by
  have hwithin (hv : v <+: here) : v <:+: u :=
    hv.isInfix.trans (hsplit ▸ (List.suffix_append gone here).isInfix)
  intro hword
  rcases List.prefix_or_prefix_of_prefix hword (List.prefix_append here rest) with hv | ⟨b, rfl⟩
  · exact h.1 (hwithin hv)
  · cases b with
    | nil => exact h.1 (hwithin (by simp))
    | cons s b =>
      have hlast : here.getLast hne ∈ u.getLast? := by
        rw [hsplit, List.getLast?_append, List.getLast?_eq_some_getLast hne]
        rfl
      refine h.2 _ hlast ?_
      rw [List.dropLast_append_of_ne_nil (List.cons_ne_nil s b)]
      exact List.mem_append_left _ (List.getLast_mem hne)

/-- A word stands in front of a symbol that it lacks or behind it. -/
theorem infix_append_cons_iff {s : Symbol} (hne : v ≠ []) (hs : s ∉ v) :
    v <:+: t ++ s :: u ↔ v <:+: t ∨ v <:+: u := by
  have hbegins {w : Text} (hw : w <+: s :: u) (hsub : w ⊆ v) : w = [] := by
    rcases List.prefix_cons_iff.mp hw with rfl | ⟨w, rfl, -⟩
    · rfl
    · exact absurd (hsub List.mem_cons_self) hs
  constructor
  · intro h
    rcases List.infix_append_iff.mp h with h | h | ⟨w₁, w₂, rfl, hw₁, hw₂⟩
    · exact .inl h
    · rcases List.infix_cons_iff.mp h with h | h
      · exact absurd (hbegins h (List.Subset.refl v)) hne
      · exact .inr h
    · rw [hbegins hw₂ (List.subset_append_right ..), List.append_nil]
      exact .inl hw₁.isInfix
  · rintro (h | h)
    · exact h.trans (List.infix_append' [] t _)
    · exact h.trans ⟨t ++ [s], [], by simp⟩

/-- A word without separators stands within one of the words between them. -/
theorem infix_append_separated {s : Symbol} (hne : v ≠ []) (hs : s ∉ v) {w : Text}
    {words : List Text} : v <:+: w ++ separated s words ↔ ∃ u ∈ w :: words, v <:+: u := by
  induction words generalizing w with
  | nil => simp
  | cons w' words ih =>
    rw [separated_cons, List.cons_append, infix_append_cons_iff hne hs, ih]
    simp

/-- A word that holds a symbol once stands in front of a place with this symbol, behind it, or
across it. -/
theorem infix_append_cons_cases {s : Symbol} {p q : Text} (hp : s ∉ p) (hq : s ∉ q)
    (h : p ++ s :: q <:+: t ++ s :: u) :
    p ++ s :: q <:+: t ∨ p <:+ t ∧ q <+: u ∨ p ++ s :: q <:+: u := by
  obtain ⟨before, after, heq⟩ := h
  have hsplit : (before ++ p) ++ s :: (q ++ after) = t ++ s :: u := by
    rw [← heq]
    simp
  rcases List.append_eq_append_iff.mp hsplit with ⟨between, rfl, hrest⟩ | ⟨between, hfront, hrest⟩
  · cases between with
    | nil =>
      obtain ⟨-, rfl⟩ := List.cons.inj hrest
      rw [List.append_nil]
      exact .inr (.inl ⟨List.suffix_append before p, List.prefix_append q after⟩)
    | cons s' between =>
      -- The word goes on in front of the place, up to the symbol.
      obtain ⟨rfl, hbehind⟩ := List.cons.inj hrest
      have hbegins : q <+: between ++ s :: u := ⟨after, hbehind⟩
      obtain ⟨more, rfl⟩ := prefix_of_prefix_append_cons hq hbegins
      exact .inl ⟨before, more, by simp⟩
  · cases between with
    | nil =>
      obtain ⟨-, rfl⟩ := List.cons.inj hrest
      rw [List.append_nil] at hfront
      exact .inr (.inl ⟨⟨before, hfront⟩, List.prefix_append q after⟩)
    | cons s' between =>
      obtain ⟨rfl, rfl⟩ := List.cons.inj hrest
      -- The word begins behind the place, since its front lacks the symbol.
      rcases List.append_eq_append_iff.mp hfront with ⟨more, -, hp'⟩ | ⟨more, -, hmore⟩
      · exact absurd (by simp [hp']) hp
      · cases more with
        | nil =>
          obtain rfl : s :: between = p := hmore
          exact absurd List.mem_cons_self hp
        | cons s' more =>
          obtain ⟨rfl, rfl⟩ := List.cons.inj hmore
          exact .inr (.inr ⟨more, after, by simp⟩)

/-- A word of which no part can begin the second text stands in one of two texts. -/
theorem infix_append_of_apart (h : ∀ k < v.length, ¬ v.drop k <+: u') (hword : v <:+: u ++ u') :
    v <:+: u ∨ v <:+: u' := by
  rcases List.infix_append_iff.mp hword with h' | h' | ⟨w₁, w₂, rfl, hw₁, hw₂⟩
  · exact .inl h'
  · exact .inr h'
  · cases w₂ with
    | nil =>
      rw [List.append_nil]
      exact .inl hw₁.isInfix
    | cons s w₂ =>
      refine absurd ?_ (h w₁.length (by simp))
      rwa [List.drop_left]

/-- A word that begins with another symbol stands behind the first symbol of a text. -/
theorem infix_of_infix_cons {s s' : Symbol} (hs : s ≠ s') (h : s :: v <:+: s' :: t) :
    s :: v <:+: t :=
  (List.infix_cons_iff.mp h).resolve_left fun hword => hs (List.cons_prefix_cons.mp hword).1

/-- A word that ends with a symbol stands in front of a text that lacks the symbol. -/
theorem infix_of_infix_append {s : Symbol} (hs : s ∉ u) (h : v ++ [s] <:+: t ++ u) :
    v ++ [s] <:+: t := by
  rcases List.infix_append_iff.mp h with h | h | ⟨w₁, w₂, hsplit, hw₁, hw₂⟩
  · exact h
  · exact absurd (h.subset (by simp)) hs
  · rcases List.eq_nil_or_concat w₂ with rfl | ⟨w₂, s', rfl⟩
    · rw [hsplit, List.append_nil]
      exact hw₁.isInfix
    · rw [List.concat_eq_append, ← List.append_assoc] at hsplit
      obtain rfl : s = s' := by simpa using (List.append_inj' hsplit rfl).2
      exact absurd (hw₂.subset (by simp)) hs

/-- A word stands behind a front that lacks its first symbol. -/
theorem infix_of_front_append {s : Symbol} (hs : s ∉ u) (h : s :: v <:+: u ++ t) :
    s :: v <:+: t := by
  induction u with
  | nil => exact h
  | cons s' u ih =>
    obtain ⟨hne, hs⟩ := not_or.mp (mt List.mem_cons.mpr hs)
    exact ih hs (infix_of_infix_cons hne h)

/-- A word stands between two texts if one lacks its first symbol and the other its last. -/
theorem infix_of_infix_between {s s' : Symbol} (hfirst : v.head? = some s)
    (hlast : v.getLast? = some s') (hs : s ∉ u) (hs' : s' ∉ u') (h : v <:+: u ++ (t ++ u')) :
    v <:+: t := by
  obtain ⟨front, rfl⟩ := List.getLast?_eq_some_iff.mp hlast
  have hfront : front ++ [s'] <:+: u ++ t := infix_of_infix_append hs' (by rwa [List.append_assoc])
  obtain ⟨rest, hrest⟩ := List.head?_eq_some_iff.mp hfirst
  rw [hrest] at hfront ⊢
  exact infix_of_front_append hs hfront

end DumpDialect.Text
