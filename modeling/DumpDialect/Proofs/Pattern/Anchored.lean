import Mathlib.Data.List.Forall2
import DumpDialect.Proofs.Pattern.Leading

/-!
# Patterns bound to the start of a text

Such a pattern matches at the start of a text or nowhere, so it is known from the first symbols of a
text that it does not match. What stands behind a match matters only as far as the next symbol, so a
text may be cut there.

- `Pattern.anchor?`, `Rule.Misses`, `applyRules_of_misses`: the word that a text would have to begin
  with.
- `Rule.apply_of_prefers`, `applyRules_of_first`: the match at the start.
- `Pattern.isLocal`, `occursIn_eq_false_of_same_front`: texts with the same front.
- `outcomes_alike`, `Rule.StopsAt`, `applyRules_append_cons_of_stopsAt`: a symbol behind which
  nothing matters.
-/

namespace DumpDialect

variable {u v : Text}

namespace Pattern

variable {p : Pattern} {prev : Option Symbol} {w rest : Text} {groups : List (Nat × Text)}

/-- The word at the start of the text that each match of the pattern begins with, if that is read
off the pattern. -/
def anchor? : Pattern → Option Text
  | seq start p => p.opening?
  | _ => none

theorem Matches.anchored (hm : p.Matches prev w rest groups) (h : p.anchor? = some v) :
    prev = none ∧ v <+: w := by
  unfold anchor? at h
  split at h
  · obtain ⟨_, w₂, _, _, rfl, -, ⟨rfl, rfl, -⟩, h₂⟩ := hm
    exact ⟨rfl, h₂.opening_prefix h⟩
  · cases h

/-- A pattern that occurs matches at the start. -/
theorem exists_of_occursIn_anchored {t : Text} (h : p.anchor? = some v)
    (hoccurs : p.occursIn t = true) :
    ∃ w rest groups, t = w ++ rest ∧ p.Matches none w rest groups := by
  obtain ⟨before, w, rest, groups, rfl, hm⟩ := occursIn_iff.mp hoccurs
  obtain rfl : before = [] := List.getLast?_eq_none_iff.mp (hm.anchored h).1
  exact ⟨w, rest, groups, rfl, hm⟩

/-- The pattern looks at the next symbol behind a match at most. -/
def isLocal : Pattern → Bool
  | seq p q | alt p q => p.isLocal && q.isLocal
  | group _ p => p.isLocal
  | manyShortOf _ _ | finish => false
  | empty | one _ | word _ | many _ _ | start | wordEdge => true

theorem Matches.congr_rest {rest' : Text} (hm : p.Matches prev w rest groups)
    (hlocal : p.isLocal = true) (hhead : rest.head? = rest'.head?) :
    p.Matches prev w rest' groups := by
  -- Only the edge of a word looks at what follows, and at its first symbol; the two patterns that
  -- look further are not local.
  induction p generalizing prev w rest rest' groups with
  | seq p q ihp ihq =>
    obtain ⟨hp, hq⟩ := Bool.and_eq_true_iff.mp hlocal
    obtain ⟨w₁, w₂, groups₁, groups₂, rfl, rfl, h₁, h₂⟩ := hm
    refine ⟨w₁, w₂, groups₁, groups₂, rfl, rfl, ihp h₁ hp ?_, ihq h₂ hq hhead⟩
    rw [List.head?_append, List.head?_append, hhead]
  | alt p q ihp ihq =>
    obtain ⟨hp, hq⟩ := Bool.and_eq_true_iff.mp hlocal
    exact hm.imp (ihp · hp hhead) (ihq · hq hhead)
  | group n p ih =>
    obtain ⟨inner, rfl, hm⟩ := hm
    exact ⟨inner, rfl, ih hm hlocal hhead⟩
  | wordEdge =>
    obtain ⟨hedge, rfl, rfl⟩ := hm
    refine ⟨?_, rfl, rfl⟩
    rwa [Cursor.atWordEdge, ← hhead]
  | empty | one | word | many | start => exact hm
  | manyShortOf | finish => cases hlocal

/-- A pattern whose matches stay within the front of a text is not found there if it is not found in
a text with that front and the same next symbol. -/
theorem occursIn_eq_false_of_same_front {t t' : Text} (h : p.anchor? = some v)
    (hlocal : p.isLocal = true)
    (hwithin : ∀ w rest groups, u ++ t = w ++ rest → p.Matches none w rest groups → w <+: u)
    (hnone : p.occursIn (u ++ t') = false) (hhead : t.head? = t'.head?) :
    p.occursIn (u ++ t) = false := by
  refine Bool.eq_false_iff.mpr fun hoccurs => ?_
  obtain ⟨w, rest, groups, hsplit, hm⟩ := exists_of_occursIn_anchored h hoccurs
  obtain ⟨back, rfl⟩ := hwithin w rest groups hsplit hm
  rw [List.append_assoc] at hsplit
  obtain rfl := List.append_cancel_left hsplit
  have hhead' : (back ++ t).head? = (back ++ t').head? := by
    rw [List.head?_append, List.head?_append, hhead]
  have hm' : p.Matches none w (back ++ t') groups := hm.congr_rest hlocal hhead'
  have hfound : p.occursIn (w ++ (back ++ t')) = true :=
    occursIn_iff.mpr ⟨[], w, back ++ t', groups, rfl, hm'⟩
  rw [List.append_assoc, hfound] at hnone
  cases hnone

end Pattern

/-- The text begins otherwise than the matches of the rule, whatever follows the text. -/
def Rule.Misses (u : Text) (r : Rule) : Prop := ∃ v ∈ r.pattern.anchor?, ¬ v <+: u ∧ ¬ u <+: v

instance (u : Text) : DecidablePred (Rule.Misses u) := fun _ =>
  inferInstanceAs (Decidable (∃ v ∈ _, ¬ v <+: u ∧ ¬ u <+: v))

theorem Rule.Misses.occursIn {r : Rule} (h : r.Misses u) (t : Text) :
    r.pattern.occursIn (u ++ t) = false := by
  obtain ⟨v, hanchor, hv, hu⟩ := h
  refine Bool.eq_false_iff.mpr fun hoccurs => ?_
  obtain ⟨w, rest, groups, hsplit, hm⟩ := Pattern.exists_of_occursIn_anchored hanchor hoccurs
  exact Text.not_prefix_append hv hu t ((hm.anchored hanchor).2.trans ⟨rest, hsplit.symm⟩)

/-- The preferred match at the start of a text is replaced. -/
theorem Rule.apply_of_prefers {r : Rule} (hscope : r.scope = .leftmost) {w rest : Text}
    {groups : List (Nat × Text)} (h : r.pattern.Prefers none w rest groups) :
    r.apply (w ++ rest) = (Match.mk [] w rest groups).expand r.replacement ++ rest := by
  simp only [apply, hscope]
  rw [Pattern.replaceFirst, h.find]
  rfl

/-- Rules that miss the start of a text leave it as it is. -/
theorem applyRules_of_misses {rules : List Rule} (h : ∀ r ∈ rules, r.Misses u) (t : Text) :
    applyRules rules (u ++ t) = u ++ t :=
  applyRules_of_not_occursIn fun r hr => (h r hr).occursIn t

/-- The first rule that finds something replaces the start of the text by one that the rules behind
it miss. -/
theorem applyRules_of_first {front back : List Rule} {r : Rule} {t rest : Text}
    (hfront : ∀ r ∈ front, r.pattern.occursIn t = false) (hr : r.apply t = v ++ rest)
    (hback : ∀ r ∈ back, r.Misses v) : applyRules (front ++ r :: back) t = v ++ rest := by
  rw [applyRules_append, applyRules_of_not_occursIn hfront, applyRules_cons, hr,
    applyRules_of_misses hback]

/-! ## Cutting a text behind a symbol -/

/-- The two outcomes cover the same stretch of a front that both texts begin with. -/
def Outcome.Alike (prev : Option Symbol) (u t t' : Text) (o o' : Outcome) : Prop :=
  ∃ gone here, u = gone ++ here ∧ o.length = gone.length ∧ o'.length = gone.length ∧
    o.cursor = ⟨lastOf prev gone, here ++ t⟩ ∧ o'.cursor = ⟨lastOf prev gone, here ++ t'⟩ ∧
    o.words = o'.words

theorem Outcome.Alike.empty (prev : Option Symbol) (u t t' : Text) :
    Outcome.Alike prev u t t' ⟨0, ⟨prev, u ++ t⟩, []⟩ ⟨0, ⟨prev, u ++ t'⟩, []⟩ :=
  ⟨[], u, rfl, rfl, rfl, rfl, rfl, rfl⟩

/-- Outcomes behind a stretch that both have covered make outcomes of the whole. -/
theorem Outcome.Alike.behind {prev : Option Symbol} {gone here t t' : Text}
    {o₁ o₁' o₂ o₂' : Outcome} (hlen : o₁.length = gone.length) (hlen' : o₁'.length = gone.length)
    (hwords : o₁.words = o₁'.words) (h : Outcome.Alike (lastOf prev gone) here t t' o₂ o₂') :
    Outcome.Alike prev (gone ++ here) t t'
      ⟨o₁.length + o₂.length, o₂.cursor, o₁.groups ++ o₂.groups⟩
      ⟨o₁'.length + o₂'.length, o₂'.cursor, o₁'.groups ++ o₂'.groups⟩ := by
  obtain ⟨gone₂, here₂, rfl, hlen₂, hlen₂', hcursor₂, hcursor₂', hwords₂⟩ := h
  refine ⟨gone ++ gone₂, here₂, (List.append_assoc ..).symm, ?_, ?_, ?_, ?_, ?_⟩
  · simp only [hlen, hlen₂, List.length_append]
  · simp only [hlen', hlen₂', List.length_append]
  · rw [lastOf_append]
    exact hcursor₂
  · rw [lastOf_append]
    exact hcursor₂'
  · simp only [Outcome.words, List.map_append] at hwords hwords₂ ⊢
    rw [hwords, hwords₂]

theorem Outcome.Alike.longer {prev : Option Symbol} {s : Symbol} {u t t' : Text} {o o' : Outcome}
    (h : Outcome.Alike (some s) u t t' o o') :
    Outcome.Alike prev (s :: u) t t' (o.longer 1) (o'.longer 1) :=
  @Outcome.Alike.behind prev [s] u t t' ⟨1, ⟨some s, u⟩, []⟩ ⟨1, ⟨some s, u⟩, []⟩ o o' rfl rfl rfl h

namespace Pattern

variable {p : Pattern} {s : Symbol}

/-- A run stops at a symbol that is not of its class. -/
theorem runs_alike {ok : Symbol → Bool} (hs : ok s = false) (prev : Option Symbol)
    (u t t' : Text) :
    List.Forall₂ (Outcome.Alike prev u (s :: t) (s :: t'))
      (Cursor.runs (fun s _ => ok s) ⟨prev, u ++ s :: t⟩)
      (Cursor.runs (fun s _ => ok s) ⟨prev, u ++ s :: t'⟩) := by
  induction u generalizing prev with
  | nil =>
    simp only [List.nil_append, Cursor.runs_cons, hs]
    exact .cons (.empty prev [] _ _) .nil
  | cons s' u ih =>
    simp only [List.cons_append, Cursor.runs_cons]
    -- Of the runs over `s' :: u` the longer ones are those over `u` with one symbol more; the
    -- shortest is empty.
    refine List.rel_append ?_ (.cons (.empty prev (s' :: u) _ _) .nil)
    split
    · exact List.rel_map (fun o o' h => h.longer) (ih (some s'))
    · exact .nil

/-- A word ends in front of a symbol that it lacks, so it stands in the front or nowhere. -/
theorem word_alike {w : Text} (hs : s ∉ w) (prev : Option Symbol) (u t t' : Text) :
    List.Forall₂ (Outcome.Alike prev u (s :: t) (s :: t'))
      ((word w).outcomes ⟨prev, u ++ s :: t⟩) ((word w).outcomes ⟨prev, u ++ s :: t'⟩) := by
  by_cases hw : w <+: u
  · obtain ⟨u, rfl⟩ := hw
    have hfollow (t : Text) :
        Cursor.follow w ⟨prev, (w ++ u) ++ t⟩ = some ⟨lastOf prev w, u ++ t⟩ :=
      Cursor.follow_eq_some_iff.mpr ⟨List.append_assoc .., rfl⟩
    simp only [outcomes, hfollow]
    exact .cons ⟨w, u, rfl, rfl, rfl, rfl, rfl, rfl⟩ .nil
  · have hnone (t : Text) : Cursor.follow w ⟨prev, u ++ s :: t⟩ = none := by
      refine Option.eq_none_iff_forall_ne_some.mpr fun c hc => hw ?_
      have hrest := (Cursor.follow_eq_some_iff.mp hc).1
      exact Text.prefix_of_prefix_append_cons hs ⟨c.rest, hrest.symm⟩
    simp only [outcomes, hnone]
    exact .nil

/-- In front of a symbol that it does not hold a pattern matches in the same ways, whatever stands
behind the symbol. -/
theorem outcomes_alike (hlocal : p.isLocal = true) (hs : p.allows s = false) (prev : Option Symbol)
    (u t t' : Text) :
    List.Forall₂ (Outcome.Alike prev u (s :: t) (s :: t')) (p.outcomes ⟨prev, u ++ s :: t⟩)
      (p.outcomes ⟨prev, u ++ s :: t'⟩) := by
  -- By induction on the pattern, for every text `u` in front of `s` and every symbol before it: in
  -- a sequence the second part starts where the first has stopped. The outcomes correspond in their
  -- order, since the first one is the match that is taken.
  induction p generalizing prev u with
  | empty => exact .cons (.empty prev u _ _) .nil
  | one ok =>
    cases u with
    | nil =>
      simp only [allows] at hs
      simp only [outcomes, List.nil_append, hs]
      exact .nil
    | cons s' u =>
      simp only [outcomes, List.cons_append]
      split
      · exact .cons ⟨[s'], u, rfl, rfl, rfl, rfl, rfl, rfl⟩ .nil
      · exact .nil
  | word w => exact word_alike (by simpa [allows] using hs) prev u t t'
  | seq p q ihp ihq =>
    obtain ⟨hp, hq⟩ := Bool.and_eq_true_iff.mp hlocal
    obtain ⟨hsp, hsq⟩ := Bool.or_eq_false_iff.mp hs
    -- The second part runs once for each outcome of the first, over what that one has left of `u`.
    refine List.rel_flatMap (ihp hp hsp prev u) fun o₁ o₁' h₁ => ?_
    obtain ⟨gone, here, rfl, hlen, hlen', hcursor, hcursor', hwords⟩ := h₁
    rw [hcursor, hcursor']
    exact List.rel_map (fun o₂ o₂' h₂ => h₂.behind hlen hlen' hwords)
      (ihq hq hsq (lastOf prev gone) here)
  | alt p q ihp ihq =>
    obtain ⟨hp, hq⟩ := Bool.and_eq_true_iff.mp hlocal
    obtain ⟨hsp, hsq⟩ := Bool.or_eq_false_iff.mp hs
    exact List.rel_append (ihp hp hsp prev u) (ihq hq hsq prev u)
  | many greed ok =>
    -- A greedy run has the same outcomes, the longest first.
    cases greed
    · exact runs_alike hs prev u t t'
    · exact List.rel_reverse (runs_alike hs prev u t t')
  | group n p ih =>
    refine List.rel_map (fun o o' h => ?_) (ih hlocal hs prev u)
    obtain ⟨gone, here, rfl, hlen, hlen', hcursor, hcursor', hwords⟩ := h
    refine ⟨gone, here, rfl, hlen, hlen', hcursor, hcursor', ?_⟩
    simp only [List.append_assoc]
    rw [Outcome.words_group n gone _ o hlen, Outcome.words_group n gone _ o' hlen', hwords]
  | start =>
    simp only [outcomes]
    split
    · exact .cons (.empty prev u _ _) .nil
    · exact .nil
  | wordEdge =>
    -- The edge of a word shows in the next symbol, which is the same in both texts, if only `s`.
    have hhead : (u ++ s :: t).head? = (u ++ s :: t').head? := by simp [List.head?_append]
    have hedge : (Cursor.mk prev (u ++ s :: t)).atWordEdge =
        (Cursor.mk prev (u ++ s :: t')).atWordEdge := by
      rw [Cursor.atWordEdge, Cursor.atWordEdge, hhead]
    rw [outcomes, outcomes, hedge]
    split
    · exact .cons (.empty prev u _ _) .nil
    · exact .nil
  | manyShortOf | finish => cases hlocal

/-- A pattern that is bound to the start of the text is found there or nowhere. -/
theorem find_of_anchored {t : Text} (h : p.anchor? = some v) : p.find t = p.atStart? t := by
  cases hat : p.atStart? t with
  | none =>
    refine Option.eq_none_iff_forall_ne_some.mpr fun m hm => ?_
    have hoccurs : p.occursIn t = true := by rw [occursIn, hm]; rfl
    obtain ⟨w, rest, groups, rfl, hmatch⟩ := exists_of_occursIn_anchored h hoccurs
    exact at?_eq_none_iff.mp hat w rest groups rfl hmatch
  | some m =>
    obtain ⟨o, -, rfl⟩ := Option.map_eq_some_iff.mp hat
    cases t with
    | nil =>
      rw [find, findFrom]
      simp only [atStart?] at hat
      rw [List.head?_nil, hat]
      rfl
    | cons s t =>
      rw [find, findFrom]
      simp only [atStart?] at hat
      rw [List.head?_nil, hat]
      rfl

end Pattern

/-- The rule replaces the start of a text, and no match of it holds the symbol. -/
def Rule.StopsAt (s : Symbol) (r : Rule) : Prop :=
  r.scope = .leftmost ∧ r.pattern.anchor?.isSome = true ∧ r.pattern.isLocal = true ∧
    r.pattern.allows s = false

instance (s : Symbol) : DecidablePred (Rule.StopsAt s) := fun _ =>
  inferInstanceAs (Decidable (_ ∧ _))

/-- The text that the rule makes of a text if it looks at the start only. -/
def Rule.applyAtStart (r : Rule) (t : Text) : Text :=
  match r.pattern.atStart? t with
  | some m => m.expand r.replacement ++ m.after
  | none => t

namespace Rule.StopsAt

variable {r : Rule} {s : Symbol}

theorem apply_eq (h : r.StopsAt s) (t : Text) : r.apply t = r.applyAtStart t := by
  obtain ⟨hscope, hanchor, -⟩ := h
  obtain ⟨v, hanchor⟩ := Option.isSome_iff_exists.mp hanchor
  simp only [apply, hscope, applyAtStart]
  rw [Pattern.replaceFirst, Pattern.find_of_anchored hanchor]
  cases hat : r.pattern.atStart? t with
  | none => rfl
  | some m =>
    obtain ⟨o, -, rfl⟩ := Option.map_eq_some_iff.mp hat
    rfl

/-- What the rule makes of the front of a text up to such a symbol does not depend on what stands
behind the symbol. -/
theorem exists_apply (h : r.StopsAt s) (u : Text) :
    ∃ v, ∀ t, r.apply (u ++ s :: t) = v ++ s :: t := by
  obtain ⟨-, -, hlocal, hs⟩ := id h
  have halike (t : Text) := Pattern.outcomes_alike hlocal hs none u [] t
  -- The outcomes over `u ++ [s]` stand for those over every other text behind `s`.
  cases hout : r.pattern.outcomes ⟨none, u ++ [s]⟩ with
  | nil =>
    refine ⟨u, fun t => ?_⟩
    have ht := halike t
    rw [hout, List.forall₂_nil_left_iff] at ht
    rw [h.apply_eq, applyAtStart, Pattern.atStart?, Pattern.at?, Pattern.first?, ht]
    rfl
  | cons o more =>
    refine ⟨(Match.mk [] [] [] o.words).expand r.replacement ++ (u.drop o.length), fun t => ?_⟩
    have ht := halike t
    rw [hout] at ht
    cases hout' : r.pattern.outcomes ⟨none, u ++ s :: t⟩ with
    | nil => simp [hout'] at ht
    | cons o' more' =>
      rw [hout', List.forall₂_cons] at ht
      obtain ⟨⟨gone, here, rfl, hlen, hlen', -, hcursor, hwords⟩, -⟩ := ht
      rw [h.apply_eq, applyAtStart, Pattern.atStart?, Pattern.at?, Pattern.first?, hout']
      simp only [List.head?_cons, Option.map_some, Match.ofOutcome, hcursor, hlen, List.drop_left,
        List.append_assoc]
      congr 1
      simp only [Match.expand, Match.group, Match.group?]
      rw [hwords]
      rfl

theorem apply_append_cons (h : r.StopsAt s) (hfront : r.apply (u ++ [s]) = v ++ [s]) (t : Text) :
    r.apply (u ++ s :: t) = v ++ s :: t := by
  obtain ⟨v', hv⟩ := h.exists_apply u
  rw [hv] at hfront ⊢
  rw [List.append_cancel_right hfront]

end Rule.StopsAt

theorem applyRules_eq_foldl {rules : List Rule} {s : Symbol} (h : ∀ r ∈ rules, r.StopsAt s)
    (t : Text) : applyRules rules t = rules.foldl (fun t r => r.applyAtStart t) t := by
  induction rules generalizing t with
  | nil => rfl
  | cons r rules ih =>
    obtain ⟨hr, hrules⟩ := List.forall_mem_cons.mp h
    rw [applyRules_cons, List.foldl_cons, ih hrules, hr.apply_eq]

/-- Rules carry the front of a text over to another one if they do so with nothing behind it. -/
theorem applyRules_append_cons_of_stopsAt {rules : List Rule} {s : Symbol}
    (h : ∀ r ∈ rules, r.StopsAt s) (hfront : applyRules rules (u ++ [s]) = v ++ [s]) (t : Text) :
    applyRules rules (u ++ s :: t) = v ++ s :: t := by
  induction rules generalizing u with
  | nil =>
    rw [applyRules_nil] at hfront ⊢
    rw [List.append_cancel_right hfront]
  | cons r rules ih =>
    obtain ⟨hr, hrules⟩ := List.forall_mem_cons.mp h
    obtain ⟨u', hu'⟩ := hr.exists_apply u
    rw [applyRules_cons, hu'] at hfront ⊢
    exact ih hrules hfront

end DumpDialect
