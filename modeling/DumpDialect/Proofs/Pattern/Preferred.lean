import DumpDialect.Proofs.Pattern.Matches

/-!
# The match that is preferred

`p.Prefers prev w rest groups`: at the place behind `prev` the preferred match of the pattern is the
word `w` in front of `rest`, and its groups matched the words in `groups`. A pattern may match other
words there, but this is the match that is found.

- `prefers_word`, `prefers_eitherCase`, `prefers_run`, `prefers_manyShortOf`, `prefers_someOf`,
  `prefers_start`: single patterns. A run goes on as long as it can.
- `Prefers.inOrder_cons`, `Prefers.inOrder_singleton`, `Prefers.group`: patterns made of others, if
  each part can go on where the preferred match of the part in front of it ends.
- `Prefers.alt_left`, `Prefers.alt_right`: alternatives, the first that matches at all.
- `Tries`, `Tries.seq`: a pattern that comes to a word only after others from which what follows
  cannot go on. A reluctant run comes to each longer word after the shorter ones, and a greedy one
  to each shorter word after the longer ones.
- `Prefers.at?`, `Prefers.find_append`: the match that is found.
-/

namespace DumpDialect.Pattern

variable {prev : Option Symbol} {w rest : Text} {groups : List (Nat × Text)} {ok : Symbol → Bool}

/-- The preferred match of the pattern behind `prev` is the word in front of `rest`, and its groups
matched the words of `groups`. -/
def Prefers (p : Pattern) (prev : Option Symbol) (w rest : Text) (groups : List (Nat × Text)) :
    Prop :=
  ∃ o, p.first? ⟨prev, w ++ rest⟩ = some o ∧ o.length = w.length ∧
    o.cursor = ⟨lastOf prev w, rest⟩ ∧ o.words = groups

theorem prefers_start : start.Prefers none [] rest [] := ⟨_, rfl, rfl, rfl, rfl⟩

theorem prefers_wordEdge (h : (Cursor.mk prev rest).atWordEdge = true) :
    wordEdge.Prefers prev [] rest [] := by
  refine ⟨⟨0, ⟨prev, rest⟩, []⟩, ?_, rfl, rfl, rfl⟩
  simp [first?, outcomes, h]

theorem prefers_word : (word w).Prefers prev w rest [] := by
  have hfollow : Cursor.follow w ⟨prev, w ++ rest⟩ = some ⟨lastOf prev w, rest⟩ :=
    Cursor.follow_eq_some_iff.mpr ⟨rfl, rfl⟩
  refine ⟨⟨w.length, ⟨lastOf prev w, rest⟩, []⟩, ?_, rfl, rfl, rfl⟩
  simp [first?, outcomes, hfollow]

theorem prefers_one {s : Symbol} (hs : ok s = true) : (one ok).Prefers prev [s] rest [] := by
  refine ⟨⟨1, ⟨some s, rest⟩, []⟩, ?_, rfl, rfl, rfl⟩
  simp [first?, outcomes, hs]

/-- The longest run comes first. -/
theorem head?_runs {ok : Symbol → Text → Bool} (hw : RunsOver ok w rest)
    (hrest : ∀ s t, rest = s :: t → ok s t = false) :
    (Cursor.runs ok ⟨prev, w ++ rest⟩).head? = some ⟨w.length, ⟨lastOf prev w, rest⟩, []⟩ := by
  induction w generalizing prev with
  | nil =>
    cases rest with
    | nil => rfl
    | cons s rest =>
      rw [List.nil_append, Cursor.runs_cons, if_neg (by simp [hrest s rest rfl])]
      rfl
  | cons s w ih =>
    obtain ⟨hs, hw⟩ := hw
    rw [List.cons_append, Cursor.runs_cons, if_pos hs, List.head?_append, List.head?_map, ih hw]
    simp [Outcome.longer, Nat.add_comm]

/-- A run goes on over all symbols of the class. -/
theorem prefers_run (hw : ∀ s ∈ w, ok s = true) (hrest : ∀ s ∈ rest.head?, ok s = false) :
    (run ok).Prefers prev w rest [] :=
  ⟨_, head?_runs (runsOver_iff_forall.mpr hw) fun s _ heq => hrest s (by simp [heq]), rfl, rfl, rfl⟩

/-- A run that stops short of a word goes on to the first place where the word begins or the class
ends. -/
theorem prefers_manyShortOf {barrier : Text}
    (hw : RunsOver (fun s t => ok s && !barrier.isPrefixOf (s :: t)) w rest)
    (hrest : ∀ s t, rest = s :: t → (ok s && !barrier.isPrefixOf rest) = false) :
    (manyShortOf barrier ok).Prefers prev w rest [] :=
  ⟨_, head?_runs hw fun s t heq => heq ▸ hrest s t heq, rfl, rfl, rfl⟩

namespace Prefers

variable {p q : Pattern} {ps : List Pattern}

theorem seq {w₁ w₂ : Text} {groups₁ groups₂ : List (Nat × Text)}
    (hp : p.Prefers prev w₁ (w₂ ++ rest) groups₁)
    (hq : q.Prefers (lastOf prev w₁) w₂ rest groups₂) :
    (Pattern.seq p q).Prefers prev (w₁ ++ w₂) rest (groups₁ ++ groups₂) := by
  obtain ⟨o₁, h₁, hlen₁, hcursor₁, rfl⟩ := hp
  obtain ⟨o₂, h₂, hlen₂, hcursor₂, rfl⟩ := hq
  rw [first?, List.head?_eq_some_iff] at h₁ h₂
  obtain ⟨more₁, h₁⟩ := h₁
  obtain ⟨more₂, h₂⟩ := h₂
  refine ⟨⟨o₁.length + o₂.length, o₂.cursor, o₁.groups ++ o₂.groups⟩, ?_, ?_, ?_, ?_⟩
  · rw [first?, outcomes, List.append_assoc, h₁, List.flatMap_cons, hcursor₁, h₂]
    rfl
  · simp [hlen₁, hlen₂]
  · rw [hcursor₂, lastOf_append]
  · exact List.map_append

/-- The last of several patterns. -/
theorem inOrder_singleton (hp : p.Prefers prev w rest groups) :
    (inOrder [p]).Prefers prev w rest groups := hp

/-- Patterns one after the other. -/
theorem inOrder_cons {w₁ w₂ : Text} {groups₁ groups₂ : List (Nat × Text)}
    (hp : p.Prefers prev w₁ (w₂ ++ rest) groups₁)
    (hps : (inOrder ps).Prefers (lastOf prev w₁) w₂ rest groups₂) :
    (inOrder (p :: ps)).Prefers prev (w₁ ++ w₂) rest (groups₁ ++ groups₂) := by
  cases ps with
  | nil =>
    obtain ⟨o, ho, hlen, -, rfl⟩ := hps
    cases ho
    obtain rfl : w₂ = [] := List.eq_nil_of_length_eq_zero hlen.symm
    simpa [inOrder, Outcome.words] using hp
  | cons q ps => exact hp.seq hps

theorem alt_left (hp : p.Prefers prev w rest groups) (q : Pattern) :
    (alt p q).Prefers prev w rest groups := by
  obtain ⟨o, ho, hout⟩ := hp
  rw [first?] at ho
  refine ⟨o, ?_, hout⟩
  rw [first?, outcomes, List.head?_append, ho]
  rfl

/-- The second alternative, where the first does not match. -/
theorem alt_right (hnone : p.outcomes ⟨prev, w ++ rest⟩ = []) (hq : q.Prefers prev w rest groups) :
    (alt p q).Prefers prev w rest groups := by
  obtain ⟨o, ho, hout⟩ := hq
  refine ⟨o, ?_, hout⟩
  rw [first?, outcomes, hnone, List.nil_append]
  exact ho

/-- An optional pattern is left out where it does not match. -/
theorem optional_nil (hnone : p.outcomes ⟨prev, rest⟩ = []) :
    (optional p).Prefers prev [] rest [] :=
  alt_right hnone ⟨_, rfl, rfl, rfl, rfl⟩

theorem group (n : Nat) (hp : p.Prefers prev w rest groups) :
    (Pattern.group n p).Prefers prev w rest ((n, w) :: groups) := by
  obtain ⟨o, ho, hlen, hcursor, rfl⟩ := hp
  refine ⟨{ o with groups := (n, ⟨w ++ rest, o.length⟩) :: o.groups }, ?_, hlen, hcursor,
    Outcome.words_group n w rest o hlen⟩
  rw [first?] at ho
  rw [first?, outcomes, List.head?_map, ho]
  rfl

/-- The preferred match is the one that is found. -/
theorem at? (hp : p.Prefers prev w rest groups) :
    p.at? ⟨prev, w ++ rest⟩ = some ⟨[], w, rest, groups⟩ := by
  obtain ⟨o, ho, hlen, hcursor, rfl⟩ := hp
  rw [Pattern.at?, ho, Option.map_some, Match.ofOutcome, hlen, hcursor, List.take_left]
  rfl

/-- The preferred match is found behind a front in which no match begins. -/
theorem find_append {front : Text} (hp : p.Prefers front.getLast? w rest groups)
    (hfront : ∀ gone here, front = gone ++ here → here ≠ [] →
      p.at? ⟨gone.getLast?, here ++ (w ++ rest)⟩ = none) :
    p.find (front ++ (w ++ rest)) = some ⟨front, w, rest, groups⟩ := by
  -- The search keeps what it has passed in reverse, and looks back at its head.
  have hfrom (passed here : Text) (hsplit : front = passed.reverse ++ here) :
      p.findFrom passed (here ++ (w ++ rest)) = some ⟨front, w, rest, groups⟩ := by
    induction here generalizing passed with
    | nil =>
      have hat := hp.at?
      rw [hsplit, List.append_nil, List.getLast?_reverse] at hat
      rw [hsplit, List.append_nil, List.nil_append]
      cases ht : w ++ rest with
      | nil =>
        rw [ht] at hat
        rw [findFrom, hat]
        rfl
      | cons s t =>
        rw [ht] at hat
        rw [findFrom, hat]
    | cons s here ih =>
      have hnone := hfront passed.reverse (s :: here) hsplit (List.cons_ne_nil s here)
      rw [List.getLast?_reverse] at hnone
      rw [List.cons_append] at hnone ⊢
      rw [findFrom, hnone]
      exact ih (s :: passed) (by simp [hsplit])
  exact hfrom [] front rfl

theorem find (hp : p.Prefers none w rest groups) :
    p.find (w ++ rest) = some ⟨[], w, rest, groups⟩ :=
  have hfront : ∀ gone here, ([] : Text) = gone ++ here → here ≠ [] →
      p.at? ⟨gone.getLast?, here ++ (w ++ rest)⟩ = none :=
    fun _ _ hsplit hne => absurd (List.append_eq_nil_iff.mp hsplit.symm).2 hne
  find_append hp hfront

end Prefers

/-! ## Words that are come to later -/

/-- The pattern comes to the word, with the words of its groups, after outcomes that all end at
places that `passed` allows. -/
def Tries (p : Pattern) (prev : Option Symbol) (w rest : Text) (groups : List (Nat × Text))
    (passed : Cursor → Prop) : Prop :=
  ∃ skipped o more, p.outcomes ⟨prev, w ++ rest⟩ = skipped ++ o :: more ∧
    (∀ o' ∈ skipped, passed o'.cursor) ∧ o.length = w.length ∧
    o.cursor = ⟨lastOf prev w, rest⟩ ∧ o.words = groups

/-- A reluctant run comes to a word after those in front of it. -/
theorem tries_least (hw : ∀ s ∈ w, ok s = true) :
    (many .least ok).Tries prev w rest [] fun c =>
      ∃ gone here, w = gone ++ here ∧ here ≠ [] ∧ c = ⟨lastOf prev gone, here ++ rest⟩ := by
  simp only [Tries, outcomes]
  -- The runs over `s :: w` are the empty one and those over `w` with a symbol more; reversed, the
  -- empty one is tried first.
  induction w generalizing prev with
  | nil =>
    cases rest with
    | nil => exact ⟨[], _, [], rfl, by simp, rfl, rfl, rfl⟩
    | cons s rest =>
      let longer := if ok s then
        (Cursor.runs (fun s _ => ok s) ⟨some s, rest⟩).map (Outcome.longer 1) else []
      refine ⟨[], ⟨0, ⟨prev, s :: rest⟩, []⟩, longer.reverse, ?_, by simp, rfl, rfl, rfl⟩
      rw [List.nil_append, Cursor.runs_cons, List.reverse_append]
      rfl
  | cons s w ih =>
    obtain ⟨hs, hw⟩ := List.forall_mem_cons.mp hw
    obtain ⟨skipped, o, more, hruns, hskipped, hlen, hcursor, hwords⟩ := @ih (some s) hw
    refine ⟨⟨0, ⟨prev, s :: (w ++ rest)⟩, []⟩ :: skipped.map (Outcome.longer 1), o.longer 1,
      more.map (Outcome.longer 1), ?_, ?_, ?_, ?_, hwords⟩
    · rw [List.cons_append, Cursor.runs_cons, if_pos hs, List.reverse_append, ← List.map_reverse,
        hruns, List.map_append]
      rfl
    · rw [List.forall_mem_cons]
      refine ⟨⟨[], s :: w, rfl, List.cons_ne_nil s w, rfl⟩, fun _ hmem => ?_⟩
      obtain ⟨o', ho', rfl⟩ := List.mem_map.mp hmem
      obtain ⟨gone, here, hsplit, hne, hc⟩ := hskipped o' ho'
      exact ⟨s :: gone, here, by rw [hsplit, List.cons_append], hne, by rw [lastOf_cons]; exact hc⟩
    · rw [Outcome.longer, hlen, List.length_cons, Nat.add_comm]
    · rw [lastOf_cons]
      exact hcursor

/-- A run comes to a word after the longer ones. -/
theorem tries_run {more : Text} (hw : ∀ s ∈ w, ok s = true)
    (hrest : ∀ s ∈ rest.head?, ok s = false) :
    (run ok).Tries prev w (more ++ rest) [] fun c =>
      ∃ here gone, more = here ++ gone ∧ here ≠ [] ∧ c.rest = gone ++ rest := by
  simp only [Tries, outcomes, run]
  -- At the end of `w` the runs that go on over `more` come first; every symbol in front only makes
  -- all of them longer.
  induction w generalizing prev with
  | nil =>
    rw [List.nil_append]
    cases hmore : more ++ rest with
    | nil => exact ⟨[], _, [], rfl, by simp, rfl, rfl, rfl⟩
    | cons s t =>
      refine ⟨_, ⟨0, ⟨prev, s :: t⟩, []⟩, [], Cursor.runs_cons .., fun o ho => ?_, rfl, rfl, rfl⟩
      split at ho
      · next hs =>
        obtain ⟨o', ho', rfl⟩ := List.mem_map.mp ho
        obtain ⟨w, rest', rfl, hw, rfl⟩ := Cursor.mem_runs_iff.mp ho'
        have hword : ∀ s' ∈ s :: w, ok s' = true :=
          List.forall_mem_cons.mpr ⟨hs, runsOver_iff_forall.mp hw⟩
        rw [← List.cons_append] at hmore
        -- A longer run does not go on over `rest`.
        rcases List.append_eq_append_iff.mp hmore with ⟨beyond, hbeyond, rfl⟩ | ⟨gone, rfl, rfl⟩
        · cases beyond with
          | nil =>
            rw [List.append_nil] at hbeyond
            exact ⟨s :: w, [], by rw [hbeyond, List.append_nil], by simp, rfl⟩
          | cons s' beyond =>
            have hok : ok s' = true := hword s' (by simp [hbeyond])
            rw [hrest s' rfl] at hok
            cases hok
        · exact ⟨s :: w, gone, rfl, by simp, rfl⟩
      · cases ho
  | cons s w ih =>
    obtain ⟨hs, hw⟩ := List.forall_mem_cons.mp hw
    obtain ⟨skipped, o, later, hruns, hskipped, hlen, hcursor, hwords⟩ := @ih (some s) hw
    refine ⟨skipped.map (Outcome.longer 1), o.longer 1,
      later.map (Outcome.longer 1) ++ [⟨0, ⟨prev, s :: (w ++ (more ++ rest))⟩, []⟩], ?_,
      fun _ hmem => ?_, ?_, ?_, hwords⟩
    · rw [List.cons_append, Cursor.runs_cons, if_pos hs, hruns, List.map_append, List.append_assoc]
      rfl
    · obtain ⟨o', ho', rfl⟩ := List.mem_map.mp hmem
      exact hskipped o' ho'
    · rw [Outcome.longer, hlen, List.length_cons, Nat.add_comm]
    · rw [lastOf_cons]
      exact hcursor

/-- What a pattern comes to behind the preferred match of another one. -/
theorem Prefers.seq_tries {p q : Pattern} {w₁ w₂ : Text} {groups₁ groups₂ : List (Nat × Text)}
    {passed : Cursor → Prop} (hp : p.Prefers prev w₁ (w₂ ++ rest) groups₁)
    (hq : q.Tries (lastOf prev w₁) w₂ rest groups₂ passed) :
    (Pattern.seq p q).Tries prev (w₁ ++ w₂) rest (groups₁ ++ groups₂) passed := by
  obtain ⟨o₁, h₁, hlen₁, hcursor₁, rfl⟩ := hp
  obtain ⟨skipped, o₂, more₂, houtcomes, hskipped, hlen₂, hcursor₂, rfl⟩ := hq
  rw [first?, List.head?_eq_some_iff] at h₁
  obtain ⟨more₁, h₁⟩ := h₁
  -- The outcomes of the second part, each with those of the first put in front.
  let behind (o₁ o : Outcome) : Outcome :=
    ⟨o₁.length + o.length, o.cursor, o₁.groups ++ o.groups⟩
  refine ⟨skipped.map (behind o₁), behind o₁ o₂, more₂.map (behind o₁) ++
    more₁.flatMap fun o => (q.outcomes o.cursor).map (behind o), ?_, ?_, ?_, ?_, List.map_append⟩
  · rw [outcomes, List.append_assoc, h₁, List.flatMap_cons, hcursor₁, houtcomes, List.map_append,
      List.append_assoc]
    rfl
  · intro _ hmem
    obtain ⟨o, ho, rfl⟩ := List.mem_map.mp hmem
    exact hskipped o ho
  · simp [behind, hlen₁, hlen₂]
  · rw [hcursor₂, lastOf_append]

namespace Tries

variable {p q : Pattern} {passed : Cursor → Prop}

theorem group (n : Nat) (hp : p.Tries prev w rest groups passed) :
    (Pattern.group n p).Tries prev w rest ((n, w) :: groups) passed := by
  obtain ⟨skipped, o, more, houtcomes, hskipped, hlen, hcursor, rfl⟩ := hp
  let kept (o : Outcome) : Outcome := { o with groups := (n, ⟨w ++ rest, o.length⟩) :: o.groups }
  refine ⟨skipped.map kept, kept o, more.map kept, ?_, ?_, hlen, hcursor,
    Outcome.words_group n w rest o hlen⟩
  · rw [outcomes, houtcomes, List.map_append, List.map_cons]
  · intro _ hmem
    obtain ⟨o', ho', rfl⟩ := List.mem_map.mp hmem
    exact hskipped o' ho'

/-- What follows goes on from the first word from which it can. -/
theorem seq {w₁ w₂ : Text} {groups₁ groups₂ : List (Nat × Text)}
    (hp : p.Tries prev w₁ (w₂ ++ rest) groups₁ passed)
    (hpassed : ∀ c, passed c → q.outcomes c = [])
    (hq : q.Prefers (lastOf prev w₁) w₂ rest groups₂) :
    (Pattern.seq p q).Prefers prev (w₁ ++ w₂) rest (groups₁ ++ groups₂) := by
  obtain ⟨skipped, o₁, more₁, houtcomes, hskipped, hlen₁, hcursor₁, rfl⟩ := hp
  obtain ⟨o₂, h₂, hlen₂, hcursor₂, rfl⟩ := hq
  rw [first?, List.head?_eq_some_iff] at h₂
  obtain ⟨more₂, h₂⟩ := h₂
  -- The outcomes skipped have nothing behind them and drop out of the list.
  have hnone : (skipped.flatMap fun o => (q.outcomes o.cursor).map fun o' =>
      (⟨o.length + o'.length, o'.cursor, o.groups ++ o'.groups⟩ : Outcome)) = [] := by
    refine List.flatMap_eq_nil_iff.mpr fun o ho => ?_
    rw [hpassed o.cursor (hskipped o ho), List.map_nil]
  refine ⟨⟨o₁.length + o₂.length, o₂.cursor, o₁.groups ++ o₂.groups⟩, ?_, ?_, ?_, ?_⟩
  · rw [first?, outcomes, List.append_assoc, houtcomes, List.flatMap_append, hnone,
      List.nil_append, List.flatMap_cons, hcursor₁, h₂]
    rfl
  · simp [hlen₁, hlen₂]
  · rw [hcursor₂, lastOf_append]
  · exact List.map_append

end Tries

/-- A keyword is found in either case. -/
theorem prefers_eitherCase {v : Text} (hw : w.map Symbol.folded = v) :
    (eitherCase v).Prefers prev w rest [] := by
  induction w generalizing prev v with
  | nil =>
    subst hw
    exact ⟨_, rfl, rfl, rfl, rfl⟩
  | cons s w ih =>
    subst hw
    have hfirst : (one fun t => t.folded = s.folded).Prefers prev [s] (w ++ rest) [] :=
      prefers_one (by simp)
    exact hfirst.inOrder_cons (ih rfl)

theorem prefers_someOf (hne : w ≠ []) (hw : ∀ s ∈ w, ok s = true)
    (hrest : ∀ s ∈ rest.head?, ok s = false) : (someOf ok).Prefers prev w rest [] := by
  obtain ⟨s, w, rfl⟩ := List.exists_cons_of_ne_nil hne
  obtain ⟨hs, hw⟩ := List.forall_mem_cons.mp hw
  exact (prefers_one hs).seq (prefers_run hw hrest)

theorem tries_someOf {more : Text} (hne : w ≠ []) (hw : ∀ s ∈ w, ok s = true)
    (hrest : ∀ s ∈ rest.head?, ok s = false) :
    (someOf ok).Tries prev w (more ++ rest) [] fun c =>
      ∃ here gone, more = here ++ gone ∧ here ≠ [] ∧ c.rest = gone ++ rest := by
  obtain ⟨s, w, rfl⟩ := List.exists_cons_of_ne_nil hne
  obtain ⟨hs, hw⟩ := List.forall_mem_cons.mp hw
  exact (prefers_one hs).seq_tries (tries_run hw hrest)

end DumpDialect.Pattern
