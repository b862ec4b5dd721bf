import DumpDialect.Pattern.Search

/-!
# What a pattern matches

`p.Matches prev w rest groups`: the pattern matches the word `w` behind `prev` and in front of
`rest`, and its groups match the words in `groups`. The relation forgets which match is preferred,
so it has one clause for each kind of pattern and no order of the outcomes in it.

- `RunsOver`, `exists_longest_run`, `runsOver_shortOf_iff`: runs of symbols, also up to a word.
- `matches_of_mem_outcomes` and `Matches.exists_outcome`: the outcomes are the matches.
- `matches_of_at?` and `matches_of_find`: what is found is a match.
- `opens_iff` and `occursIn_iff`: where there is a match, one is found.
-/

namespace DumpDialect

/-- The symbol in front of a place that has the word behind `prev` in front of it. -/
def lastOf (prev : Option Symbol) (w : Text) : Option Symbol := w.getLast?.or prev

@[simp] theorem lastOf_nil (prev : Option Symbol) : lastOf prev [] = prev := rfl

@[simp] theorem lastOf_cons (prev : Option Symbol) (s : Symbol) (w : Text) :
    lastOf prev (s :: w) = lastOf (some s) w := by
  rw [lastOf, lastOf, List.getLast?_cons]
  cases w.getLast? <;> rfl

@[simp] theorem lastOf_append (prev : Option Symbol) (w v : Text) :
    lastOf prev (w ++ v) = lastOf (lastOf prev w) v := by
  rw [lastOf, lastOf, lastOf, List.getLast?_append, Option.or_assoc]

@[simp] theorem lastOf_none (w : Text) : lastOf none w = w.getLast? := Option.or_none

/-! ## Runs of symbols -/

/-- A run goes over each symbol of the word in front of `rest`. -/
def RunsOver (ok : Symbol → Text → Bool) : Text → Text → Prop
  | [], _ => True
  | s :: w, rest => ok s (w ++ rest) = true ∧ RunsOver ok w rest

theorem runsOver_iff_forall {ok : Symbol → Bool} {w rest : Text} :
    RunsOver (fun s _ => ok s) w rest ↔ ∀ s ∈ w, ok s = true := by
  induction w with
  | nil => simp [RunsOver]
  | cons s w ih => simp [RunsOver, ih]

theorem RunsOver.forall {ok : Symbol → Text → Bool} {can : Symbol → Bool} {w rest : Text}
    (hcan : ∀ s t, ok s t = true → can s = true) (h : RunsOver ok w rest) :
    ∀ s ∈ w, can s = true := by
  induction w with
  | nil => simp
  | cons s w ih => exact List.forall_mem_cons.mpr ⟨hcan _ _ h.1, ih h.2⟩

/-- Each text begins with a longest run. -/
theorem exists_longest_run (ok : Symbol → Text → Bool) (t : Text) :
    ∃ w rest, t = w ++ rest ∧ RunsOver ok w rest ∧ ∀ s t', rest = s :: t' → ok s t' = false := by
  induction t with
  | nil => exact ⟨[], [], rfl, trivial, fun _ _ h => by cases h⟩
  | cons s t ih =>
    cases hs : ok s t with
    | true =>
      obtain ⟨w, rest, rfl, hruns, hstop⟩ := ih
      exact ⟨s :: w, rest, rfl, ⟨hs, hruns⟩, hstop⟩
    | false =>
      refine ⟨[], s :: t, rfl, trivial, fun s' t' h => ?_⟩
      obtain ⟨rfl, rfl⟩ := List.cons.inj h
      exact hs

theorem RunsOver.append_right {ok : Symbol → Text → Bool} {u w rest : Text}
    (h : RunsOver ok (u ++ w) rest) : RunsOver ok w rest := by
  induction u with
  | nil => exact h
  | cons s u ih => exact ih h.2

/-- A run that stops short of a word goes over a text of its symbols that does not hold the word, if
no part of the word begins what follows. -/
theorem runsOver_shortOf_iff {ok : Symbol → Bool} {barrier w rest : Text} (hne : barrier ≠ [])
    (hapart : ∀ k < barrier.length, 0 < k → ¬ barrier.drop k <+: rest) :
    RunsOver (fun s t => ok s && !barrier.isPrefixOf (s :: t)) w rest ↔
      (∀ s ∈ w, ok s = true) ∧ ¬ barrier <:+: w := by
  induction w with
  | nil => simp [RunsOver, hne]
  | cons s w ih =>
    -- The barrier does not begin in `w` and end in what follows: that is what `hapart` says.
    have hbegins : barrier <+: s :: (w ++ rest) ↔ barrier <+: s :: w := by
      refine ⟨fun h => ?_, fun h => h.trans (List.prefix_append (s :: w) rest)⟩
      rcases List.prefix_or_prefix_of_prefix h (List.prefix_append (s :: w) rest) with h' | ⟨b, rfl⟩
      · exact h'
      · cases b with
        | nil => simp
        | cons s' b =>
          have hb : s' :: b <+: rest := (List.prefix_append_right_inj (s :: w)).mp h
          refine absurd ?_ (hapart (s :: w).length (by simp) (by simp))
          rwa [List.drop_left]
    rw [RunsOver, ih, List.infix_cons_iff, Bool.and_eq_true, Bool.not_eq_true',
      Bool.eq_false_iff, Ne, List.isPrefixOf_iff_prefix, hbegins, List.forall_mem_cons, not_or]
    exact and_and_and_comm

theorem Cursor.mem_runs_iff {ok : Symbol → Text → Bool} {prev : Option Symbol} {t : Text}
    {o : Outcome} :
    o ∈ Cursor.runs ok ⟨prev, t⟩ ↔
      ∃ w rest, t = w ++ rest ∧ RunsOver ok w rest ∧ o = ⟨w.length, ⟨lastOf prev w, rest⟩, []⟩ := by
  induction t generalizing prev o with
  | nil =>
    rw [Cursor.runs_nil, List.mem_singleton]
    refine ⟨fun h => ⟨[], [], rfl, trivial, h⟩, ?_⟩
    rintro ⟨w, rest, ht, -, rfl⟩
    obtain ⟨rfl, rfl⟩ := List.append_eq_nil_iff.mp ht.symm
    rfl
  | cons s t ih =>
    rw [Cursor.runs_cons, List.mem_append, List.mem_singleton]
    constructor
    · rintro (h | rfl)
      · split at h
        · next hs =>
          obtain ⟨o', ho', rfl⟩ := List.mem_map.mp h
          obtain ⟨w, rest, rfl, hw, rfl⟩ := ih.mp ho'
          refine ⟨s :: w, rest, rfl, ⟨hs, hw⟩, ?_⟩
          rw [Outcome.longer, lastOf_cons, List.length_cons, Nat.add_comm]
        · cases h
      · exact ⟨[], s :: t, rfl, trivial, rfl⟩
    · rintro ⟨w, rest, ht, hw, rfl⟩
      cases w with
      | nil =>
        obtain rfl : s :: t = rest := ht
        exact .inr rfl
      | cons s' w =>
        obtain ⟨rfl, rfl⟩ := List.cons.inj ht
        obtain ⟨hs, hw⟩ := hw
        rw [List.append_eq, if_pos hs]
        refine .inl (List.mem_map.mpr ⟨_, ih.mpr ⟨w, rest, rfl, hw, rfl⟩, ?_⟩)
        rw [Outcome.longer, lastOf_cons, List.length_cons, Nat.add_comm]

/-- A word is followed where it stands. -/
theorem Cursor.follow_eq_some_iff {w : Text} {c c' : Cursor} :
    c.follow w = some c' ↔ c.rest = w ++ c'.rest ∧ c'.prev = lastOf c.prev w := by
  induction w generalizing c with
  | nil =>
    obtain ⟨prev, rest⟩ := c
    obtain ⟨prev', rest'⟩ := c'
    simp only [Cursor.follow, Option.some.injEq, Cursor.mk.injEq, List.nil_append, lastOf_nil]
    rw [and_comm, eq_comm (a := prev)]
  | cons s w ih =>
    obtain ⟨prev, rest⟩ := c
    cases rest with
    | nil => simp [Cursor.follow]
    | cons t rest =>
      rw [Cursor.follow]
      by_cases hst : s = t
      · subst hst
        simp only [if_true, ih, List.cons_append, List.cons.injEq, true_and, lastOf_cons]
      · simp only [if_neg hst, List.cons_append, List.cons.injEq, Ne.symm hst, false_and,
          reduceCtorEq]

theorem Cursor.atFinish_iff {c : Cursor} :
    c.atFinish = true ↔ c.rest = [] ∨ c.rest = [.lineFeed] := by
  simp [atFinish]

/-- Behind a word character there is a word edge where no other follows. -/
theorem Cursor.atWordEdge_iff {w rest : Text} {s : Symbol} (hw : w.getLast? = some s)
    (hs : s.isWord = true) (prev : Option Symbol) :
    (Cursor.mk (lastOf prev w) rest).atWordEdge = true ↔ ∀ s ∈ rest.head?, s.isWord = false := by
  rw [Cursor.atWordEdge, lastOf, hw]
  cases rest <;> simp [hs]

/-- The words that the groups of an outcome matched. -/
def Outcome.words (o : Outcome) : List (Nat × Text) := o.groups.map fun (n, s) => (n, s.text)

theorem Outcome.words_group (n : Nat) (w rest : Text) (o : Outcome) (h : o.length = w.length) :
    Outcome.words { o with groups := (n, ⟨w ++ rest, o.length⟩) :: o.groups } =
      (n, w) :: o.words := by
  rw [Outcome.words, List.map_cons, h, Outcome.words]
  simp only [Span.text_append]

namespace Pattern

/-! ## Matches -/

/-- The pattern matches the word behind `prev` and in front of `rest`, and its groups match the
words of `groups`, each listed with the number of its group. -/
def Matches : Pattern → Option Symbol → Text → Text → List (Nat × Text) → Prop
  | empty, _, w, _, groups => w = [] ∧ groups = []
  | one ok, _, w, _, groups => (∃ s, w = [s] ∧ ok s = true) ∧ groups = []
  | word v, _, w, _, groups => w = v ∧ groups = []
  | seq p q, prev, w, rest, groups => ∃ w₁ w₂ groups₁ groups₂,
      w = w₁ ++ w₂ ∧ groups = groups₁ ++ groups₂ ∧ p.Matches prev w₁ (w₂ ++ rest) groups₁ ∧
        q.Matches (lastOf prev w₁) w₂ rest groups₂
  | alt p q, prev, w, rest, groups =>
      p.Matches prev w rest groups ∨ q.Matches prev w rest groups
  | many _ ok, _, w, _, groups => (∀ s ∈ w, ok s = true) ∧ groups = []
  | manyShortOf barrier ok, _, w, rest, groups =>
      RunsOver (fun s t => ok s && !barrier.isPrefixOf (s :: t)) w rest ∧ groups = []
  | group n p, prev, w, rest, groups => ∃ inner,
      groups = (n, w) :: inner ∧ p.Matches prev w rest inner
  | start, prev, w, _, groups => prev = none ∧ w = [] ∧ groups = []
  | finish, _, w, rest, groups => (rest = [] ∨ rest = [.lineFeed]) ∧ w = [] ∧ groups = []
  | wordEdge, prev, w, rest, groups =>
      (Cursor.mk prev rest).atWordEdge = true ∧ w = [] ∧ groups = []

section Clauses

variable {prev : Option Symbol} {w rest : Text} {groups : List (Nat × Text)}

@[simp] theorem matches_empty : empty.Matches prev w rest groups ↔ w = [] ∧ groups = [] := .rfl

@[simp] theorem matches_one {ok : Symbol → Bool} :
    (one ok).Matches prev w rest groups ↔ (∃ s, w = [s] ∧ ok s = true) ∧ groups = [] := .rfl

@[simp] theorem matches_word {v : Text} :
    (word v).Matches prev w rest groups ↔ w = v ∧ groups = [] := .rfl

theorem matches_seq {p q : Pattern} :
    (seq p q).Matches prev w rest groups ↔ ∃ w₁ w₂ groups₁ groups₂,
      w = w₁ ++ w₂ ∧ groups = groups₁ ++ groups₂ ∧ p.Matches prev w₁ (w₂ ++ rest) groups₁ ∧
        q.Matches (lastOf prev w₁) w₂ rest groups₂ := .rfl

@[simp] theorem matches_alt {p q : Pattern} :
    (alt p q).Matches prev w rest groups ↔
      p.Matches prev w rest groups ∨ q.Matches prev w rest groups := .rfl

@[simp] theorem matches_many {greed : Greed} {ok : Symbol → Bool} :
    (many greed ok).Matches prev w rest groups ↔ (∀ s ∈ w, ok s = true) ∧ groups = [] := .rfl

@[simp] theorem matches_group {n : Nat} {p : Pattern} :
    (group n p).Matches prev w rest groups ↔
      ∃ inner, groups = (n, w) :: inner ∧ p.Matches prev w rest inner := .rfl

@[simp] theorem matches_start :
    start.Matches prev w rest groups ↔ prev = none ∧ w = [] ∧ groups = [] := .rfl

@[simp] theorem matches_finish :
    finish.Matches prev w rest groups ↔
      (rest = [] ∨ rest = [.lineFeed]) ∧ w = [] ∧ groups = [] := .rfl

end Clauses

/-- An outcome stands for a match. -/
theorem matches_of_mem_outcomes {p : Pattern} {c : Cursor} {o : Outcome}
    (h : o ∈ p.outcomes c) :
    ∃ w, c.rest = w ++ o.cursor.rest ∧ o.length = w.length ∧ o.cursor.prev = lastOf c.prev w ∧
      p.Matches c.prev w o.cursor.rest o.words := by
  -- One case for each kind of pattern. `Matches` asks for a splitting of the text; the lengths of
  -- the outcomes give it.
  induction p generalizing c o with
  | empty =>
    obtain rfl := List.mem_singleton.mp h
    exact ⟨[], rfl, rfl, rfl, rfl, rfl⟩
  | one ok =>
    obtain ⟨prev, t⟩ := c
    cases t with
    | nil => cases h
    | cons s t =>
      simp only [outcomes] at h
      split at h
      · next hs =>
        obtain rfl := List.mem_singleton.mp h
        exact ⟨[s], rfl, rfl, rfl, ⟨s, rfl, hs⟩, rfl⟩
      · cases h
  | word v =>
    simp only [outcomes, List.mem_map, Option.mem_toList] at h
    obtain ⟨c', hc', rfl⟩ := h
    obtain ⟨hrest, hprev⟩ := Cursor.follow_eq_some_iff.mp hc'
    exact ⟨v, hrest, rfl, hprev, rfl, rfl⟩
  | seq p q ihp ihq =>
    simp only [outcomes, List.mem_flatMap, List.mem_map] at h
    obtain ⟨o₁, h₁, o₂, h₂, rfl⟩ := h
    obtain ⟨w₁, hrest₁, hlen₁, hprev₁, hm₁⟩ := ihp h₁
    obtain ⟨w₂, hrest₂, hlen₂, hprev₂, hm₂⟩ := ihq h₂
    refine ⟨w₁ ++ w₂, ?_, ?_, ?_, w₁, w₂, o₁.words, o₂.words, rfl, ?_, ?_, ?_⟩
    · rw [hrest₁, hrest₂, List.append_assoc]
    · simp [hlen₁, hlen₂]
    · rw [lastOf_append, ← hprev₁, hprev₂]
    · exact List.map_append
    · exact hrest₂ ▸ hm₁
    · exact hprev₁ ▸ hm₂
  | alt p q ihp ihq =>
    rcases List.mem_append.mp h with h | h
    · obtain ⟨w, hrest, hlen, hprev, hm⟩ := ihp h
      exact ⟨w, hrest, hlen, hprev, .inl hm⟩
    · obtain ⟨w, hrest, hlen, hprev, hm⟩ := ihq h
      exact ⟨w, hrest, hlen, hprev, .inr hm⟩
  | many greed ok =>
    have hruns : o ∈ c.runs fun s _ => ok s := by
      cases greed
      · exact h
      · exact List.mem_reverse.mp h
    obtain ⟨w, rest, hrest, hw, rfl⟩ := Cursor.mem_runs_iff.mp hruns
    exact ⟨w, hrest, rfl, rfl, runsOver_iff_forall.mp hw, rfl⟩
  | manyShortOf barrier ok =>
    obtain ⟨w, rest, hrest, hw, rfl⟩ := Cursor.mem_runs_iff.mp h
    exact ⟨w, hrest, rfl, rfl, hw, rfl⟩
  | group n p ih =>
    simp only [outcomes, List.mem_map] at h
    obtain ⟨o', ho', rfl⟩ := h
    obtain ⟨w, hrest, hlen, hprev, hm⟩ := ih ho'
    exact ⟨w, hrest, hlen, hprev, o'.words, hrest ▸ Outcome.words_group n w _ o' hlen, hm⟩
  | start | wordEdge =>
    simp only [outcomes] at h
    split at h
    · next hc =>
      obtain rfl := List.mem_singleton.mp h
      exact ⟨[], rfl, rfl, rfl, hc, rfl, rfl⟩
    · cases h
  | finish =>
    simp only [outcomes] at h
    split at h
    · next hc =>
      obtain rfl := List.mem_singleton.mp h
      exact ⟨[], rfl, rfl, rfl, Cursor.atFinish_iff.mp hc, rfl, rfl⟩
    · cases h

/-- A match is one of the outcomes. -/
theorem Matches.exists_outcome {p : Pattern} {prev : Option Symbol} {w rest : Text}
    {groups : List (Nat × Text)} (h : p.Matches prev w rest groups) :
    ∃ o ∈ p.outcomes ⟨prev, w ++ rest⟩,
      o.length = w.length ∧ o.cursor = ⟨lastOf prev w, rest⟩ ∧ o.words = groups := by
  -- The converse, by the same cases. It speaks of some outcome, not of the first: the text behind
  -- may make another one preferred.
  induction p generalizing prev w rest groups with
  | empty =>
    obtain ⟨rfl, rfl⟩ := h
    exact ⟨_, List.mem_singleton.mpr rfl, rfl, rfl, rfl⟩
  | one ok =>
    obtain ⟨⟨s, rfl, hs⟩, rfl⟩ := h
    refine ⟨⟨1, ⟨some s, rest⟩, []⟩, ?_, rfl, rfl, rfl⟩
    simp [outcomes, hs]
  | word v =>
    obtain ⟨rfl, rfl⟩ := h
    have hfollow : Cursor.follow w ⟨prev, w ++ rest⟩ = some ⟨lastOf prev w, rest⟩ :=
      Cursor.follow_eq_some_iff.mpr ⟨rfl, rfl⟩
    refine ⟨⟨w.length, ⟨lastOf prev w, rest⟩, []⟩, ?_, rfl, rfl, rfl⟩
    simp [outcomes, hfollow]
  | seq p q ihp ihq =>
    obtain ⟨w₁, w₂, groups₁, groups₂, rfl, rfl, h₁, h₂⟩ := h
    obtain ⟨o₁, ho₁, hlen₁, hcursor₁, rfl⟩ := ihp h₁
    obtain ⟨o₂, ho₂, hlen₂, hcursor₂, rfl⟩ := ihq h₂
    refine ⟨⟨o₁.length + o₂.length, o₂.cursor, o₁.groups ++ o₂.groups⟩, ?_, ?_, ?_, ?_⟩
    · simp only [outcomes, List.mem_flatMap, List.mem_map]
      exact ⟨o₁, by rwa [List.append_assoc], o₂, hcursor₁ ▸ ho₂, rfl⟩
    · simp [hlen₁, hlen₂]
    · rw [hcursor₂, lastOf_append]
    · exact List.map_append
  | alt p q ihp ihq =>
    rcases h with h | h
    · obtain ⟨o, ho, hout⟩ := ihp h
      exact ⟨o, List.mem_append_left _ ho, hout⟩
    · obtain ⟨o, ho, hout⟩ := ihq h
      exact ⟨o, List.mem_append_right _ ho, hout⟩
  | many greed ok =>
    obtain ⟨hw, rfl⟩ := h
    let o : Outcome := ⟨w.length, ⟨lastOf prev w, rest⟩, []⟩
    have hruns : o ∈ Cursor.runs (fun s _ => ok s) ⟨prev, w ++ rest⟩ :=
      Cursor.mem_runs_iff.mpr ⟨w, rest, rfl, runsOver_iff_forall.mpr hw, rfl⟩
    refine ⟨o, ?_, rfl, rfl, rfl⟩
    cases greed
    · exact hruns
    · exact List.mem_reverse.mpr hruns
  | manyShortOf barrier ok =>
    obtain ⟨hw, rfl⟩ := h
    exact ⟨_, Cursor.mem_runs_iff.mpr ⟨w, rest, rfl, hw, rfl⟩, rfl, rfl, rfl⟩
  | group n p ih =>
    obtain ⟨inner, rfl, h⟩ := h
    obtain ⟨o, ho, hlen, hcursor, rfl⟩ := ih h
    exact ⟨_, List.mem_map.mpr ⟨o, ho, rfl⟩, hlen, hcursor, Outcome.words_group n w rest o hlen⟩
  | start | wordEdge =>
    obtain ⟨hc, rfl, rfl⟩ := h
    refine ⟨⟨0, ⟨prev, rest⟩, []⟩, ?_, rfl, rfl, rfl⟩
    rw [outcomes, List.nil_append, if_pos hc]
    exact List.mem_singleton.mpr rfl
  | finish =>
    obtain ⟨hc, rfl, rfl⟩ := h
    refine ⟨⟨0, ⟨prev, rest⟩, []⟩, ?_, rfl, rfl, rfl⟩
    rw [outcomes, List.nil_append, if_pos (Cursor.atFinish_iff.mpr hc)]
    exact List.mem_singleton.mpr rfl

/-! ## Matches in a text -/

/-- The match at a place. -/
theorem matches_of_at? {p : Pattern} {c : Cursor} {m : Match} (h : p.at? c = some m) :
    c.rest = m.found ++ m.after ∧ p.Matches c.prev m.found m.after m.groups := by
  obtain ⟨o, ho, rfl⟩ := Option.map_eq_some_iff.mp h
  obtain ⟨w, hrest, hlen, -, hm⟩ := matches_of_mem_outcomes (List.mem_of_head? ho)
  have hfound : c.rest.take o.length = w := by rw [hrest, hlen, List.take_left]
  simp only [Match.ofOutcome, hfound]
  exact ⟨hrest, hm⟩

/-- There is a match at a place if the pattern matches any word there. -/
theorem isSome_at?_iff {p : Pattern} {c : Cursor} :
    (p.at? c).isSome = true ↔
      ∃ w rest groups, c.rest = w ++ rest ∧ p.Matches c.prev w rest groups := by
  constructor
  · intro h
    obtain ⟨m, hm⟩ := Option.isSome_iff_exists.mp h
    exact ⟨m.found, m.after, m.groups, matches_of_at? hm⟩
  · rintro ⟨w, rest, groups, hrest, hm⟩
    obtain ⟨o, ho, -⟩ := hm.exists_outcome
    rw [at?, first?, Option.isSome_map, List.isSome_head?]
    have hne : p.outcomes c ≠ [] := List.ne_nil_of_mem (hrest ▸ ho)
    simpa using hne

theorem at?_eq_none_iff {p : Pattern} {c : Cursor} :
    p.at? c = none ↔ ∀ w rest groups, c.rest = w ++ rest → ¬ p.Matches c.prev w rest groups := by
  rw [← Option.not_isSome_iff_eq_none, isSome_at?_iff]
  simp only [not_exists, not_and]

theorem outcomes_eq_nil_iff {p : Pattern} {c : Cursor} :
    p.outcomes c = [] ↔ ∀ w rest groups, c.rest = w ++ rest → ¬ p.Matches c.prev w rest groups := by
  rw [← at?_eq_none_iff, at?, first?, Option.map_eq_none_iff, List.head?_eq_none_iff]

/-- A pattern opens a text if it matches any word at its start. -/
theorem opens_iff {p : Pattern} {t : Text} :
    p.opens t = true ↔ ∃ w rest groups, t = w ++ rest ∧ p.Matches none w rest groups :=
  isSome_at?_iff

/-- What is found is the match at a place of the text. -/
private theorem exists_of_findFrom {p : Pattern} {passed t : Text} {m : Match}
    (h : p.findFrom passed t = some m) :
    ∃ gone here m', t = gone ++ here ∧ p.at? ⟨lastOf passed.head? gone, here⟩ = some m' ∧
      m = { m' with before := passed.reverse ++ gone } := by
  induction t generalizing passed with
  | nil =>
    obtain ⟨m', hm', rfl⟩ := Option.map_eq_some_iff.mp h
    exact ⟨[], [], m', rfl, hm', by rw [List.append_nil]⟩
  | cons s t ih =>
    rw [findFrom] at h
    split at h
    · next m' hm' =>
      cases h
      exact ⟨[], s :: t, m', rfl, hm', by rw [List.append_nil]⟩
    · obtain ⟨gone, here, m', rfl, hm', rfl⟩ := ih h
      exact ⟨s :: gone, here, m', rfl, by rwa [lastOf_cons], by simp⟩

/-- A pattern that matches at a place of the text is found. -/
private theorem isSome_findFrom {p : Pattern} {passed gone here : Text}
    (h : (p.at? ⟨lastOf passed.head? gone, here⟩).isSome = true) :
    (p.findFrom passed (gone ++ here)).isSome = true := by
  induction gone generalizing passed with
  | nil =>
    rw [lastOf_nil] at h
    obtain ⟨m, hm⟩ := Option.isSome_iff_exists.mp h
    cases here with
    | nil => rwa [List.nil_append, findFrom, Option.isSome_map]
    | cons s rest => rw [List.nil_append, findFrom, hm, Option.isSome_some]
  | cons s gone ih =>
    rw [List.cons_append, findFrom]
    split
    · rfl
    · rw [lastOf_cons] at h
      exact ih h

/-- What is found in a text is a match. -/
theorem matches_of_find {p : Pattern} {t : Text} {m : Match} (h : p.find t = some m) :
    t = m.before ++ m.found ++ m.after ∧
      p.Matches m.before.getLast? m.found m.after m.groups := by
  obtain ⟨gone, here, m', rfl, hm', rfl⟩ := exists_of_findFrom h
  obtain ⟨rfl, hm⟩ := matches_of_at? hm'
  exact ⟨(List.append_assoc ..).symm, by rwa [List.head?_nil, lastOf_none] at hm⟩

/-- A pattern occurs in a text if it matches any word of it. -/
theorem occursIn_iff {p : Pattern} {t : Text} :
    p.occursIn t = true ↔
      ∃ before w after groups, t = before ++ w ++ after ∧
        p.Matches before.getLast? w after groups := by
  rw [occursIn]
  constructor
  · intro h
    obtain ⟨m, hm⟩ := Option.isSome_iff_exists.mp h
    exact ⟨m.before, m.found, m.after, m.groups, matches_of_find hm⟩
  · rintro ⟨before, w, after, groups, rfl, hm⟩
    rw [List.append_assoc]
    refine isSome_findFrom (isSome_at?_iff.mpr ⟨w, after, groups, rfl, ?_⟩)
    rwa [List.head?_nil, lastOf_none]

end Pattern

end DumpDialect
