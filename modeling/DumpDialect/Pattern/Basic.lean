import DumpDialect.Text.Alphanumeric
import DumpDialect.Text.Blank
import DumpDialect.Text.DecimalDigit
import DumpDialect.Text.LetterCase

/-!
# Patterns

A pattern describes stretches of a text. `Pattern.outcomes` lists every way in which a pattern can
match from a place on, the preferred way first: an alternative comes before the one to its right, a
greedy run prefers the farthest place and a reluctant one the nearest. What follows in a sequence
takes the first outcome from which it can go on, so the head of the list is the match
(`Pattern.first?`).

Only single symbols repeat, so the outcomes of a run are places of one text and no repetition can
go on without an end.
-/

namespace DumpDialect

/-- A place in a text: the symbol in front of it, if there is one, and the text from it on. -/
structure Cursor where
  prev : Option Symbol
  rest : Text
deriving DecidableEq

/-- A stretch of a text, given by the text from its start on and by its length. -/
structure Span where
  start : Text
  length : Nat

/-- The text of a stretch. -/
def Span.text (s : Span) : Text := s.start.take s.length

@[simp] theorem Span.text_append (word rest : Text) :
    (Span.mk (word ++ rest) word.length).text = word := by
  simp [Span.text]

/-- One way in which a pattern matches: the length of the match, the place where it ends, and the
stretches that its groups matched, each with the number of its group. -/
structure Outcome where
  length : Nat
  cursor : Cursor
  groups : List (Nat × Span)

/-- How long a run is preferred. -/
inductive Greed where
  | most
  | least
deriving DecidableEq

/-- A description of stretches of a text. -/
inductive Pattern where
  /-- The empty stretch. -/
  | empty
  /-- One symbol of a class. -/
  | one (ok : Symbol → Bool)
  /-- These symbols, one after the other. -/
  | word (w : Text)
  /-- The one pattern and then the other. -/
  | seq (p q : Pattern)
  /-- The one pattern or the other. -/
  | alt (p q : Pattern)
  /-- Any number of symbols of a class. -/
  | many (greed : Greed) (ok : Symbol → Bool)
  /-- As many symbols of a class as wished, none of which begins an occurrence of `barrier`. -/
  | manyShortOf (barrier : Text) (ok : Symbol → Bool)
  /-- The pattern, with the stretch it matches kept under the number `n`. -/
  | group (n : Nat) (p : Pattern)
  /-- The start of the text. -/
  | start
  /-- The end of the text, or the place in front of an LF that ends it. -/
  | finish
  /-- A place with a word character on one side only. -/
  | wordEdge

/-- The outcomes of a run of symbols that is `n` symbols long so far, the longest first, in front of
the shorter ones. The run goes on over a symbol as long as `ok` holds of it and the text after
it. -/
def Outcome.runOnto (ok : Symbol → Text → Bool) (shorter : List Outcome) (n : Nat)
    (prev : Option Symbol) : Text → List Outcome
  | [] => ⟨n, ⟨prev, []⟩, []⟩ :: shorter
  | s :: rest =>
    let here : Outcome := ⟨n, ⟨prev, s :: rest⟩, []⟩
    if ok s rest then Outcome.runOnto ok (here :: shorter) (n + 1) (some s) rest
    else here :: shorter

/-- The outcomes of a run of symbols, the longest first. -/
def Cursor.runs (ok : Symbol → Text → Bool) (c : Cursor) : List Outcome :=
  Outcome.runOnto ok [] 0 c.prev c.rest

/-- An outcome of the pattern that has `n` more symbols in front. -/
def Outcome.longer (n : Nat) (o : Outcome) : Outcome := { o with length := n + o.length }

theorem Outcome.longer_comp (m n : Nat) :
    Outcome.longer m ∘ Outcome.longer n = Outcome.longer (m + n) := by
  funext o
  simp [Outcome.longer, Nat.add_assoc]

theorem Outcome.runOnto_eq (ok : Symbol → Text → Bool) (shorter : List Outcome) (n : Nat)
    (prev : Option Symbol) (t : Text) :
    Outcome.runOnto ok shorter n prev t =
      (Cursor.runs ok ⟨prev, t⟩).map (Outcome.longer n) ++ shorter := by
  induction t generalizing shorter n prev with
  | nil => rfl
  | cons s rest ih =>
    simp only [Cursor.runs] at ih ⊢
    rw [Outcome.runOnto, Outcome.runOnto]
    split
    · rw [ih, ih [⟨0, ⟨prev, s :: rest⟩, []⟩] (0 + 1)]
      simp only [List.map_append, List.map_map, List.map_cons, List.map_nil, List.append_assoc,
        List.singleton_append, Outcome.longer_comp, Nat.zero_add]
      rfl
    · rfl

@[simp] theorem Cursor.runs_nil (ok : Symbol → Text → Bool) (prev : Option Symbol) :
    Cursor.runs ok ⟨prev, []⟩ = [⟨0, ⟨prev, []⟩, []⟩] := rfl

/-- A run over a symbol is a run from behind it, one symbol longer, if the run goes on over the
symbol; in the end the run may be empty. -/
theorem Cursor.runs_cons (ok : Symbol → Text → Bool) (prev : Option Symbol) (s : Symbol)
    (rest : Text) :
    Cursor.runs ok ⟨prev, s :: rest⟩ =
      (if ok s rest then (Cursor.runs ok ⟨some s, rest⟩).map (Outcome.longer 1) else []) ++
        [⟨0, ⟨prev, s :: rest⟩, []⟩] := by
  rw [Cursor.runs, Outcome.runOnto]
  split
  · rw [Outcome.runOnto_eq]
  · rfl

/-- The place after the given word, if the text goes on with it. -/
def Cursor.follow : Text → Cursor → Option Cursor
  | [], c => some c
  | s :: w, c =>
    match c.rest with
    | t :: rest => if s = t then Cursor.follow w ⟨some t, rest⟩ else none
    | [] => none

/-- Whether a word character stands on one side of the place only. -/
def Cursor.atWordEdge (c : Cursor) : Bool :=
  c.prev.any Symbol.isWord != c.rest.head?.any Symbol.isWord

/-- Whether the place is the end of the text or in front of an LF that ends it. -/
def Cursor.atFinish (c : Cursor) : Bool := c.rest = [] || c.rest = [.lineFeed]

/-! ## Classes of symbols -/

namespace Symbol

/-- The symbols of a text. -/
def isIn (symbols : Text) (s : Symbol) : Bool := symbols.contains s

/-- All symbols but those of a text. -/
def isNotIn (symbols : Text) (s : Symbol) : Bool := !symbols.contains s

/-- All symbols but LF: those of one line. -/
def isInLine (s : Symbol) : Bool := s ≠ lineFeed

/-- All symbols but the blanks. -/
def isInk (s : Symbol) : Bool := !s.isBlank

end Symbol

/-! ## Matching -/

namespace Pattern

/-- Every way in which the pattern matches from the place on, the preferred one first. -/
def outcomes : Pattern → Cursor → List Outcome
  | empty, c => [⟨0, c, []⟩]
  | one ok, c =>
    match c.rest with
    | s :: rest => if ok s then [⟨1, ⟨some s, rest⟩, []⟩] else []
    | [] => []
  | word w, c => (c.follow w).toList.map (⟨w.length, ·, []⟩)
  | seq p q, c =>
    (p.outcomes c).flatMap fun o =>
      (q.outcomes o.cursor).map fun o' =>
        ⟨o.length + o'.length, o'.cursor, o.groups ++ o'.groups⟩
  | alt p q, c => p.outcomes c ++ q.outcomes c
  | many .most ok, c => c.runs fun s _ => ok s
  | many .least ok, c => (c.runs fun s _ => ok s).reverse
  | manyShortOf barrier ok, c => c.runs fun s rest => ok s && !barrier.isPrefixOf (s :: rest)
  | group n p, c =>
    (p.outcomes c).map fun o => { o with groups := (n, ⟨c.rest, o.length⟩) :: o.groups }
  | start, c => if c.prev = none then [⟨0, c, []⟩] else []
  | finish, c => if c.atFinish then [⟨0, c, []⟩] else []
  | wordEdge, c => if c.atWordEdge then [⟨0, c, []⟩] else []

/-- The preferred way in which the pattern matches from the place on. -/
def first? (p : Pattern) (c : Cursor) : Option Outcome := (p.outcomes c).head?

/-- A run is as long as it says. -/
theorem rest_of_mem_runs {ok : Symbol → Text → Bool} {c : Cursor} {o : Outcome}
    (h : o ∈ c.runs ok) : o.length ≤ c.rest.length ∧ o.cursor.rest = c.rest.drop o.length := by
  obtain ⟨prev, t⟩ := c
  induction t generalizing prev o with
  | nil =>
    simp only [Cursor.runs_nil, List.mem_singleton] at h
    subst h
    simp
  | cons s rest ih =>
    rw [Cursor.runs_cons, List.mem_append] at h
    rcases h with h | h
    · split at h
      · obtain ⟨o', ho, rfl⟩ := List.mem_map.1 h
        obtain ⟨hlen, hrest⟩ := ih _ ho
        simp only at hlen hrest
        simp only [Outcome.longer, List.length_cons]
        exact ⟨by omega, by rw [hrest, Nat.add_comm, List.drop_succ_cons]⟩
      · cases h
    · rw [List.mem_singleton.1 h]
      simp

/-- A word that is followed stands at the place. -/
theorem rest_of_follow {w : Text} {c c' : Cursor} (h : c.follow w = some c') :
    c.rest = w ++ c'.rest := by
  induction w generalizing c with
  | nil =>
    cases h
    rfl
  | cons s w ih =>
    rw [Cursor.follow] at h
    split at h
    · next t rest hc =>
      split at h
      · next hst =>
        rw [hc, hst, List.cons_append]
        exact congrArg (t :: ·) (ih h)
      · cases h
    · cases h

/-- A match is as long as it says. -/
theorem rest_of_mem_outcomes {p : Pattern} {c : Cursor} {o : Outcome} (h : o ∈ p.outcomes c) :
    o.length ≤ c.rest.length ∧ o.cursor.rest = c.rest.drop o.length := by
  induction p generalizing c o with
  | empty | start | finish | wordEdge =>
    simp only [outcomes] at h
    try split at h
    all_goals simp_all
  | one ok =>
    simp only [outcomes] at h
    split at h
    · next s rest hc =>
      split at h
      · simp_all
      · cases h
    · cases h
  | word w =>
    simp only [outcomes, List.mem_map, Option.mem_toList] at h
    obtain ⟨c', hc, rfl⟩ := h
    simp [rest_of_follow hc]
  | seq p q ihp ihq =>
    simp only [outcomes, List.mem_flatMap, List.mem_map] at h
    obtain ⟨o₁, h₁, o₂, h₂, rfl⟩ := h
    obtain ⟨hlen₁, hrest₁⟩ := ihp h₁
    obtain ⟨hlen₂, hrest₂⟩ := ihq h₂
    rw [hrest₁, List.length_drop] at hlen₂
    rw [hrest₁, List.drop_drop] at hrest₂
    exact ⟨by simp only; omega, hrest₂⟩
  | alt p q ihp ihq =>
    rcases List.mem_append.1 h with h | h
    · exact ihp h
    · exact ihq h
  | many greed ok =>
    cases greed
    · exact rest_of_mem_runs h
    · exact rest_of_mem_runs (List.mem_reverse.1 h)
  | manyShortOf barrier ok => exact rest_of_mem_runs h
  | group n p ih =>
    simp only [outcomes, List.mem_map] at h
    obtain ⟨o', ho, rfl⟩ := h
    have hrest := ih ho
    exact hrest

/-! ## Derived patterns -/

/-- The patterns one after the other. -/
def inOrder : List Pattern → Pattern
  | [] => empty
  | [p] => p
  | p :: ps => seq p (inOrder ps)

/-- One of the patterns, an earlier one preferred. -/
def anyOf : List Pattern → Pattern
  | [] => one fun _ => false
  | [p] => p
  | p :: ps => alt p (anyOf ps)

/-- The pattern or nothing, the pattern preferred. -/
def optional (p : Pattern) : Pattern := alt p empty

/-- Any number of symbols of the class, as many as possible. -/
def run (ok : Symbol → Bool) : Pattern := many .most ok

/-- One or more symbols of the class, as many as possible. -/
def someOf (ok : Symbol → Bool) : Pattern := seq (one ok) (run ok)

/-- So many symbols of the class. -/
def exactly (n : Nat) (ok : Symbol → Bool) : Pattern := inOrder (List.replicate n (one ok))

/-- So many symbols of the class at most, as many as possible. -/
def atMost (ok : Symbol → Bool) : Nat → Pattern
  | 0 => empty
  | n + 1 => optional (seq (one ok) (atMost ok n))

/-- The word with each letter in either case. The word itself is given in small letters. -/
def eitherCase (w : Text) : Pattern := inOrder (w.map fun s => one fun t => t.folded = s)

/-- Any number of blanks. -/
def blanks : Pattern := run Symbol.isBlank

/-- One or more symbols that are no blanks. -/
def ink : Pattern := someOf Symbol.isInk

/-- One or more word characters. -/
def identifier : Pattern := someOf Symbol.isWord

/-- The number of groups in the pattern. -/
def groupCount : Pattern → Nat
  | seq p q => p.groupCount + q.groupCount
  | alt p q => p.groupCount + q.groupCount
  | group _ p => p.groupCount + 1
  | _ => 0

instance : Coe String Pattern := ⟨fun s => word s⟩

end Pattern

end DumpDialect
