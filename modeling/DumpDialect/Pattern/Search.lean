import DumpDialect.Pattern.Basic

/-!
# Searching and replacing

`Pattern.find` gives the leftmost match in a text and `Pattern.atStart?` the match at its start. A
match keeps what stands around it, so the text is `before ++ found ++ after` (`find_eq_some`).
`replaceFirst` and `replaceAll` write a replacement, made of fixed text and of the stretches that
the groups matched, in place of the leftmost match or of each match.
-/

namespace DumpDialect

/-- A match of a pattern in a text: the text in front of it, the text it covers, the text after it,
and the text of each group that took part. -/
structure Match where
  before : Text
  found : Text
  after : Text
  groups : List (Nat × Text)

namespace Match

/-- The match that an outcome stands for, at the start of a text. -/
def ofOutcome (t : Text) (o : Outcome) : Match :=
  ⟨[], t.take o.length, o.cursor.rest, o.groups.map fun (n, s) => (n, s.text)⟩

/-- The text of a group, if the group took part in the match. -/
def group? (m : Match) (n : Nat) : Option Text := m.groups.lookup n

/-- The text of a group; the empty text if the group took no part in the match. -/
def group (m : Match) (n : Nat) : Text := (m.group? n).getD []

end Match

/-- A part of a replacement. -/
inductive Piece where
  /-- This text. -/
  | text (t : Text)
  /-- What the group matched, or nothing if it took no part. -/
  | group (n : Nat)

instance : Coe String Piece := ⟨fun s => .text s⟩

/-- The replacement written for a match. -/
def Match.expand (m : Match) (replacement : List Piece) : Text :=
  replacement.flatMap fun
    | .text t => t
    | .group n => m.group n

namespace Pattern

/-- The match at the place. -/
def at? (p : Pattern) (c : Cursor) : Option Match := (p.first? c).map (Match.ofOutcome c.rest)

/-- The match at the start of the text. -/
def atStart? (p : Pattern) (t : Text) : Option Match := p.at? ⟨none, t⟩

/-- Whether the pattern matches at the start of the text. -/
def opens (p : Pattern) (t : Text) : Bool := (p.atStart? t).isSome

/-- The leftmost match in the rest of a text of which `passed` was searched already; the symbol
passed last comes first. -/
def findFrom (p : Pattern) (passed : Text) : Text → Option Match
  | [] => (p.at? ⟨passed.head?, []⟩).map fun m => { m with before := passed.reverse }
  | s :: rest =>
    match p.at? ⟨passed.head?, s :: rest⟩ with
    | some m => some { m with before := passed.reverse }
    | none => findFrom p (s :: passed) rest

/-- The leftmost match in the text. -/
def find (p : Pattern) (t : Text) : Option Match := p.findFrom [] t

/-- Whether the pattern matches anywhere in the text. -/
def occursIn (p : Pattern) (t : Text) : Bool := (p.find t).isSome

/-- The text with the replacement in place of the leftmost match. -/
def replaceFirst (p : Pattern) (replacement : List Piece) (t : Text) : Text :=
  match p.find t with
  | some m => m.before ++ m.expand replacement ++ m.after
  | none => t

/-- Replaces each match in the rest of a text. The first `done` symbols of the rest are covered by
a match already, `prev` stands in front of it, and `written` is what is written so far, the symbol
written last first. A match of the empty text is passed over. -/
def replaceAllOnto (p : Pattern) (replacement : List Piece) (written : Text) :
    Option Symbol → Nat → Text → Text
  | _, _, [] => written.reverse
  | _, done + 1, s :: rest => replaceAllOnto p replacement written (some s) done rest
  | prev, 0, s :: rest =>
    match (p.at? ⟨prev, s :: rest⟩).filter fun m => !m.found.isEmpty with
    | none => replaceAllOnto p replacement (s :: written) (some s) 0 rest
    | some m =>
      replaceAllOnto p replacement ((m.expand replacement).reverse ++ written) (some s)
        (m.found.length - 1) rest

/-- The rest of a text with the replacement in place of each match. The first `done` symbols of the
rest are covered by a match already, and `prev` stands in front of it. -/
def replaceAllFrom (p : Pattern) (replacement : List Piece) (prev : Option Symbol) (done : Nat)
    (t : Text) : Text :=
  p.replaceAllOnto replacement [] prev done t

/-- The text with the replacement in place of each match, from left to right and without
overlaps. -/
def replaceAll (p : Pattern) (replacement : List Piece) (t : Text) : Text :=
  p.replaceAllFrom replacement none 0 t

/-! ## What stands around a match -/

theorem found_append_after {p : Pattern} {c : Cursor} {m : Match} (h : p.at? c = some m) :
    m.found ++ m.after = c.rest := by
  obtain ⟨o, ho, rfl⟩ := Option.map_eq_some_iff.1 h
  simp only [Match.ofOutcome]
  rw [(rest_of_mem_outcomes (List.mem_of_head? ho)).2, List.take_append_drop]

theorem findFrom_eq_some {p : Pattern} {passed t : Text} {m : Match}
    (h : p.findFrom passed t = some m) : m.before ++ m.found ++ m.after = passed.reverse ++ t := by
  induction t generalizing passed with
  | nil =>
    obtain ⟨m', hm, rfl⟩ := Option.map_eq_some_iff.1 h
    simpa using found_append_after hm
  | cons s rest ih =>
    rw [findFrom] at h
    split at h
    · next m' hm =>
      cases h
      simpa using found_append_after hm
    · simpa using ih h

/-- A match keeps the whole text: what stands in front of it, what it covers, what comes after. -/
theorem find_eq_some {p : Pattern} {t : Text} {m : Match} (h : p.find t = some m) :
    m.before ++ m.found ++ m.after = t := by
  simpa using findFrom_eq_some h

/-! ## Replacing, symbol by symbol -/

theorem replaceAllOnto_eq (p : Pattern) (replacement : List Piece) (written : Text)
    (prev : Option Symbol) (done : Nat) (t : Text) :
    p.replaceAllOnto replacement written prev done t =
      written.reverse ++ p.replaceAllFrom replacement prev done t := by
  simp only [replaceAllFrom]
  induction t generalizing written prev done with
  | nil => simp [replaceAllOnto]
  | cons s rest ih =>
    cases done with
    | succ done => exact ih written (some s) done
    | zero =>
      simp only [replaceAllOnto]
      split
      · rw [ih, ih [s]]
        simp
      · next m hm =>
        rw [ih, ih ((m.expand replacement).reverse ++ [])]
        simp

@[simp] theorem replaceAllFrom_nil (p : Pattern) (replacement : List Piece)
    (prev : Option Symbol) (done : Nat) : p.replaceAllFrom replacement prev done [] = [] := by
  cases done <;> rfl

/-- A symbol that a match covers is not written. -/
@[simp] theorem replaceAllFrom_succ (p : Pattern) (replacement : List Piece)
    (prev : Option Symbol) (done : Nat) (s : Symbol) (rest : Text) :
    p.replaceAllFrom replacement prev (done + 1) (s :: rest) =
      p.replaceAllFrom replacement (some s) done rest := rfl

/-- Where no match starts the symbol is written. -/
theorem replaceAllFrom_of_none {p : Pattern} (replacement : List Piece) {prev : Option Symbol}
    {s : Symbol} {rest : Text} (h : p.at? ⟨prev, s :: rest⟩ = none) :
    p.replaceAllFrom replacement prev 0 (s :: rest) =
      s :: p.replaceAllFrom replacement (some s) 0 rest := by
  rw [replaceAllFrom, replaceAllOnto, h]
  simp only [Option.filter_none]
  rw [replaceAllOnto_eq]
  rfl

/-- Where a match starts its replacement is written. -/
theorem replaceAllFrom_of_some {p : Pattern} (replacement : List Piece) {prev : Option Symbol}
    {s : Symbol} {rest : Text} {m : Match} (h : p.at? ⟨prev, s :: rest⟩ = some m)
    (hm : m.found ≠ []) :
    p.replaceAllFrom replacement prev 0 (s :: rest) =
      m.expand replacement ++
        p.replaceAllFrom replacement (some s) (m.found.length - 1) rest := by
  rw [replaceAllFrom, replaceAllOnto, h]
  rw [Option.filter_some, if_pos (by simpa using hm)]
  simp only
  rw [replaceAllOnto_eq]
  simp

end Pattern

end DumpDialect
