import DumpDialect.Conversion.Step
import DumpDialect.Proofs.Conversion.Effects
import DumpDialect.Proofs.Pattern.Derived
import DumpDialect.Proofs.Text.Classes

/-!
# How statements open

A line that opens a statement starts, behind blanks, with a keyword, and the keywords of the four
kinds start with different letters. So a line opens one kind of statement at most, and the order
in which the kinds are tried does not matter for it.

- `Statement.eq_of_opens`: a line opens one kind at most.
- `LineKind.of_opens`: outside of statements, and in an INSERT statement, a line that opens a kind
  is taken for it.
- `LineKind.of_marker`: outside of blocks a line that sets a sequence value is taken for that, and
  `LineKind.of_eq_sequenceValue_iff` no other line.
- `LineKind.of_continues`: a line that opens nothing is left to the statement that is open.
-/

namespace DumpDialect

/-- A blank is no letter, so it has no case. -/
theorem Symbol.folded_of_isBlank {s : Symbol} (h : s.isBlank = true) : s.folded = s := by
  cases s with
  | raw b => rfl
  | char c =>
    have hupper : c.isUpper = false := by
      cases hc : c.isUpper with
      | false => rfl
      | true =>
        obtain ⟨hlow, hhigh⟩ := range_of_isUpper hc
        simp only [isBlank, inRanges, blankRanges] at h
        rw [if_neg (by omega), if_neg (by omega), if_neg (by omega), if_neg (by omega),
          if_pos (by omega)] at h
        cases h
    have hother (d : Char) (hd : (Symbol.char d).isBlank = false) : c ≠ d := by
      rintro rfl
      rw [h] at hd
      cases hd
    simp [folded, foldedChar, hupper, hother '\u017F' (by decide), hother '\u212A' (by decide),
      hother '\u0130' (by decide), hother '\u0131' (by decide)]

/-- The first symbol of a line behind its blanks. -/
def Text.firstInk? (line : Text) : Option Symbol := line.trimStart.head?

theorem Text.trimStart_append {indent : Text} (hindent : ∀ s ∈ indent, s.isBlank = true)
    {s : Symbol} (hs : s.isBlank = false) (rest : Text) :
    (indent ++ s :: rest).trimStart = s :: rest := by
  rw [trimStart, List.dropWhile_append_of_pos hindent, List.dropWhile_cons_of_neg]
  rw [hs]
  exact Bool.false_ne_true

theorem Text.firstInk?_append {indent : Text} (hindent : ∀ s ∈ indent, s.isBlank = true)
    {s : Symbol} (hs : s.isBlank = false) (rest : Text) :
    (indent ++ s :: rest).firstInk? = some s := by
  rw [firstInk?, trimStart_append hindent hs, List.head?_cons]

/-- A line that starts with blanks and a keyword. -/
theorem Pattern.prefix_trimStart_of_opens {s : Symbol} {v line : Text} {ps : List Pattern}
    (hs : s.isBlank = false) (h : (inOrder (blanks :: word (s :: v) :: ps)).opens line = true) :
    s :: v <+: line.trimStart := by
  obtain ⟨w, rest, groups, rfl, hm⟩ := opens_iff.mp h
  simp only [matches_inOrder_cons] at hm
  obtain ⟨indent, _, _, _, rfl, rfl, ⟨hindent, -⟩, _, w₂, _, _, rfl, rfl, ⟨rfl, rfl⟩, -⟩ := hm
  rw [List.append_assoc, List.append_assoc]
  exact Text.trimStart_append hindent hs (v ++ (w₂ ++ rest)) ▸ List.prefix_append ..

theorem Pattern.firstInk?_of_opens {s : Symbol} {v line : Text} {ps : List Pattern}
    (hs : s.isBlank = false) (h : (inOrder (blanks :: word (s :: v) :: ps)).opens line = true) :
    line.firstInk? = some s := by
  obtain ⟨rest, hrest⟩ := prefix_trimStart_of_opens hs h
  rw [Text.firstInk?, ← hrest, List.cons_append, List.head?_cons]

/-- A line that starts with blanks and a keyword in either case. -/
theorem Pattern.folded_firstInk?_of_opens {s : Symbol} {v line : Text} {ps : List Pattern}
    (hs : s.isBlank = false)
    (h : (inOrder (blanks :: eitherCase (s :: v) :: ps)).opens line = true) :
    line.firstInk?.map Symbol.folded = some s := by
  obtain ⟨w, rest, groups, rfl, hm⟩ := opens_iff.mp h
  simp only [matches_inOrder_cons, matches_eitherCase] at hm
  obtain ⟨indent, _, _, _, rfl, rfl, ⟨hindent, -⟩, keyword, w₂, _, _, rfl, rfl,
    ⟨hkeyword, -⟩, -⟩ := hm
  obtain ⟨t, keyword, rfl, ht, -⟩ := List.map_eq_cons_iff.mp hkeyword
  have hink : t.isBlank = false := by
    cases hblank : t.isBlank with
    | false => rfl
    | true =>
      rw [Symbol.folded_of_isBlank hblank] at ht
      rw [ht, hs] at hblank
      cases hblank
  rw [List.append_assoc, List.append_assoc, List.cons_append,
    Text.firstInk?_append hindent hink, Option.map_some, ht]

namespace Block

theorem firstInk?_of_opening {line : Text} (h : opening.opens line = true) :
    line.firstInk?.map Symbol.folded = some (.char 'b') :=
  Pattern.folded_firstInk?_of_opens (by decide) h

/-- The line that opens a block does not close it. -/
theorem closing_of_opening {line : Text} (h : opening.opens line = true) :
    closing.opens line = false := by
  refine Bool.eq_false_iff.mpr fun hclosing => ?_
  have hend : line.firstInk?.map Symbol.folded = some (.char 'e') :=
    Pattern.folded_firstInk?_of_opens (by decide) hclosing
  rw [firstInk?_of_opening h] at hend
  exact absurd hend (by decide)

/-- A line that opens a block holds the keyword and blanks only, but for a line end. -/
theorem not_mem_of_opening {s : Symbol} {line : Text} (h : opening.opens line = true)
    (hs : opening.allows s = false) (hend : s ≠ Symbol.lineFeed) : s ∉ line := by
  obtain ⟨w, rest, groups, rfl, hm⟩ := Pattern.opens_iff.mp h
  have hw : s ∉ w := hm.not_mem hs
  simp only [opening, Pattern.matches_inOrder_cons, Pattern.matches_finish] at hm
  obtain ⟨_, _, _, _, -, -, -, _, _, _, _, -, -, -, _, _, _, _, -, -, -, _, gap, _, _, -, -,
    ⟨hfinish, -⟩, -⟩ := hm
  rw [List.mem_append, not_or]
  refine ⟨hw, fun hmem => ?_⟩
  have hmem := List.mem_append_right gap hmem
  rcases hfinish with hfinish | hfinish <;> rw [hfinish] at hmem
  · cases hmem
  · exact hend (List.mem_singleton.mp hmem)

/-- A line that sets the value of a sequence opens no block: there is more on it than the
keyword. -/
theorem opening_of_marker {line : Text} (h : SequenceValue.marker.occursIn line = true) :
    opening.opens line = false := by
  refine Bool.eq_false_iff.mpr fun hopens => ?_
  obtain ⟨before, after, rfl⟩ := Pattern.occursIn_word_iff.mp h
  refine not_mem_of_opening (s := .char '.') hopens (by decide) (by decide) ?_
  exact List.mem_append_left _ (List.mem_append_right _ (by decide))

end Block

namespace Statement

/-- The letter, in either case, with which a statement of the kind starts. -/
def letter : Statement → Symbol
  | createTable => 'c'
  | alterTable => 'a'
  | insert => 'i'
  | block => 'b'

theorem letter_of_opens {kind : Statement} {line : Text} (h : kind.opening.opens line = true) :
    line.firstInk?.map Symbol.folded = some kind.letter := by
  cases kind with
  | createTable | alterTable | insert =>
    rw [Pattern.firstInk?_of_opens (by decide) h]
    decide
  | block => exact Block.firstInk?_of_opening h

/-- A line opens one kind of statement at most. -/
theorem eq_of_opens {kind other : Statement} {line : Text} (h : kind.opening.opens line = true)
    (h' : other.opening.opens line = true) : kind = other := by
  have hletter : kind.letter = other.letter :=
    Option.some.inj ((letter_of_opens h).symm.trans (letter_of_opens h'))
  revert hletter
  cases kind <;> cases other <;> decide

end Statement

namespace LineKind

/-- Outside of statements, and in an INSERT statement as well, a line that opens a kind of statement
is taken for it. -/
theorem of_opens {context : Option Statement}
    (hcontext : context = none ∨ context = some .insert) {kind : Statement} {line : Text}
    (h : kind.opening.opens line = true)
    (hvalue : SequenceValue.marker.occursIn line = false) : of context line = .statement kind := by
  have hother (other : Statement) (hne : other ≠ kind) : other.opening.opens line = false :=
    Bool.eq_false_iff.mpr fun hopens => hne (Statement.eq_of_opens hopens h)
  have hb := hother .block
  have hc := hother .createTable
  have ha := hother .alterTable
  have hi := hother .insert
  simp only [Statement.opening] at hb hc ha hi h
  rcases hcontext with rfl | rfl <;> unfold of <;> cases kind <;> simp_all

/-- A line that sets the value of a sequence does so outside of blocks, whatever is open. -/
theorem of_marker {context : Option Statement} (hcontext : context ≠ some .block) {line : Text}
    (h : SequenceValue.marker.occursIn line = true) : of context line = .sequenceValue := by
  unfold of
  rw [if_neg (by simp [hcontext, Block.opening_of_marker h]), if_pos h]

/-- The lines that are taken for sequence values. -/
theorem of_eq_sequenceValue_iff {context : Option Statement} {line : Text} :
    of context line = .sequenceValue ↔
      context ≠ some .block ∧ Block.opening.opens line = false ∧
        SequenceValue.marker.occursIn line = true := by
  constructor
  · intro h
    unfold of at h
    repeat' split at h
    all_goals cases h
    next hblock hmarked =>
      simp only [Bool.or_eq_true, decide_eq_true_eq, not_or] at hblock
      exact ⟨hblock.1, Bool.eq_false_iff.mpr hblock.2, hmarked⟩
  · rintro ⟨hcontext, -, hmarked⟩
    exact of_marker hcontext hmarked

/-- A line that opens no statement belongs to the one that is open. -/
theorem of_continues (current : Statement) {line : Text}
    (h : ∀ kind : Statement, kind.opening.opens line = false)
    (hvalue : SequenceValue.marker.occursIn line = false) :
    of (some current) line = .statement current := by
  have hb := h .block
  have hc := h .createTable
  have ha := h .alterTable
  have hi := h .insert
  simp only [Statement.opening] at hb hc ha hi
  unfold of
  cases current <;> simp_all

end LineKind

end DumpDialect
