import DumpDialect.Text.Line
import Mathlib.Data.List.TakeWhile

/-!
# Lines that are put together

A text that is put together of lines is cut into the same lines again, if none of them holds a line
end of its own. The last line may lack its LF.

- `Text.unifyLineEnds_eq_self`: a text without CR.
- `Text.lines_append_cons`: the first line of a text.
- `IsMadeOf.bareLines_eq`: the lines of a text that is made of them.
-/

namespace DumpDialect

/-- The pieces one after the other, each ended by `ending`, but that the last may lack it. -/
def IsMadeOf {α : Type} (ending : α) (pieces : List (List α)) (whole : List α) : Prop :=
  whole = pieces.flatMap (· ++ [ending]) ∨ whole ++ [ending] = pieces.flatMap (· ++ [ending])

namespace Text

/-- In a text without CR the lines end as they should. -/
theorem unifyLineEnds_eq_self {t : Text} (h : .carriageReturn ∉ t) : t.unifyLineEnds = t := by
  induction t with
  | nil => rfl
  | cons s t ih =>
    obtain ⟨hs, ht⟩ := not_or.mp (mt List.mem_cons.mpr h)
    rw [unifyLineEnds_cons, unifiedLineEnd, if_neg (Ne.symm hs), ih ht, List.singleton_append]

theorem lineStart_of_ne {s : Symbol} (hs : s ≠ .lineFeed) (line : Text) (more : List Text) :
    lineStart s (line :: more) = (s :: line) :: more := if_neg hs

theorem lines_append_cons {line : Text} (h : .lineFeed ∉ line) (rest : Text) :
    lines (line ++ .lineFeed :: rest) = (line ++ [.lineFeed]) :: lines rest := by
  induction line with
  | nil => rfl
  | cons s line ih =>
    obtain ⟨hs, hline⟩ := not_or.mp (mt List.mem_cons.mpr h)
    rw [List.cons_append, lines_cons, ih hline, lineStart_of_ne (Ne.symm hs), List.cons_append]

/-- The last line may lack its LF. -/
theorem lines_of_not_mem {line : Text} (hne : line ≠ []) (h : .lineFeed ∉ line) :
    lines line = [line] := by
  induction line with
  | nil => exact absurd rfl hne
  | cons s line ih =>
    obtain ⟨hs, hline⟩ := not_or.mp (mt List.mem_cons.mpr h)
    cases line with
    | nil => exact if_neg (Ne.symm hs)
    | cons s' line =>
      rw [lines_cons, ih (List.cons_ne_nil s' line) hline, lineStart_of_ne (Ne.symm hs)]

/-- The lines of a text without their endings. -/
def bareLines (t : Text) : List Text := t.lines.map withoutLineEnd

/-- The line holds no line end. -/
def IsBare (line : Text) : Prop := ∀ s ∈ line, s.isLineEnd = false

theorem IsBare.lineFeed_not_mem {line : Text} (h : line.IsBare) : Symbol.lineFeed ∉ line :=
  fun hmem => absurd (h _ hmem) (by decide)

/-- A run of symbols of a class stops at once where there is none. -/
theorem dropWhile_eq_self {ok : Symbol → Bool} {t : Text} (h : ∀ s ∈ t, ok s = false) :
    t.dropWhile ok = t := by
  rw [List.dropWhile_eq_self_iff]
  intro hpos
  rw [h _ (List.getElem_mem hpos)]
  exact Bool.false_ne_true

theorem IsBare.withoutLineEnd_append {line ending : Text} (h : line.IsBare)
    (hending : ∀ s ∈ ending, s.isLineEnd = true) : (line ++ ending).withoutLineEnd = line := by
  have hstop : ∀ s ∈ line.reverse, s.isLineEnd = false := fun s hs => h s (List.mem_reverse.mp hs)
  rw [withoutLineEnd, dropEndWhile, List.reverse_append,
    List.dropWhile_append_of_pos (by simpa using hending), dropWhile_eq_self hstop,
    List.reverse_reverse]

/-- The lines in front of the last. -/
theorem bareLines_flatMap_append {pieces : List Text} (h : ∀ line ∈ pieces, line.IsBare)
    (rest : Text) :
    bareLines (pieces.flatMap (· ++ [Symbol.lineFeed]) ++ rest) = pieces ++ bareLines rest := by
  induction pieces with
  | nil => rfl
  | cons line pieces ih =>
    obtain ⟨hline, hpieces⟩ := List.forall_mem_cons.mp h
    have hfirst : (line ++ [Symbol.lineFeed]).withoutLineEnd = line :=
      hline.withoutLineEnd_append (by decide)
    rw [List.flatMap_cons, List.append_assoc, List.append_assoc, List.singleton_append, bareLines,
      lines_append_cons hline.lineFeed_not_mem, List.map_cons, hfirst]
    exact congrArg (line :: ·) (ih hpieces)

end Text

theorem IsMadeOf.not_mem {α : Type} {ending s : α} {pieces : List (List α)} {whole : List α}
    (h : IsMadeOf ending pieces whole) (hs : s ≠ ending) (hpieces : ∀ p ∈ pieces, s ∉ p) :
    s ∉ whole := by
  have hnot : s ∉ pieces.flatMap (· ++ [ending]) := by
    intro hmem
    obtain ⟨p, hp, hmem⟩ := List.mem_flatMap.mp hmem
    rcases List.mem_append.mp hmem with hmem | hmem
    · exact hpieces p hp hmem
    · exact hs (List.mem_singleton.mp hmem)
  rcases h with rfl | h
  · exact hnot
  · exact fun hmem => hnot (h ▸ List.mem_append_left _ hmem)

/-- A text that is made of lines is cut into these lines. -/
theorem IsMadeOf.bareLines_eq {pieces : List Text} {t : Text}
    (hmade : IsMadeOf Symbol.lineFeed pieces t) (h : ∀ line ∈ pieces, line ≠ [] ∧ line.IsBare) :
    t.bareLines = pieces := by
  rcases hmade with rfl | hmade
  · have hlines := Text.bareLines_flatMap_append (fun line hline => (h line hline).2) []
    have hnil : Text.bareLines [] = [] := rfl
    rwa [List.append_nil, hnil, List.append_nil] at hlines
  · obtain rfl | ⟨pieces, last, rfl⟩ := List.eq_nil_or_concat pieces
    · exact absurd hmade (by simp)
    · simp only [List.concat_eq_append] at hmade h ⊢
      rw [List.flatMap_append, List.flatMap_singleton, ← List.append_assoc,
        List.append_left_inj] at hmade
      obtain ⟨hne, hlast⟩ := h last (by simp)
      have hend : last.withoutLineEnd = last := by
        have hnone : ∀ s ∈ ([] : Text), s.isLineEnd = true := by simp
        simpa using hlast.withoutLineEnd_append hnone
      rw [hmade, Text.bareLines_flatMap_append fun line hline => (h line (by simp [hline])).2,
        Text.bareLines, Text.lines_of_not_mem hne hlast.lineFeed_not_mem, List.map_singleton, hend]

end DumpDialect
