import DumpDialect.Proofs.Text.Line
import DumpDialect.Proofs.Text.Splitting
import Mathlib.Data.List.Chain

/-!
# The pieces of a text

A text is cut in front of each LF and behind it. What is cut off is a piece, and so is what stands
behind the last LF, unless that is empty. The reader of a dump sees its pieces, each without the CR
that may end it.

- `Text.fields_append_cons`, `Text.fields_of_not_mem`: the fields of a text, one after the other.
- `Text.subset_of_mem_fields`, `Text.not_mem_of_mem_fields`: what a field holds.
- `Text.not_infix_of_isChain_fields`: words that stand side by side in no two fields.
- `Text.lines_induction`: induction on the lines of a text.
- `Text.bareLines_eq_map_pieces`, `Text.pieces_cases`: no piece is lost, merged or doubled.
- `Text.fields_flatMap_concat`: lines that are written are read back.
-/

namespace DumpDialect.Text

variable {separator : Symbol}

/-! ## Fields -/

theorem fields_append_cons (t u : Text) :
    fields separator (t ++ separator :: u) = fields separator t ++ fields separator u := by
  induction t with
  | nil => simp [fields]
  | cons s t ih =>
    rw [List.cons_append, fields, fields, ih]
    split
    · rfl
    · obtain ⟨field, more, hfields⟩ := List.exists_cons_of_ne_nil (fields_ne_nil separator t)
      rw [hfields]
      rfl

theorem fields_of_not_mem {t : Text} (h : separator ∉ t) : fields separator t = [t] := by
  induction t with
  | nil => rfl
  | cons s t ih =>
    rw [List.mem_cons, not_or] at h
    obtain ⟨hs, ht⟩ := h
    rw [fields, if_neg (Ne.symm hs), ih ht]

/-- A field is a part of its text. -/
theorem subset_of_mem_fields {t field : Text} (h : field ∈ fields separator t) : field ⊆ t := by
  induction t generalizing field with
  | nil =>
    rw [fields, List.mem_singleton] at h
    exact h ▸ List.Subset.refl _
  | cons s t ih =>
    rw [fields] at h
    split at h
    · rcases List.mem_cons.mp h with rfl | h
      · exact List.nil_subset _
      · exact List.subset_cons_of_subset s (ih h)
    · split at h
      · next hfields => exact absurd hfields (fields_ne_nil separator t)
      · next first more hfields =>
        rw [hfields] at ih
        rcases List.mem_cons.mp h with rfl | h
        · exact List.cons_subset_cons s (ih List.mem_cons_self)
        · exact List.subset_cons_of_subset s (ih (List.mem_cons_of_mem first h))

/-- No field holds a separator. -/
theorem not_mem_of_mem_fields {t field : Text} (h : field ∈ fields separator t) :
    separator ∉ field := by
  induction t generalizing field with
  | nil =>
    rw [fields, List.mem_singleton] at h
    exact h ▸ List.not_mem_nil
  | cons s t ih =>
    rw [fields] at h
    split at h
    · rcases List.mem_cons.mp h with rfl | h
      · exact List.not_mem_nil
      · exact ih h
    · next hs =>
      obtain ⟨first, more, hfields⟩ := List.exists_cons_of_ne_nil (fields_ne_nil separator t)
      rw [hfields] at h ih
      rcases List.mem_cons.mp h with rfl | h
      · exact fun hmem => (List.mem_cons.mp hmem).elim (Ne.symm hs) (ih List.mem_cons_self)
      · exact ih (List.mem_cons_of_mem first h)

/-- Words that are written with a separator between neighbours are read back. -/
theorem fields_append_separated {w : Text} {words : List Text}
    (h : ∀ w' ∈ w :: words, separator ∉ w') :
    fields separator (w ++ separated separator words) = w :: words := by
  induction words generalizing w with
  | nil => rw [separated_nil, List.append_nil, fields_of_not_mem (h w List.mem_cons_self)]
  | cons w' words ih =>
    obtain ⟨hw, hwords⟩ := List.forall_mem_cons.mp h
    rw [separated_cons, List.cons_append, fields_append_cons, fields_of_not_mem hw, ih hwords]
    rfl

/-- What stands behind the last separator is part of the last field. -/
theorem exists_fields_append {w : Text} (hw : separator ∉ w) (t : Text) :
    ∃ front u, fields separator (t ++ w) = front ++ [u ++ w] := by
  induction t with
  | nil => exact ⟨[], [], fields_of_not_mem hw⟩
  | cons s t ih =>
    obtain ⟨front, u, hfields⟩ := ih
    rw [List.cons_append, fields, hfields]
    split
    · exact ⟨[] :: front, u, rfl⟩
    · cases front with
      | nil => exact ⟨[], s :: u, rfl⟩
      | cons field front => exact ⟨(s :: field) :: front, u, rfl⟩

/-- Two words, with a separator between them and one behind, stand in a text only if neighbours
among its fields are the second word and a field that ends with the first. -/
theorem not_infix_of_isChain_fields {w x y t : Text} (hw : separator ∉ w) (hx : separator ∉ x)
    (h : (fields separator t).IsChain fun a b => ¬ (w <:+ a ∧ b = x)) :
    ¬ w ++ separator :: (x ++ separator :: y) <:+: t := by
  rintro ⟨before, after, rfl⟩
  obtain ⟨front, u, hfields⟩ := exists_fields_append hw before
  have hsplit : before ++ (w ++ separator :: (x ++ separator :: y)) ++ after =
      before ++ w ++ separator :: (x ++ separator :: (y ++ after)) := by simp
  have hpair : [u ++ w, x] <:+: fields separator
      (before ++ w ++ separator :: (x ++ separator :: (y ++ after))) := by
    rw [fields_append_cons, fields_append_cons, fields_of_not_mem hx, hfields]
    exact ⟨front, fields separator (y ++ after), by simp⟩
  rw [hsplit] at h
  have hneighbours := List.IsChain.infix h hpair
  exact List.isChain_pair.mp hneighbours ⟨List.suffix_append u w, rfl⟩

/-- A stretch without separators that stands between two of them is a field. -/
theorem mem_fields_between {before field after : Text} (h : separator ∉ field) :
    field ∈ fields separator (before ++ separator :: (field ++ separator :: after)) := by
  rw [fields_append_cons, fields_append_cons, fields_of_not_mem h]
  simp

/-- Texts that are written with a separator behind each are read back, and the empty field behind
the last one. -/
theorem fields_flatMap_concat {texts : List Text} (h : ∀ t ∈ texts, separator ∉ t) :
    fields separator (texts.flatMap (· ++ [separator])) = texts ++ [[]] := by
  induction texts with
  | nil => rfl
  | cons t texts ih =>
    obtain ⟨ht, htexts⟩ := List.forall_mem_cons.mp h
    rw [List.flatMap_cons, List.append_assoc, List.singleton_append, fields_append_cons,
      fields_of_not_mem ht, ih htexts]
    rfl

/-! ## Lines -/

/-- Induction on the lines of a text, from the last one, which may lack its LF, to the first. -/
theorem lines_induction {P : Text → Prop} (nil : P [])
    (last : ∀ line, line ≠ [] → Symbol.lineFeed ∉ line → P line)
    (cons : ∀ line rest, Symbol.lineFeed ∉ line → P rest → P (line ++ .lineFeed :: rest))
    (t : Text) : P t := by
  by_cases hmem : Symbol.lineFeed ∈ t
  · obtain ⟨line, rest, rfl, hline⟩ := List.eq_append_cons_of_mem hmem
    exact cons line rest hline (lines_induction nil last cons rest)
  · by_cases ht : t = []
    · exact ht ▸ nil
    · exact last t ht hmem
termination_by t.length
decreasing_by simp_all; omega

theorem withoutLineEnd_concat (line : Text) :
    (line ++ [Symbol.lineFeed]).withoutLineEnd = line.withoutLineEnd := by
  rw [withoutLineEnd, dropEndWhile, List.reverse_concat, List.dropWhile_cons_of_pos (by decide)]
  rfl

/-! ## Pieces -/

/-- What stands in front of each LF of a text, and what stands behind the last one unless it is
empty. -/
def pieces (t : Text) : List Text :=
  let all := t.fields .lineFeed
  if all.getLast? = some [] then all.dropLast else all

@[simp] theorem pieces_nil : pieces [] = [] := rfl

theorem pieces_of_not_mem {line : Text} (hne : line ≠ []) (h : Symbol.lineFeed ∉ line) :
    pieces line = [line] := by
  rw [pieces, fields_of_not_mem h]
  exact if_neg (by simpa using hne)

theorem pieces_append_cons {line : Text} (h : Symbol.lineFeed ∉ line) (rest : Text) :
    pieces (line ++ .lineFeed :: rest) = line :: pieces rest := by
  obtain ⟨field, more, hfields⟩ := List.exists_cons_of_ne_nil (fields_ne_nil .lineFeed rest)
  rw [pieces, pieces, fields_append_cons, fields_of_not_mem h, hfields]
  simp only [List.singleton_append, List.getLast?_cons_cons, List.dropLast_cons_cons]
  split <;> rfl

/-- The lines of a text are its pieces, without the CR at their ends. -/
theorem bareLines_eq_map_pieces (t : Text) : t.bareLines = t.pieces.map withoutLineEnd := by
  induction t using lines_induction with
  | nil => rfl
  | last line hne hline =>
    rw [bareLines, lines_of_not_mem hne hline, pieces_of_not_mem hne hline]
  | cons line rest hline ih =>
    rw [bareLines] at ih ⊢
    rw [lines_append_cons hline, pieces_append_cons hline, List.map_cons, List.map_cons, ih,
      withoutLineEnd_concat]

/-- Each piece of a text ends with LF there, but that the last may end with the text; it is not
empty then. -/
theorem pieces_cases (t : Text) :
    t = t.pieces.flatMap (· ++ [Symbol.lineFeed]) ∨
      ∃ front last, last ≠ [] ∧ t.pieces = front ++ [last] ∧
        t = front.flatMap (· ++ [Symbol.lineFeed]) ++ last := by
  induction t using lines_induction with
  | nil => exact .inl rfl
  | last line hne hline => exact .inr ⟨[], line, hne, pieces_of_not_mem hne hline, rfl⟩
  | cons line rest hline ih =>
    rw [pieces_append_cons hline]
    rcases ih with h | ⟨front, last, hne, hpieces, h⟩
    · refine .inl ?_
      rw [List.flatMap_cons, ← h, List.append_assoc, List.singleton_append]
    · refine .inr ⟨line :: front, last, hne, by rw [hpieces, List.cons_append], ?_⟩
      rw [List.flatMap_cons, List.append_assoc, ← h, List.append_assoc, List.singleton_append]

theorem lineFeed_not_mem_of_mem_pieces {t piece : Text} (h : piece ∈ t.pieces) :
    Symbol.lineFeed ∉ piece := by
  induction t using lines_induction with
  | nil => cases h
  | last line hne hline =>
    rw [pieces_of_not_mem hne hline] at h
    exact List.mem_singleton.mp h ▸ hline
  | cons line rest hline ih =>
    rw [pieces_append_cons hline] at h
    rcases List.mem_cons.mp h with rfl | h
    · exact hline
    · exact ih h

end DumpDialect.Text
