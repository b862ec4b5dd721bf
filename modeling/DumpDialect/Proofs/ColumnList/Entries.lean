import DumpDialect.Proofs.Identifier
import DumpDialect.Proofs.Text.Pieces

/-!
# The entries of a list of columns

Commas separate the entries of a list. The blanks around an entry are not part of its name, and an
entry without a name counts for nothing. So a list can be read entry by entry, from the front.

- `Text.trim_eq_self_of_ends`, `Text.trim_subset`, `Text.trim_between`: what trimming drops.
- `ColumnList.names_append_cons`, `ColumnList.names_of_not_mem`: the first entry, and the only one.
- `ColumnList.names_joined_append`: a list, entry by entry.
- `ColumnList.comma_not_mem`: no name holds a comma.
-/

namespace DumpDialect

/-! ## Trimming -/

namespace Text

variable {t gap : Text}

/-- A text with no blank at its ends has nothing to trim. -/
theorem trim_eq_self_of_ends (hfirst : ∀ s ∈ t.head?, s.isBlank = false)
    (hlast : ∀ s ∈ t.getLast?, s.isBlank = false) : t.trim = t := by
  have hkept {u : Text} (hu : ∀ s ∈ u.head?, s.isBlank = false) :
      u.dropWhile Symbol.isBlank = u := by
    cases u with
    | nil => rfl
    | cons s u => rw [List.dropWhile_cons_of_neg (by simp [hu s rfl])]
  rw [← List.head?_reverse] at hlast
  rw [trim, trimStart, hkept hfirst, dropEndWhile, hkept hlast, List.reverse_reverse]

theorem trim_eq_self (h : ∀ s ∈ t, s.isBlank = false) : t.trim = t :=
  trim_eq_self_of_ends (fun s hs => h s (List.mem_of_mem_head? hs))
    fun s hs => h s (List.mem_of_mem_getLast? hs)

/-- Between two quotes nothing is trimmed. -/
theorem trim_enclosed {quote : Symbol} (hquote : quote.isBlank = false) (inner : Text) :
    trim (quote :: inner ++ [quote]) = quote :: inner ++ [quote] := by
  refine trim_eq_self_of_ends (fun s hs => ?_) (fun s hs => ?_)
  · obtain rfl : quote = s := Option.some.inj hs
    exact hquote
  · rw [List.getLast?_concat] at hs
    obtain rfl : quote = s := Option.some.inj hs
    exact hquote

theorem trim_subset (t : Text) : t.trim ⊆ t := by
  intro s hs
  rw [trim, dropEndWhile, List.mem_reverse] at hs
  have hs := List.mem_reverse.mp ((List.dropWhile_sublist _).subset hs)
  exact (List.dropWhile_sublist _).subset hs

/-- Trimming leaves the first symbol of a text in front if it is no blank. -/
theorem exists_trim_cons {s : Symbol} (hs : s.isBlank = false) (t : Text) :
    ∃ u, trim (s :: t) = s :: u := by
  have hstart : trimStart (s :: t) = s :: t := List.dropWhile_cons_of_neg (by simp [hs])
  have hprefix : trim (s :: t) <+: s :: t := by
    rw [trim, hstart, dropEndWhile, ← List.reverse_suffix, List.reverse_reverse]
    exact List.dropWhile_suffix Symbol.isBlank
  have hne : trim (s :: t) ≠ [] := by
    rw [trim, hstart, dropEndWhile]
    intro hnil
    have hall := List.dropWhile_eq_nil_iff.mp (List.reverse_eq_nil_iff.mp hnil)
    have hblank := hall s (by simp)
    rw [hs] at hblank
    cases hblank
  obtain ⟨s', u, hu⟩ := List.exists_cons_of_ne_nil hne
  rw [hu] at hprefix ⊢
  exact ⟨u, by rw [(List.cons_prefix_cons.mp hprefix).1]⟩

theorem trim_blank_append (hgap : ∀ s ∈ gap, s.isBlank = true) (t : Text) :
    trim (gap ++ t) = trim t := by
  unfold trim trimStart
  rw [List.dropWhile_append_of_pos hgap]

theorem trim_append_blank (hgap : ∀ s ∈ gap, s.isBlank = true) (t : Text) :
    trim (t ++ gap) = trim t := by
  unfold trim trimStart
  rw [List.dropWhile_append]
  split
  · -- The text is blank itself, and nothing is left of either.
    next hblank => rw [List.isEmpty_iff.mp hblank, List.dropWhile_eq_nil_iff.mpr hgap]
  · rw [dropEndWhile, List.reverse_append, List.dropWhile_append_of_pos (by simpa using hgap),
      dropEndWhile]

/-- The blanks around a text that has none at its ends are trimmed away. -/
theorem trim_between {before after : Text} (hbefore : ∀ s ∈ before, s.isBlank = true)
    (hafter : ∀ s ∈ after, s.isBlank = true) (ht : t.trim = t) :
    trim (before ++ t ++ after) = t := by
  rw [trim_append_blank hafter, trim_blank_append hbefore, ht]

end Text

/-! ## Entries -/

namespace ColumnList

theorem names_of_not_mem {entry : Text} (hcomma : .char ',' ∉ entry) (hne : entry.trim ≠ []) :
    names entry = [entry.trim] := by
  rw [names, Text.fields_of_not_mem hcomma, List.map_singleton,
    List.filter_cons_of_pos (by simpa using hne), List.filter_nil]

theorem names_append_cons {first rest : Text} (hcomma : .char ',' ∉ first)
    (hne : first.trim ≠ []) : names (first ++ .char ',' :: rest) = first.trim :: names rest := by
  rw [names, Text.fields_append_cons, Text.fields_of_not_mem hcomma, List.singleton_append,
    List.map_cons, List.filter_cons_of_pos (by simpa using hne), names]

/-- A list of blanks has no names. -/
theorem names_of_blank {gap : Text} (hgap : ∀ s ∈ gap, s.isBlank = true) : names gap = [] := by
  have hcomma : .char ',' ∉ gap := fun hmem => absurd (hgap _ hmem) (by decide)
  have htrim : gap.trim = [] := Text.trim_append_blank hgap []
  rw [names, Text.fields_of_not_mem hcomma, List.map_singleton, htrim]
  rfl

/-- A list is read entry by entry, and blanks at its end do not matter. -/
theorem names_joined_append {entries : List Text} {gap : Text}
    (hgap : ∀ s ∈ gap, s.isBlank = true)
    (hentries : ∀ entry ∈ entries, .char ',' ∉ entry ∧ entry.trim ≠ []) :
    names (Text.joined "," entries ++ gap) = entries.map Text.trim := by
  have hseparator : Text.ofString "," = [.char ','] := by decide
  have hnone : .char ',' ∉ gap := fun hmem => absurd (hgap _ hmem) (by decide)
  induction entries with
  | nil => exact names_of_blank hgap
  | cons entry entries ih =>
    obtain ⟨⟨hcomma, hne⟩, hmore⟩ := List.forall_mem_cons.mp hentries
    cases entries with
    | nil =>
      have hjoined : Text.joined "," [entry] = entry := List.append_nil entry
      have htrim := Text.trim_append_blank hgap entry
      rw [hjoined, names_of_not_mem (by simp [hcomma, hnone]) (htrim ▸ hne), htrim]
      rfl
    | cons next entries =>
      rw [Text.joined_cons_cons, hseparator, List.append_assoc, List.append_assoc,
        List.singleton_append, names_append_cons hcomma hne, ← hseparator, ih hmore]
      rfl

theorem comma_not_mem {columns name : Text} (h : name ∈ names columns) : .char ',' ∉ name := by
  obtain ⟨field, hfield, rfl⟩ := List.mem_map.mp (List.mem_of_mem_filter h)
  exact fun hmem => Text.not_mem_of_mem_fields hfield (Text.trim_subset field hmem)

end ColumnList

end DumpDialect
