import DumpDialect.Proofs.Insert.Line
import DumpDialect.Proofs.Text.Pieces

/-!
# String literals

pg_dump writes a text value between single quotes and doubles the single quotes in it; a backslash
stands for itself there. MySQL reads a backslash as an escape of the symbol behind it. So a value
comes through if each backslash of it is doubled, or stands in front of `%` or `_`, where MySQL
keeps it.

- `mem_fields_doubleQuotes`: what stands between the quotes of a literal.
- `doubleBackslashes_append`, `doubleBackslashes_doubleBackslashes`: doubling some backslashes.
- `readBack_of_escapesOnly`: the values that MySQL reads back.
-/

namespace DumpDialect

/-! ## Stretches between quotes -/

/-- Doubling the quotes of a text puts an empty field between its fields. -/
theorem fields_doubleQuotes (quote : Symbol) (t : Text) :
    (doubleQuotes quote t).fields quote = (t.fields quote).intersperse [] := by
  induction t with
  | nil => rfl
  | cons s t ih =>
    obtain ⟨field, more, hfields⟩ := List.exists_cons_of_ne_nil (Text.fields_ne_nil quote t)
    rw [hfields] at ih
    by_cases hs : s = quote
    · simp [doubleQuotes_cons, Text.fields, hs, ih, hfields]
    · rw [doubleQuotes_cons, if_neg hs, List.singleton_append, Text.fields, if_neg hs,
        ih, Text.fields, if_neg hs, hfields]
      cases more <;> rfl

theorem mem_fields_doubleQuotes {quote : Symbol} {t field : Text}
    (h : field ∈ (doubleQuotes quote t).fields quote) : field = [] ∨ field ∈ t.fields quote := by
  rw [fields_doubleQuotes] at h
  generalize t.fields quote = fields at h ⊢
  induction fields with
  | nil => cases h
  | cons first more ih =>
    cases more with
    | nil => exact .inr h
    | cons second more =>
      rw [List.intersperse_cons_cons, List.mem_cons, List.mem_cons] at h
      rcases h with rfl | rfl | h
      · exact .inr List.mem_cons_self
      · exact .inl rfl
      · exact (ih h).imp_right (List.mem_cons_of_mem first)

namespace Insert

/-- The backslash, which is an escape for MySQL only. -/
abbrev backslash : Symbol := .char '\\'

/-- A text value as pg_dump writes it. -/
def dumped (value : Text) : Text := quote :: doubleQuotes quote value ++ [quote]

/-! ## Literals of MySQL -/

/-- What a backslash and the symbol behind it stand for in a literal of MySQL. -/
def unescaped : Symbol → Text
  | .char 'n' => [.char '\n']
  | .char 't' => [.char '\t']
  | .char 'r' => [.char '\r']
  | .char '0' => [.char '\x00']
  | .char 'b' => [.char '\x08']
  | .char 'Z' => [.char '\x1A']
  | .char '%' => [backslash, .char '%']
  | .char '_' => [backslash, .char '_']
  | s => [s]

/-- What MySQL reads of a literal from behind its opening quote on, if the text ends with the quote
that closes the literal: a doubled quote is a quote, and a backslash escapes the symbol behind
it. -/
def restValue? : Text → Option Text
  | [] => none
  | s :: rest =>
    if s = quote then
      match rest with
      | [] => some []
      | s' :: rest => if s' = quote then (restValue? rest).map (quote :: ·) else none
    else if s = backslash then
      match rest with
      | [] => none
      | s' :: rest => (restValue? rest).map (unescaped s' ++ ·)
    else (restValue? rest).map (s :: ·)

/-- The value of a literal of MySQL; none if the text is no literal, or not a single one. -/
def literalValue? : Text → Option Text
  | [] => none
  | s :: rest => if s = quote then restValue? rest else none

theorem restValue?_quote (t : Text) :
    restValue? (quote :: quote :: t) = (restValue? t).map (quote :: ·) := rfl

theorem restValue?_backslash (s : Symbol) (t : Text) :
    restValue? (backslash :: s :: t) = (restValue? t).map (unescaped s ++ ·) := rfl

theorem restValue?_of_ne {s : Symbol} (hquote : s ≠ quote) (hback : s ≠ backslash) (t : Text) :
    restValue? (s :: t) = (restValue? t).map (s :: ·) := by
  rw [restValue?.eq_def]
  simp only [if_neg hquote, if_neg hback]

/-! ## Backslashes -/

/-- Each backslash of the text stands right in front of a symbol of the class. -/
def escapesOnly (ok : Symbol → Bool) : Text → Bool
  | [] => true
  | s :: rest => (s ≠ backslash || rest.head?.any ok) && escapesOnly ok rest

theorem escapesOnly_iff {ok : Symbol → Bool} {t : Text} :
    escapesOnly ok t = true ↔
      ∀ before after, t = before ++ backslash :: after → ∃ s rest, after = s :: rest ∧ ok s := by
  induction t with
  | nil => simp [escapesOnly]
  | cons s t ih =>
    simp only [escapesOnly, Bool.and_eq_true, ih]
    constructor
    · rintro ⟨hs, ht⟩ before after hsplit
      cases before with
      | nil =>
        obtain ⟨rfl, rfl⟩ := List.cons.inj hsplit
        cases t with
        | nil => simp at hs
        | cons s t => exact ⟨s, t, rfl, by simpa using hs⟩
      | cons _ before => exact ht before after (List.cons.inj hsplit).2
    · intro h
      refine ⟨?_, fun before after hsplit => h (s :: before) after (congrArg (s :: ·) hsplit)⟩
      by_cases hs : s = backslash
      · obtain ⟨s', rest, rfl, hs'⟩ := h [] t (congrArg (· :: t) hs)
        simp [hs']
      · simp [hs]

section Escapes

variable {ok : Symbol → Bool} {t u : Text}

theorem escapesOnly_of_not_mem (h : backslash ∉ t) : escapesOnly ok t = true := by
  refine escapesOnly_iff.mpr fun before after hsplit => absurd ?_ h
  simp [hsplit]

theorem escapesOnly_append (ht : escapesOnly ok t = true) (hu : escapesOnly ok u = true) :
    escapesOnly ok (t ++ u) = true := by
  induction t with
  | nil => exact hu
  | cons s t ih =>
    rw [escapesOnly, Bool.and_eq_true] at ht
    rw [List.cons_append, escapesOnly, ih ht.2, Bool.and_true]
    cases t with
    | nil =>
      have hs : s ≠ backslash := by simpa using ht.1
      simp [hs]
    | cons s' t => exact ht.1

theorem escapesOnly_doubleQuotes (h : escapesOnly ok t = true) :
    escapesOnly ok (doubleQuotes quote t) = true := by
  induction t with
  | nil => rfl
  | cons s t ih =>
    rw [escapesOnly, Bool.and_eq_true] at h
    rw [doubleQuotes_cons]
    by_cases hs : s = quote
    · rw [if_pos hs]
      exact escapesOnly_append (escapesOnly_of_not_mem (by decide)) (ih h.2)
    · rw [if_neg hs, List.singleton_append, escapesOnly, ih h.2, Bool.and_true]
      -- The symbol behind a backslash is still behind it: of a doubled quote it is the first.
      cases t with
      | nil => exact h.1
      | cons s' t =>
        rw [doubleQuotes_cons]
        by_cases hs' : s' = quote
        · rw [if_pos hs']
          simpa [hs'] using h.1
        · rw [if_neg hs']
          exact h.1

end Escapes

/-- The text with a backslash doubled if one of the words stands right behind it. -/
def doubleBackslashes (words : List Text) : Text → Text
  | [] => []
  | s :: rest =>
    if s = backslash ∧ words.any (·.isPrefixOf rest) = true then
      backslash :: backslash :: doubleBackslashes words rest
    else s :: doubleBackslashes words rest

section Doubling

variable {words : List Text}

theorem doubleBackslashes_of_ne {s : Symbol} (hs : s ≠ backslash) (rest : Text) :
    doubleBackslashes words (s :: rest) = s :: doubleBackslashes words rest := by
  rw [doubleBackslashes, if_neg (mt And.left hs)]

/-- In front of the first backslash nothing changes. -/
theorem doubleBackslashes_append {t : Text} (ht : backslash ∉ t) (rest : Text) :
    doubleBackslashes words (t ++ rest) = t ++ doubleBackslashes words rest := by
  induction t with
  | nil => rfl
  | cons s t ih =>
    rw [List.mem_cons, not_or] at ht
    rw [List.cons_append, doubleBackslashes_of_ne (Ne.symm ht.1), ih ht.2]
    rfl

theorem doubleBackslashes_of_not_mem {t : Text} (ht : backslash ∉ t) :
    doubleBackslashes words t = t := by
  rw [← List.append_nil t, doubleBackslashes_append ht, doubleBackslashes, List.append_nil]

/-- A backslash that is doubled stands in front of a backslash. -/
theorem escapesOnly_doubleBackslashes (words : List Text) {ok : Symbol → Bool} {t : Text}
    (h : escapesOnly ok t = true) :
    escapesOnly (fun s => s = backslash || ok s) (doubleBackslashes words t) = true := by
  induction t with
  | nil => rfl
  | cons s t ih =>
    rw [escapesOnly, Bool.and_eq_true] at h
    -- Doubling puts a backslash behind a backslash and leaves the first symbol of a text as it is.
    have hhead : (doubleBackslashes words t).head? = t.head? := by
      cases t with
      | nil => rfl
      | cons s t =>
        rw [doubleBackslashes]
        split
        · next hs => rw [hs.1, List.head?_cons, List.head?_cons]
        · rfl
    have hbehind : s = backslash →
        (doubleBackslashes words t).head?.any (fun s => s = backslash || ok s) = true := by
      rintro rfl
      rw [hhead]
      cases t <;> simp_all
    rw [doubleBackslashes]
    split
    · next hs => simp [escapesOnly, ih h.2, hbehind hs.1]
    · rw [escapesOnly, ih h.2, Bool.and_true]
      by_cases hs : s = backslash
      · simp [hbehind hs]
      · simp [hs]

/-- A word without backslashes stands at the start of both texts or of neither. -/
theorem isPrefixOf_doubleBackslashes {w : Text} (hw : backslash ∉ w) (t : Text) :
    w.isPrefixOf (doubleBackslashes words t) = w.isPrefixOf t := by
  induction w generalizing t with
  | nil => simp
  | cons a w ih =>
    rw [List.mem_cons, not_or] at hw
    cases t with
    | nil => rfl
    | cons s t =>
      rw [doubleBackslashes]
      split
      · next hs =>
        obtain ⟨rfl, -⟩ := hs
        have ha : (a == backslash) = false := beq_false_of_ne (Ne.symm hw.1)
        rw [List.isPrefixOf_cons_cons, List.isPrefixOf_cons_cons, ha, Bool.false_and,
          Bool.false_and]
      · rw [List.isPrefixOf_cons_cons, List.isPrefixOf_cons_cons, ih hw.2]

theorem head?_of_isPrefixOf {w t : Text} (hne : w ≠ []) (h : w.isPrefixOf t = true) :
    w.head? = t.head? := by
  obtain ⟨a, w, rfl⟩ := List.exists_cons_of_ne_nil hne
  obtain ⟨rest, rfl⟩ := List.isPrefixOf_iff_prefix.mp h
  rfl

/-- Doubling backslashes for some words and then for others is doubling them for all, if words of
both kinds begin with different symbols. -/
theorem doubleBackslashes_doubleBackslashes {more : List Text} (hwords : ∀ w ∈ words, w ≠ [])
    (hmore : ∀ w ∈ more, w ≠ [] ∧ backslash ∉ w)
    (hapart : ∀ w ∈ words, ∀ w' ∈ more, w.head? ≠ w'.head?) (t : Text) :
    doubleBackslashes more (doubleBackslashes words t) = doubleBackslashes (words ++ more) t := by
  have hnone (t : Text) : more.any (·.isPrefixOf (backslash :: t)) = false := by
    rw [List.any_eq_false]
    intro w hw hstarts
    obtain ⟨hne, hback⟩ := hmore w hw
    obtain ⟨a, w, rfl⟩ := List.exists_cons_of_ne_nil hne
    simp only [List.isPrefixOf_cons_cons, Bool.and_eq_true, beq_iff_eq] at hstarts
    simp [hstarts.1] at hback
  have hsame (t : Text) : more.any (·.isPrefixOf (doubleBackslashes words t)) =
      more.any (·.isPrefixOf t) := by
    rw [Bool.eq_iff_iff, List.any_eq_true, List.any_eq_true]
    refine exists_congr fun w => and_congr_right fun hw => ?_
    rw [isPrefixOf_doubleBackslashes (hmore w hw).2]
  induction t with
  | nil => rfl
  | cons s t ih =>
    by_cases hs : s = backslash
    · subst hs
      simp only [doubleBackslashes, true_and, List.any_append, Bool.or_eq_true]
      -- A backslash doubled for the first words is not doubled again: the second one begins no
      -- word, and the text behind it begins none of the others.
      by_cases hany : words.any (·.isPrefixOf t) = true
      · have hothers : more.any (·.isPrefixOf t) = false := by
          obtain ⟨w, hw, hstarts⟩ := List.any_eq_true.mp hany
          rw [List.any_eq_false]
          intro w' hw' hstarts'
          refine hapart w hw w' hw' ?_
          rw [head?_of_isPrefixOf (hwords w hw) hstarts,
            head?_of_isPrefixOf (hmore w' hw').1 hstarts']
        simp [hany, doubleBackslashes, hnone, hsame, hothers, ih]
      · simp [hany, doubleBackslashes, hsame, ih]
    · rw [doubleBackslashes_of_ne hs, doubleBackslashes_of_ne hs, doubleBackslashes_of_ne hs, ih]

end Doubling

/-! ## Values that come through -/

/-- The words in front of which a backslash is doubled: in a dumped literal these are the escapes of
newline and tab and the two quotes. -/
def escapedWords : List Text :=
  [[.char 'n'], [.char 't'], [quote, quote], [Identifier.doubleQuote]]

/-- The symbols behind a backslash for which the backslash comes through: it is doubled in front of
them, or MySQL keeps it. -/
def escapedSymbols : Text :=
  [.char 'n', .char 't', quote, Identifier.doubleQuote, .char '%', .char '_']

/-- In front of one of the symbols a backslash is doubled, or it is kept with the symbol. -/
theorem escaped_cases {s : Symbol} (hs : s.isIn escapedSymbols = true) :
    (∀ t rest : Text,
      escapedWords.any (·.isPrefixOf (doubleQuotes quote (s :: t) ++ rest)) = true) ∨
    s ≠ quote ∧ s ≠ backslash ∧ unescaped s = [backslash, s] ∧
      ∀ t, escapedWords.any (·.isPrefixOf (s :: t)) = false := by
  simp only [Symbol.isIn, escapedSymbols, List.contains_cons, List.contains_nil, Bool.or_false,
    Bool.or_eq_true, beq_iff_eq] at hs
  rcases hs with rfl | rfl | rfl | rfl | rfl | rfl
  · exact .inl fun t rest => rfl
  · exact .inl fun t rest => rfl
  · exact .inl fun t rest => rfl
  · exact .inl fun t rest => rfl
  · exact .inr ⟨by decide, by decide, rfl, fun t => rfl⟩
  · exact .inr ⟨by decide, by decide, rfl, fun t => rfl⟩

/-- What is written for the literal of the value in front of `after` is a literal that MySQL reads
as the value. -/
def ReadBack (after value : Text) : Prop :=
  ∃ w, doubleBackslashes escapedWords (doubleQuotes quote value ++ quote :: after) =
      w ++ quote :: after ∧
    restValue? (w ++ [quote]) = some value

namespace ReadBack

variable {after value : Text} {s : Symbol}

theorem nil (hafter : backslash ∉ after) : ReadBack after [] := by
  refine ⟨[], doubleBackslashes_of_not_mem ?_, rfl⟩
  simpa [doubleQuotes] using hafter

theorem cons_quote (h : ReadBack after value) : ReadBack after (quote :: value) := by
  obtain ⟨w, hw, hread⟩ := h
  refine ⟨quote :: quote :: w, ?_, ?_⟩
  · rw [doubleQuotes_cons, if_pos rfl, List.append_assoc, doubleBackslashes_append (by decide), hw]
    rfl
  · rw [List.cons_append, List.cons_append, restValue?_quote, hread]
    rfl

theorem cons (hquote : s ≠ quote) (hback : s ≠ backslash) (h : ReadBack after value) :
    ReadBack after (s :: value) := by
  obtain ⟨w, hw, hread⟩ := h
  refine ⟨s :: w, ?_, ?_⟩
  · rw [doubleQuotes_cons, if_neg hquote, List.append_assoc, List.singleton_append,
      doubleBackslashes_of_ne hback, hw]
    rfl
  · rw [List.cons_append, restValue?_of_ne hquote hback, hread]
    rfl

theorem tail (hquote : s ≠ quote) (hback : s ≠ backslash) (h : ReadBack after (s :: value)) :
    ReadBack after value := by
  obtain ⟨w, hw, hread⟩ := h
  rw [doubleQuotes_cons, if_neg hquote, List.append_assoc, List.singleton_append,
    doubleBackslashes_of_ne hback] at hw
  cases w with
  | nil => exact absurd (List.cons.inj hw).1 hquote
  | cons s' w =>
    obtain ⟨rfl, hrest⟩ := List.cons.inj hw
    rw [List.cons_append, restValue?_of_ne hquote hback, Option.map_eq_some_iff] at hread
    obtain ⟨value', hread, hvalue⟩ := hread
    obtain ⟨-, rfl⟩ := List.cons.inj hvalue
    exact ⟨w, hrest, hread⟩

/-- A backslash comes through in front of the escaped symbols. In front of some of them it is
doubled, and in front of the others MySQL keeps it. -/
theorem cons_backslash (hs : s.isIn escapedSymbols = true) (h : ReadBack after (s :: value)) :
    ReadBack after (backslash :: s :: value) := by
  rcases escaped_cases hs with hdoubled | ⟨hquote, hback, hkept, hnone⟩
  · obtain ⟨w, hw, hread⟩ := h
    refine ⟨backslash :: backslash :: w, ?_, ?_⟩
    · rw [doubleQuotes_cons, if_neg (by decide), List.append_assoc, List.singleton_append,
        doubleBackslashes, if_pos ⟨rfl, hdoubled value _⟩, hw]
      rfl
    · rw [List.cons_append, List.cons_append, restValue?_backslash, hread]
      rfl
  · obtain ⟨w, hw, hread⟩ := h.tail hquote hback
    refine ⟨backslash :: s :: w, ?_, ?_⟩
    · rw [doubleQuotes_cons, if_neg (by decide), List.append_assoc, List.singleton_append,
        doubleQuotes_cons, if_neg hquote, List.append_assoc, List.singleton_append,
        doubleBackslashes, if_neg (by simp [hnone]), doubleBackslashes_of_ne hback, hw]
      rfl
    · rw [List.cons_append, List.cons_append, restValue?_backslash, hread, hkept]
      rfl

end ReadBack

/-- A value comes through if each of its backslashes stands in front of an escaped symbol. -/
theorem readBack_of_escapesOnly {after value : Text} (hafter : backslash ∉ after)
    (h : escapesOnly (Symbol.isIn escapedSymbols) value = true) : ReadBack after value := by
  induction value with
  | nil => exact .nil hafter
  | cons s value ih =>
    rw [escapesOnly, Bool.and_eq_true] at h
    obtain ⟨hs, hvalue⟩ := h
    by_cases hback : s = backslash
    · subst hback
      cases value with
      | nil => cases hs
      | cons c value => exact (ih hvalue).cons_backslash (by simpa using hs)
    · by_cases hquote : s = quote
      · subst hquote
        exact (ih hvalue).cons_quote
      · exact (ih hvalue).cons hquote hback

end Insert

end DumpDialect
