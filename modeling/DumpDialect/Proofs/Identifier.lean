import DumpDialect.Identifier
import DumpDialect.Proofs.Text.Splitting

/-!
# What quoting identifiers leaves alone

Quoting the identifiers of a list drops blanks, quotes and commas and adds backticks and commas.
All other symbols come through in their order.

- `mem_of_mem_doubleQuotes`, `mem_doubleQuotes_iff`, `infix_doubleQuotes_iff`: what doubling quotes
  adds.
- `length_doubleQuotes`, `count_doubleQuotes`, `doubleQuotes_append_ne`: how many symbols.
- `isBetween_iff`: a text with a quote at each end, as a word between quotes.
- `Identifier.quote_of_not_mem`, `Identifier.quote_inDoubleQuotes`: a bare name and one between
  double quotes.
- `Identifier.isBetween_quote`, `Identifier.quote_quote`: what was quoted is not quoted again.
- `Identifier.filter_quote` and `ColumnList.filter_quote`: the symbols that come through.
- `Identifier.not_mem_quote` and `ColumnList.not_mem_quote`: the symbols that are not added.
-/

namespace DumpDialect

variable {keep : Symbol → Bool}

/-! ## Texts -/

namespace Text

theorem filter_dropWhile {ok : Symbol → Bool} (h : ∀ s, ok s = true → keep s = false) (t : Text) :
    (t.dropWhile ok).filter keep = t.filter keep := by
  induction t with
  | nil => rfl
  | cons s t ih =>
    rw [List.dropWhile_cons]
    by_cases hs : ok s = true
    · rw [if_pos hs, ih, List.filter_cons_of_neg (by simp [h s hs])]
    · rw [if_neg hs]

theorem filter_trim (h : ∀ s, s.isBlank = true → keep s = false) (t : Text) :
    t.trim.filter keep = t.filter keep := by
  rw [trim, dropEndWhile, List.filter_reverse, filter_dropWhile h, List.filter_reverse,
    List.reverse_reverse, trimStart, filter_dropWhile h]

theorem joined_cons_cons (separator t u : Text) (texts : List Text) :
    joined separator (t :: u :: texts) = t ++ separator ++ joined separator (u :: texts) := by
  simp [joined, List.intercalate]

/-- A symbol of the texts and of what stands between them is all that joining them holds. -/
theorem not_mem_joined {s : Symbol} {separator : Text} (hseparator : s ∉ separator)
    {texts : List Text} (h : ∀ t ∈ texts, s ∉ t) : s ∉ joined separator texts := by
  induction texts with
  | nil => exact List.not_mem_nil
  | cons t texts ih =>
    obtain ⟨ht, htexts⟩ := List.forall_mem_cons.mp h
    cases texts with
    | nil => simpa [joined, List.intercalate] using ht
    | cons u texts =>
      rw [joined_cons_cons, List.mem_append, List.mem_append, not_or, not_or]
      exact ⟨⟨ht, hseparator⟩, ih htexts⟩

theorem filter_joined {separator : Text} (h : separator.filter keep = []) (texts : List Text) :
    (joined separator texts).filter keep = texts.flatMap (·.filter keep) := by
  induction texts with
  | nil => rfl
  | cons t texts ih =>
    cases texts with
    | nil => simp [joined, List.intercalate]
    | cons u texts =>
      rw [joined_cons_cons, List.filter_append, List.filter_append, h, ih, List.append_nil]
      rfl

/-- The fields of a text hold all of it but the separators. -/
theorem flatMap_fields {separator : Symbol} (h : keep separator = false) (t : Text) :
    (fields separator t).flatMap (·.filter keep) = t.filter keep := by
  have hseparator : [separator].filter keep = [] := by simp [h]
  rw [← filter_joined hseparator, joined_fields]

end Text

/-! ## Quotes -/

theorem mem_of_mem_doubleQuotes {quote s : Symbol} {t : Text} (h : s ∈ doubleQuotes quote t) :
    s = quote ∨ s ∈ t := by
  obtain ⟨s', hs', h⟩ := List.mem_flatMap.mp h
  by_cases hquote : s' = quote
  · rw [if_pos hquote] at h
    exact .inl (by simpa using h)
  · rw [if_neg hquote, List.mem_singleton] at h
    exact .inr (h ▸ hs')

theorem mem_doubleQuotes_iff {quote s : Symbol} {t : Text} (hs : s ≠ quote) :
    s ∈ doubleQuotes quote t ↔ s ∈ t := by
  refine ⟨fun h => (mem_of_mem_doubleQuotes h).resolve_left hs, fun h => ?_⟩
  exact List.mem_flatMap.mpr ⟨s, h, by simp [hs]⟩

private theorem prefix_doubleQuotes_iff {quote : Symbol} {v t : Text} (hv : quote ∉ v) :
    v <+: doubleQuotes quote t ↔ v <+: t := by
  induction t generalizing v with
  | nil => rfl
  | cons s t ih =>
    cases v with
    | nil => simp
    | cons s' v =>
      obtain ⟨hs', hv⟩ := not_or.mp (mt List.mem_cons.mpr hv)
      rw [doubleQuotes_cons]
      split
      · next hs =>
        subst hs
        simp only [List.cons_append, List.cons_prefix_cons, Ne.symm hs', false_and]
      · rw [List.singleton_append, List.cons_prefix_cons, List.cons_prefix_cons, ih hv]

/-- A word without quotes stands where it stood. -/
theorem infix_doubleQuotes_iff {quote : Symbol} {v t : Text} (hv : quote ∉ v) :
    v <:+: doubleQuotes quote t ↔ v <:+: t := by
  -- A place that begins with the quote is none of the word, so both quotes of a pair can be passed.
  have hpass {u : Text} : v <:+: quote :: u ↔ v <:+: u := by
    rw [List.infix_cons_iff, or_iff_right_of_imp]
    intro h
    cases v with
    | nil => exact (List.nil_prefix).isInfix
    | cons s v =>
      obtain ⟨rfl, -⟩ := List.cons_prefix_cons.mp h
      exact absurd List.mem_cons_self hv
  induction t with
  | nil => rfl
  | cons s t ih =>
    rw [doubleQuotes_cons]
    split
    · next hs =>
      subst hs
      rw [List.cons_append, List.singleton_append, hpass, hpass, hpass]
      exact ih
    · next hs =>
      have hwhole := @prefix_doubleQuotes_iff quote v (s :: t) hv
      rw [doubleQuotes_cons, if_neg hs] at hwhole
      rw [List.singleton_append] at hwhole ⊢
      rw [List.infix_cons_iff, List.infix_cons_iff]
      exact or_congr hwhole ih

/-- Another symbol stands where it stood. -/
theorem exists_of_doubleQuotes_eq {quote s : Symbol} {t front back : Text} (hs : s ≠ quote)
    (h : doubleQuotes quote t = front ++ s :: back) :
    ∃ front' back', t = front' ++ s :: back' ∧ front = doubleQuotes quote front' := by
  induction t generalizing front with
  | nil => simp [doubleQuotes] at h
  | cons first t ih =>
    rw [doubleQuotes_cons] at h
    by_cases hfirst : first = quote
    · -- Neither of the two quotes is the symbol.
      rw [if_pos hfirst, List.cons_append, List.singleton_append] at h
      rcases front with _ | ⟨q, _ | ⟨q', front⟩⟩
      · exact absurd (List.cons.inj h).1.symm hs
      · exact absurd (List.cons.inj (List.cons.inj h).2).1.symm hs
      · obtain ⟨rfl, htail⟩ := List.cons.inj h
        obtain ⟨rfl, hrest⟩ := List.cons.inj htail
        obtain ⟨front', back', rfl, rfl⟩ := ih hrest
        exact ⟨first :: front', back', rfl, by rw [doubleQuotes_cons, if_pos hfirst]; rfl⟩
    · rw [if_neg hfirst, List.singleton_append] at h
      cases front with
      | nil =>
        obtain ⟨rfl, -⟩ := List.cons.inj h
        exact ⟨[], t, rfl, rfl⟩
      | cons q front =>
        obtain ⟨rfl, hrest⟩ := List.cons.inj h
        obtain ⟨front', back', rfl, rfl⟩ := ih hrest
        exact ⟨first :: front', back', rfl, by rw [doubleQuotes_cons, if_neg hfirst]; rfl⟩

theorem filter_doubleQuotes {quote : Symbol} (h : keep quote = false) (t : Text) :
    (doubleQuotes quote t).filter keep = t.filter keep := by
  induction t with
  | nil => rfl
  | cons s t ih =>
    rw [doubleQuotes, List.flatMap_cons, List.filter_append]
    rw [doubleQuotes] at ih
    rw [ih]
    by_cases hs : s = quote
    · simp [hs, h]
    · rw [if_neg hs, ← List.filter_append, List.singleton_append]

theorem filter_undoubleQuotes {quote : Symbol} (h : keep quote = false) (t : Text) :
    (undoubleQuotes quote t).filter keep = t.filter keep := by
  induction t using undoubleQuotes.induct quote with
  | case1 => rfl
  | case2 s => rfl
  | case3 s t rest hst ih =>
    obtain ⟨rfl, rfl⟩ := hst
    rw [undoubleQuotes, if_pos ⟨rfl, rfl⟩]
    simp [h, ih]
  | case4 s t rest hst ih =>
    rw [undoubleQuotes, if_neg hst, List.filter_cons, ih, ← List.filter_cons]

theorem doubleQuotes_append_cons {quote s : Symbol} (hs : s ≠ quote) (t u : Text) :
    doubleQuotes quote (t ++ s :: u) = doubleQuotes quote t ++ s :: doubleQuotes quote u := by
  rw [doubleQuotes_append, doubleQuotes_cons, if_neg hs, List.singleton_append]

theorem length_doubleQuotes (quote : Symbol) (t : Text) :
    (doubleQuotes quote t).length = t.length + t.count quote := by
  induction t with
  | nil => rfl
  | cons s t ih =>
    rw [doubleQuotes_cons, List.length_append, ih, List.length_cons, List.count_cons]
    by_cases hs : s = quote
    · simp [hs]
      omega
    · simp [hs]
      omega

theorem count_doubleQuotes (quote : Symbol) (t : Text) :
    (doubleQuotes quote t).count quote = 2 * t.count quote := by
  induction t with
  | nil => rfl
  | cons s t ih =>
    rw [doubleQuotes_cons, List.count_append, ih, List.count_cons]
    by_cases hs : s = quote
    · simp [hs]
      omega
    · simp [hs]

/-- A text between two quotes of which each quote is doubled does not end in a single quote. -/
theorem doubleQuotes_append_ne (quote : Symbol) (t u : Text) :
    doubleQuotes quote t ++ [quote] ≠ doubleQuotes quote u := fun h => by
  have hcount := congrArg (List.count quote) h
  rw [List.count_append, count_doubleQuotes, count_doubleQuotes,
    List.count_singleton_self] at hcount
  omega

/-- A single quote behind doubled ones is kept. -/
theorem undouble_double_concat (quote : Symbol) (t : Text) :
    undoubleQuotes quote (doubleQuotes quote t ++ [quote]) = t ++ [quote] := by
  induction t with
  | nil => rfl
  | cons s t ih =>
    rw [doubleQuotes_cons]
    by_cases hs : s = quote
    · subst hs
      simp [undoubleQuotes, ih]
    · have hne : doubleQuotes quote t ++ [quote] ≠ [] := by simp
      obtain ⟨s', rest, hrest⟩ := List.exists_cons_of_ne_nil hne
      rw [if_neg hs, List.append_assoc, hrest, List.singleton_append, undoubleQuotes,
        if_neg (fun h => hs h.1), ← hrest, ih, List.cons_append]

/-- A text has a quote at each end if it is a text between quotes. -/
theorem isBetween_iff {quote : Symbol} {t : Text} :
    isBetween quote t = true ↔ ∃ inner, t = quote :: inner ++ [quote] := by
  simp only [isBetween, Bool.and_eq_true, decide_eq_true_eq]
  constructor
  · rintro ⟨⟨hlen, hhead⟩, hlast⟩
    obtain ⟨rest, rfl⟩ := List.head?_eq_some_iff.mp hhead
    have hrest : rest ≠ [] := by
      rintro rfl
      simp at hlen
    rw [List.getLast?_cons_of_ne_nil hrest] at hlast
    obtain ⟨inner, rfl⟩ := List.getLast?_eq_some_iff.mp hlast
    exact ⟨inner, rfl⟩
  · rintro ⟨inner, rfl⟩
    exact ⟨⟨by simp, rfl⟩, List.getLast?_concat⟩

theorem isBetween_of_not_mem {quote : Symbol} {t : Text} (h : quote ∉ t) :
    isBetween quote t = false := by
  refine Bool.eq_false_iff.mpr fun hbetween => h ?_
  obtain ⟨inner, rfl⟩ := isBetween_iff.mp hbetween
  simp

theorem withoutEnds_between (quote : Symbol) (inner : Text) :
    withoutEnds (quote :: inner ++ [quote]) = inner := by
  simp [withoutEnds]

/-! ## Identifiers and lists of them -/

/-- What begins with a double quote does not stand between backticks. -/
theorem Identifier.isBetween_backtick_cons (t : Text) :
    isBetween backtick (doubleQuote :: t) = false := by
  refine Bool.eq_false_iff.mpr fun hbetween => ?_
  obtain ⟨inner, hinner⟩ := isBetween_iff.mp hbetween
  exact absurd (List.cons.inj hinner).1 (by decide)

/-- The name between double quotes, as PostgreSQL writes it. -/
def Identifier.inDoubleQuotes (name : Text) : Text :=
  doubleQuote :: doubleQuotes doubleQuote name ++ [doubleQuote]

variable [Quoting]

theorem Identifier.isBetween_inBackticks (name : Text) :
    isBetween backtick (Quoting.inBackticks name) = true :=
  isBetween_iff.mpr ⟨doubleQuotes backtick name, Quoting.inBackticks_eq name⟩

/-- The name between double quotes comes between backticks. -/
theorem Identifier.quote_inDoubleQuotes (name : Text) :
    quote (inDoubleQuotes name) = Quoting.inBackticks name := by
  have hbetween : isBetween doubleQuote
      (doubleQuote :: doubleQuotes doubleQuote name ++ [doubleQuote]) = true :=
    isBetween_iff.mpr ⟨_, rfl⟩
  rw [inDoubleQuotes, quote, List.cons_append, isBetween_backtick_cons,
    if_neg Bool.false_ne_true, ← List.cons_append, if_pos hbetween, withoutEnds_between,
    undouble_double]

/-- However it was written, an identifier ends up between backticks. -/
theorem Identifier.isBetween_quote (identifier : Text) :
    isBetween backtick (quote identifier) = true := by
  rw [quote]
  split
  · next hbetween => exact hbetween
  · split
    · exact isBetween_inBackticks _
    · exact isBetween_inBackticks identifier

/-- An identifier that was quoted is left alone. -/
theorem Identifier.quote_quote (identifier : Text) : quote (quote identifier) = quote identifier :=
  if_pos (isBetween_quote identifier)

theorem Identifier.filter_inBackticks (h : keep backtick = false) (name : Text) :
    (Quoting.inBackticks name).filter keep = name.filter keep := by
  simp [Quoting.inBackticks_eq, h, filter_doubleQuotes h]

/-- A bare name is put into backticks as it is. -/
theorem Identifier.quote_of_not_mem {name : Text} (hback : backtick ∉ name)
    (hdouble : doubleQuote ∉ name) : quote name = backtick :: name ++ [backtick] := by
  rw [quote, isBetween_of_not_mem hback, isBetween_of_not_mem hdouble,
    if_neg Bool.false_ne_true, if_neg Bool.false_ne_true, Quoting.plain name hback]

/-- Quoting an identifier changes quotes only. -/
theorem Identifier.filter_quote (hback : keep backtick = false) (hdouble : keep doubleQuote = false)
    (identifier : Text) : (quote identifier).filter keep = identifier.filter keep := by
  rw [quote]
  split
  · rfl
  · split
    · next hbetween =>
      obtain ⟨inner, rfl⟩ := isBetween_iff.mp hbetween
      rw [withoutEnds_between, filter_inBackticks hback, filter_undoubleQuotes hdouble]
      simp [hdouble]
    · exact filter_inBackticks hback identifier

/-- A symbol that is no quote is not added. -/
theorem Identifier.not_mem_quote {s : Symbol} (hback : s ≠ backtick) (hdouble : s ≠ doubleQuote)
    {identifier : Text} (h : s ∉ identifier) : s ∉ quote identifier := by
  intro hmem
  let keep : Symbol → Bool := (· == s)
  have hkeepback : keep backtick = false := beq_false_of_ne hback.symm
  have hkeepdouble : keep doubleQuote = false := beq_false_of_ne hdouble.symm
  have hkept : s ∈ (quote identifier).filter keep := List.mem_filter.mpr ⟨hmem, BEq.rfl⟩
  rw [filter_quote hkeepback hkeepdouble] at hkept
  exact h (List.mem_filter.mp hkept).1

/-- Quoting the names of a list changes blanks, quotes and commas only. -/
theorem ColumnList.filter_quote (hblank : ∀ s, s.isBlank = true → keep s = false)
    (hcomma : keep ',' = false) (hback : keep Identifier.backtick = false)
    (hdouble : keep Identifier.doubleQuote = false) (columns : Text) :
    (quote columns).filter keep = columns.filter keep := by
  have hnames : (names columns).flatMap (·.filter keep) =
      (columns.fields ',').flatMap (·.filter keep) := by
    rw [names]
    induction columns.fields ',' with
    | nil => rfl
    | cons field more ih =>
      rw [List.map_cons, List.filter_cons, List.flatMap_cons, ← ih,
        ← Text.filter_trim hblank field]
      split
      · rfl
      · next hempty =>
        have hnil : field.trim = [] := by simpa using hempty
        rw [hnil, List.filter_nil, List.nil_append]
  have hseparator : (Text.ofString ",").filter keep = [] := by
    rw [show Text.ofString "," = [.char ','] by decide]
    simp [hcomma]
  rw [quote, Text.filter_joined hseparator, List.flatMap_map]
  simp only [Identifier.filter_quote hback hdouble]
  rw [hnames, Text.flatMap_fields hcomma]

/-- A symbol that lists and quotes are not about is not added to a list. -/
theorem ColumnList.not_mem_quote {s : Symbol} (hblank : s.isBlank = false) (hcomma : s ≠ ',')
    (hback : s ≠ Identifier.backtick) (hdouble : s ≠ Identifier.doubleQuote) {columns : Text}
    (h : s ∉ columns) : s ∉ quote columns := by
  intro hmem
  let keep : Symbol → Bool := (· == s)
  have hkeepblank : ∀ s', s'.isBlank = true → keep s' = false := by
    refine fun s' hs' => beq_false_of_ne ?_
    rintro rfl
    rw [hblank] at hs'
    cases hs'
  have hkept : s ∈ (quote columns).filter keep := List.mem_filter.mpr ⟨hmem, BEq.rfl⟩
  rw [filter_quote hkeepblank (beq_false_of_ne hcomma.symm) (beq_false_of_ne hback.symm)
    (beq_false_of_ne hdouble.symm)] at hkept
  exact h (List.mem_filter.mp hkept).1

end DumpDialect
