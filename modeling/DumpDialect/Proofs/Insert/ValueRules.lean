import DumpDialect.Proofs.Insert.Literal

/-!
# The rules for values

The rules for values know nothing of where a literal begins and ends. They double a backslash in
front of a few symbols, cut off the zone of a timestamp and rewrite strings of bytes, wherever a
timestamp or a string of bytes fills the stretch between two quotes.

- `DoublesBackslashes.apply_eq`: a rule that doubles backslashes, on any text.
- `tabNewlineRule_doubles`, `doubles_word`: which rules do so.
- `timestampRule_matches`: what the zone is cut off of.
- `bytesRule_apply`: a text without strings of bytes.
- `applyRules_eq`, `applyRules_eq_self`: all of the rules.
-/

namespace DumpDialect.Insert

open Pattern

/-! ## Rules that double backslashes -/

/-- The rule replaces a backslash and one of the words behind it by two backslashes and the word,
everywhere. -/
structure DoublesBackslashes (r : Rule) (words : List Text) : Prop where
  scope : r.scope = .every
  noBackslash : ∀ w ∈ words, backslash ∉ w
  matches_word : ∀ w ∈ words, ∀ prev rest,
    ∃ groups, r.pattern.Matches prev (backslash :: w) rest groups
  replaces : ∀ w w', r.Replaces w w' →
    ∃ u ∈ words, w = backslash :: u ∧ w' = backslash :: backslash :: u

namespace DoublesBackslashes

variable {r : Rule} {words : List Text}

/-- From behind the symbols that a match covers already. -/
private theorem replaceAllFrom_eq (h : DoublesBackslashes r words) (prev : Option Symbol)
    (covered rest : Text) :
    r.pattern.replaceAllFrom r.replacement prev covered.length (covered ++ rest) =
      doubleBackslashes words rest := by
  -- By induction on the whole text: where symbols are covered it is only shortened.
  generalize ht : covered ++ rest = t
  induction t generalizing prev covered rest with
  | nil =>
    obtain ⟨rfl, rfl⟩ := List.append_eq_nil_iff.mp ht
    rfl
  | cons s t ih =>
    cases covered with
    | cons s' covered =>
      obtain ⟨rfl, rfl⟩ := List.cons.inj ht
      exact ih (some s') covered rest rfl
    | nil =>
      obtain rfl : rest = s :: t := ht
      cases hat : r.pattern.at? ⟨prev, s :: t⟩ with
      | none =>
        have hnone : ¬ (s = backslash ∧ words.any (·.isPrefixOf t) = true) := by
          rintro ⟨rfl, hany⟩
          obtain ⟨w, hw, hstarts⟩ := List.any_eq_true.mp hany
          obtain ⟨after, rfl⟩ := List.isPrefixOf_iff_prefix.mp hstarts
          obtain ⟨groups, hm⟩ := h.matches_word w hw prev after
          have hsome : (r.pattern.at? ⟨prev, backslash :: (w ++ after)⟩).isSome = true :=
            isSome_at?_iff.mpr ⟨backslash :: w, after, groups, rfl, hm⟩
          rw [hat] at hsome
          cases hsome
        rw [List.length_nil, replaceAllFrom_of_none _ hat, doubleBackslashes, if_neg hnone]
        exact congrArg (s :: ·) (ih (some s) [] t rfl)
      | some m =>
        obtain ⟨hrest, hmatch⟩ := matches_of_at? hat
        obtain ⟨u, hu, hfound, hexpand⟩ := h.replaces _ _ ⟨m, prev, hmatch, rfl, rfl⟩
        obtain ⟨rfl, rfl⟩ : s = backslash ∧ t = u ++ m.after := by
          rw [hfound] at hrest
          exact List.cons.inj hrest
        have hany : words.any (·.isPrefixOf (u ++ m.after)) = true :=
          List.any_eq_true.mpr ⟨u, hu, List.isPrefixOf_iff_prefix.mpr (List.prefix_append ..)⟩
        rw [List.length_nil, replaceAllFrom_of_some _ hat (by simp [hfound]), hexpand, hfound,
          List.length_cons, Nat.add_sub_cancel, ih (some backslash) u m.after rfl,
          doubleBackslashes, if_pos ⟨rfl, hany⟩, doubleBackslashes_append (h.noBackslash u hu)]
        rfl

theorem apply_eq (h : DoublesBackslashes r words) (t : Text) :
    r.apply t = doubleBackslashes words t := by
  rw [Rule.apply, h.scope]
  exact h.replaceAllFrom_eq none [] t

end DoublesBackslashes

/-- The rule that cuts off the zone of a timestamp. -/
def timestampRule : Rule := valueRules[0]

/-- The rule for the escapes of newline and tab. -/
def tabNewlineRule : Rule := valueRules[1]

/-- The rule for strings of bytes. -/
def bytesRule : Rule := valueRules[2]

/-- The rule for a backslash in front of a doubled quote. -/
def quotePairRule : Rule := escapeRules[0]

/-- The rule for a backslash in front of a double quote. -/
def doubleQuoteRule : Rule := escapeRules[1]

theorem tabNewlineRule_doubles : DoublesBackslashes tabNewlineRule [[.char 'n'], [.char 't']] where
  scope := rfl
  noBackslash := by decide
  matches_word := by
    have hone (s : Symbol) (hs : s.isIn "nt" = true) (prev : Option Symbol) (rest : Text) :
        ∃ groups, tabNewlineRule.pattern.Matches prev (backslash :: [s]) rest groups :=
      ⟨_, matches_inOrder_cons.mpr ⟨_, _, _, _, rfl, rfl, ⟨rfl, rfl⟩, _, rfl, ⟨s, rfl, hs⟩, rfl⟩⟩
    simp only [List.forall_mem_cons]
    exact ⟨hone _ (by decide), hone _ (by decide), fun _ h => (nomatch h)⟩
  replaces := by
    rintro w w' ⟨⟨before, found, after, groups⟩, prev, hm, rfl, rfl⟩
    change (inOrder ["\\", group 1 (one (Symbol.isIn "nt"))]).Matches _ _ _ _ at hm
    obtain ⟨_, _, _, _, rfl, rfl, ⟨rfl, rfl⟩, inner, rfl, ⟨s, rfl, hs⟩, rfl⟩ := hm
    refine ⟨[s], ?_, rfl, rfl⟩
    simpa [Symbol.isIn, Text.ofString] using hs

/-- A rule for one word behind a backslash. -/
theorem doubles_word (name : String) {u : Text} (hu : backslash ∉ u) :
    DoublesBackslashes
      (.throughout name (.word (backslash :: u)) [.text (backslash :: backslash :: u)]) [u] where
  scope := rfl
  noBackslash := by simpa using hu
  matches_word := by
    simp only [List.forall_mem_singleton]
    exact fun prev rest => ⟨[], rfl, rfl⟩
  replaces := by
    rintro w w' ⟨⟨before, found, after, groups⟩, prev, ⟨rfl, rfl⟩, rfl, rfl⟩
    exact ⟨u, List.mem_singleton_self u, rfl, by simp [Match.expand, Rule.throughout]⟩

theorem quotePairRule_doubles : DoublesBackslashes quotePairRule [[quote, quote]] :=
  doubles_word "escaped_quote_pair" (by decide)

theorem doubleQuoteRule_doubles :
    DoublesBackslashes doubleQuoteRule [[Identifier.doubleQuote]] :=
  doubles_word "escaped_double_quote" (by decide)

/-! ## Timestamps and strings of bytes -/

/-- So many decimal digits. -/
def IsDigits (n : Nat) (t : Text) : Prop := t.length = n ∧ ∀ s ∈ t, s.isDigit = true

/-- A date and a time with a fraction of seconds and a zone offset of two digits. -/
def ZonedTime (t : Text) : Prop :=
  ∃ year month day hour minute second fraction sign zone : Text,
    t = year ++ ("-" ++ (month ++ ("-" ++ (day ++ (" " ++ (hour ++ (":" ++ (minute ++ (":" ++
      (second ++ ("." ++ (fraction ++ (sign ++ zone))))))))))))) ∧
    IsDigits 4 year ∧ IsDigits 2 month ∧ IsDigits 2 day ∧ IsDigits 2 hour ∧ IsDigits 2 minute ∧
    IsDigits 2 second ∧ (∃ n, 1 ≤ n ∧ n ≤ 6 ∧ IsDigits n fraction) ∧
    (sign = "+" ∨ sign = "-") ∧ IsDigits 2 zone

/-- A timestamp starts with a digit. -/
theorem ZonedTime.isDigit_head? {t : Text} (h : ZonedTime t) :
    t.head?.any Symbol.isDigit = true := by
  obtain ⟨year, month, day, hour, minute, second, fraction, sign, zone, rfl, ⟨hlen, hyear⟩, -⟩ := h
  obtain ⟨s, year, rfl⟩ := List.exists_cons_of_length_eq_add_one hlen
  simpa using hyear s (by simp)

/-- Digits and a separator in front of other patterns. -/
private theorem exists_of_digits {n : Nat} {separator : Text} {ps : List Pattern}
    {prev : Option Symbol} {w rest : Text} {groups : List (Nat × Text)}
    (h : (inOrder (exactly n Symbol.isDigit :: word separator :: ps)).Matches prev w rest groups) :
    ∃ digits more prev', w = digits ++ (separator ++ more) ∧ IsDigits n digits ∧
      (inOrder ps).Matches prev' more rest groups := by
  obtain ⟨digits, _, _, _, rfl, rfl, hdigits, hbehind⟩ := matches_inOrder_cons.mp h
  obtain ⟨hlen, hall, rfl⟩ := matches_exactly.mp hdigits
  obtain ⟨_, more, _, _, rfl, rfl, ⟨rfl, rfl⟩, hmore⟩ := matches_inOrder_cons.mp hbehind
  exact ⟨digits, more, _, rfl, ⟨hlen, hall⟩, hmore⟩

/-- The date and the time of a timestamp, with its fraction of seconds. -/
private theorem zonedTime_of_matches {prev : Option Symbol} {w rest : Text}
    {groups : List (Nat × Text)}
    (h : (inOrder [exactly 4 Symbol.isDigit, "-", exactly 2 Symbol.isDigit, "-",
      exactly 2 Symbol.isDigit, " ", exactly 2 Symbol.isDigit, ":", exactly 2 Symbol.isDigit, ":",
      exactly 2 Symbol.isDigit, ".", one Symbol.isDigit, atMost Symbol.isDigit 5]).Matches
        prev w rest groups) {sign zone : Text} (hsign : sign = "+" ∨ sign = "-")
    (hzone : IsDigits 2 zone) : ZonedTime (w ++ (sign ++ zone)) := by
  obtain ⟨year, _, _, rfl, hyear, h⟩ := exists_of_digits h
  obtain ⟨month, _, _, rfl, hmonth, h⟩ := exists_of_digits h
  obtain ⟨day, _, _, rfl, hday, h⟩ := exists_of_digits h
  obtain ⟨hour, _, _, rfl, hhour, h⟩ := exists_of_digits h
  obtain ⟨minute, _, _, rfl, hminute, h⟩ := exists_of_digits h
  obtain ⟨second, fraction, _, rfl, hsecond, h⟩ := exists_of_digits h
  obtain ⟨_, more, _, _, rfl, -, ⟨⟨first, rfl, hfirst⟩, -⟩, hmore⟩ := h
  obtain ⟨hlen, hmore, -⟩ := matches_atMost.mp hmore
  refine ⟨year, month, day, hour, minute, second, first :: more, sign, zone, by simp, hyear, hmonth,
    hday, hhour, hminute, hsecond, ⟨more.length + 1, ?_, ?_, rfl, ?_⟩, hsign, hzone⟩
  · omega
  · omega
  · exact List.forall_mem_cons.mpr ⟨hfirst, hmore⟩

/-- The zone is cut off of a timestamp that fills the stretch between two quotes. -/
theorem timestampRule_matches {prev : Option Symbol} {w rest : Text} {groups : List (Nat × Text)}
    (h : timestampRule.pattern.Matches prev w rest groups) :
    ∃ field, w = quote :: (field ++ quote :: []) ∧ quote ∉ field ∧ ZonedTime field := by
  obtain ⟨_, _, _, _, rfl, rfl, ⟨rfl, rfl⟩, time, _, _, _, rfl, rfl, ⟨_, rfl, htime⟩,
    sign, _, _, _, rfl, rfl, hsign, zone, _, _, _, rfl, rfl, hzone, rfl, rfl⟩ := h
  refine ⟨time ++ (sign ++ zone), ?_, ?_, zonedTime_of_matches htime ?_ ?_⟩
  · simp [Text.ofString]
  · simp only [List.mem_append, not_or]
    exact ⟨htime.not_mem (by decide), hsign.not_mem (by decide), hzone.not_mem (by decide)⟩
  · obtain ⟨⟨s, rfl, hs⟩, -⟩ := hsign
    simpa [Symbol.isIn, Text.ofString, or_comm] using hs
  · exact ⟨(matches_exactly.mp hzone).1, (matches_exactly.mp hzone).2.1⟩

/-- Where no stretch between two quotes is a timestamp with a zone, none is found. -/
theorem timestampRule_occursIn {t : Text} (h : ∀ field ∈ t.fields quote, ¬ ZonedTime field) :
    timestampRule.pattern.occursIn t = false := by
  refine Bool.eq_false_iff.mpr fun hoccurs => ?_
  obtain ⟨before, w, after, groups, rfl, hm⟩ := occursIn_iff.mp hoccurs
  obtain ⟨field, rfl, hquote, hzoned⟩ := timestampRule_matches hm
  refine h field ?_ hzoned
  simpa using Text.mem_fields_between hquote

/-- A text in which a backslash stands in front of no `x` holds no string of bytes. -/
theorem bytesRule_apply {ok : Symbol → Bool} (hx : ok (.char 'x') = false) {t : Text}
    (h : escapesOnly ok t = true) : bytesRule.apply t = t := by
  refine Rule.apply_eq_self (Bool.eq_false_iff.mpr fun hoccurs => ?_)
  obtain ⟨before, _, after, _, rfl, _, _, _, _, rfl, rfl, ⟨rfl, rfl⟩, -⟩ :=
    occursIn_iff.mp hoccurs
  obtain ⟨s, rest, hsplit, hs⟩ := escapesOnly_iff.mp h (before ++ [quote]) (.char 'x' :: _)
    (by simp [Text.ofString]; rfl)
  rw [(List.cons.inj hsplit).1.symm, hx] at hs
  cases hs

/-- In a text without timestamps with a zone the rules double backslashes, if each stands where it
may, and change nothing else. -/
theorem applyRules_eq {t : Text} (hescapes : escapesOnly (Symbol.isIn escapedSymbols) t = true)
    (htime : ∀ field ∈ t.fields quote, ¬ ZonedTime field) :
    applyRules escapeRules (applyRules valueRules t) = doubleBackslashes escapedWords t := by
  have hvalue (t : Text) : applyRules valueRules t =
      bytesRule.apply (tabNewlineRule.apply (timestampRule.apply t)) := rfl
  have hescape (t : Text) : applyRules escapeRules t =
      doubleQuoteRule.apply (quotePairRule.apply t) := rfl
  have hkept := escapesOnly_doubleBackslashes [[.char 'n'], [.char 't']] hescapes
  rw [hvalue, hescape, Rule.apply_eq_self (timestampRule_occursIn htime),
    tabNewlineRule_doubles.apply_eq, bytesRule_apply (by decide) hkept,
    quotePairRule_doubles.apply_eq, doubleQuoteRule_doubles.apply_eq,
    doubleBackslashes_doubleBackslashes (by decide) (by decide) (by decide),
    doubleBackslashes_doubleBackslashes (by decide) (by decide) (by decide)]
  rfl

/-- Without backslashes there is nothing that they change. -/
theorem applyRules_eq_self {t : Text} (hback : backslash ∉ t)
    (htime : ∀ field ∈ t.fields quote, ¬ ZonedTime field) :
    applyRules escapeRules (applyRules valueRules t) = t := by
  rw [applyRules_eq (escapesOnly_of_not_mem hback) htime, doubleBackslashes_of_not_mem hback]

end DumpDialect.Insert
