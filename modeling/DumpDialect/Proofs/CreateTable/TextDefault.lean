import DumpDialect.Proofs.CreateTable.LiteralDefault
import DumpDialect.Quoting

/-!
# Defaults of text columns

A text column has no default in MySQL, so its default is to be dropped, with the literal and its
cast, and what follows it to be kept. The rule for it stops at the first comma and at the first
` NOT NULL` behind the type, also if they stand in the literal.

- `applyRules_text`: the type, and the groups of rules that run on the default.
- `longtextDefault_apply`: the drop, up to where it stops.
- `eq_ending_of_dropped`: nothing else takes away what it leaves.
- `ColumnFrame.text_default_dropped_iff`: the line that is written.
-/

namespace DumpDialect.Column

open Pattern

/-! ## The type -/

/-- The types of text columns. -/
def textTypes : List Text := ["text", "character varying", "text[]"]

/-- A type name at the start of a definition is replaced if it ends there. -/
theorem typeWord_apply (name : String) {typeName written : String} {rest : Text}
    (hedge : (Cursor.mk (lastOf none (Text.ofString typeName)) rest).atWordEdge = true) :
    (typeWord name typeName written).apply (Text.ofString typeName ++ rest) =
      Text.ofString written ++ rest := by
  have hprefers : (typeWord name typeName written).pattern.Prefers none
      ([] ++ (Text.ofString typeName ++ [])) rest [] :=
    prefers_start.inOrder_cons
      (prefers_word.inOrder_cons (prefers_wordEdge hedge).inOrder_singleton)
  have happly := Rule.apply_of_prefers rfl hprefers
  simpa [typeWord, Rule.once, Match.expand] using happly

theorem typeStart_apply (name : String) (typeName written : String) (rest : Text) :
    (typeStart name [word typeName] [written]).apply (Text.ofString typeName ++ rest) =
      Text.ofString written ++ rest := by
  have hprefers : (typeStart name [word typeName] [written]).pattern.Prefers none
      ([] ++ Text.ofString typeName) rest [] :=
    prefers_start.inOrder_cons prefers_word.inOrder_singleton
  have happly := Rule.apply_of_prefers rfl hprefers
  simpa [typeStart, Rule.once, Match.expand] using happly

/-- Each text type becomes `longtext`. -/
theorem nameRules_text {type : Text} (h : type ∈ textTypes) (rest : Text) :
    applyRules nameRules (upTo (.char ' ' :: type) ++ rest) = upTo " longtext" ++ rest := by
  have htext : nameRules = nameRules.take 13 ++ typeWord "text" " text" " longtext" ::
    nameRules.drop 14 := rfl
  have hvarying : nameRules =
    (nameRules.take 16 ++ sizedCharacterArray :: (nameRules.drop 17).take 2) ++
      typeWord "varchar" " character varying" " longtext" :: nameRules.drop 20 := rfl
  have harray : nameRules = nameRules.take 12 ++
    typeStart "text_array" [" text[]"] [" longtext"] :: nameRules.drop 13 := rfl
  have hlater : ∀ r ∈ nameRules.drop 13, r.Misses (upTo " longtext") := by decide
  have hdrop {n : Nat} (hn : 13 ≤ n) : ∀ r ∈ nameRules.drop n, r.Misses (upTo " longtext") :=
    fun r hr => hlater r ((List.drop_sublist_drop_left nameRules hn).subset hr)
  simp only [textTypes, List.mem_cons, List.not_mem_nil, or_false] at h
  -- Another rule takes each of the three; the ones before it miss the type, and all behind it miss
  -- `longtext`.
  rcases h with rfl | rfl | rfl
  · have hfront : ∀ r ∈ nameRules.take 13, r.Misses (upTo " text") := by decide
    have happly := @typeWord_apply "text" " text" " longtext" (" DEFAULT '" ++ rest) rfl
    rw [← List.append_assoc, ← List.append_assoc] at happly
    rw [htext]
    exact applyRules_of_first (fun r hr => (hfront r hr).occursIn rest) happly (hdrop (by decide))
  · have hfront : ∀ r ∈ nameRules.take 16 ++ (nameRules.drop 17).take 2,
        r.Misses (upTo " character varying") := by decide
    have hmisses : ∀ r ∈ nameRules.take 16 ++ sizedCharacterArray :: (nameRules.drop 17).take 2,
        r.pattern.occursIn (upTo " character varying" ++ rest) = false := by
      have hsized : sizedCharacterArray.pattern.occursIn
          (upTo " character varying" ++ rest) = false := by
        rw [upTo, List.append_assoc]
        exact occursIn_sizedCharacterArray _
      rw [List.forall_mem_append, List.forall_mem_cons]
      obtain ⟨hword, hbehind⟩ := List.forall_mem_append.mp hfront
      exact ⟨fun r hr => (hword r hr).occursIn rest, hsized,
        fun r hr => (hbehind r hr).occursIn rest⟩
    have happly := @typeWord_apply "varchar" " character varying" " longtext"
      (" DEFAULT '" ++ rest) rfl
    rw [← List.append_assoc, ← List.append_assoc] at happly
    rw [hvarying]
    exact applyRules_of_first hmisses happly (hdrop (by decide))
  · have hfront : ∀ r ∈ nameRules.take 12, r.Misses (upTo " text[]") := by decide
    have happly := typeStart_apply "text_array" " text[]" " longtext" (" DEFAULT '" ++ rest)
    rw [← List.append_assoc, ← List.append_assoc] at happly
    rw [harray]
    exact applyRules_of_first (fun r hr => (hfront r hr).occursIn rest) happly (hdrop (by decide))

theorem isHead_longtext : IsHead " longtext" := ⟨by decide, by decide⟩

/-- Only the rules that look anywhere in a definition do anything behind the type. -/
theorem applyRules_text {type : Text} (h : type ∈ textTypes) (rest : Text) :
    applyRules typeRules (upTo (.char ' ' :: type) ++ rest) =
      applyRules defaultRules (upTo " longtext" ++ applyRules castRules rest) := by
  have hmisses : ∀ r ∈ timeRules, r.Misses (upTo " longtext") := by decide
  rw [typeRules_eq, applyRules_append, applyRules_append, applyRules_append, nameRules_text h,
    applyRules_append_of_passesOver isHead_longtext.passesOver_castRules,
    applyRules_of_misses hmisses]

/-! ## The drop -/

/-- Whether the drop goes on over a symbol: it stops at the first comma and at the first
` NOT NULL`. -/
def goesOn (s : Symbol) (t : Text) : Bool :=
  Symbol.isNotIn "," s && !(Text.ofString " NOT NULL").isPrefixOf (s :: t)

/-- What stops the drop, as far as it takes to tell. -/
def stops : List Text := [",", " N"]

theorem exists_stop {s : Symbol} {t : Text} (h : goesOn s t = false) :
    ∃ stop ∈ stops, stop <+: s :: t := by
  rcases Bool.and_eq_false_iff.mp h with hcomma | hword
  · have hs : s = .char ',' := by simpa [Symbol.isNotIn, Text.ofString] using hcomma
    exact ⟨",", by decide, by simp [hs, Text.ofString]⟩
  · have hword' : Text.ofString " NOT NULL" <+: s :: t :=
      List.isPrefixOf_iff_prefix.mp (Bool.not_eq_eq_eq_not.mp hword)
    exact ⟨" N", by decide, (by decide : Text.ofString " N" <+: " NOT NULL").trans hword'⟩

theorem goesOn_ending {ending : Text} (hending : ending ∈ endings) {s : Symbol} {t : Text}
    (h : ending = s :: t) : goesOn s t = false := by
  have hall : ∀ e ∈ endings, ∀ s ∈ e.head?, goesOn s e.tail = false := by decide
  simpa [h] using hall ending hending s (by rw [h]; rfl)

/-- A default is dropped up to where the run over it stops. -/
theorem longtextDefault_apply {w rest : Text} (hruns : RunsOver goesOn w rest)
    (hstop : ∀ s t, rest = s :: t → goesOn s t = false) :
    longtextDefault.apply (upTo " longtext" ++ (w ++ rest)) = " longtext" ++ rest := by
  let dropped : Pattern := manyShortOf " NOT NULL" (Symbol.isNotIn ",")
  let notNull : Pattern := optional (group 1 " NOT NULL")
  have hrun (prev : Option Symbol) : dropped.Prefers prev (quote :: w) rest [] :=
    prefers_manyShortOf ⟨rfl, hruns⟩ fun s t heq => by
      subst heq
      exact hstop s t rfl
  have hsplit : upTo " longtext" ++ (w ++ rest) =
      (Text.ofString " longtext DEFAULT " ++ (quote :: w)) ++ rest := by
    simp [upTo, Text.ofString]
  -- The group for ` NOT NULL` puts back what it takes, so the outcome is the same with and without.
  by_cases hword : Text.ofString " NOT NULL" <+: rest
  · obtain ⟨after, rfl⟩ := hword
    have hoptional (prev : Option Symbol) :
        (inOrder [notNull]).Prefers prev " NOT NULL" after [(1, " NOT NULL")] :=
      (prefers_word.group 1).alt_left _
    have hprefers : longtextDefault.pattern.Prefers none
        (Text.ofString " longtext DEFAULT " ++ ((quote :: w) ++ Text.ofString " NOT NULL")) after
        [(1, " NOT NULL")] :=
      prefers_word.inOrder_cons ((hrun _).inOrder_cons (hoptional _))
    have happly := Rule.apply_of_prefers rfl hprefers
    rw [hsplit]
    simpa [longtextDefault, Rule.once, Match.expand, Match.group, Match.group?] using happly
  · have hoptional (prev : Option Symbol) : (inOrder [notNull]).Prefers prev [] rest [] := by
      refine Prefers.optional_nil (outcomes_eq_nil_iff.mpr fun v after groups hrest hm => ?_)
      obtain ⟨_, -, rfl, -⟩ := hm
      exact hword ⟨after, hrest.symm⟩
    have hprefers : longtextDefault.pattern.Prefers none
        (Text.ofString " longtext DEFAULT " ++ ((quote :: w) ++ [])) rest [] :=
      prefers_word.inOrder_cons ((hrun _).inOrder_cons (hoptional _))
    have happly := Rule.apply_of_prefers rfl hprefers
    rw [hsplit]
    simpa [longtextDefault, Rule.once, Match.expand, Match.group, Match.group?] using happly

/-- A definition of a text type is not one that the rule for citext wrote. -/
theorem eq_of_citext_apply {t e : Text} (h : citext.apply t = " longtext" ++ e) :
    t = " longtext" ++ e := by
  cases hoccurs : citext.pattern.occursIn t with
  | false => rwa [Rule.apply_eq_self hoccurs] at h
  | true =>
    obtain ⟨m, hm⟩ := Option.isSome_iff_exists.mp hoccurs
    obtain ⟨-, hmatch⟩ := matches_of_find hm
    have hbefore : m.before = [] := List.getLast?_eq_none_iff.mp (hmatch.anchored rfl).1
    have hwritten : citext.apply t = m.before ++ Text.ofString " text" ++ m.after := by
      simp only [citext, typeStart, Rule.once] at hm
      simp [Rule.apply, citext, typeStart, Rule.once, replaceFirst, hm, Match.expand]
    rw [hwritten, hbefore] at h
    exact absurd (List.cons.inj (List.cons.inj h).2).1 (by decide)

/-- What the drop left in front of the ending begins with what stopped it. The rules for calls do
not take that away, and would have to make the ending of less than the ending. -/
theorem eq_nil_of_stopped {left stop rest ending : Text} (hending : ending ∈ endings)
    (hstop : stop ∈ stops) (hsplit : stop ++ rest = left ++ ending)
    (hstopped : ending = stop ++ applyRules [functionDefault, objectDefault] rest) : left = [] := by
  have hleaves : ∀ e ∈ endings, ∀ r ∈ [functionDefault, objectDefault], r.LeavesEnd e := by
    decide +kernel
  have hcons : ∀ stop ∈ stops, stop ≠ [] ∧ ∀ s ∈ stop.head?, s ∉ stop.tail := by decide
  obtain ⟨hne, hfirst⟩ := hcons stop hstop
  obtain ⟨first, more, rfl⟩ := List.exists_cons_of_ne_nil hne
  -- If something were left in front of the ending, the stop would stand inside the rest once more,
  -- and the ending would be longer than itself.
  by_contra hleft
  have hbegins : first :: more <+: left ++
      (first :: more ++ applyRules [functionDefault, objectDefault] rest) :=
    ⟨rest, by rw [hsplit, ← hstopped]⟩
  obtain ⟨gap, hgap⟩ := Text.prefix_of_prefix_append (hfirst first rfl) hleft hbegins
  have hrest : rest = gap ++ ending := by
    rw [← hgap, List.append_assoc] at hsplit
    exact List.append_cancel_left hsplit
  have hends := suffix_applyRules_of_leavesEnd (hleaves ending hending)
    (hrest ▸ List.suffix_append gap ending)
  have hlength := congrArg List.length hstopped
  have hle := hends.length_le
  simp only [List.length_append, List.length_cons] at hlength
  omega

/-- The rules behind the drop take away nothing that it left. -/
theorem eq_ending_of_dropped {left w rest ending : Text} (hending : ending ∈ endings)
    (hsplit : left ++ ending = w ++ rest) (hruns : RunsOver goesOn w rest)
    (hstop : ∀ s t, rest = s :: t → goesOn s t = false)
    (h : applyRules [functionDefault, objectDefault, citext] (" longtext" ++ rest) =
      " longtext" ++ ending) : rest = ending := by
  let calls : List Rule := [functionDefault, objectDefault]
  have hkept : applyRules calls (" longtext" ++ rest) = " longtext" ++ ending :=
    eq_of_citext_apply h
  cases rest with
  | nil =>
    have hnone : applyRules calls (Text.ofString " longtext" ++ []) =
      " longtext" ++ Text.ofString "" := by decide +kernel
    rw [hnone] at hkept
    exact List.append_cancel_left hkept
  | cons s t =>
    -- The run stopped at a comma or at ` NOT NULL`; the rules for calls do not begin there.
    obtain ⟨stop, hmem, r, hr⟩ := exists_stop (hstop s t rfl)
    have hpasses : ∀ stop ∈ stops, ∀ r ∈ calls, r.PassesOver (" longtext" ++ stop) := by
      decide +kernel
    rw [← hr, ← List.append_assoc, applyRules_append_of_passesOver (hpasses stop hmem),
      List.append_assoc] at hkept
    have hstopped : ending = stop ++ applyRules calls r := (List.append_cancel_left hkept).symm
    rcases List.append_eq_append_iff.mp hsplit with ⟨beyond, rfl, hbeyond⟩ | ⟨beyond, rfl, hbeyond⟩
    · -- The run does not go on into the ending.
      cases beyond with
      | nil => exact hbeyond.symm
      | cons s' beyond =>
        have hgoes : goesOn s' (beyond ++ s :: t) = true := hruns.append_right.1
        exact absurd ((goesOn_ending hending hbeyond).symm.trans hgoes) Bool.false_ne_true
    · rw [eq_nil_of_stopped hending hmem (hr.trans hbeyond) hstopped, List.nil_append] at hbeyond
      exact hbeyond

/-! ## The line -/

theorem typeCast_text {type ending : Text} (htype : type ∈ textTypes) (hending : ending ∈ endings) :
    typeCast.apply (("::" ++ type) ++ ending) = ending := by
  let text : TypeName.CastType := ⟨"text", [], .word (by decide) (by decide), .none⟩
  let varying : TypeName.CastType := ⟨"character varying", [], .several (by decide), .none⟩
  have hnames : text.text ++ [] = Text.ofString "text" ∧
      varying.text ++ [] = Text.ofString "character varying" ∧
      text.text ++ Text.ofString "[]" = Text.ofString "text[]" := by decide
  obtain ⟨hword, hseveral, harray⟩ := hnames
  simp only [textTypes, List.mem_cons, List.not_mem_nil, or_false] at htype
  rcases htype with rfl | rfl | rfl
  · rw [← hword]
    exact typeCast_ending text List.mem_cons_self hending
  · rw [← hseveral]
    exact typeCast_ending varying List.mem_cons_self hending
  · rw [← harray]
    exact typeCast_ending text (by decide) hending

/-- What the rules for casts leave of a default is dropped as far as its first comma or
` NOT NULL`. -/
theorem applyRules_defaultRules_longtext_iff {t ending : Text} (hending : ending ∈ endings)
    (ht : ending <:+ t) :
    applyRules defaultRules (upTo " longtext" ++ t) = " longtext" ++ ending ↔
      ∃ left, t = left ++ ending ∧ .char ',' ∉ left ∧ ¬ Text.ofString " NOT NULL" <:+: left := by
  have hapart : ∀ e ∈ endings, ∀ k < (Text.ofString " NOT NULL").length, 0 < k →
      ¬ (Text.ofString " NOT NULL").drop k <+: e := by decide +kernel
  have hgoes {left : Text} : RunsOver goesOn left ending ↔
      .char ',' ∉ left ∧ ¬ Text.ofString " NOT NULL" <:+: left := by
    have hruns := @runsOver_shortOf_iff (Symbol.isNotIn ",") " NOT NULL" left ending (by decide)
      (hapart ending hending)
    have hcomma : ∀ s, Symbol.isNotIn "," s = true ↔ s ≠ .char ',' := fun s => by
      simp [Symbol.isNotIn, Text.ofString]
    simp only [hcomma] at hruns
    exact hruns.trans (and_congr_left fun _ => List.forall_mem_ne')
  rw [defaultRules_eq, applyRules_cons]
  constructor
  · intro h
    obtain ⟨front, hfront⟩ := ht
    obtain ⟨w, rest, rfl, hruns, hstop⟩ := exists_longest_run goesOn t
    rw [longtextDefault_apply hruns hstop] at h
    obtain rfl := eq_ending_of_dropped hending hfront hruns hstop h
    exact ⟨w, rfl, hgoes.mp hruns⟩
  · rintro ⟨left, rfl, hleft⟩
    have hkept : ∀ e ∈ endings, applyRules [functionDefault, objectDefault, citext]
        (" longtext" ++ e) = " longtext" ++ e := by decide +kernel
    rw [longtextDefault_apply (hgoes.mpr hleft) fun s t heq => goesOn_ending hending heq,
      hkept ending hending]

/-- **The default of a text column is dropped whole if and only if neither a comma nor ` NOT NULL`
is left in it** by the rules for casts, which run over it before. If they find nothing in the
literal, it is the literal that must hold neither. -/
theorem ColumnFrame.text_default_dropped_iff [Quoting] (c : ColumnFrame) {type literal : Text}
    (htype : type ∈ textTypes) (hliteral : literal.IsOneLine)
    (hdef : isDefinition (c.line (withDefault type literal type)) = true) :
    let dropped := convert (c.line (withDefault type literal type)) = c.written "longtext"
    (dropped ↔ ∃ left, applyRules castRules
        (doubleQuotes quote literal ++ quote :: (("::" ++ type) ++ c.ending)) = left ++ c.ending ∧
      .char ',' ∉ left ∧ ¬ Text.ofString " NOT NULL" <:+: left) ∧
    (¬ Text.ofString "::" <:+: literal → ¬ HoldsCall " DEFAULT nextval(" literal →
      (dropped ↔ .char ',' ∉ literal ∧ ¬ Text.ofString " NOT NULL" <:+: literal)) := by
  intro dropped
  let t := doubleQuotes quote literal ++ quote :: (("::" ++ type) ++ c.ending)
  have htypes : ∀ type ∈ textTypes, type.IsOneLine := by decide
  have hline := isOneLine_withDefault (htypes type htype) hliteral (htypes type htype)
  have hleaves : ∀ e ∈ endings, ∀ r ∈ castRules, r.LeavesEnd e := by decide +kernel
  have hends : c.ending <:+ t :=
    ⟨doubleQuotes quote literal ++ quote :: ("::" ++ type), by simp [t]⟩
  -- The rules for names and casts are got past first; from there the rules for defaults decide.
  have hdropped : dropped ↔ ∃ left, applyRules castRules t = left ++ c.ending ∧
      .char ',' ∉ left ∧ ¬ Text.ofString " NOT NULL" <:+: left := by
    rw [← applyRules_defaultRules_longtext_iff c.isEnding
      (suffix_applyRules_of_leavesEnd (hleaves _ c.isEnding) hends), ← applyRules_text htype,
      ← cons_withDefault]
    simp only [dropped]
    rw [c.convert_line hdef hline, ColumnFrame.written, List.append_cancel_left_eq,
      List.append_cancel_left_eq]
    rfl
  refine ⟨hdropped, fun hcolons hsequence => hdropped.trans ?_⟩
  have hbehind : ∀ type ∈ textTypes, ∀ e ∈ endings,
      (∀ v ∈ integerCasts, ¬ v <:+: ("::" ++ type) ++ e) ∧
        .char ')' ∉ ("::" ++ type) ++ e ∧ (("::" ++ type) ++ e).IsOneLine ∧
        ¬ Text.ofString "::" <:+: e := by decide +kernel
  obtain ⟨hinteger, hparen, hcastLine, hnot⟩ := hbehind type htype c.ending c.isEnding
  have hcolons' : ¬ Text.ofString "::" <:+: doubleQuotes quote literal :=
    mt (infix_doubleQuotes_iff (by decide)).mp hcolons
  have hcasts : applyRules castRules t = (doubleQuotes quote literal ++ [quote]) ++ c.ending := by
    rw [applyRules_castRules hcolons' (occursIn_integerDefaults hcolons' hinteger)
      (Bool.eq_false_iff.mpr
        (mt (occursIn_sequenceDefault_literal_iff hliteral hcastLine hparen).mp hsequence))
      (typeCast_text htype c.isEnding) hnot, ← List.append_cons]
  have hcomma : .char ',' ∈ doubleQuotes quote literal ++ [quote] ↔ .char ',' ∈ literal := by
    rw [List.mem_append, mem_doubleQuotes_iff (by decide)]
    exact or_iff_left (by decide)
  have hword : Text.ofString " NOT NULL" <:+: doubleQuotes quote literal ++ [quote] ↔
      Text.ofString " NOT NULL" <:+: literal := by
    rw [Text.infix_append_cons_iff (by decide) (by decide), infix_doubleQuotes_iff (by decide)]
    exact or_iff_left (by decide)
  rw [hcasts, ← hcomma, ← hword]
  constructor
  · rintro ⟨left, hleft, hfree⟩
    exact List.append_cancel_right hleft ▸ hfree
  · exact fun hfree => ⟨_, rfl, hfree⟩

/-- A default with a quote, a function and a keyword is dropped. -/
theorem ColumnFrame.text_default_with_quote_dropped :
    convert "    c text DEFAULT 'it''s f() NULL'::text NOT NULL," =
      "    `c` longtext NOT NULL," := by
  let c : ColumnFrame := ⟨"    ", "c", " NOT NULL,", by decide, by decide, by decide⟩
  have hline : c.line (withDefault "text" "it's f() NULL" "text") =
      "    c text DEFAULT 'it''s f() NULL'::text NOT NULL," := by decide +kernel
  have hwritten : c.written "longtext" = "    `c` longtext NOT NULL," := by decide +kernel
  have hdropped := (@ColumnFrame.text_default_dropped_iff .doubling c "text" "it's f() NULL"
    (by decide) (by decide) (by decide +kernel)).2 (by decide +kernel)
    (fun h => absurd h.isInfix (by decide +kernel))
  rw [← hline, ← hwritten]
  exact hdropped.mpr ⟨by decide, by decide +kernel⟩

/-- Of a literal with a comma or ` NOT NULL` the rest is left behind the type. -/
theorem ColumnFrame.text_default_with_comma_left :
    convert "    c text DEFAULT 'a,b'::text NOT NULL," = "    `c` longtext,b' NOT NULL," ∧
      convert "    c text DEFAULT 'a NOT NULL b'::text," = "    `c` longtext NOT NULL b'," := by
  decide +kernel

end DumpDialect.Column
