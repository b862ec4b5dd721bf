import DumpDialect.TypeName
import DumpDialect.Proofs.Pattern.Derived
import DumpDialect.Proofs.Pattern.Preferred
import DumpDialect.Proofs.Text.Balanced
import DumpDialect.Proofs.Text.Splitting

/-!
# Names of types, as they are read

`CastType` is what stands behind `::` in an expression of a dump: a word or one of the names of
several words, and a length or a precision and a scale if the type has one. In front of what goes on
neither with the name nor with the size (`Ends`), and so in front of what can follow it in an
expression (`GoesOn`), it is read as a whole.

- `names_prefers`, `size_prefers`: the parts of a type name.
- `CastType.prefers_array`, `CastType.prefers`: the type name of a cast.
-/

namespace DumpDialect.TypeName

open Pattern

/-! ## The names -/

/-- The names of several words that say nothing about a time. -/
def severalWords : List Text := ["character varying", "bit varying", "double precision"]

/-- What is said about the time zone of a time. -/
def zones : List Text := [" with time zone", " without time zone"]

/-- The precision of a time, which may be left out. -/
inductive IsPrecision : Text → Prop where
  | none : IsPrecision []
  | digit {d : Symbol} (h : d ∈ Text.ofString "0123456") : IsPrecision [.char '(', d, .char ')']

/-- The name of a type, without its size. -/
inductive IsName : Text → Prop where
  | several {name : Text} (h : name ∈ severalWords) : IsName name
  | zoned {kind precision zone : Text} (hkind : kind ∈ [Text.ofString "timestamp", "time"])
      (hprecision : IsPrecision precision) (hzone : zone ∈ zones) :
      IsName (kind ++ (precision ++ zone))
  | word {name : Text} (hne : name ≠ []) (h : ∀ s ∈ name, s.isWord = true) : IsName name

/-- One or more digits. -/
def IsNumber (t : Text) : Prop := t ≠ [] ∧ ∀ s ∈ t, s ∈ Text.ofString "0123456789"

/-- The size of a type: nothing, a length, or a precision and a scale. -/
inductive IsSize : Text → Prop where
  | none : IsSize []
  | length {n : Text} (hn : IsNumber n) : IsSize (Text.ofString "(" ++ (n ++ Text.ofString ")"))
  | scale {n m : Text} (hn : IsNumber n) (hm : IsNumber m) :
      IsSize (Text.ofString "(" ++ (n ++ ((Text.ofString "," ++ m) ++ Text.ofString ")")))

/-- A type that an expression is cast to, as it is written. -/
structure CastType where
  name : Text
  size : Text
  isName : IsName name
  isSize : IsSize size

/-- The type as it is written. -/
def CastType.text (T : CastType) : Text := T.name ++ T.size

/-! ## What they hold -/

theorem IsNumber.isDigit {n : Text} (h : IsNumber n) : ∀ s ∈ n, s.isDigit = true := by
  have hall : ∀ s ∈ Text.ofString "0123456789", s.isDigit = true := by decide
  exact fun s hs => hall s (h.2 s hs)

theorem IsNumber.isFlat {n : Text} (h : IsNumber n) : n.IsFlat := by
  have hall : .char '(' ∉ Text.ofString "0123456789" ∧ .char ')' ∉ Text.ofString "0123456789" := by
    decide
  exact ⟨fun hmem => hall.1 (h.2 _ hmem), fun hmem => hall.2 (h.2 _ hmem)⟩

theorem isDigit_of_precision {d : Symbol} (h : d ∈ Text.ofString "0123456") :
    ∀ s ∈ [d], s.isDigit = true := by
  have hall : ∀ s ∈ Text.ofString "0123456", s.isDigit = true := by decide
  exact List.forall_mem_singleton.mpr (hall d h)

theorem IsSize.isWord_head? {size rest : Text} (h : IsSize size)
    (hrest : ∀ s ∈ rest.head?, s.isWord = false) :
    ∀ s ∈ (size ++ rest).head?, s.isWord = false := by
  cases h with
  | none => exact hrest
  | length hn | scale hn hm =>
    intro s hs
    cases hs
    decide

/-- Whether the symbol can stand in the name or the size of a type. -/
def isInType (s : Symbol) : Bool := s.isWord || s.isIn " (),"

theorem IsName.isInType {name : Text} (h : IsName name) : ∀ s ∈ name, isInType s = true := by
  cases h with
  | several h =>
    have hall : ∀ v ∈ severalWords, ∀ s ∈ v, TypeName.isInType s = true := by decide
    exact hall name h
  | @zoned kind precision zone hkind hprecision hzone =>
    have hkinds : ∀ v ∈ [Text.ofString "timestamp", "time"], ∀ s ∈ v,
        TypeName.isInType s = true := by decide
    have hzones : ∀ v ∈ zones, ∀ s ∈ v, TypeName.isInType s = true := by decide
    have hprec : ∀ s ∈ precision, TypeName.isInType s = true := by
      cases hprecision with
      | none => exact List.forall_mem_nil _
      | @digit d hd =>
        have hdigits : ∀ d ∈ Text.ofString "0123456", ∀ s ∈ [.char '(', d, .char ')'],
            TypeName.isInType s = true := by decide
        exact hdigits d hd
    exact List.forall_mem_append.mpr
      ⟨hkinds kind hkind, List.forall_mem_append.mpr ⟨hprec, hzones zone hzone⟩⟩
  | word _ h => exact fun s hs => Bool.or_eq_true_iff.mpr (.inl (h s hs))

theorem IsName.balanced {name : Text} (h : IsName name) : name.Balanced := by
  cases h with
  | several h =>
    have hall : ∀ v ∈ severalWords, v.IsFlat := by decide
    exact (hall name h).balanced
  | @zoned kind precision zone hkind hprecision hzone =>
    have hkinds : ∀ v ∈ [Text.ofString "timestamp", "time"], v.IsFlat := by decide
    have hzones : ∀ v ∈ zones, v.IsFlat := by decide
    have hprec : precision.Balanced := by
      cases hprecision with
      | none => exact (by decide : Text.IsFlat []).balanced
      | @digit d hd =>
        have hdigits : ∀ d ∈ Text.ofString "0123456", Text.IsFlat [d] := by decide
        exact (hdigits d hd).balanced.enclose
    exact (hkinds kind hkind).balanced.append (hprec.append (hzones zone hzone).balanced)
  | word hne h =>
    have hnot {s : Symbol} (hs : s.isWord = false) : s ∉ name := fun hmem => by
      rw [h s hmem] at hs
      cases hs
    exact Text.IsFlat.balanced ⟨hnot (by decide), hnot (by decide)⟩

theorem IsSize.subset {size : Text} (h : IsSize size) : size ⊆ Text.ofString "(),0123456789" := by
  have hdigits : Text.ofString "0123456789" ⊆ Text.ofString "(),0123456789" := by decide
  have hnumber {n : Text} (hn : IsNumber n) : n ⊆ Text.ofString "(),0123456789" :=
    fun s hs => hdigits (hn.2 s hs)
  cases h with
  | none => exact List.nil_subset _
  | length hn =>
    exact List.append_subset.mpr ⟨by decide, List.append_subset.mpr ⟨hnumber hn, by decide⟩⟩
  | scale hn hm =>
    have hscale := List.append_subset.mpr ⟨(by decide : Text.ofString "," ⊆ _), hnumber hm⟩
    have hbehind := List.append_subset.mpr ⟨hscale, (by decide : Text.ofString ")" ⊆ _)⟩
    exact List.append_subset.mpr ⟨by decide, List.append_subset.mpr ⟨hnumber hn, hbehind⟩⟩

theorem IsSize.balanced {size : Text} (h : IsSize size) : size.Balanced := by
  cases h with
  | none => exact (by decide : Text.IsFlat []).balanced
  | length hn => exact hn.isFlat.balanced.enclose
  | @scale n m hn hm =>
    have hflat : Text.IsFlat "," := by decide
    have hinner : (n ++ (Text.ofString "," ++ m)).Balanced :=
      (hn.isFlat.append (hflat.append hm.isFlat)).balanced
    rw [← List.append_assoc n]
    exact hinner.enclose

theorem CastType.balanced_text (T : CastType) : T.text.Balanced :=
  T.isName.balanced.append T.isSize.balanced

theorem CastType.isInType_text (T : CastType) : ∀ s ∈ T.text, isInType s = true := by
  have hall : ∀ s ∈ Text.ofString "(),0123456789", isInType s = true := by decide
  exact List.forall_mem_append.mpr ⟨T.isName.isInType, fun s hs => hall s (T.isSize.subset hs)⟩

theorem CastType.not_mem_colon (T : CastType) : .char ':' ∉ T.text := fun hmem =>
  absurd (T.isInType_text _ hmem) (by decide)

/-- What may stand behind a type: something that goes on neither with its name nor with its size. -/
structure Ends (rest : Text) : Prop where
  isWord_head? : ∀ s ∈ rest.head?, s.isWord = false
  ne_paren : rest.head? ≠ some (.char '(')
  ne_blank : ∀ s ∈ Text.ofString "vpw", ¬ [.char ' ', s] <+: rest

/-- A symbol that is no blank and part of no name or size may stand behind a type. -/
theorem Ends.of_cons {s : Symbol} (h : (s.isWord || s.isIn " (") = false) (t : Text) :
    Ends (s :: t) := by
  obtain ⟨hword, hnot⟩ := Bool.or_eq_false_iff.mp h
  have hne {c : Symbol} (hc : c.isIn " (" = true) : s ≠ c := by
    rintro rfl
    rw [hc] at hnot
    cases hnot
  refine ⟨?_, fun h => hne (by decide) (Option.some.inj h), fun c _ h => ?_⟩
  · rintro _ ⟨⟩
    exact hword
  · exact hne (c := .char ' ') (by decide) (List.cons_prefix_cons.mp h).1.symm

/-- What may stand behind a cast in an expression: nothing, a closing parenthesis, a comma, or a
blank and an operator. -/
inductive GoesOn : Text → Prop where
  | finish : GoesOn []
  | close (t : Text) : GoesOn (.char ')' :: t)
  | comma (t : Text) : GoesOn (.char ',' :: t)
  | operator {s : Symbol} (h : s.isIn "=<>+-*/|AO" = true) (t : Text) :
      GoesOn (.char ' ' :: s :: t)

namespace GoesOn

variable {rest : Text}

theorem head?_mem (h : GoesOn rest) : ∀ s ∈ rest.head?, s ∈ Text.ofString "), " := by
  cases h <;> simp <;> decide

theorem head?_ne (h : GoesOn rest) : rest.head? ≠ some (.char ':') := fun hhead =>
  absurd (h.head?_mem _ hhead) (by decide)

theorem isWord_head? (h : GoesOn rest) : ∀ s ∈ rest.head?, s.isWord = false := by
  have hall : ∀ s ∈ Text.ofString "), ", s.isWord = false := by decide
  exact fun s hs => hall s (h.head?_mem s hs)

theorem ne_cons (h : GoesOn rest) {s : Symbol} (hs : s ∉ Text.ofString "), ") (t : Text) :
    rest ≠ s :: t := by
  rintro rfl
  exact hs (h.head?_mem s rfl)

/-- An expression does not go on with a word in small letters. -/
theorem ends (h : GoesOn rest) : Ends rest := by
  refine ⟨h.isWord_head?, fun hhead => absurd (h.head?_mem _ hhead) (by decide), fun s hs => ?_⟩
  have hall : ∀ s ∈ Text.ofString "vpw", s.isIn "=<>+-*/|AO" = false := by decide
  rintro ⟨t, rfl⟩
  cases h with
  | operator hs' => simp [hall s hs] at hs'

end GoesOn

/-! ## The patterns -/

variable {prev : Option Symbol} {rest : Text}

theorem number_prefers {n t : Text} (hn : IsNumber n) (ht : ∀ s ∈ t.head?, s.isDigit = false) :
    (someOf Symbol.isDigit).Prefers prev n t [] :=
  prefers_someOf hn.1 hn.isDigit ht

/-- No blank stands in front of the scale. -/
theorem scale_prefers {m t : Text} (hm : IsNumber m) (ht : ∀ s ∈ t.head?, s.isDigit = false) :
    (inOrder [word ",", blanks, someOf Symbol.isDigit]).Prefers prev (Text.ofString "," ++ m) t
      [] := by
  have hall : ∀ s ∈ Text.ofString "0123456789", s.isBlank = false := by decide
  have hblanks (p : Option Symbol) : blanks.Prefers p [] (m ++ t) [] := by
    refine prefers_run (by simp) fun s hs => ?_
    obtain ⟨s', m', rfl⟩ := List.exists_cons_of_ne_nil hm.1
    obtain rfl : s' = s := Option.some.inj hs
    exact hall s' (hm.2 s' List.mem_cons_self)
  exact prefers_word.inOrder_cons
    ((hblanks _).inOrder_cons (number_prefers hm ht).inOrder_singleton)

theorem size_prefers {w : Text} (hw : IsSize w) (hrest : Ends rest) :
    (optional size).Prefers prev w rest [] := by
  have hend : ∀ s ∈ (Text.ofString ")" ++ rest).head?, s.isDigit = false :=
    Text.forall_head?_append (by decide) rest
  cases hw with
  | none =>
    refine Prefers.optional_nil (outcomes_inOrder_eq_nil ?_)
    rintro ⟨t, rfl⟩
    exact hrest.ne_paren rfl
  | length hn =>
    -- The scale is optional and tried first; a closing parenthesis is not its comma.
    have hnone (p : Option Symbol) : (inOrder [word ",", blanks, someOf Symbol.isDigit]).outcomes
        ⟨p, Text.ofString ")" ++ rest⟩ = [] :=
      outcomes_inOrder_eq_nil fun h => by
        have hhead := (List.cons_prefix_cons.mp h).1
        cases hhead
    exact (prefers_word.inOrder_cons ((number_prefers hn hend).inOrder_cons
      ((Prefers.optional_nil (hnone _)).inOrder_cons prefers_word.inOrder_singleton))).alt_left _
  | @scale n m hn hm =>
    have hnumber (p : Option Symbol) : (someOf Symbol.isDigit).Prefers p n
        (((Text.ofString "," ++ m) ++ Text.ofString ")") ++ rest) [] := by
      rw [List.append_assoc, List.append_assoc]
      exact number_prefers hn (Text.forall_head?_append (by decide) _)
    exact (prefers_word.inOrder_cons ((hnumber _).inOrder_cons
      (((scale_prefers hm hend).alt_left _).inOrder_cons
        prefers_word.inOrder_singleton))).alt_left _

/-- A time zone is written out behind the name of a time and its precision. -/
theorem zoned_prefers {kind : String} {precision zone : Text} (hprecision : IsPrecision precision)
    (hzone : zone ∈ zones) :
    (zoned kind).Prefers prev (kind ++ (precision ++ zone)) rest [] := by
  have htail (p : Option Symbol) : (inOrder [word " with", optional (word "out"),
      word " time zone"]).Prefers p zone rest [] := by
    have hout (p : Option Symbol) :
        (word "out").outcomes ⟨p, Text.ofString " time zone" ++ rest⟩ = [] :=
      @outcomes_inOrder_eq_nil _ _ _ [] (Text.not_prefix_append (by decide) (by decide) rest)
    obtain rfl | rfl : zone = Text.ofString " with time zone" ∨
        zone = Text.ofString " without time zone" := by simpa [zones] using hzone
    · exact prefers_word.inOrder_cons ((Prefers.optional_nil (hout _)).inOrder_cons
        prefers_word.inOrder_singleton)
    · exact prefers_word.inOrder_cons ((prefers_word.alt_left _).inOrder_cons
        prefers_word.inOrder_singleton)
  have hfront (p : Option Symbol) :
      (optional TypeName.precision).Prefers p precision (zone ++ rest) [] := by
    cases hprecision with
    | none =>
      refine Prefers.optional_nil (outcomes_inOrder_eq_nil ?_)
      have hopen : ∀ z ∈ zones, ¬ Text.ofString "(" <+: z ∧ ¬ z <+: Text.ofString "(" := by decide
      exact Text.not_prefix_append (hopen zone hzone).1 (hopen zone hzone).2 rest
    | digit hd =>
      exact (prefers_word.inOrder_cons ((prefers_one (List.contains_iff_mem.mpr hd)).inOrder_cons
        prefers_word.inOrder_singleton)).alt_left _
  exact prefers_word.inOrder_cons ((hfront _).inOrder_cons (htail _))

/-! ### Single words -/

/-- A single word is not the first of several. -/
theorem not_several {name size v : Text} (hname : ∀ s ∈ name, s.isWord = true) (hsize : IsSize size)
    (hrest : Ends rest) (hv : v ∈ severalWords) : ¬ v <+: name ++ (size ++ rest) := by
  obtain ⟨first, s, more, hfirst, hs, rfl⟩ : ∃ first s more, (∀ s ∈ first, s.isWord = true) ∧
      s ∈ Text.ofString "vpw" ∧ v = first ++ .char ' ' :: s :: more := by
    obtain rfl | rfl | rfl : v = Text.ofString "character varying" ∨
        v = Text.ofString "bit varying" ∨ v = Text.ofString "double precision" := by
      simpa [severalWords] using hv
    · exact ⟨"character", .char 'v', "arying", by decide, by decide, by decide⟩
    · exact ⟨"bit", .char 'v', "arying", by decide, by decide, by decide⟩
    · exact ⟨"double", .char 'p', "recision", by decide, by decide, by decide⟩
  rintro ⟨t, ht⟩
  rw [List.append_assoc] at ht
  have hafter := (Text.eq_of_runs_eq hfirst hname (by simp; decide)
    (hsize.isWord_head? hrest.isWord_head?) ht).2
  cases hsize with
  | none => exact hrest.ne_blank s hs ⟨more ++ t, hafter⟩
  | length hn => cases (List.cons.inj hafter).1
  | scale hn hm => cases (List.cons.inj hafter).1

/-- A single word, with a length or without one, is not a time that says whether it has a time
zone. -/
theorem not_zoned {name size : Text} {kind : String}
    (hkind : ∀ s ∈ Text.ofString kind, s.isWord = true) (hname : ∀ s ∈ name, s.isWord = true)
    (hsize : IsSize size) (hrest : Ends rest) :
    (zoned kind).outcomes ⟨prev, name ++ (size ++ rest)⟩ = [] := by
  refine outcomes_eq_nil_iff.mpr fun v rest' groups ht hm => ?_
  -- The blank in front of the zone stands behind the kind, or behind its precision.
  simp only [zoned, matches_inOrder_cons] at hm
  obtain ⟨_, _, _, _, rfl, rfl, ⟨rfl, rfl⟩, p, _, _, _, rfl, rfl, hp, _, z, _, _, rfl, rfl,
    ⟨rfl, rfl⟩, -⟩ := hm
  simp only [List.append_assoc] at ht
  have hnumber {n t t' : Text} {d : Symbol} (hn : IsNumber n) (hd : d.isIn "0123456" = true)
      (ht : ∀ s ∈ t.head?, s.isDigit = false) (h : n ++ t = [d] ++ (Text.ofString ")" ++ t')) :
      t = Text.ofString ")" ++ t' :=
    (Text.eq_of_runs_eq hn.isDigit (isDigit_of_precision (List.contains_iff_mem.mp hd)) ht
      (Text.forall_head?_append (by decide) t') h).2
  have hafter {after : Text} (hafter : ∀ s ∈ after.head?, s.isWord = false)
      (ht : name ++ (size ++ rest) = kind ++ after) : size ++ rest = after :=
    (Text.eq_of_runs_eq hname hkind (hsize.isWord_head? hrest.isWord_head?) hafter ht).2
  rcases matches_optional.mp hp with hp | ⟨rfl, -⟩
  · simp only [TypeName.precision, matches_inOrder_cons] at hp
    obtain ⟨_, _, _, _, rfl, rfl, ⟨rfl, rfl⟩, _, _, _, _, rfl, rfl, ⟨⟨d, rfl, hd⟩, rfl⟩, _, _, _, _,
      rfl, rfl, ⟨rfl, rfl⟩, rfl, rfl⟩ := hp
    simp only [List.append_assoc] at ht
    have hafter := hafter (Text.forall_head?_append (by decide) _) ht
    cases hsize with
    | none => exact hrest.ne_paren (congrArg List.head? hafter)
    | length hn =>
      rw [List.append_assoc, List.append_assoc] at hafter
      have hbehind := hnumber hn hd (Text.forall_head?_append (by decide) rest)
        (List.append_cancel_left hafter)
      exact hrest.ne_blank _ (by decide : .char 'w' ∈ _) ⟨_, (List.append_cancel_left hbehind).symm⟩
    | scale hn hm =>
      simp only [List.append_assoc] at hafter
      have hbehind := hnumber hn hd (Text.forall_head?_append (by decide) _)
        (List.append_cancel_left hafter)
      cases (List.cons.inj hbehind).1
  · rw [List.nil_append] at ht
    have hafter := hafter (Text.forall_head?_append (by decide) _) ht
    cases hsize with
    | none => exact hrest.ne_blank _ (by decide : .char 'w' ∈ _) ⟨_, hafter.symm⟩
    | length hn => cases (List.cons.inj hafter).1
    | scale hn hm => cases (List.cons.inj hafter).1

/-! ### The whole type -/

/-- The names of types, those of several words first. -/
def names : Pattern :=
  anyOf ["character varying", "bit varying", "double precision", zoned "timestamp", zoned "time",
    identifier]

/-- A name that none of the names of several words begins is looked for among the others. -/
private theorem names_prefers_of_not_several {name : Text}
    (hnot : ∀ v ∈ severalWords, ¬ v <+: name ++ rest)
    (h : (anyOf [zoned "timestamp", zoned "time", identifier]).Prefers prev name rest []) :
    names.Prefers prev name rest [] := by
  have hword {v : Text} (hv : v ∈ severalWords) : (word v).outcomes ⟨prev, name ++ rest⟩ = [] :=
    @outcomes_inOrder_eq_nil _ _ _ [] (hnot v hv)
  exact ((h.alt_right (hword (by simp [severalWords]))).alt_right
    (hword (by simp [severalWords]))).alt_right (hword (by simp [severalWords]))

theorem several_prefers {name : Text} (h : name ∈ severalWords) :
    names.Prefers prev name rest [] := by
  have hother {v u : Text} (h : ¬ v <+: u) (h' : ¬ u <+: v) :
      (word v).outcomes ⟨prev, u ++ rest⟩ = [] :=
    @outcomes_inOrder_eq_nil _ _ _ [] (Text.not_prefix_append h h' rest)
  obtain rfl | rfl | rfl : name = Text.ofString "character varying" ∨
      name = Text.ofString "bit varying" ∨ name = Text.ofString "double precision" := by
    simpa [severalWords] using h
  · exact prefers_word.alt_left _
  · exact (prefers_word.alt_left _).alt_right (hother (by decide) (by decide))
  · exact ((prefers_word.alt_left _).alt_right (hother (by decide) (by decide))).alt_right
      (hother (by decide) (by decide))

/-- A time without a date is not taken for a timestamp. -/
theorem not_timestamp {precision zone : Text} (hprecision : IsPrecision precision)
    (hzone : zone ∈ zones) :
    (zoned "timestamp").outcomes ⟨prev, ("time" ++ (precision ++ zone)) ++ rest⟩ = [] := by
  have hsplit : Text.ofString "timestamp" = "time" ++ Text.ofString "stamp" := by decide
  have hzones : ∀ z ∈ zones, ¬ Text.ofString "stamp" <+: z ∧ ¬ z <+: Text.ofString "stamp" := by
    decide
  refine outcomes_inOrder_eq_nil ?_
  rw [hsplit, List.append_assoc, List.prefix_append_right_inj, List.append_assoc]
  cases hprecision with
  | none => exact Text.not_prefix_append (hzones zone hzone).1 (hzones zone hzone).2 _
  | digit hd => exact fun h => absurd (List.cons_prefix_cons.mp h).1 (by decide)

/-- A name of several words is tried before its first word, and is the longer of the two. -/
theorem names_prefers {name size : Text} (hname : IsName name) (hsize : IsSize size)
    (hrest : Ends rest) : names.Prefers prev name (size ++ rest) [] := by
  cases hname with
  | several h => exact several_prefers h
  | @zoned kind precision zone hkind hprecision hzone =>
    -- Neither kind of time begins one of the names of several words, or the other way round.
    have hfront : ∀ v ∈ severalWords, ∀ k ∈ [Text.ofString "timestamp", "time"],
        ¬ v <+: k ∧ ¬ k <+: v := by decide
    refine names_prefers_of_not_several (fun v hv => ?_) ?_
    · rw [List.append_assoc]
      exact Text.not_prefix_append (hfront v hv kind hkind).1 (hfront v hv kind hkind).2 _
    · obtain rfl | rfl : kind = Text.ofString "timestamp" ∨ kind = Text.ofString "time" := by
        simpa using hkind
      · exact (zoned_prefers hprecision hzone).alt_left _
      · exact Prefers.alt_right (not_timestamp hprecision hzone)
          ((zoned_prefers hprecision hzone).alt_left _)
  | word hne h =>
    have hself : identifier.Prefers prev name (size ++ rest) [] :=
      prefers_someOf hne h (hsize.isWord_head? hrest.isWord_head?)
    refine names_prefers_of_not_several (fun v hv => not_several h hsize hrest hv) ?_
    exact Prefers.alt_right (not_zoned (by decide) h hsize hrest)
      (Prefers.alt_right (not_zoned (by decide) h hsize hrest) hself)

/-- A type name is read as a whole, with the mark of an array if there is one. -/
theorem CastType.prefers_array (T : CastType) {array : Text}
    (harray : array ∈ [[], Text.ofString "[]"]) (hends : Ends rest)
    (hrest : ¬ Text.ofString "[]" <+: rest) :
    cast.Prefers prev ("::" ++ (T.text ++ array)) rest [] := by
  -- The mark of an array ends a name as well as what may follow it.
  have hends : Ends (array ++ rest) := by
    obtain rfl | rfl : array = [] ∨ array = Text.ofString "[]" := by simpa using harray
    · exact hends
    · exact .of_cons (by decide) _
  have harray (p : Option Symbol) : (inOrder [optional (word "[]")]).Prefers p array rest [] := by
    obtain rfl | rfl : array = [] ∨ array = Text.ofString "[]" := by simpa using harray
    · exact Prefers.optional_nil (@outcomes_inOrder_eq_nil _ _ _ [] hrest)
    · exact prefers_word.alt_left _
  have hsize (p : Option Symbol) :
      (inOrder [optional TypeName.size, optional (word "[]")]).Prefers p (T.size ++ array) rest
        [] :=
    (size_prefers T.isSize hends).inOrder_cons (harray _)
  have htarget (p : Option Symbol) :
      (inOrder [castTarget]).Prefers p (T.name ++ (T.size ++ array)) rest [] := by
    have hname : names.Prefers p T.name ((T.size ++ array) ++ rest) [] := by
      rw [List.append_assoc]
      exact names_prefers T.isName T.isSize hends
    exact hname.inOrder_cons (hsize _)
  rw [CastType.text, List.append_assoc]
  exact prefers_word.inOrder_cons (htarget _)

/-- **A type name is read as a whole** where an expression goes on behind it. -/
theorem CastType.prefers (T : CastType) (hrest : GoesOn rest) :
    cast.Prefers prev ("::" ++ T.text) rest [] := by
  have hnone : ¬ Text.ofString "[]" <+: rest := by
    rintro ⟨t, ht⟩
    exact hrest.ne_cons (by decide) _ ht.symm
  have hbare : ([] : Text) ∈ [[], Text.ofString "[]"] := List.mem_cons_self
  rw [← List.append_nil T.text]
  exact T.prefers_array hbare hrest.ends hnone

end DumpDialect.TypeName
