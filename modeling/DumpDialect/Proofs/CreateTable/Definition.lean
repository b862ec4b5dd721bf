import DumpDialect.CreateTable.Column
import DumpDialect.Proofs.Conversion.OneLine
import DumpDialect.Proofs.Pattern.Anchored
import DumpDialect.Proofs.Text.Classes
import DumpDialect.Proofs.TypeName

/-!
# Definitions of columns with a default

The rules for the definition of a column come in four groups: those for the names of types, those
that take casts and sequences away, those for times and addresses, and those for defaults. The first
and the third are bound to the start of the definition; the others look through all of it, also into
the literal of a default.

- `parts?_append`, `convert_append`: a line with its first word as the name of the column.
- `ColumnFrame`, `ColumnFrame.convert_line`: what stands around the type and the default.
- `typeRules_eq`: the groups.
- `notBegunIn_of_plain`: up to the literal the rules of the second group find nothing.
-/

namespace DumpDialect.Column

open Pattern

/-- The quote around a literal. -/
abbrev quote : Symbol := .char '\x27'

/-! ## Lines -/

/-- A line is taken apart behind its first word. -/
theorem parts?_append {indent name rest : Text} (hindent : ∀ s ∈ indent, s.isBlank = true)
    (hne : name ≠ []) (hink : ∀ s ∈ name, s.isInk = true)
    (hrest : ∀ s ∈ rest.head?, s.isInk = false) :
    parts? (indent ++ (name ++ rest)) =
      if rest.head? = some (.char ' ') &&
          [[], [Symbol.lineFeed]].contains (rest.dropWhile Symbol.isInLine)
      then some ⟨indent, name, rest.takeWhile Symbol.isInLine⟩ else none := by
  have hfirst : ∀ s ∈ (name ++ rest).head?, s.isBlank = false := by
    obtain ⟨s, name, rfl⟩ := List.exists_cons_of_ne_nil hne
    rintro _ ⟨⟩
    have hs := hink s List.mem_cons_self
    simpa [Symbol.isInk] using hs
  obtain ⟨htake, hdrop⟩ := Text.span_run hindent hfirst
  obtain ⟨hname, hbehind⟩ := Text.span_run hink hrest
  simp only [parts?, htake, hdrop, hname, hbehind]
  simp [hne]

/-- The first word is quoted as the name of the column, and the rules run on what follows it. -/
theorem convert_append [Quoting] {indent name rest : Text}
    (hindent : ∀ s ∈ indent, s.isBlank = true) (hne : name ≠ [])
    (hink : ∀ s ∈ name, s.isInk = true) (hrest : rest.IsOneLine)
    (hdef : isDefinition (indent ++ (name ++ .char ' ' :: rest)) = true) :
    convert (indent ++ (name ++ .char ' ' :: rest)) =
      indent ++ (Identifier.quote name ++ applyRules typeRules (.char ' ' :: rest)) := by
  have hspace : ∀ s ∈ (Symbol.char ' ' :: rest).head?, s.isInk = false := by
    rintro _ ⟨⟩
    decide
  have hline : ∀ s ∈ Symbol.char ' ' :: rest, s.isInLine = true := by
    intro s hs
    simp only [Symbol.isInLine, decide_eq_true_eq]
    rintro rfl
    rcases List.mem_cons.mp hs with hs | hs
    · exact absurd hs (by decide)
    · exact hrest hs
  obtain ⟨htake, hdrop⟩ := Text.span_run hline (v := []) (by simp)
  rw [List.append_nil] at htake hdrop
  rw [convert, if_pos hdef, parts?_append hindent hne hink hspace, htake, hdrop]
  simp

/-- What may stand behind a default. -/
def endings : List Text := ["", ",", " NOT NULL", " NOT NULL,"]

/-- What stands around the type and the default of a column: the indent, the name of the column, a
word, and what follows the default. -/
structure ColumnFrame where
  indent : Text
  name : Text
  ending : Text
  blank : ∀ s ∈ indent, s.isBlank = true
  isWord : name.IsWord
  isEnding : ending ∈ endings

namespace ColumnFrame

variable (c : ColumnFrame)

/-- The line of the column with this type and default. -/
def line (definition : Text) : Text :=
  c.indent ++ (c.name ++ (.char ' ' :: (definition ++ c.ending)))

/-- The line of the column as it is to be written, with this type and default. -/
def written (definition : Text) : Text :=
  c.indent ++ ((Identifier.backtick :: c.name ++ [Identifier.backtick]) ++
    (.char ' ' :: (definition ++ c.ending)))

theorem isOneLine_ending : c.ending.IsOneLine := by
  have hall : ∀ t ∈ endings, t.IsOneLine := by decide
  exact hall _ c.isEnding

/-- The name of the column is put into backticks, and the rules run on what follows it. -/
theorem convert_line [Quoting] {definition : Text} (hdef : isDefinition (c.line definition) = true)
    (hline : definition.IsOneLine) :
    convert (c.line definition) = c.indent ++
      ((Identifier.backtick :: c.name ++ [Identifier.backtick]) ++
        applyRules typeRules (.char ' ' :: (definition ++ c.ending))) := by
  have hink : ∀ s ∈ c.name, s.isInk = true := fun s hs => by
    simp [Symbol.isInk, Symbol.isBlank_of_isWord (c.isWord.2 s hs)]
  rw [line, convert_append c.blank c.isWord.1 hink (hline.append c.isOneLine_ending) hdef,
    Identifier.quote_of_not_mem (c.isWord.not_mem (by decide)) (c.isWord.not_mem (by decide))]

end ColumnFrame

/-- A type with a literal as default, cast to a type. -/
def withDefault (type literal cast : Text) : Text :=
  type ++ (" DEFAULT '" ++ (doubleQuotes quote literal ++ quote :: ("::" ++ cast)))

/-- A type with a literal as default. -/
def withLiteral (type literal : Text) : Text :=
  type ++ (" DEFAULT '" ++ (doubleQuotes quote literal ++ [quote]))

/-! ## Groups of rules -/

/-- The rules for the names of types at the start of a definition. -/
def nameRules : List Rule := typeRules.take 22

/-- The rules that take casts and sequences away, anywhere in a definition. -/
def castRules : List Rule := (typeRules.drop 22).take 6

/-- The rules for times, addresses and money at the start of a definition. -/
def timeRules : List Rule := (typeRules.drop 28).take 11

/-- The rules for defaults that MySQL does not know, anywhere in a definition, and for citext. -/
def defaultRules : List Rule := typeRules.drop 39

theorem typeRules_eq : typeRules = nameRules ++ (castRules ++ (timeRules ++ defaultRules)) := rfl

/-- The rules for numbers that are written as strings. -/
def integerDefaults : List Rule := castRules.take 3

theorem integerDefaults_eq : integerDefaults =
    [integerDefault "int_cast_default" "'::int",
      integerDefault "smallint_cast_default" "'::smallint",
      integerDefault "bigint_cast_default" "'::bigint"] := rfl

/-- The rule for a sequence as default. -/
def sequenceDefault : Rule :=
  .once "sequence_default" (inOrder [" DEFAULT nextval(", Pattern.run Symbol.isInLine, ")"]) [" "]

/-- The rule for casts to types. -/
def typeCast : Rule := .throughout "type_cast" TypeName.cast []

/-- The rule for what casts are left. -/
def residualCast : Rule :=
  .throughout "residual_cast" (inOrder ["::", Pattern.run fun s => s ≠ .char ',' && !s.isBlank]) []

theorem castRules_eq :
    castRules = integerDefaults ++ [sequenceDefault, typeCast, residualCast] := rfl

/-- The rule for the default of a text column. -/
def longtextDefault : Rule :=
  .once "longtext_default"
    (inOrder [" longtext DEFAULT ", manyShortOf " NOT NULL" (Symbol.isNotIn ","),
      optional (group 1 " NOT NULL")])
    [" longtext", .group 1]

/-- The rule for a function as default. -/
def functionDefault : Rule :=
  .once "function_default" (inOrder [" DEFAULT ", Pattern.run Symbol.isInLine, "()"]) []

/-- The rule for a JSON object as default. -/
def objectDefault : Rule :=
  .once "json_build_object"
    (inOrder [" DEFAULT json_build_object(", group 1 (Pattern.run Symbol.isInLine), ")"])
    [" DEFAULT json_object(", .group 1, ")"]

/-- The rule for a text type of an extension. -/
def citext : Rule :=
  typeStart "citext" [" ", Pattern.run Symbol.isInk, ".citext", wordEdge] [" text"]

theorem defaultRules_eq :
    defaultRules = [longtextDefault, functionDefault, objectDefault, citext] := rfl

/-! ## Up to the literal -/

/-- The start of a definition: a type without a default and without a cast. -/
structure IsHead (head : Text) : Prop where
  noDefault : ¬ Text.ofString " DEFAULT" <:+: head
  noCast : ¬ Text.ofString "::" <:+: head

/-- The start of a definition with a literal as default, up to the literal. -/
def upTo (head : Text) : Text := head ++ " DEFAULT '"

theorem cons_withDefault (type literal cast ending : Text) :
    .char ' ' :: (withDefault type literal cast ++ ending) = upTo (.char ' ' :: type) ++
      (doubleQuotes quote literal ++ quote :: (("::" ++ cast) ++ ending)) := by
  simp [withDefault, upTo]

theorem cons_withLiteral (type literal ending : Text) :
    .char ' ' :: (withLiteral type literal ++ ending) =
      upTo (.char ' ' :: type) ++ (doubleQuotes quote literal ++ quote :: ending) := by
  simp [withLiteral, upTo]

theorem isOneLine_doubleQuotes {literal : Text} (h : literal.IsOneLine) :
    (doubleQuotes quote literal).IsOneLine := fun hmem =>
  (mem_of_mem_doubleQuotes hmem).elim (by decide) h

theorem isOneLine_quoted {literal rest : Text} (h : literal.IsOneLine) (hrest : rest.IsOneLine) :
    (doubleQuotes quote literal ++ quote :: rest).IsOneLine := by
  have hquote : Text.IsOneLine [quote] := by decide
  exact (isOneLine_doubleQuotes h).append (hquote.append hrest)

theorem isOneLine_withDefault {type literal cast : Text} (htype : type.IsOneLine)
    (hliteral : literal.IsOneLine) (hcast : cast.IsOneLine) :
    (withDefault type literal cast).IsOneLine := by
  have hcolons : Text.IsOneLine "::" := by decide
  have hdefault : Text.IsOneLine " DEFAULT '" := by decide
  exact htype.append (hdefault.append (isOneLine_quoted hliteral (hcolons.append hcast)))

/-- The words that open the rules for casts and for objects. -/
def openings : List Text :=
  [" DEFAULT ('", " DEFAULT nextval(", "::", " DEFAULT json_build_object("]

variable {head : Text}

theorem getLast?_upTo : ∀ s ∈ (upTo head).getLast?, s = quote := by
  intro s hs
  rw [upTo, List.getLast?_append] at hs
  exact (Option.some.inj hs).symm

/-- The words that open a rule do not stand in front of the literal. -/
theorem IsHead.notBegunIn (h : IsHead head) {v : Text} (hv : v ∈ openings) :
    Text.NotBegunIn v (upTo head) := by
  have hapart : ∀ v ∈ openings, (∀ k < v.length, ¬ v.drop k <+: Text.ofString " DEFAULT '") ∧
      ¬ v <:+: Text.ofString " DEFAULT '" ∧ quote ∉ v.dropLast ∧
      (Text.ofString " DEFAULT" <:+: v ∨ Text.ofString "::" <:+: v) := by decide +kernel
  obtain ⟨hparts, hnot, hquote, hholds⟩ := hapart v hv
  refine ⟨fun hwithin => ?_, fun s hs => getLast?_upTo s hs ▸ hquote⟩
  have hhead := (Text.infix_append_of_apart hparts hwithin).resolve_right hnot
  rcases hholds with hword | hword
  · exact h.noDefault (hword.trans hhead)
  · exact h.noCast (hword.trans hhead)

theorem IsHead.passesOver_castRules (h : IsHead head) :
    ∀ r ∈ castRules, r.PassesOver (upTo head) := by
  have hopening : ∀ r ∈ castRules, ∃ v ∈ r.pattern.opening?, v ≠ [] ∧ v ∈ openings := by decide
  intro r hr
  obtain ⟨v, hopens, hne, hv⟩ := hopening r hr
  exact ⟨v, hopens, hne, h.notBegunIn hv⟩

theorem IsHead.passesOver_objectDefault (h : IsHead head) : objectDefault.PassesOver (upTo head) :=
  ⟨_, rfl, by decide, h.notBegunIn (by decide)⟩

/-- Behind a head without a default a function is looked for in the default. -/
theorem occursIn_functionDefault (hhead : ¬ Text.ofString " DEFAULT" <:+: head) {t : Text}
    (ht : ¬ Text.ofString "()" <:+: t) :
    functionDefault.pattern.occursIn (upTo head ++ t) = false := by
  refine Bool.eq_false_iff.mpr fun hoccurs => ?_
  obtain ⟨before, w, after, _, hsplit, hm⟩ := occursIn_iff.mp hoccurs
  simp only [functionDefault, Rule.once, matches_inOrder_cons] at hm
  obtain ⟨_, _, _, _, rfl, rfl, ⟨rfl, rfl⟩, args, _, _, _, rfl, rfl, -, _, _, _, _, rfl, rfl,
    ⟨rfl, rfl⟩, rfl, rfl⟩ := hm
  let front := before ++ (Text.ofString " DEFAULT " ++ args)
  have hfront : Text.ofString " DEFAULT" <:+: front :=
    ⟨before, .char ' ' :: args, by simp [front, Text.ofString]⟩
  have hupTo : upTo head = head ++ Text.ofString " DEFAULT " ++ [quote] := by
    simp [upTo]
    decide
  have heq : (head ++ Text.ofString " DEFAULT ") ++ quote :: t =
      front ++ (Text.ofString "()" ++ after) := by
    rw [hupTo] at hsplit
    simpa [front] using hsplit
  -- The call stands behind the quote that opens the literal, or in front of it.
  rcases List.append_eq_append_iff.mp heq with ⟨between, -, hrest⟩ | ⟨between, hbefore, hrest⟩
  · have hcall : Text.ofString "()" <:+: quote :: t := hrest ▸ ⟨between, after, by simp⟩
    exact ht (Text.infix_of_infix_cons (by decide) hcall)
  · -- The parentheses stand in the head, and a default would stand in front of them.
    obtain ⟨more, rfl⟩ := Text.prefix_of_prefix_append_cons (s := quote) (by decide)
      (hrest ▸ List.prefix_append (Text.ofString "()") after)
    rcases List.append_eq_append_iff.mp hbefore with ⟨gap, -, hgap⟩ | ⟨gap, rfl, -⟩
    · have hmem : .char '(' ∈ Text.ofString " DEFAULT " := by
        rw [hgap]
        exact List.mem_append_right _ (List.mem_append_left _ (by decide))
      exact absurd hmem (by decide)
    · exact hhead (hfront.trans (List.prefix_append ..).isInfix)

/-! ## Calls in a literal -/

/-- The word stands in the text, and a closing parenthesis behind it. -/
def HoldsCall (v t : Text) : Prop := ∃ front back, t = front ++ .char ')' :: back ∧ v <:+: front

theorem HoldsCall.isInfix {v t : Text} (h : HoldsCall v t) : v <:+: t := by
  obtain ⟨front, back, rfl, hword⟩ := h
  exact hword.trans (List.prefix_append ..).isInfix

theorem HoldsCall.append_left {v t : Text} (h : HoldsCall v t) (u : Text) :
    HoldsCall v (u ++ t) := by
  obtain ⟨front, back, rfl, hword⟩ := h
  exact ⟨u ++ front, back, by simp, hword.trans (List.suffix_append ..).isInfix⟩

/-- A call is found where it opens and is closed on the same line. -/
theorem occursIn_call_iff {v t : Text} {args : Pattern} (ht : t.IsOneLine)
    (hargs : ∀ prev w rest, (∃ groups, args.Matches prev w rest groups) ↔ w.IsOneLine) :
    (inOrder [word v, args, ")"]).occursIn t = true ↔ HoldsCall v t := by
  have hclose : Text.ofString ")" = [.char ')'] := by decide
  rw [occursIn_iff]
  constructor
  · rintro ⟨before, w, after, _, rfl, hm⟩
    simp only [matches_inOrder_cons] at hm
    obtain ⟨v, _, _, _, rfl, rfl, ⟨rfl, rfl⟩, inner, _, _, _, rfl, rfl, -, _, _, _, _, rfl, rfl,
      ⟨rfl, rfl⟩, rfl, rfl⟩ := hm
    exact ⟨before ++ (v ++ inner), after, by simp [hclose], ⟨before, inner, by simp⟩⟩
  · rintro ⟨_, after, rfl, before, inner, rfl⟩
    obtain ⟨groups, hinner⟩ := (hargs (lastOf before.getLast? v) inner
      (Text.ofString ")" ++ after)).mpr
      (ht.of_subset fun s hs => by simp [hs])
    exact ⟨before, v ++ (inner ++ Text.ofString ")"), after, [] ++ (groups ++ []),
      by simp [hclose], .inOrder_cons ⟨rfl, rfl⟩ (.inOrder_cons hinner ⟨rfl, rfl⟩)⟩

theorem isInLine_iff {w : Text} : (∀ s ∈ w, s.isInLine = true) ↔ w.IsOneLine := by
  simp only [Symbol.isInLine, decide_eq_true_eq, Text.IsOneLine]
  exact ⟨fun h hmem => h _ hmem rfl, fun h s hs heq => h (heq ▸ hs)⟩

theorem occursIn_sequenceDefault_iff {t : Text} (ht : t.IsOneLine) :
    sequenceDefault.pattern.occursIn t = true ↔ HoldsCall " DEFAULT nextval(" t := by
  refine occursIn_call_iff ht fun prev w rest => ?_
  simp [isInLine_iff]

theorem occursIn_objectDefault_iff {t : Text} (ht : t.IsOneLine) :
    objectDefault.pattern.occursIn t = true ↔ HoldsCall " DEFAULT json_build_object(" t := by
  refine occursIn_call_iff ht fun prev w rest => ?_
  simp [isInLine_iff]

/-- A call is closed in front of a quote if there is no closing parenthesis behind it. -/
theorem holdsCall_append_cons_iff {v t u : Text} (hu : .char ')' ∉ u) :
    HoldsCall v (t ++ quote :: u) ↔ HoldsCall v t := by
  constructor
  · rintro ⟨front, back, hsplit, hword⟩
    rcases List.append_eq_append_iff.mp hsplit with ⟨between, rfl, hrest⟩ | ⟨between, rfl, hrest⟩
    · have hmem : .char ')' ∈ quote :: u := by
        rw [hrest]
        simp
      rcases List.mem_cons.mp hmem with heq | hmem
      · exact absurd heq (by decide)
      · exact absurd hmem hu
    · cases between with
      | nil => exact absurd (List.cons.inj hrest).1 (by decide)
      | cons s between =>
        obtain ⟨rfl, -⟩ := List.cons.inj hrest
        exact ⟨front, between, rfl, hword⟩
  · rintro ⟨front, back, rfl, hword⟩
    exact ⟨front, back ++ quote :: u, by simp, hword⟩

/-- Doubling quotes makes no calls. -/
theorem holdsCall_doubleQuotes_iff {v t : Text} (hv : quote ∉ v) :
    HoldsCall v (doubleQuotes quote t) ↔ HoldsCall v t := by
  have happend (front back : Text) : doubleQuotes quote (front ++ .char ')' :: back) =
      doubleQuotes quote front ++ .char ')' :: doubleQuotes quote back := by
    simp [doubleQuotes]
  constructor
  · rintro ⟨front, back, hsplit, hword⟩
    obtain ⟨front', back', rfl, rfl⟩ := exists_of_doubleQuotes_eq (by decide) hsplit
    exact ⟨front', back', rfl, (infix_doubleQuotes_iff hv).mp hword⟩
  · rintro ⟨front, back, rfl, hword⟩
    exact ⟨_, _, happend front back, (infix_doubleQuotes_iff hv).mpr hword⟩

theorem occursIn_sequenceDefault_literal_iff {literal behind : Text} (hliteral : literal.IsOneLine)
    (hbehind : behind.IsOneLine) (hparen : .char ')' ∉ behind) :
    sequenceDefault.pattern.occursIn (doubleQuotes quote literal ++ quote :: behind) = true ↔
      HoldsCall " DEFAULT nextval(" literal := by
  rw [occursIn_sequenceDefault_iff (isOneLine_quoted hliteral hbehind),
    holdsCall_append_cons_iff hparen, holdsCall_doubleQuotes_iff (by decide)]

/-! ## The literal and its cast -/

theorem endings_spec {ending : Text} (h : ending ∈ endings) :
    TypeName.Ends ending ∧ ¬ Text.ofString "[]" <+: ending ∧
      ∀ s ∈ [quote, .char ':', .char ')'], s ∉ ending := by
  have hall : ∀ e ∈ endings, (∀ s ∈ e.head?, s.isWord = false) ∧ e.head? ≠ some (.char '(') ∧
      (∀ s ∈ Text.ofString "vpw", ¬ [.char ' ', s] <+: e) ∧ ¬ Text.ofString "[]" <+: e ∧
      ∀ s ∈ [quote, .char ':', .char ')'], s ∉ e := by decide
  obtain ⟨hword, hparen, hblank, harray, hnot⟩ := hall ending h
  exact ⟨⟨hword, hparen, hblank⟩, harray, hnot⟩

/-- The type that a literal is cast to is taken away, if what follows is not a part of it. -/
theorem typeCast_apply (T : TypeName.CastType) {array rest : Text}
    (harray : array ∈ [[], Text.ofString "[]"]) (hends : TypeName.Ends rest)
    (hrest : ¬ Text.ofString "[]" <+: rest) (hcolons : ¬ Text.ofString "::" <:+: rest) :
    typeCast.apply (("::" ++ (T.text ++ array)) ++ rest) = rest := by
  have hnone : typeCast.apply rest = rest :=
    Rule.apply_eq_self (occursIn_inOrder_eq_false hcolons)
  have hfirst : typeCast.apply (("::" ++ (T.text ++ array)) ++ rest) = [] ++ typeCast.apply rest :=
    replaceAll_of_prefers rfl (T.prefers_array harray hends hrest) []
  rw [hfirst, List.nil_append, hnone]

theorem typeCast_ending (T : TypeName.CastType) {array ending : Text}
    (harray : array ∈ [[], Text.ofString "[]"]) (hending : ending ∈ endings) :
    typeCast.apply (("::" ++ (T.text ++ array)) ++ ending) = ending := by
  obtain ⟨hends, hbrackets, hnot⟩ := endings_spec hending
  exact typeCast_apply T harray hends hbrackets fun h =>
    hnot (.char ':') (by decide) (h.subset (by decide))

/-- Of a literal without casts and sequences only the cast behind it is taken away. -/
theorem applyRules_castRules {literal behind rest : Text}
    (hcolons : ¬ Text.ofString "::" <:+: literal)
    (hinteger : ∀ r ∈ integerDefaults, r.pattern.occursIn (literal ++ quote :: behind) = false)
    (hsequence : sequenceDefault.pattern.occursIn (literal ++ quote :: behind) = false)
    (hbehind : typeCast.apply behind = rest) (hrest : ¬ Text.ofString "::" <:+: rest) :
    applyRules castRules (literal ++ quote :: behind) = literal ++ quote :: rest := by
  -- A cast begins with two colons, and neither the literal nor its closing quote begins one.
  have hfront : Text.NotBegunIn "::" (literal ++ [quote]) := by
    refine ⟨fun h => ?_, fun s hs => ?_⟩
    · rcases (Text.infix_append_cons_iff (by decide) (by decide)).mp h with h | h
      · exact hcolons h
      · revert h
        decide
    · rw [List.getLast?_concat] at hs
      cases hs
      decide
  have hcast : typeCast.apply (literal ++ quote :: behind) = literal ++ quote :: rest := by
    rw [List.append_cons, Rule.PassesOver.apply_append ⟨_, rfl, by decide, hfront⟩, hbehind,
      ← List.append_cons]
  have hresidual : residualCast.pattern.occursIn (literal ++ quote :: rest) = false := by
    refine occursIn_inOrder_eq_false ?_
    rw [Text.infix_append_cons_iff (by decide) (by decide)]
    exact not_or.mpr ⟨hcolons, hrest⟩
  rw [castRules_eq, applyRules_append, applyRules_of_not_occursIn hinteger, applyRules_cons,
    Rule.apply_eq_self hsequence, applyRules_cons, hcast, applyRules_cons,
    Rule.apply_eq_self hresidual, applyRules_nil]

/-- The words of the casts to integer types. -/
def integerCasts : List Text := ["::int", "::smallint", "::bigint"]

/-- A number that is written as a string has a cast to an integer type behind it. -/
theorem occursIn_integerDefault {name cast : String} {t : Text}
    (h : ¬ Text.ofString cast <:+: t) : (integerDefault name cast).pattern.occursIn t = false := by
  rw [integerDefault, Rule.once]
  refine occursIn_eq_false_of_word (v := Text.ofString cast) ?_ h
  simp only [List.mem_cons, true_or, or_true]

theorem occursIn_integerDefaults {literal behind : Text}
    (hcolons : ¬ Text.ofString "::" <:+: literal)
    (hbehind : ∀ v ∈ integerCasts, ¬ v <:+: behind) :
    ∀ r ∈ integerDefaults, r.pattern.occursIn (literal ++ quote :: behind) = false := by
  have hcast : ∀ v ∈ integerCasts, ¬ v <:+: literal ++ quote :: behind := by
    have hword : ∀ v ∈ integerCasts, v ≠ [] ∧ quote ∉ v ∧ Text.ofString "::" <:+: v := by decide
    intro v hv
    obtain ⟨hne, hquote, hstart⟩ := hword v hv
    rw [Text.infix_append_cons_iff hne hquote]
    exact not_or.mpr ⟨fun h => hcolons (hstart.trans h), hbehind v hv⟩
  have hnot : ∀ cast ∈ [Text.ofString "'::int", "'::smallint", "'::bigint"],
      ¬ cast <:+: literal ++ quote :: behind := by
    have hholds : ∀ cast ∈ [Text.ofString "'::int", "'::smallint", "'::bigint"],
        ∃ v ∈ integerCasts, v <:+: cast := by decide +kernel
    intro cast hmem h
    obtain ⟨v, hv, hwithin⟩ := hholds cast hmem
    exact hcast v hv (hwithin.trans h)
  rw [integerDefaults_eq, List.forall_mem_cons, List.forall_mem_cons, List.forall_mem_singleton]
  exact ⟨occursIn_integerDefault (hnot _ (by decide)), occursIn_integerDefault (hnot _ (by decide)),
    occursIn_integerDefault (hnot _ (by decide))⟩

theorem occursIn_residualCast_iff {t : Text} :
    residualCast.pattern.occursIn t = true ↔ Text.ofString "::" <:+: t :=
  occursIn_inOrder_word_iff fun _ _ => ⟨List.forall_mem_nil _, rfl⟩

/-! ## Defaults that MySQL does not know -/

theorem occursIn_longtextDefault_iff {t : Text} :
    longtextDefault.pattern.occursIn t = true ↔ Text.ofString " longtext DEFAULT " <:+: t :=
  occursIn_inOrder_word_iff fun _ _ =>
    matches_inOrder_cons.mpr ⟨[], [], [], [], rfl, rfl, ⟨trivial, rfl⟩, .inr ⟨rfl, rfl⟩⟩

/-- The words up to a literal, the literal and what follows it are looked through one by one. -/
theorem infix_upTo_iff {v literal rest : Text} (hne : v ≠ []) (hv : quote ∉ v) :
    v <:+: upTo head ++ (literal ++ quote :: rest) ↔
      v <:+: head ++ " DEFAULT " ∨ v <:+: literal ∨ v <:+: rest := by
  have hsplit : upTo head ++ (literal ++ quote :: rest) =
      (head ++ Text.ofString " DEFAULT ") ++ quote :: (literal ++ quote :: rest) := by
    simp [upTo, Text.ofString]
  rw [hsplit, Text.infix_append_cons_iff hne hv, Text.infix_append_cons_iff hne hv]

/-- A text type of an extension is looked for in front of the first blank. -/
theorem citext_within {type rest w after : Text} {groups : List (Nat × Text)}
    (hsplit : .char ' ' :: (type ++ .char ' ' :: rest) = w ++ after)
    (hm : citext.pattern.Matches none w after groups) :
    ∃ name, w = .char ' ' :: name ∧ name <+: type ∧ .char '.' ∈ name := by
  simp only [citext, typeStart, Rule.once, matches_inOrder_cons] at hm
  obtain ⟨_, _, _, _, rfl, rfl, ⟨-, rfl, -⟩, _, _, _, _, rfl, rfl, ⟨rfl, rfl⟩, schema, _, _, _, rfl,
    rfl, ⟨hink, -⟩, _, _, _, _, rfl, rfl, ⟨rfl, rfl⟩, edge, _, _, _, rfl, rfl, ⟨-, rfl, -⟩,
    rfl, rfl⟩ := hm
  have hblank : .char ' ' ∉ schema ++ Text.ofString ".citext" := by
    intro hmem
    rcases List.mem_append.mp hmem with hmem | hmem
    · exact absurd (hink _ hmem) (by decide)
    · exact absurd hmem (by decide)
  have hbegins : schema ++ Text.ofString ".citext" <+: type ++ .char ' ' :: rest :=
    ⟨after, by simpa [Text.ofString] using hsplit.symm⟩
  refine ⟨schema ++ Text.ofString ".citext", by simp [Text.ofString],
    Text.prefix_of_prefix_append_cons hblank hbegins, ?_⟩
  exact List.mem_append_right _ (by decide)

/-- A literal in which nothing is found stays as a default. -/
theorem applyRules_defaultRules (hhead : IsHead head) {literal rest : Text}
    (hlongtext : ¬ Text.ofString " longtext DEFAULT " <:+: upTo head ++ (literal ++ quote :: rest))
    (hfunction : ¬ Text.ofString "()" <:+: literal ++ quote :: rest)
    (hobject : objectDefault.pattern.occursIn (literal ++ quote :: rest) = false)
    (hcitext : citext.pattern.occursIn (upTo head ++ (literal ++ quote :: rest)) = false) :
    applyRules defaultRules (upTo head ++ (literal ++ quote :: rest)) =
      upTo head ++ (literal ++ quote :: rest) := by
  have hnone := Bool.eq_false_iff.mpr (mt occursIn_longtextDefault_iff.mp hlongtext)
  rw [defaultRules_eq, applyRules_cons, Rule.apply_eq_self hnone, applyRules_cons,
    Rule.apply_eq_self (occursIn_functionDefault hhead.noDefault hfunction), applyRules_cons,
    hhead.passesOver_objectDefault.apply_append, Rule.apply_eq_self hobject, applyRules_cons,
    Rule.apply_eq_self hcitext, applyRules_nil]

end DumpDialect.Column
