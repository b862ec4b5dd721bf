import Mathlib.Data.List.TakeWhile
import DumpDialect.Proofs.CreateTable.CastDefault
import DumpDialect.Proofs.CreateTable.LiteralDefault
import DumpDialect.Quoting

/-!
# Types of columns without a default

A type that MySQL does not know is written as one that it knows, whatever the name of the column and
whatever stands behind the type. The rules for names and those for times and addresses each take one
of these types; none of them goes on over the comma or the ` NOT NULL` behind it
(`Rule.StopsAt`), so what they make of most types is known from the type alone. The last rule looks
at all that stands in front of a blank, and so behind a comma too.

- `SourceType`: the types, and what is to be written for each.
- `SourceType.nameRules_apply`, `SourceType.timeRules_apply`: the two groups.
- `occursIn_citext_iff`: what the last rule finds.
- `SourceType.translated_iff`: the line that is written.
-/

namespace DumpDialect.Column

open Pattern

/-! ## Types -/

/-- The types that have one name only, with what is written for them. -/
def namedTypes : List (Text × Text) :=
  [("int_unsigned", "integer UNSIGNED"), ("smallint_unsigned", "smallint UNSIGNED"),
    ("bigint_unsigned", "bigint UNSIGNED"), ("serial", "integer auto_increment"),
    ("bigserial", "bigint auto_increment"), ("smallserial", "smallint auto_increment"),
    ("uuid", "varchar(36)"), ("bytea", "BLOB"), ("boolean", "bool"), ("jsonb", "json"),
    ("text", "longtext"), ("text[]", "longtext"), ("character varying", "longtext"),
    ("character varying[]", "longtext"), ("character", "longtext"), ("character[]", "longtext")]

/-- The types of addresses, and that of amounts of money. -/
def addressTypes : List Text := ["cidr", "inet", "macaddr", "macaddr8", "money"]

/-- A type that is written as another one. -/
inductive SourceType where
  | named (name target : Text) (h : (name, target) ∈ namedTypes)
  | varying (size : Text) (h : ∀ s ∈ size, s.isDigit = true)
  | varyingArray (size : Text) (h : ∀ s ∈ size, s.isDigit = true)
  | character (size : Text) (h : ∀ s ∈ size, s.isDigit = true)
  | characterArray (size : Text) (h : ∀ s ∈ size, s.isDigit = true)
  | time (precision zone : Text) (hprecision : TypeName.IsPrecision precision)
      (hzone : zone ∈ TypeName.zones)
  | timestamp (precision zone : Text) (hprecision : TypeName.IsPrecision precision)
      (hzone : zone ∈ [] :: TypeName.zones)
  | address (name : Text) (h : name ∈ addressTypes)

namespace SourceType

/-- The type as it is dumped. -/
def text : SourceType → Text
  | named name _ _ | address name _ => name
  | varying size _ => "character varying(" ++ (size ++ ")")
  | varyingArray size _ => "character varying(" ++ (size ++ ")[]")
  | character size _ => "character(" ++ (size ++ ")")
  | characterArray size _ => "character(" ++ (size ++ ")[]")
  | time precision zone _ _ => "time" ++ (precision ++ zone)
  | timestamp precision zone _ _ => "timestamp" ++ (precision ++ zone)

/-- The type that is to be written. -/
def target : SourceType → Text
  | named _ target _ => target
  | varying size _ => "varchar(" ++ (size ++ ")")
  | character size _ => "char(" ++ (size ++ ")")
  | varyingArray _ _ | characterArray _ _ => "longtext"
  | time precision _ _ _ => "time" ++ precision
  | timestamp precision _ _ _ => "timestamp" ++ precision
  | address _ _ => "varchar(32)"

/-- What is to be written behind the type: a timestamp that may not be null gets a default. -/
def behind (T : SourceType) (t : Text) : Text :=
  match T with
  | timestamp _ _ _ _ =>
    if (Text.ofString " NOT NULL").isPrefixOf t then
      " NOT NULL DEFAULT 0" ++ t.drop (Text.ofString " NOT NULL").length
    else t
  | _ => t

end SourceType

/-- What stands behind the type of a column without a default. -/
structure Tail where
  text : Text
  begins : text = [] ∨ Text.ofString "," <+: text ∨ Text.ofString " NOT NULL" <+: text
  bare : ∀ s ∈ Text.ofString "(:", s ∉ text
  noDefault : ¬ Text.ofString "DEFAULT" <:+: text
  isOneLine : text.IsOneLine

namespace Tail

variable (t : Tail)

/-- What a tail begins with, as far as a rule looks. -/
def beginnings : List Text := [",", " N"]

theorem eq_nil_or_exists : t.text = [] ∨ ∃ e ∈ beginnings, ∃ rest, t.text = e ++ rest := by
  rcases t.begins with h | ⟨rest, h⟩ | ⟨rest, h⟩
  · exact .inl h
  · exact .inr ⟨",", by decide, rest, h.symm⟩
  · exact .inr ⟨" N", by decide, Text.ofString "OT NULL" ++ rest, by rw [← h]; rfl⟩

/-- A tail begins with none of these symbols. -/
theorem head?_ne {s : Symbol} (hs : s ∉ Text.ofString ", ") : t.text.head? ≠ some s := by
  rcases t.eq_nil_or_exists with h | ⟨e, he, rest, h⟩
  · simp [h]
  · have hall : ∀ e ∈ beginnings, ∃ s ∈ Text.ofString ", ", e.head? = some s := by decide
    obtain ⟨s', hs', hhead⟩ := hall e he
    obtain ⟨e, rfl⟩ := List.head?_eq_some_iff.mp hhead
    rw [h]
    rintro ⟨⟩
    exact hs hs'

/-- Rules that stop at the first symbols of a tail carry a front over, whatever the tail is. -/
theorem applyRules_append {rules : List Rule} {u v : Text}
    (hstops : ∀ r ∈ rules, r.StopsAt (.char ',') ∧ r.StopsAt (.char 'N'))
    (h : ∀ e ∈ [] :: beginnings,
      rules.foldl (fun t r => r.applyAtStart t) (u ++ e) = v ++ e) :
    applyRules rules (u ++ t.text) = v ++ t.text := by
  simp only [← applyRules_eq_foldl fun r hr => (hstops r hr).1] at h
  have hlast : ∀ e ∈ beginnings, ∃ s ∈ e.getLast?, s = .char ',' ∨ s = .char 'N' := by decide
  obtain ⟨hnil, hbegun⟩ := List.forall_mem_cons.mp h
  -- A tail is empty or begins with one of finitely many texts, and for these the rules were run in
  -- `h`.
  rcases t.eq_nil_or_exists with ht | ⟨e, he, rest, ht⟩
  · rw [ht]
    exact hnil
  · obtain ⟨s, hs, hstop⟩ := hlast e he
    obtain ⟨front, rfl⟩ := List.getLast?_eq_some_iff.mp hs
    have hrules : ∀ r ∈ rules, r.StopsAt s := fun r hr => by
      rcases hstop with rfl | rfl
      · exact (hstops r hr).1
      · exact (hstops r hr).2
    have hcarry := hbegun _ he
    rw [← List.append_assoc, ← List.append_assoc] at hcarry
    have hrest := applyRules_append_cons_of_stopsAt hrules hcarry rest
    rw [ht]
    simpa using hrest

/-- A rule that misses a front with each beginning of a tail misses it with the tail. -/
theorem occursIn_append {r : Rule} {u : Text} (hnil : r.pattern.occursIn u = false)
    (h : ∀ e ∈ beginnings, r.Misses (u ++ e)) : r.pattern.occursIn (u ++ t.text) = false := by
  rcases t.eq_nil_or_exists with ht | ⟨e, he, rest, ht⟩
  · rwa [ht, List.append_nil]
  · rw [ht, ← List.append_assoc]
    exact (h e he).occursIn rest

/-- No default stands behind a front without one. -/
theorem not_infix_append {u : Text} (hu : ¬ Text.ofString "DEFAULT" <:+: u) :
    ¬ Text.ofString "DEFAULT" <:+: u ++ t.text := by
  intro h
  refine (Text.infix_append_of_apart (fun k hk hpart => ?_) h).elim hu t.noDefault
  have hall : ∀ k < (Text.ofString "DEFAULT").length,
      ∃ s ∈ ((Text.ofString "DEFAULT").drop k).head?, s ∉ Text.ofString ", " := by decide
  obtain ⟨s, hs, hnot⟩ := hall k hk
  obtain ⟨word, hword⟩ := List.head?_eq_some_iff.mp hs
  rw [hword] at hpart
  obtain ⟨rest, hrest⟩ := hpart
  exact t.head?_ne hnot (by rw [← hrest]; rfl)

end Tail

/-! ## Names -/

theorem nameRules_named (t : Tail) {name target : Text} (h : (name, target) ∈ namedTypes) :
    applyRules nameRules ((.char ' ' :: name) ++ t.text) = (.char ' ' :: target) ++ t.text := by
  have hstops : ∀ r ∈ nameRules, r.StopsAt (.char ',') ∧ r.StopsAt (.char 'N') := by decide
  have hall : ∀ p ∈ namedTypes, ∀ e ∈ [] :: Tail.beginnings,
      nameRules.foldl (fun t r => r.applyAtStart t) ((.char ' ' :: p.1) ++ e) =
        (.char ' ' :: p.2) ++ e := by decide +kernel
  have hname := hall _ h
  simp only at hname
  exact t.applyRules_append hstops hname

/-- What the rules for names make of the type. -/
def SourceType.renamed (T : SourceType) : Text :=
  match T with
  | .time _ _ _ _ | .timestamp _ _ _ _ | .address _ _ => T.text
  | _ => T.target

/-- The rules for names take the types that are not times or addresses. -/
theorem SourceType.nameRules_apply (T : SourceType) (t : Tail) :
    applyRules nameRules ((.char ' ' :: T.text) ++ t.text) =
      (.char ' ' :: T.renamed) ++ t.text := by
  have hbracket : t.text.head? ≠ some (.char '[') := t.head?_ne (by decide)
  -- One case for each form; the three that other rules take are missed by all of these.
  cases T with
  | named name target h => exact nameRules_named t h
  | varying size h =>
    have happly := nameRules_varying h hbracket
    simpa [text, renamed, target, Text.ofString] using happly
  | varyingArray size h =>
    have happly := @nameRules_varyingArray _ t.text h
    simpa [text, renamed, target, Text.ofString] using happly
  | character size h =>
    have happly := nameRules_character h hbracket
    simpa [text, renamed, target, Text.ofString] using happly
  | characterArray size h =>
    have happly := @nameRules_characterArray _ t.text h
    simpa [text, renamed, target, Text.ofString] using happly
  | time precision zone hprecision hzone =>
    have hmisses : ∀ r ∈ nameRules, r.Misses " time" := by decide
    have happly := applyRules_of_misses hmisses ((precision ++ zone) ++ t.text)
    simpa [text, renamed, Text.ofString] using happly
  | timestamp precision zone hprecision hzone =>
    have hmisses : ∀ r ∈ nameRules, r.Misses " timestamp" := by decide
    have happly := applyRules_of_misses hmisses ((precision ++ zone) ++ t.text)
    simpa [text, renamed, Text.ofString] using happly
  | address name h =>
    have hmisses : ∀ a ∈ addressTypes, ∀ r ∈ nameRules, r.Misses (.char ' ' :: a) := by decide
    exact applyRules_of_misses (hmisses name h) t.text

/-! ## Times and addresses -/

/-- The rules for the zones of times. -/
def zoneRules : List Rule := timeRules.take 4

/-- The rule for the present time as default. -/
def timestampNow : Rule :=
  typeStart "timestamp_default_now" [" timestamp", precision, " DEFAULT now()"]
    [" timestamp", .group 1, " DEFAULT CURRENT_TIMESTAMP"]

/-- The rule for a timestamp that may not be null. -/
def timestampNotNull : Rule :=
  typeStart "timestamp_not_null" [" timestamp", precision, " NOT NULL"]
    [" timestamp", .group 1, " NOT NULL DEFAULT 0"]

/-- The rules for addresses and money. -/
def addressRules : List Rule := timeRules.drop 7

theorem timeRules_split : timeRules =
    zoneRules ++ [timestampOffset, timestampNow] ++ timestampNotNull :: addressRules := rfl

/-- The precisions of a time. -/
def precisions : List Text :=
  [] :: (Text.ofString "0123456").map fun d => [.char '(', d, .char ')']

theorem mem_precisions {precision : Text} (h : TypeName.IsPrecision precision) :
    precision ∈ precisions := by
  cases h with
  | none => exact List.mem_cons_self
  | digit hd => exact List.mem_cons_of_mem _ (List.mem_map_of_mem hd)

/-- The zone of a time is taken away. -/
theorem zoneRules_apply (t : Tail) {kind p zone : Text}
    (hkind : kind ∈ [Text.ofString "time", "timestamp"]) (hp : TypeName.IsPrecision p)
    (hzone : zone ∈ [] :: TypeName.zones) :
    applyRules zoneRules ((.char ' ' :: (kind ++ (p ++ zone))) ++ t.text) =
      (.char ' ' :: (kind ++ p)) ++ t.text := by
  have hstops : ∀ r ∈ zoneRules, r.StopsAt (.char ',') ∧ r.StopsAt (.char 'N') := by decide
  have hall : ∀ kind ∈ [Text.ofString "time", "timestamp"], ∀ p ∈ precisions,
      ∀ zone ∈ [] :: TypeName.zones, ∀ e ∈ [] :: Tail.beginnings,
        zoneRules.foldl (fun t r => r.applyAtStart t) ((.char ' ' :: (kind ++ (p ++ zone))) ++ e) =
          (.char ' ' :: (kind ++ p)) ++ e := by decide +kernel
  exact t.applyRules_append hstops (hall kind hkind p (mem_precisions hp) zone hzone)

/-- Of a text without a default no rule for the default of a timestamp takes anything. -/
theorem applyRules_timestampDefaults {u : Text} (hu : ¬ Text.ofString "DEFAULT" <:+: u) :
    applyRules [timestampOffset, timestampNow] u = u := by
  have hwords : ∀ v ∈ [Text.ofString " DEFAULT '", " DEFAULT now()"],
      Text.ofString "DEFAULT" <:+: v := by decide
  have hnot {v : Text} (hv : v ∈ [Text.ofString " DEFAULT '", " DEFAULT now()"]) : ¬ v <:+: u :=
    fun h => hu ((hwords v hv).trans h)
  have hoffset : timestampOffset.pattern.occursIn u = false :=
    occursIn_eq_false_of_word (v := Text.ofString " DEFAULT '") (by simp) (hnot (by decide))
  have hnow : timestampNow.pattern.occursIn u = false :=
    occursIn_eq_false_of_word (v := Text.ofString " DEFAULT now()") (by simp) (hnot (by decide))
  rw [applyRules_cons, Rule.apply_eq_self hoffset, applyRules_cons, Rule.apply_eq_self hnow,
    applyRules_nil]

/-- A precision is taken where it stands. -/
theorem precision_prefers {p rest : Text} (hp : TypeName.IsPrecision p)
    (hrest : ¬ Text.ofString "(" <+: rest) (prev : Option Symbol) :
    ∃ groups, precision.Prefers prev p rest groups ∧ (groups.lookup 1).getD [] = p := by
  cases hp with
  | none =>
    refine ⟨[], Prefers.optional_nil ?_, rfl⟩
    have hnone : (inOrder ["(", one (Symbol.isIn "0123456"), ")"]).outcomes ⟨prev, rest⟩ = [] :=
      outcomes_inOrder_eq_nil hrest
    rw [outcomes, TypeName.precision, hnone, List.map_nil]
  | digit hd =>
    have hdigit := fun p => (@prefers_one p _ _ _ (List.contains_iff_mem.mpr hd)).inOrder_cons
      (@prefers_word _ ")" rest).inOrder_singleton
    exact ⟨_, ((prefers_word.inOrder_cons (hdigit _)).group 1).alt_left _, rfl⟩

theorem timestampNotNull_apply {p : Text} (hp : TypeName.IsPrecision p) (rest : Text) :
    timestampNotNull.apply (" timestamp" ++ (p ++ (Text.ofString " NOT NULL" ++ rest))) =
      " timestamp" ++ (p ++ (Text.ofString " NOT NULL DEFAULT 0" ++ rest)) := by
  obtain ⟨groups, hprecision, hgroup⟩ := @precision_prefers p (Text.ofString " NOT NULL" ++ rest) hp
    (Text.not_prefix_append (by decide) (by decide) rest) (lastOf none (Text.ofString " timestamp"))
  have hprefers : timestampNotNull.pattern.Prefers none
      ([] ++ (Text.ofString " timestamp" ++ (p ++ Text.ofString " NOT NULL"))) rest
      (groups ++ []) :=
    prefers_start.inOrder_cons (prefers_word.inOrder_cons
      (hprecision.inOrder_cons prefers_word.inOrder_singleton))
  have happly := Rule.apply_of_prefers rfl hprefers
  simpa [timestampNotNull, typeStart, Rule.once, Match.expand, Match.group, Match.group?, hgroup]
    using happly

/-- A timestamp that may not be null gets a default, and no other. -/
theorem timestampNotNull_tail (t : Tail) {p : Text} (hp : TypeName.IsPrecision p) :
    timestampNotNull.apply ((.char ' ' :: (Text.ofString "timestamp" ++ p)) ++ t.text) =
      (.char ' ' :: (Text.ofString "timestamp" ++ p)) ++
        if (Text.ofString " NOT NULL").isPrefixOf t.text then
          " NOT NULL DEFAULT 0" ++ t.text.drop (Text.ofString " NOT NULL").length
        else t.text := by
  have hstops : timestampNotNull.StopsAt (.char ',') := by decide
  have hnone : ∀ p ∈ precisions, ∀ e ∈ [[], [Symbol.char ',']],
      timestampNotNull.applyAtStart ((.char ' ' :: (Text.ofString "timestamp" ++ p)) ++ e) =
        (.char ' ' :: (Text.ofString "timestamp" ++ p)) ++ e := by decide
  simp only [← hstops.apply_eq] at hnone
  have hfront := hnone p (mem_precisions hp)
  rcases t.begins with h | ⟨rest, h⟩ | ⟨rest, h⟩
  · rw [h, if_neg (by decide)]
    exact hfront [] List.mem_cons_self
  · have hcomma : Text.ofString "," ++ rest = .char ',' :: rest := rfl
    have hstop := hstops.apply_append_cons
      (hfront [.char ','] (List.mem_cons_of_mem _ List.mem_cons_self)) rest
    rw [← h, hcomma, if_neg (by simp [Text.ofString])]
    exact hstop
  · have hword :
        (Text.ofString " NOT NULL").isPrefixOf (Text.ofString " NOT NULL" ++ rest) = true :=
      List.isPrefixOf_iff_prefix.mpr (List.prefix_append ..)
    rw [← h, if_pos hword, List.drop_left]
    exact timestampNotNull_apply hp rest

namespace SourceType

variable (T : SourceType) (t : Tail)

/-- Symbols that stand in no type: one of ` DEFAULT`, that of a cast, and LF. -/
def foreign : List Symbol := [.char 'F', .char ':', .lineFeed]

/-- Neither the type nor what is written for it holds what other rules look for. -/
theorem bare : ∀ u ∈ [T.text, T.target], ∀ s ∈ foreign, s ∉ .char ' ' :: u := by
  have hsized {first last size : Text} (hsize : ∀ s ∈ size, s.isDigit = true)
      (hfirst : ∀ s ∈ foreign, s ∉ first) (hlast : ∀ s ∈ foreign, s ∉ last) :
      ∀ s ∈ foreign, s ∉ first ++ (size ++ last) := by
    have hdigits : ∀ s ∈ foreign, s.isDigit = false := by decide
    refine fun s hs => List.not_mem_append (hfirst s hs) (List.not_mem_append (fun hmem => ?_)
      (hlast s hs))
    have hdigit := hsize s hmem
    rw [hdigits s hs] at hdigit
    cases hdigit
  have hboth {u v : Text} (hu : ∀ s ∈ foreign, s ∉ u) (hv : ∀ s ∈ foreign, s ∉ v) :
      ∀ u' ∈ [u, v], ∀ s ∈ foreign, s ∉ .char ' ' :: u' := by
    have hspace : ∀ s ∈ foreign, s ≠ .char ' ' := by decide
    intro u' hu' s hs hmem
    rcases List.mem_cons.mp hmem with heq | hmem
    · exact hspace s hs heq
    · rcases List.mem_pair.mp hu' with rfl | rfl
      · exact hu s hs hmem
      · exact hv s hs hmem
  have hlongtext : ∀ s ∈ foreign, s ∉ Text.ofString "longtext" := by decide
  -- A type with a size is split around its digits; of the others there are finitely many.
  cases T with
  | named name target h =>
    have hall : ∀ p ∈ namedTypes, (∀ s ∈ foreign, s ∉ p.1) ∧ ∀ s ∈ foreign, s ∉ p.2 := by decide
    exact hboth (hall _ h).1 (hall _ h).2
  | varying size h | character size h =>
    exact hboth (hsized h (by decide) (by decide)) (hsized h (by decide) (by decide))
  | varyingArray size h | characterArray size h =>
    exact hboth (hsized h (by decide) (by decide)) hlongtext
  | time p zone hp hzone =>
    have hall : ∀ p ∈ precisions, ∀ z ∈ TypeName.zones,
        (∀ s ∈ foreign, s ∉ Text.ofString "time" ++ (p ++ z)) ∧
        ∀ s ∈ foreign, s ∉ Text.ofString "time" ++ p := by decide
    obtain ⟨htext, htarget⟩ := hall _ (mem_precisions hp) _ hzone
    exact hboth htext htarget
  | timestamp p zone hp hzone =>
    have hall : ∀ p ∈ precisions, ∀ z ∈ [] :: TypeName.zones,
        (∀ s ∈ foreign, s ∉ Text.ofString "timestamp" ++ (p ++ z)) ∧
        ∀ s ∈ foreign, s ∉ Text.ofString "timestamp" ++ p := by decide
    obtain ⟨htext, htarget⟩ := hall _ (mem_precisions hp) _ hzone
    exact hboth htext htarget
  | address name h =>
    have hall : ∀ a ∈ addressTypes, ∀ s ∈ foreign, s ∉ a := by decide
    have hvarchar : ∀ s ∈ foreign, s ∉ Text.ofString "varchar(32)" := by decide
    exact hboth (hall _ h) hvarchar

theorem isOneLine_text : T.text.IsOneLine := fun h =>
  T.bare T.text List.mem_cons_self .lineFeed (by decide) (List.mem_cons_of_mem _ h)

theorem renamed_mem : T.renamed ∈ [T.text, T.target] := by
  cases T <;> simp [renamed]

/-- No default stands behind the type. -/
theorem noDefault {u : Text} (hu : u ∈ [T.text, T.target]) :
    ¬ Text.ofString "DEFAULT" <:+: (.char ' ' :: u) ++ t.text :=
  t.not_infix_append fun h => T.bare u hu (.char 'F') (by decide) (h.subset (by decide))

/-- Without a default and without a cast the rules for casts take nothing. -/
theorem castRules_apply : applyRules castRules ((.char ' ' :: T.renamed) ++ t.text) =
    (.char ' ' :: T.renamed) ++ t.text := by
  have hopening : ∀ r ∈ castRules, ∃ v ∈ r.pattern.opening?, .char ':' ∈ v ∨
      Text.ofString "DEFAULT" <:+: v := by decide
  refine applyRules_of_not_occursIn fun r hr => ?_
  obtain ⟨v, hv, hholds⟩ := hopening r hr
  refine occursIn_of_opening hv fun h => ?_
  rcases hholds with hcolon | hword
  · exact List.not_mem_append (T.bare _ T.renamed_mem _ (by decide)) (t.bare _ (by decide))
      (h.subset hcolon)
  · exact T.noDefault t T.renamed_mem (hword.trans h)

/-- The rules for times and addresses take the types that are left, and a timestamp that may not be
null gets a default. -/
theorem timeRules_apply : applyRules timeRules ((.char ' ' :: T.renamed) ++ t.text) =
    (.char ' ' :: T.target) ++ T.behind t.text := by
  have hlater : ∀ r ∈ addressRules, r.Misses " time" := by decide
  cases T with
  | named name target h =>
    have hmisses : ∀ p ∈ namedTypes, ∀ r ∈ timeRules, r.Misses (.char ' ' :: p.2) := by decide
    exact applyRules_of_misses (hmisses _ h) t.text
  | varying size h =>
    have hmisses : ∀ r ∈ timeRules, r.Misses " varchar(" := by decide
    exact applyRules_of_misses hmisses ((size ++ Text.ofString ")") ++ t.text)
  | character size h =>
    have hmisses : ∀ r ∈ timeRules, r.Misses " char(" := by decide
    exact applyRules_of_misses hmisses ((size ++ Text.ofString ")") ++ t.text)
  | varyingArray size h | characterArray size h =>
    have hmisses : ∀ r ∈ timeRules, r.Misses " longtext" := by decide
    exact applyRules_of_misses hmisses t.text
  | time precision zone hprecision hzone =>
    -- A time may stand in front of ` NOT NULL` too, and is told from a timestamp by its word.
    have hnone : ∀ p ∈ precisions,
        timestampNotNull.pattern.occursIn (.char ' ' :: (Text.ofString "time" ++ p)) = false ∧
          ∀ e ∈ Tail.beginnings,
            timestampNotNull.Misses ((.char ' ' :: (Text.ofString "time" ++ p)) ++ e) := by decide
    obtain ⟨hnil, hbegun⟩ := hnone _ (mem_precisions hprecision)
    have hdefault : ¬ Text.ofString "DEFAULT" <:+:
        (.char ' ' :: (Text.ofString "time" ++ precision)) ++ t.text :=
      (time precision zone hprecision hzone).noDefault t
        (List.mem_cons_of_mem _ List.mem_cons_self)
    rw [timeRules_split, applyRules_append, applyRules_append, renamed, text,
      zoneRules_apply t List.mem_cons_self hprecision (List.mem_cons_of_mem _ hzone),
      applyRules_timestampDefaults hdefault, applyRules_cons,
      Rule.apply_eq_self (t.occursIn_append hnil hbegun)]
    exact applyRules_of_misses hlater (precision ++ t.text)
  | timestamp precision zone hprecision hzone =>
    have hdefault : ¬ Text.ofString "DEFAULT" <:+:
        (.char ' ' :: (Text.ofString "timestamp" ++ precision)) ++ t.text :=
      (timestamp precision zone hprecision hzone).noDefault t
        (List.mem_cons_of_mem _ List.mem_cons_self)
    rw [timeRules_split, applyRules_append, applyRules_append, renamed, text,
      zoneRules_apply t (List.mem_cons_of_mem _ List.mem_cons_self) hprecision hzone,
      applyRules_timestampDefaults hdefault, applyRules_cons, target, behind,
      timestampNotNull_tail t hprecision]
    split
    all_goals exact applyRules_of_misses hlater _
  | address name h =>
    have hmisses : ∀ a ∈ addressTypes, ∀ r ∈ timeRules.take 7, r.Misses (.char ' ' :: a) := by
      decide
    have hstops : ∀ r ∈ addressRules, r.StopsAt (.char ',') ∧ r.StopsAt (.char 'N') := by decide
    have hall : ∀ a ∈ addressTypes, ∀ e ∈ [] :: Tail.beginnings,
        addressRules.foldl (fun t r => r.applyAtStart t) ((.char ' ' :: a) ++ e) =
          (" varchar(32)" : Text) ++ e := by decide
    have hsplit : timeRules = timeRules.take 7 ++ addressRules := rfl
    rw [hsplit, applyRules_append, renamed, text, applyRules_of_misses (hmisses name h)]
    exact t.applyRules_append hstops (hall name h)

/-- Of the default of a timestamp no rule for defaults takes anything. -/
theorem defaultRules_notNull {p rest : Text} (hp : TypeName.IsPrecision p)
    (hparen : .char '(' ∉ rest) (hdefault : ¬ Text.ofString "DEFAULT" <:+: rest) :
    applyRules [longtextDefault, functionDefault, objectDefault]
        ((.char ' ' :: (Text.ofString "timestamp" ++ p)) ++
          (Text.ofString " NOT NULL DEFAULT 0" ++ rest)) =
      (.char ' ' :: (Text.ofString "timestamp" ++ p)) ++
        (Text.ofString " NOT NULL DEFAULT 0" ++ rest) := by
  let words : List Text := [" longtext DEFAULT ", "()", " DEFAULT json_build_object("]
  have hwords : ∀ v ∈ words, v ≠ [] ∧ .char '0' ∉ v ∧
      (.char '(' ∈ v ∨ Text.ofString "DEFAULT" <:+: v) ∧
      ∀ p ∈ precisions, ¬ v <:+: (.char ' ' :: (Text.ofString "timestamp" ++ p)) ++
        Text.ofString " NOT NULL DEFAULT " := by decide
  -- No word holds the 0 of the default, so each would stand in front of it or behind it.
  have hzero : Text.ofString " NOT NULL DEFAULT 0" =
      Text.ofString " NOT NULL DEFAULT " ++ [.char '0'] := by decide
  have hnot : ∀ v ∈ words, ¬ v <:+: (.char ' ' :: (Text.ofString "timestamp" ++ p)) ++
      (Text.ofString " NOT NULL DEFAULT 0" ++ rest) := by
    intro v hv
    obtain ⟨hne, hnozero, hholds, hfront⟩ := hwords v hv
    rw [hzero, List.append_assoc, ← List.append_assoc, List.singleton_append,
      Text.infix_append_cons_iff hne hnozero]
    refine not_or.mpr ⟨hfront p (mem_precisions hp), fun h => ?_⟩
    rcases hholds with hopen | hword
    · exact hparen (h.subset hopen)
    · exact hdefault (hword.trans h)
  refine applyRules_of_not_occursIn fun r hr => ?_
  simp only [List.mem_cons, List.not_mem_nil, or_false] at hr
  rcases hr with rfl | rfl | rfl
  · exact occursIn_inOrder_eq_false (hnot " longtext DEFAULT " (by decide))
  · rw [functionDefault, Rule.once]
    exact occursIn_eq_false_of_word (v := Text.ofString "()") (by simp) (hnot "()" (by decide))
  · exact occursIn_inOrder_eq_false (hnot " DEFAULT json_build_object(" (by decide))

/-- Only the rule for citext looks at a definition without a default of its own. -/
theorem defaultRules_apply :
    applyRules defaultRules ((.char ' ' :: T.target) ++ T.behind t.text) =
      citext.apply ((.char ' ' :: T.target) ++ T.behind t.text) := by
  let calls : List Rule := [longtextDefault, functionDefault, objectDefault]
  have hsplit : defaultRules = calls ++ [citext] := rfl
  have hidle : applyRules calls ((.char ' ' :: T.target) ++ t.text) =
      (.char ' ' :: T.target) ++ t.text := by
    have hopening : ∀ r ∈ calls, ∃ v ∈ r.pattern.opening?, Text.ofString " DEFAULT" <:+: v := by
      decide
    refine applyRules_of_not_occursIn fun r hr => ?_
    obtain ⟨v, hv, hword⟩ := hopening r hr
    have hdefault : Text.ofString "DEFAULT" <:+: Text.ofString " DEFAULT" := ⟨" ", [], by decide⟩
    refine occursIn_of_opening hv fun h => ?_
    exact T.noDefault t (List.mem_cons_of_mem _ List.mem_cons_self) ((hdefault.trans hword).trans h)
  -- Only a timestamp may have been given a default by the rules before.
  have hkept : applyRules calls ((.char ' ' :: T.target) ++ T.behind t.text) =
      (.char ' ' :: T.target) ++ T.behind t.text := by
    cases T with
    | timestamp precision zone hprecision hzone =>
      rw [behind]
      split
      · next hword =>
        obtain ⟨rest, hrest⟩ := List.isPrefixOf_iff_prefix.mp hword
        have hparen : .char '(' ∉ rest := fun h =>
          t.bare _ (by decide) (hrest ▸ List.mem_append_right _ h)
        have hdefault : ¬ Text.ofString "DEFAULT" <:+: rest := fun h =>
          t.noDefault (hrest ▸ h.trans (List.suffix_append ..).isInfix)
        rw [← hrest, List.drop_left]
        exact defaultRules_notNull hprecision hparen hdefault
      · exact hidle
    | named | varying | varyingArray | character | characterArray | time | address => exact hidle
  rw [hsplit, applyRules_append, hkept]
  rfl

/-- All the rules together. -/
theorem typeRules_apply : applyRules typeRules ((.char ' ' :: T.text) ++ t.text) =
    citext.apply ((.char ' ' :: T.target) ++ T.behind t.text) := by
  rw [typeRules_eq, applyRules_append, applyRules_append, applyRules_append, T.nameRules_apply,
    T.castRules_apply, T.timeRules_apply, T.defaultRules_apply]

end SourceType

/-! ## The line -/

/-- The text in front of the first blank holds `.citext`, and the word ends there. -/
def NamesCitext (t : Text) : Prop := ∃ front back,
  t.takeWhile Symbol.isInk = front ++ (Text.ofString ".citext" ++ back) ∧
    ∀ s ∈ back.head?, s.isWord = false

theorem occursIn_citext_iff {t : Text} :
    citext.pattern.occursIn (.char ' ' :: t) = true ↔ NamesCitext t := by
  have hink : ∀ s ∈ Text.ofString ".citext", s.isInk = true := by decide
  have hedge_iff (p : Option Symbol) (after : Text) :
      (Cursor.mk (lastOf p (Text.ofString ".citext")) after).atWordEdge = true ↔
        ∀ s ∈ after.head?, s.isWord = false :=
    Cursor.atWordEdge_iff (s := .char 't') rfl (by decide) p
  constructor
  · intro hoccurs
    obtain ⟨w, after, _, hsplit, hm⟩ := exists_of_occursIn_anchored rfl hoccurs
    simp only [citext, typeStart, Rule.once, matches_inOrder_cons] at hm
    obtain ⟨_, _, _, _, rfl, rfl, ⟨-, rfl, -⟩, _, _, _, _, rfl, rfl, ⟨rfl, rfl⟩, schema, _, _, _,
      rfl, rfl, ⟨hschema, -⟩, _, _, _, _, rfl, rfl, ⟨rfl, rfl⟩, _, _, _, _, rfl, rfl,
      ⟨hedge, rfl, -⟩, rfl, rfl⟩ := hm
    have ht : t = schema ++ (Text.ofString ".citext" ++ after) := by
      simpa [Text.ofString] using hsplit
    refine ⟨schema, after.takeWhile Symbol.isInk, ?_, fun s hs => ?_⟩
    · rw [ht, List.takeWhile_append_of_pos hschema, List.takeWhile_append_of_pos hink]
    · refine (hedge_iff _ _).mp hedge s ?_
      rw [List.head?_takeWhile] at hs
      exact (Option.filter_eq_some_iff.mp hs).1
  · rintro ⟨front, back, htake, hback⟩
    have ht : t = front ++ (Text.ofString ".citext" ++ (back ++ t.dropWhile Symbol.isInk)) := by
      conv_lhs => rw [← List.takeWhile_append_dropWhile (p := Symbol.isInk) (l := t), htake]
      simp only [List.append_assoc]
    have hfront : ∀ s ∈ front, s.isInk = true := fun s hs =>
      List.mem_takeWhile_imp (htake ▸ List.mem_append_left _ hs)
    -- Where the run of ink ends with `.citext`, a blank or the end of the line follows.
    have hnext : ∀ s ∈ (back ++ t.dropWhile Symbol.isInk).head?, s.isWord = false := by
      cases back with
      | cons s back => exact hback
      | nil =>
        intro s hs
        have hblank := List.head?_dropWhile_not Symbol.isInk t
        rw [List.nil_append, Option.mem_def] at hs
        rw [hs] at hblank
        refine Bool.eq_false_iff.mpr fun hword => ?_
        simp [Symbol.isInk, Symbol.isBlank_of_isWord hword] at hblank
    have hsplit : .char ' ' :: t = [] ++ ([] ++ (Text.ofString " " ++ (front ++
        (Text.ofString ".citext" ++ [])))) ++ (back ++ t.dropWhile Symbol.isInk) := by
      conv_lhs => rw [ht]
      simp [Text.ofString]
    have hword (p : Option Symbol) : (inOrder [wordEdge]).Matches
        (lastOf p (Text.ofString ".citext")) [] (back ++ t.dropWhile Symbol.isInk) [] :=
      ⟨(hedge_iff p _).mpr hnext, rfl, rfl⟩
    exact occursIn_iff.mpr ⟨[], _, _, _, hsplit, .inOrder_cons ⟨rfl, rfl, rfl⟩
      (.inOrder_cons ⟨rfl, rfl⟩ (.inOrder_cons ⟨hfront, rfl⟩ (.inOrder_cons ⟨rfl, rfl⟩ (hword _))))⟩

instance : DecidablePred NamesCitext := fun _ => decidable_of_iff _ occursIn_citext_iff

/-- The rule for citext takes nothing if and only if it finds nothing. -/
theorem citext_apply_eq_self_iff {t : Text} :
    citext.apply (.char ' ' :: t) = .char ' ' :: t ↔ ¬ NamesCitext t := by
  have htakes : citext.Takes fun _ => true := by decide
  rw [← occursIn_citext_iff]
  constructor
  · intro h hoccurs
    have hless := htakes.countP_apply_lt hoccurs
    rw [h] at hless
    exact Nat.lt_irrefl _ hless
  · exact fun h => Rule.apply_eq_self (Bool.eq_false_iff.mpr h)

/-- **A type is written as its counterpart, whatever the name of the column and whatever stands
behind the type, if and only if the result does not read like citext up to its first blank.** -/
theorem SourceType.translated_iff [Quoting] (T : SourceType) (t : Tail) {indent name : Text}
    (hindent : ∀ s ∈ indent, s.isBlank = true) (hne : name ≠ [])
    (hink : ∀ s ∈ name, s.isInk = true)
    (hdef : isDefinition (indent ++ (name ++ .char ' ' :: (T.text ++ t.text))) = true) :
    convert (indent ++ (name ++ .char ' ' :: (T.text ++ t.text))) =
        indent ++ (Identifier.quote name ++ .char ' ' :: (T.target ++ T.behind t.text)) ↔
      ¬ NamesCitext (T.target ++ T.behind t.text) := by
  have hline : (T.text ++ t.text).IsOneLine := T.isOneLine_text.append t.isOneLine
  have hrules := T.typeRules_apply t
  rw [List.cons_append] at hrules
  rw [convert_append hindent hne hink hline hdef, hrules, List.append_cancel_left_eq,
    List.append_cancel_left_eq, List.cons_append]
  exact citext_apply_eq_self_iff

/-- A column with the name of a type keeps its name, and its timestamp gets a default. -/
theorem SourceType.timestamp_of_uuid_translated :
    convert "    uuid timestamp(3) without time zone NOT NULL,.x" =
      "    `uuid` timestamp(3) NOT NULL DEFAULT 0,.x" := by
  let T : SourceType :=
    .timestamp "(3)" " without time zone" (.digit (by decide)) (by decide)
  let t : Tail := ⟨" NOT NULL,.x", .inr (.inr ⟨",.x", by decide⟩), by decide, by decide +kernel,
    by decide⟩
  have htranslated := @SourceType.translated_iff .doubling T t "    " "uuid" (by decide) (by decide)
    (by decide) (by decide +kernel)
  have hline : Text.ofString "    " ++ (Text.ofString "uuid" ++ .char ' ' :: (T.text ++ t.text)) =
      "    uuid timestamp(3) without time zone NOT NULL,.x" := by decide +kernel
  have hwritten : Text.ofString "    " ++ (Identifier.quote "uuid" ++
      .char ' ' :: (T.target ++ T.behind t.text)) =
        "    `uuid` timestamp(3) NOT NULL DEFAULT 0,.x" := by decide +kernel
  rw [hline, hwritten] at htranslated
  exact htranslated.mpr (by decide +kernel)

/-- A comma does not keep the type from reading like citext. -/
theorem SourceType.uuid_before_citext_lost :
    isDefinition "    c uuid,.citext" = true ∧
      convert "    c uuid,.citext" ≠ "    `c` varchar(36),.citext" ∧
      convert "    c uuid,.citext" = "    `c` text" := by
  decide +kernel

end DumpDialect.Column
