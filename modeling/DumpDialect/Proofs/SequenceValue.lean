import DumpDialect.Proofs.Conversion.History
import DumpDialect.Proofs.Conversion.Openings
import DumpDialect.Proofs.Pattern.Preferred
import DumpDialect.Proofs.Text.Classes
import DumpDialect.Quoting

/-!
# The table of a sequence

PostgreSQL names the sequence of a column after table and column with a low line between them, and
either name may hold low lines too. The table is read from the name as far as it goes: the name is
cut at the last low line that has more behind it. That is the table if no low line stands in the
name of the column, except as its last symbol; otherwise it is the table with the front of the
column added to it.

- `Cut`, `exists_cut`, `Cut.unique`: where a name is cut.
- `read?_dumped`: what is read from a line.
- `table_of_sequence`: what is written for it, and when it is about the table.
-/

namespace DumpDialect.SequenceValue

open Pattern

/-- The low line between the parts of a name. -/
abbrev lowLine : Symbol := .char '_'

/-- The line in which pg_dump sets the sequence of a column to its value. -/
def dumped (schema table column value : Text) : Text :=
  "SELECT pg_catalog.setval('" ++
    (schema ++ "." ++ (table ++ lowLine :: column) ++ "_seq', " ++ value ++ ", true);")

/-! ## Where a name is cut -/

/-- The name is cut at its last low line that has more behind it. -/
structure Cut (name front back : Text) : Prop where
  eq : name = front ++ lowLine :: back
  ne_nil : back ≠ []
  last : lowLine ∉ back.dropLast

theorem lowLine_mem_dropLast (front : Text) {back : Text} (hback : back ≠ []) :
    lowLine ∈ (front ++ lowLine :: back).dropLast := by
  rw [List.dropLast_append_of_ne_nil (List.cons_ne_nil _ _), List.dropLast_cons_of_ne_nil hback]
  simp

theorem exists_cut {column : Text} (hcolumn : column ≠ []) (table : Text) :
    ∃ front back, Cut (table ++ lowLine :: column) front back := by
  induction hlength : column.length using Nat.strongRecOn generalizing table column with
  | ind n ih =>
    by_cases hlow : lowLine ∈ column.dropLast
    · obtain ⟨first, more, hsplit⟩ := List.append_of_mem hlow
      let rest := more ++ [column.getLast hcolumn]
      have hcut : column = first ++ lowLine :: rest := by
        have hlast := (List.dropLast_append_getLast hcolumn).symm
        rwa [hsplit, List.append_assoc, List.cons_append] at hlast
      have hne : rest ≠ [] := by simp [rest]
      have hshorter : rest.length < n := by
        rw [← hlength, hcut]
        simp only [List.length_append, List.length_cons]
        omega
      obtain ⟨front, back, heq, hback, hlast⟩ := ih _ hshorter hne (table ++ lowLine :: first) rfl
      exact ⟨front, back, by rw [← heq, hcut]; simp, hback, hlast⟩
    · exact ⟨table, column, rfl, hcolumn, hlow⟩

theorem Cut.unique {name front back front' back' : Text} (h : Cut name front back)
    (h' : Cut name front' back') : front = front' ∧ back = back' := by
  have heq := h.eq.symm.trans h'.eq
  rcases List.append_eq_append_iff.mp heq with ⟨between, rfl, hbehind⟩ | ⟨between, rfl, hbehind⟩
  · rcases List.cons_eq_append_iff.mp hbehind with ⟨rfl, hback⟩ | ⟨between, rfl, rfl⟩
    · exact ⟨(List.append_nil front).symm, (List.cons.inj hback).2.symm⟩
    · exact absurd (lowLine_mem_dropLast between h'.ne_nil) h.last
  · rcases List.cons_eq_append_iff.mp hbehind with ⟨rfl, hback⟩ | ⟨between, rfl, rfl⟩
    · exact ⟨List.append_nil front', (List.cons.inj hback).2⟩
    · exact absurd (lowLine_mem_dropLast between h.ne_nil) h'.last

/-- There is more in front of the place, as long as there is a table. -/
theorem Cut.front_ne_nil {table column front back : Text}
    (h : Cut (table ++ lowLine :: column) front back) (htable : table ≠ [])
    (hcolumn : column ≠ []) : front ≠ [] := by
  rintro rfl
  obtain ⟨s, table, rfl⟩ := List.exists_cons_of_ne_nil htable
  obtain ⟨-, hback⟩ := List.cons.inj h.eq
  exact h.last (hback ▸ lowLine_mem_dropLast table hcolumn)

/-- The name is cut between table and column if the column has a low line at its end at most. -/
theorem Cut.front_eq_iff {table column front back : Text}
    (h : Cut (table ++ lowLine :: column) front back) (hcolumn : column ≠ []) :
    front = table ↔ lowLine ∉ column.dropLast := by
  constructor
  · rintro rfl
    obtain rfl := (List.cons.inj (List.append_cancel_left h.eq)).2
    exact h.last
  · intro hlast
    exact (h.unique ⟨rfl, hcolumn, hlast⟩).1

/-! ## What is read from a line -/

/-- What stands in a line between the table and the value. -/
def behindTable : Pattern :=
  inOrder ["_", identifier, eitherCase "_seq',", someOf Symbol.isBlank,
    group 2 (someOf Symbol.isDigit)]

/-- The quote behind the name of the sequence. -/
abbrev quote : Symbol := .char '\x27'

/-- The suffix of the name, with the quote behind it, in either case. -/
private theorem exists_suffix_of_folded {z : Text}
    (h : z.map Symbol.folded = Text.ofString "_seq',") :
    ∃ suffix, suffix.length = 3 ∧ quote ∉ suffix ∧
      z = lowLine :: (suffix ++ quote :: Text.ofString ",") := by
  obtain ⟨s₁, z, rfl, h₁, h⟩ := List.map_eq_cons_iff.mp h
  obtain ⟨s₂, z, rfl, h₂, h⟩ := List.map_eq_cons_iff.mp h
  obtain ⟨s₃, z, rfl, h₃, h⟩ := List.map_eq_cons_iff.mp h
  obtain ⟨s₄, z, rfl, h₄, h⟩ := List.map_eq_cons_iff.mp h
  obtain ⟨s₅, z, rfl, h₅, h⟩ := List.map_eq_cons_iff.mp h
  obtain ⟨s₆, z, rfl, h₆, h⟩ := List.map_eq_cons_iff.mp h
  obtain rfl := List.map_eq_nil_iff.mp h
  -- The symbols that are no letters are as they are folded; the three letters may be capitals, but
  -- no quotes.
  obtain rfl := Symbol.eq_of_folded h₁ (by decide)
  obtain rfl := Symbol.eq_of_folded h₅ (by decide)
  obtain rfl := Symbol.eq_of_folded h₆ (by decide)
  have hletter {s : Symbol} {c : Char} (hs : s.folded = .char c) (hc : c ≠ '\x27') :
      quote ≠ s := by
    rintro rfl
    exact hc (Symbol.char.inj hs).symm
  refine ⟨[s₂, s₃, s₄], rfl, ?_, rfl⟩
  simp [hletter h₂ (by decide), hletter h₃ (by decide), hletter h₄ (by decide)]

/-- From a place within the suffix the suffix is not found. -/
private theorem suffix_outcomes_eq_nil {prev : Option Symbol} {here gone tail : Text}
    {ps : List Pattern} (hsplit : Text.ofString "_seq" = here ++ gone) (hne : here ≠ []) :
    (inOrder (eitherCase "_seq'," :: ps)).outcomes ⟨prev, gone ++ quote :: tail⟩ = [] := by
  refine outcomes_eq_nil_iff.mpr fun w rest groups ht hm => ?_
  obtain ⟨z, _, _, _, rfl, rfl, hz, -⟩ := matches_inOrder_cons.mp hm
  obtain ⟨suffix, hlength, hquote, rfl⟩ := exists_suffix_of_folded (matches_eitherCase.mp hz).1
  have hgone : quote ∉ gone := fun hmem => by
    have hmem := List.mem_append_right here hmem
    rw [← hsplit] at hmem
    exact absurd hmem (by decide)
  simp only [List.append_assoc, List.cons_append] at ht
  rw [← List.cons_append] at ht
  obtain ⟨rfl, -⟩ := Text.eq_of_append_cons_eq_of_front hgone (by simp [hquote]) ht
  have hlength' := congrArg List.length hsplit
  have hpos := List.length_pos_of_ne_nil hne
  simp only [List.length_append, List.length_cons, hlength] at hlength'
  exact absurd hlength' (by simp [Text.ofString]; omega)

/-- From a place behind the last low line of the name the rest of the pattern is not found. -/
private theorem behindTable_outcomes_eq_nil {prev : Option Symbol} {back here gone tail : Text}
    (hback : back.IsWord) (hlast : lowLine ∉ back.dropLast)
    (hsplit : lowLine :: (back ++ Text.ofString "_seq") = here ++ gone) (hne : here ≠ []) :
    behindTable.outcomes ⟨prev, gone ++ quote :: tail⟩ = [] := by
  refine outcomes_eq_nil_iff.mpr fun w rest groups ht hm => ?_
  simp only [behindTable, matches_inOrder_cons] at hm
  obtain ⟨_, _, _, _, rfl, rfl, ⟨rfl, rfl⟩, x, _, _, _, rfl, rfl, hx, z, more, _, _, rfl, rfl, hz,
    -⟩ := hm
  obtain ⟨hxne, hxword, -⟩ := matches_someOf.mp hx
  obtain ⟨suffix, hlength, hquote, rfl⟩ := exists_suffix_of_folded (matches_eitherCase.mp hz).1
  have hgone : quote ∉ gone := fun hmem => by
    have hmem := List.mem_append_right here hmem
    rw [← hsplit] at hmem
    have hnot : quote ∉ back := hback.not_mem (by decide)
    simp [hnot] at hmem
    exact absurd hmem (by decide)
  have hfront : quote ∉ lowLine :: (x ++ lowLine :: suffix) := by
    have hnot : quote ∉ x := Text.IsWord.not_mem ⟨hxne, hxword⟩ (by decide)
    simp [hnot, hquote]
  have heq : gone ++ quote :: tail = (lowLine :: (x ++ lowLine :: suffix)) ++ quote ::
      (Text.ofString "," ++ (more ++ rest)) := by
    simpa [Text.ofString] using ht
  -- The first quote ends the name on both sides, so what stands in front of it is the same.
  obtain ⟨rfl, -⟩ := Text.eq_of_append_cons_eq_of_front hgone hfront heq
  have hinj : (lowLine :: back) ++ Text.ofString "_seq" =
      (here ++ lowLine :: x) ++ (lowLine :: suffix) := by
    simpa using hsplit
  have hcut := (List.append_inj' hinj (by simp [hlength]; decide)).1
  obtain ⟨_, here, rfl⟩ := List.exists_cons_of_ne_nil hne
  obtain ⟨-, rfl⟩ := List.cons.inj hcut
  exact hlast (lowLine_mem_dropLast here hxne)

/-- The rest of the pattern is found from the last low line of the name that has more behind it. -/
private theorem behindTable_prefers {prev : Option Symbol} {back value : Text} (hback : back.IsWord)
    (hvalue : value.IsDigits) :
    behindTable.Prefers prev ("_" ++ (back ++ ("_seq'," ++ (" " ++ value)))) ", true);"
      [(2, value)] := by
  have hdigits (p : Option Symbol) : (group 2 (someOf Symbol.isDigit)).Prefers p value
      ", true);" [(2, value)] :=
    (prefers_someOf hvalue.1 hvalue.2 (by decide)).group 2
  have hblank (p : Option Symbol) :
      (inOrder [someOf Symbol.isBlank, group 2 (someOf Symbol.isDigit)]).Prefers p (" " ++ value)
        ", true);" [(2, value)] := by
    refine (prefers_someOf (by decide) (by decide) fun s hs => ?_).inOrder_cons
      (hdigits _).inOrder_singleton
    obtain ⟨s', value, rfl⟩ := List.exists_cons_of_ne_nil hvalue.1
    obtain rfl : s' = s := Option.some.inj hs
    exact Symbol.isBlank_of_isDigit (hvalue.2 s' List.mem_cons_self)
  have hsuffix (p : Option Symbol) : (inOrder [eitherCase "_seq',", someOf Symbol.isBlank,
      group 2 (someOf Symbol.isDigit)]).Prefers p ("_seq'," ++ (" " ++ value)) ", true);"
        [(2, value)] :=
    (prefers_eitherCase (by decide)).inOrder_cons (hblank _)
  have htail : Text.ofString "_seq'," ++ (Text.ofString " " ++ value) ++ Text.ofString ", true);" =
      Text.ofString "_seq" ++ quote :: (Text.ofString ", " ++ (value ++ ", true);")) := by
    simp [Text.ofString]
  -- The suffix is made of word characters too, so the run goes over it first.
  have hcolumn (p : Option Symbol) : identifier.Tries p back
      (Text.ofString "_seq'," ++ (Text.ofString " " ++ value) ++ Text.ofString ", true);") []
      fun c => ∃ here gone, Text.ofString "_seq" = here ++ gone ∧ here ≠ [] ∧
        c.rest = gone ++ quote :: (Text.ofString ", " ++ (value ++ ", true);")) := by
    rw [htail]
    exact tries_someOf hback.1 hback.2 (by simp; decide)
  refine prefers_word.inOrder_cons ((hcolumn _).seq ?_ (hsuffix _))
  rintro ⟨p, _⟩ ⟨here, gone, hsplit, hne, rfl⟩
  exact suffix_outcomes_eq_nil hsplit hne

/-- The table in the pattern is the name up to its last low line that has more behind it. -/
theorem statement_prefers {schema front back value : Text} (hschema : schema.IsWord)
    (hfront : front.IsWord) (hback : back.IsWord) (hlast : lowLine ∉ back.dropLast)
    (hvalue : value.IsDigits) :
    statement.Prefers none ("SELECT pg_catalog.setval('" ++ ((schema ++ ("." ++ front)) ++
        ("_" ++ (back ++ ("_seq'," ++ (" " ++ value)))))) ", true);"
      [(1, schema ++ ("." ++ front)), (2, value)] := by
  let name := lowLine :: (back ++ Text.ofString "_seq")
  let tail := Text.ofString ", " ++ (value ++ Text.ofString ", true);")
  have htail : Text.ofString "_" ++ (back ++ (Text.ofString "_seq'," ++ (" " ++ value))) ++
      Text.ofString ", true);" = name ++ quote :: tail := by
    simp [name, tail, Text.ofString]
  -- The table is tried longest first; from all the places passed on the way nothing is found behind
  -- it.
  let passed (c : Cursor) : Prop :=
    ∃ here gone, name = here ++ gone ∧ here ≠ [] ∧ c.rest = gone ++ quote :: tail
  have hfront (p : Option Symbol) : identifier.Tries p front (name ++ quote :: tail) [] passed :=
    tries_someOf hfront.1 hfront.2 (by simp; decide)
  have htable (p : Option Symbol) : (group 1 (inOrder [identifier, ".", identifier])).Tries p
      (schema ++ ("." ++ front)) (name ++ quote :: tail) [(1, schema ++ ("." ++ front))] passed :=
    ((prefers_someOf hschema.1 hschema.2 (by simp [Text.ofString]; decide)).seq_tries
      (prefers_word.seq_tries (hfront _))).group 1
  have hrest (p : Option Symbol) :
      (seq (group 1 (inOrder [identifier, ".", identifier])) behindTable).Prefers p
        ((schema ++ ("." ++ front)) ++ ("_" ++ (back ++ ("_seq'," ++ (" " ++ value))))) ", true);"
        ([(1, schema ++ ("." ++ front))] ++ [(2, value)]) := by
    refine Tries.seq (htail ▸ htable p) ?_ (behindTable_prefers hback hvalue)
    rintro ⟨p, _⟩ ⟨here, gone, hgone, hne, rfl⟩
    exact behindTable_outcomes_eq_nil hback hlast hgone hne
  have hselect (t : Text) : (eitherCase "select pg_catalog.setval('").Prefers none
      "SELECT pg_catalog.setval('" t [] := prefers_eitherCase (by decide)
  exact (hselect _).seq (hrest _)

/-- The table that is read from a line is the name up to its last low line that has more behind
it. -/
theorem read?_dumped {schema table column value front back : Text} (hschema : schema.IsWord)
    (htable : table.IsWord) (hcolumn : column.IsWord) (hvalue : value.IsDigits)
    (h : Cut (table ++ lowLine :: column) front back) :
    read? (dumped schema table column value) = some (schema ++ ("." ++ front), value) := by
  have hname : ∀ s ∈ front ++ lowLine :: back, s.isWord = true := by
    rw [← h.eq]
    exact List.forall_mem_append.mpr ⟨htable.2, List.forall_mem_cons.mpr ⟨by decide, hcolumn.2⟩⟩
  obtain ⟨hwordFront, hwordBack⟩ := List.forall_mem_append.mp hname
  have hfront : front.IsWord := ⟨h.front_ne_nil htable.1 hcolumn.1, hwordFront⟩
  have hback : back.IsWord := ⟨h.ne_nil, (List.forall_mem_cons.mp hwordBack).2⟩
  have hline : dumped schema table column value =
      ("SELECT pg_catalog.setval('" ++ ((schema ++ ("." ++ front)) ++
        ("_" ++ (back ++ ("_seq'," ++ (" " ++ value)))))) ++ Text.ofString ", true);" := by
    rw [dumped, h.eq]
    simp [Text.ofString]
  rw [read?, hline, (statement_prefers hschema hfront hback h.last hvalue).find]
  rfl

/-! ## What is written for it -/

/-- The line is taken for a sequence value, and defines no type. -/
theorem kind?_dumped (cfg : Config) {v : Visit} (hcontext : v.before.context = none)
    {schema table column value : Text} (hschema : schema.IsWord) (htable : table.IsWord)
    (hcolumn : column.IsWord) (hvalue : value.IsDigits)
    (hline : v.line = dumped schema table column value) :
    v.kind? cfg = some .sequenceValue := by
  have hmarked : marker.occursIn v.line = true := by
    refine occursIn_word_iff.mpr ?_
    rw [hline, dumped]
    exact List.IsInfix.trans (by decide +kernel) (List.prefix_append _ _).isInfix
  have hname : .char ' ' ∉ schema ++ .char '.' :: (table ++ lowLine :: (column ++ "_seq")) := by
    have hword {t : Text} (ht : t.IsWord) : .char ' ' ∉ t := ht.not_mem (by decide)
    simp [hword hschema, hword htable, hword hcolumn]
    decide
  have hbehind : .char 'Y' ∉ Text.ofString ", " ++ (value ++ Text.ofString ", true);") := by
    have hletter : .char 'Y' ∉ value := hvalue.not_mem (by decide)
    simp [hletter]
    decide
  have hsplit : v.line = Text.ofString "SELECT pg_catalog.setval(" ++ quote ::
      (schema ++ .char '.' :: (table ++ lowLine :: (column ++ "_seq")) ++ quote ::
        (Text.ofString ", " ++ (value ++ Text.ofString ", true);"))) := by
    rw [hline, dumped]
    simp [Text.ofString]
  -- The declaration of a type holds a blank and a Y: the name has no blank, and what follows it no
  -- Y.
  have htype : CreateTable.typeDeclaration.occursIn v.line = false := by
    refine Bool.eq_false_iff.mpr fun hoccurs => ?_
    have hwithin := occursIn_word_iff.mp hoccurs
    rw [hsplit, Text.infix_append_cons_iff (by decide) (by decide),
      Text.infix_append_cons_iff (by decide) (by decide)] at hwithin
    rcases hwithin with h | h | h
    · revert h
      decide +kernel
    · exact hname (h.subset (by decide))
    · exact hbehind (h.subset (by decide))
  rw [Visit.kind?, htype, Bool.and_false, if_neg Bool.false_ne_true,
    LineKind.of_marker (by simp [hcontext]) hmarked]

/-- **The value is set for the table that the name of the sequence is cut at**, and nothing is
written if that table is left out. It is the table of the sequence if and only if no low line
stands in the name of its column, except as the last symbol. -/
theorem table_of_sequence [Quoting] {schema table column value : Text} (hschema : schema.IsWord)
    (htable : table.IsWord) (hcolumn : column.IsWord) (hvalue : value.IsDigits) :
    let sets (cfg : Config) (v : Visit) (name : Text) : Prop :=
      (v.step cfg).result = .ok (if cfg.skips (schema ++ ("." ++ name)) then []
        else ["ALTER TABLE " ++ (schema ++ ("." ++ name)) ++ " AUTO_INCREMENT = " ++ value ++ ";"])
    (∃ front back, Cut (table ++ lowLine :: column) front back ∧
      ∀ (cfg : Config) (v : Visit), v.before.context = none →
        v.line = dumped schema table column value → sets cfg v front) ∧
    ((∀ (cfg : Config) (v : Visit), v.before.context = none →
        v.line = dumped schema table column value → sets cfg v table) ↔
      lowLine ∉ column.dropLast) := by
  intro sets
  obtain ⟨front, back, hcut⟩ := exists_cut hcolumn.1 table
  have hsets (cfg : Config) (v : Visit) (hcontext : v.before.context = none)
      (hline : v.line = dumped schema table column value) : sets cfg v front := by
    have hkind := kind?_dumped cfg hcontext hschema htable hcolumn hvalue hline
    have hread := read?_dumped hschema htable hcolumn hvalue hcut
    simp only [sets, Visit.result_step, hkind, hline, hread, written]
  refine ⟨⟨front, back, hcut, hsets⟩, ?_⟩
  rw [← hcut.front_eq_iff hcolumn.1]
  constructor
  · intro h
    -- A conversion that leaves no table out writes the name of the table.
    let cfg : Config := ⟨[], false, false⟩
    let v : Visit := ⟨{}, dumped schema table column value, []⟩
    have heq := (hsets cfg v rfl rfl).symm.trans (h cfg v rfl rfl)
    have hwritten := (List.cons.inj (Except.ok.inj heq)).1
    simpa using hwritten
  · rintro rfl
    exact hsets

/-- The sequence of the column `id`. -/
theorem value_of_id_column :
    let v : Visit := ⟨{}, "SELECT pg_catalog.setval('s.t_id_seq', 5, true);", []⟩
    (v.step ⟨[], false, false⟩).result = .ok ["ALTER TABLE s.t AUTO_INCREMENT = 5;"] ∧
      (v.step ⟨["s.t"], false, false⟩).result = .ok [] := by
  intro v
  have hline : v.line = dumped "s" "t" "id" "5" := by decide
  have hsets := (@table_of_sequence .doubling "s" "t" "id" "5" (by decide) (by decide) (by decide)
    (by decide)).2.mpr (by decide)
  exact ⟨hsets ⟨[], false, false⟩ v rfl hline, hsets ⟨["s.t"], false, false⟩ v rfl hline⟩

/-- The sequence of the column `user_id` sets the value of another table, also if its own is left
out. -/
theorem value_of_user_id_column :
    let v : Visit := ⟨{}, "SELECT pg_catalog.setval('s.t_user_id_seq', 5, true);", []⟩
    v.line = dumped "s" "t" "user_id" "5" ∧
      (∀ cfg ∈ [Config.mk [] false false, ⟨["s.t"], false, false⟩],
        (v.step cfg).output = ["ALTER TABLE s.t_user AUTO_INCREMENT = 5;"]) ∧
      (v.step ⟨[], false, false⟩).output ≠ ["ALTER TABLE s.t AUTO_INCREMENT = 5;"] ∧
      (v.step ⟨["s.t"], false, false⟩).output ≠ [] := by
  decide +kernel

end DumpDialect.SequenceValue
