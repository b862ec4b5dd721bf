import DumpDialect.Proofs.Conversion.History
import Mathlib.Data.List.Chain
import DumpDialect.Quoting

/-!
# Foreign keys to tables that are left out

A foreign key cannot point to a table that is left out, so the ALTER TABLE statement that adds one
is withheld. The key is looked for on the line behind the one at hand. pg_dump writes the key on the
second line of its statement, and there the whole statement is withheld. A key on any other line is
found too late or not at all, and a key of the statement that follows is found as well.

- `Visit.suppressed_step_of_alters`, `Visit.result_step_of_alters`: one line of a statement.
- `Alteration.suppressed_iff_withheld`: the flag after each line of a statement.
- `Alteration.wholly`: a statement whose keys stand where they are looked for.
- `alteration_line_by_line`: both, for every dump.
-/

namespace DumpDialect

variable {cfg : Config}

/-! ## One line -/

/-- The line belongs to an ALTER TABLE statement, and neither names an owner nor defers a change. -/
structure Visit.Alters [Quoting] (cfg : Config) (v : Visit) : Prop where
  kind : v.kind? cfg = some (.statement .alterTable)
  noOwner : AlterTable.ownerChange.occursIn v.line = false
  noDefault : cfg.deferral? v.line = none

instance [Quoting] (v : Visit) : Decidable (v.Alters cfg) :=
  decidable_of_iff
    (v.kind? cfg = some (.statement .alterTable) ∧
      AlterTable.ownerChange.occursIn v.line = false ∧ cfg.deferral? v.line = none)
    ⟨fun ⟨hk, ho, hd⟩ => ⟨hk, ho, hd⟩, fun ⟨hk, ho, hd⟩ => ⟨hk, ho, hd⟩⟩

namespace Visit

variable {v : Visit}

/-- A line names a table that is left out, or the line behind it adds a foreign key to one. -/
def Excludes (cfg : Config) (v : Visit) : Prop :=
  (∃ table ∈ cfg.skipTables, AlterTable.table? v.line = some table) ∨
    (cfg.skippedTarget? v.next).isSome = true

theorem suppressed_step_of_alters [Quoting] (h : v.Alters cfg) :
    (v.step cfg).state.suppressed = ((cfg.skippedTarget? v.next).isSome ||
      cfg.withholds v.before.suppressed (AlterTable.table? v.line)) := by
  simp only [suppressed_step, h.kind, treatment, Treatment.ofStatement, Treatment.ofAlterTable_eq,
    h.noOwner, h.noDefault]
  rfl

/-- A line of the statement is written in MySQL's form, unless it is withheld. -/
theorem result_step_of_alters [Quoting] (h : v.Alters cfg) :
    (v.step cfg).result =
      .ok (if (v.step cfg).state.suppressed then [] else [AlterTable.written v.line]) := by
  simp only [result_step, suppressed_step, h.kind, treatment, Treatment.ofStatement,
    Treatment.ofAlterTable_eq, Treatment.output, h.noOwner, h.noDefault]
  rfl

end Visit

/-! ## One statement -/

/-- The lines of an ALTER TABLE statement, from the header, which names the table, to the first line
that closes it. -/
structure Alteration [Quoting] (cfg : Config) (table : Text) (header : Visit)
    (others : List Visit) : Prop where
  opens : header.before.context = none
  names : AlterTable.table? header.line = some table
  alters : ∀ v ∈ header :: others, v.Alters cfg
  staysOpen : ∀ v ∈ (header :: others).dropLast, (v.step cfg).state.context ≠ none
  closes : ∀ v ∈ (header :: others).getLast?, (v.step cfg).state.context = none

instance [Quoting] (table : Text) (header : Visit) (others : List Visit) :
    Decidable (Alteration cfg table header others) :=
  decidable_of_iff
    (header.before.context = none ∧ AlterTable.table? header.line = some table ∧
      (∀ v ∈ header :: others, v.Alters cfg) ∧
      (∀ v ∈ (header :: others).dropLast, (v.step cfg).state.context ≠ none) ∧
      ∀ v ∈ (header :: others).getLast?, (v.step cfg).state.context = none)
    ⟨fun ⟨ho, hn, ha, hs, hc⟩ => ⟨ho, hn, ha, hs, hc⟩,
      fun ⟨ho, hn, ha, hs, hc⟩ => ⟨ho, hn, ha, hs, hc⟩⟩

/-- Some lines of a statement leave it withheld: one of them excludes it, and none behind that one
names a table anew. -/
def Withheld (cfg : Config) (seen : List Visit) : Prop :=
  ∃ front v behind, seen = front ++ v :: behind ∧ v.Excludes cfg ∧
    ∀ u ∈ behind, AlterTable.table? u.line = none

/-- The last line excludes the statement, or it was withheld before and the line names no table. -/
theorem withheld_append_singleton {seen : List Visit} {v : Visit} :
    Withheld cfg (seen ++ [v]) ↔
      v.Excludes cfg ∨ AlterTable.table? v.line = none ∧ Withheld cfg seen := by
  constructor
  · rintro ⟨front, u, behind, hseen, hu, hbehind⟩
    -- The line that decides is the last one, or stands before it and nothing behind it names a
    -- table.
    rcases List.eq_nil_or_concat behind with rfl | ⟨behind, w, rfl⟩
    · obtain ⟨-, hv⟩ := List.append_inj' hseen rfl
      cases hv
      exact .inl hu
    · rw [List.concat_eq_append] at hseen hbehind
      rw [← List.cons_append, ← List.append_assoc] at hseen
      obtain ⟨rfl, hw⟩ := List.append_inj' hseen rfl
      cases hw
      exact .inr ⟨hbehind v (by simp),
        front, u, behind, rfl, hu, fun x hx => hbehind x (List.mem_append_left _ hx)⟩
  · rintro (hv | ⟨hv, front, u, behind, rfl, hu, hbehind⟩)
    · exact ⟨seen, v, [], rfl, hv, by simp⟩
    · refine ⟨front, u, behind ++ [v], by simp, hu, fun w hw => ?_⟩
      rcases List.mem_append.mp hw with hw | hw
      · exact hbehind w hw
      · rw [List.mem_singleton.mp hw]
        exact hv

/-- While only the header names a table, that table and the keys behind the lines decide. -/
theorem withheld_cons_iff {table : Text} {header : Visit} {others : List Visit}
    (hheader : AlterTable.table? header.line = some table)
    (hothers : ∀ v ∈ others, AlterTable.table? v.line = none) :
    Withheld cfg (header :: others) ↔ table ∈ cfg.skipTables ∨
      ∃ v ∈ header :: others, (cfg.skippedTarget? v.next).isSome = true := by
  have hnamed (v : Visit) (hv : v ∈ header :: others) (t : Text)
      (ht : AlterTable.table? v.line = some t) : t = table := by
    rcases List.mem_cons.mp hv with rfl | hv
    · exact Option.some.inj (ht.symm.trans hheader)
    · rw [hothers v hv] at ht
      cases ht
  constructor
  · rintro ⟨front, v, behind, hseen, hv, -⟩
    have hmem : v ∈ header :: others := by simp [hseen]
    rcases hv with ⟨t, hskip, ht⟩ | htarget
    · exact .inl (hnamed v hmem t ht ▸ hskip)
    · exact .inr ⟨v, hmem, htarget⟩
  · rintro (hskip | ⟨v, hv, htarget⟩)
    · exact ⟨[], header, others, rfl, .inl ⟨table, hskip, hheader⟩, hothers⟩
    · obtain ⟨front, behind, hsplit⟩ := List.append_of_mem hv
      refine ⟨front, v, behind, hsplit, .inr htarget, fun u hu => hothers u ?_⟩
      cases front with
      | nil =>
        cases hsplit
        exact hu
      | cons _ front =>
        obtain ⟨-, rfl⟩ := List.cons.inj hsplit
        exact List.mem_append_right _ (List.mem_cons_of_mem _ hu)

namespace Alteration

variable {table : Text} {header : Visit} {others : List Visit}

/-- After each line of a statement the flag says whether the lines so far withhold it. -/
theorem suppressed_iff_withheld [Quoting] (h : Alteration cfg table header others)
    (hfollows : List.IsChain (Visit.Follows cfg) (header :: others)) (front : List Visit) :
    ∀ v behind, header :: others = front ++ v :: behind →
      ((v.step cfg).state.suppressed = true ↔ Withheld cfg (front ++ [v])) := by
  -- By induction from the end: the flag before a line is what the line before it left.
  induction front using List.reverseRecOn with
  | nil =>
    intro v behind hsplit
    obtain ⟨rfl, rfl⟩ := List.cons.inj hsplit
    have hnil : ¬ Withheld cfg [] := by
      rintro ⟨front, v, behind, hseen, -⟩
      simp at hseen
    rw [withheld_append_singleton, Visit.suppressed_step_of_alters (h.alters _ (by simp)),
      Visit.Excludes]
    simp [h.names, hnil, Config.withholds, or_comm]
  | append_singleton front u ih =>
    intro v behind hsplit
    have hv : v.Alters cfg := h.alters v (by simp [hsplit])
    rw [List.append_assoc, List.singleton_append] at hsplit
    have hbefore := ih u (v :: behind) hsplit
    rw [hsplit] at hfollows
    have hpair := (List.isChain_cons_cons.mp hfollows.right_of_append).1
    rw [withheld_append_singleton, ← hbefore, ← hpair.1, Visit.suppressed_step_of_alters hv,
      Visit.Excludes]
    cases AlterTable.table? v.line <;> simp [Config.withholds, or_comm]

/-- The keys to tables that are left out stand where they are looked for: only the second line of
the statement adds one, and the line behind the statement adds none. -/
structure KeysInPlace (cfg : Config) (header : Visit) (others : List Visit) : Prop where
  first : cfg.skippedTarget? header.line = none
  later : ∀ v ∈ others.drop 1, cfg.skippedTarget? v.line = none
  after : ∀ v ∈ (header :: others).getLast?, cfg.skippedTarget? v.next = none

/-- Such a key is found from the header, and from no other line. -/
theorem KeysInPlace.isSome_next [Quoting] (h : KeysInPlace cfg header others)
    (hfollows : List.IsChain (Visit.Follows cfg) (header :: others)) {v : Visit}
    (hv : v ∈ header :: others) (hkey : (cfg.skippedTarget? v.next).isSome = true) :
    (cfg.skippedTarget? header.next).isSome = true := by
  rcases List.mem_cons.mp hv with rfl | hv
  · exact hkey
  · exfalso
    obtain ⟨front, behind, rfl⟩ := List.append_of_mem hv
    -- What a later line looks ahead to is the line behind it, or what follows the statement.
    have hnone : cfg.skippedTarget? v.next = none := by
      cases behind with
      | nil =>
        refine h.after v ?_
        rw [← List.cons_append, List.getLast?_concat]
        rfl
      | cons w behind =>
        rw [← List.cons_append] at hfollows
        rw [← (List.isChain_cons_cons.mp hfollows.right_of_append).1.2]
        refine h.later w ?_
        cases front <;> simp
    rw [hnone] at hkey
    cases hkey

/-- A line of the statement adds a key to a table that is left out exactly if the line behind the
header does. -/
theorem KeysInPlace.exists_iff [Quoting] (h : KeysInPlace cfg header others)
    (hfollows : List.IsChain (Visit.Follows cfg) (header :: others)) :
    (∃ v ∈ header :: others, (cfg.skippedTarget? v.line).isSome = true) ↔
      (cfg.skippedTarget? header.next).isSome = true := by
  constructor
  · rintro ⟨v, hv, hkey⟩
    rcases List.mem_cons.mp hv with rfl | hv
    · rw [h.first] at hkey
      cases hkey
    · -- Only the second line may hold such a key, and it is the one the header looks ahead to.
      cases others with
      | nil => cases hv
      | cons second others =>
        rcases List.mem_cons.mp hv with rfl | hv
        · rw [← (List.isChain_cons_cons.mp hfollows).1.2]
          exact hkey
        · rw [h.later v hv] at hkey
          cases hkey
  · intro hkey
    cases others with
    | nil =>
      rw [h.after header rfl] at hkey
      cases hkey
    | cons second others =>
      refine ⟨second, by simp, ?_⟩
      rw [(List.isChain_cons_cons.mp hfollows).1.2]
      exact hkey

/-- Nothing is written of the statement if its table is left out or one of its lines adds a key to a
table that is, and else all of it. -/
def Wholly [Quoting] (cfg : Config) (table : Text) (header : Visit) (others : List Visit) : Prop :=
  ∀ v ∈ header :: others, (v.step cfg).result =
    .ok (if table ∈ cfg.skipTables ∨
        ∃ u ∈ header :: others, (cfg.skippedTarget? u.line).isSome = true
      then [] else [AlterTable.written v.line])

theorem wholly [Quoting] (h : Alteration cfg table header others)
    (hfollows : List.IsChain (Visit.Follows cfg) (header :: others))
    (hnames : ∀ v ∈ others, AlterTable.table? v.line = none)
    (hkeys : KeysInPlace cfg header others) : Wholly cfg table header others := by
  intro v hv
  obtain ⟨front, behind, hsplit⟩ := List.append_of_mem hv
  have hflag := h.suppressed_iff_withheld hfollows front v behind hsplit
  have hstarts : front ++ [v] <+: header :: others := ⟨behind, by simp [hsplit]⟩
  -- The lines up to this one withhold the statement exactly if all of them do.
  have hseen : Withheld cfg (front ++ [v]) ↔ table ∈ cfg.skipTables ∨
      (cfg.skippedTarget? header.next).isSome = true := by
    obtain hnil | ⟨seen, hfront, hseen⟩ := List.prefix_cons_iff.mp hstarts
    · simp at hnil
    · rw [hfront, withheld_cons_iff h.names fun u hu => hnames u (hseen.subset hu)]
      refine or_congr_right ⟨?_, fun hkey => ⟨header, by simp, hkey⟩⟩
      rintro ⟨u, hu, hkey⟩
      exact hkeys.isSome_next hfollows (List.cons_subset_cons header hseen.subset hu) hkey
  have hrule : (v.step cfg).state.suppressed = true ↔ table ∈ cfg.skipTables ∨
      ∃ u ∈ header :: others, (cfg.skippedTarget? u.line).isSome = true := by
    rw [hflag, hseen, hkeys.exists_iff hfollows]
  rw [Visit.result_step_of_alters (h.alters v hv)]
  exact congrArg Except.ok (if_congr hrule rfl rfl)

end Alteration

/-! ## Whole dumps -/

/-- **Alterations line by line.** A line of an ALTER TABLE statement that neither names an owner nor
defers a change is withheld if a line of the statement so far names a table that is left out, or
stands in front of a line that adds a foreign key to one, and no table is named anew behind that
line; else it is written. So if only the header names a table and the keys to tables that are left
out stand on the second line, all of the statement is written or nothing, and nothing exactly if its
table is left out or it adds such a key. -/
theorem alteration_line_by_line [Quoting] (cfg : Config) (dump : List Text) {table : Text}
    {header : Visit} {past others future : List Visit}
    (hrun : visits cfg {} (withLookahead dump) = past ++ (header :: others) ++ future)
    (h : Alteration cfg table header others) :
    (∀ front v behind, header :: others = front ++ v :: behind →
      (Withheld cfg (front ++ [v]) → (v.step cfg).result = .ok []) ∧
      (¬ Withheld cfg (front ++ [v]) → (v.step cfg).result = .ok [AlterTable.written v.line])) ∧
    ((∀ v ∈ others, AlterTable.table? v.line = none) → Alteration.KeysInPlace cfg header others →
      Alteration.Wholly cfg table header others) := by
  have hfollows : List.IsChain (Visit.Follows cfg) (header :: others) := by
    have hvisits := isChain_visits cfg {} dump
    rw [hrun] at hvisits
    exact hvisits.left_of_append.right_of_append
  refine ⟨fun front v behind hsplit => ?_, h.wholly hfollows⟩
  have hflag := h.suppressed_iff_withheld hfollows front v behind hsplit
  rw [Visit.result_step_of_alters (h.alters v (by simp [hsplit]))]
  refine ⟨fun hwithheld => ?_, fun hkept => ?_⟩
  · rw [if_pos (hflag.mpr hwithheld)]
  · rw [if_neg (mt hflag.mp hkept)]

/-- A key to a table that is left out, written as pg_dump does: nothing of its statement is
written. -/
theorem key_on_second_line_withholds :
    let cfg : Config := ⟨["a.u"], false, false⟩
    let key : Text := "    ADD CONSTRAINT k FOREIGN KEY (x) REFERENCES a.u(id);"
    let dump : List Text := ["ALTER TABLE ONLY a.t", key, "INSERT INTO a.t VALUES (1);"]
    let header : Visit := ⟨{}, "ALTER TABLE ONLY a.t", key⟩
    let second : Visit := ⟨(header.step cfg).state, key, "INSERT INTO a.t VALUES (1);"⟩
    ∃ row, visits cfg {} (withLookahead dump) = [] ++ [header, second] ++ [row] ∧
      Alteration cfg "a.t" header [second] ∧ Alteration.Wholly cfg "a.t" header [second] ∧
      (second.step cfg).result = .ok [] := by
  intro cfg key dump header second
  have hrun : visits cfg {} (withLookahead dump) = [] ++ [header, second] ++
      [⟨(second.step cfg).state, "INSERT INTO a.t VALUES (1);", []⟩] := by decide +kernel
  have h : Alteration cfg "a.t" header [second] := by decide +kernel
  obtain ⟨hlines, hwhole⟩ := alteration_line_by_line cfg dump hrun h
  refine ⟨_, hrun, h, hwhole (by decide +kernel) ⟨by decide +kernel, by simp, ?_⟩, ?_⟩
  · decide +kernel
  · exact (hlines [header] second [] rfl).1
      ⟨[], header, [second], rfl, .inr (by decide +kernel), by decide +kernel⟩

/-- A key to a table that is left out is written if it stands on the first line of its statement. On
the third line it takes along the rest of the statement only, and it takes along a whole statement
that stands in front of its own. -/
theorem keys_out_of_place :
    let cfg : Config := ⟨["a.u"], false, false⟩
    let key : Text := "    ADD CONSTRAINT k FOREIGN KEY (x) REFERENCES a.u(id);"
    let keyed : Text := "ALTER TABLE a.t ADD CONSTRAINT k FOREIGN KEY (x) REFERENCES a.u(id);"
    let column : Text := "ALTER TABLE a.v ADD COLUMN y integer;"
    let first : Visit := ⟨{}, keyed, []⟩
    let line₀ : Visit := ⟨{}, "ALTER TABLE a.t", "    ADD COLUMN y integer,"⟩
    let line₁ : Visit := ⟨(line₀.step cfg).state, "    ADD COLUMN y integer,", key⟩
    let line₂ : Visit := ⟨(line₁.step cfg).state, key, []⟩
    let before : Visit := ⟨{}, column, keyed⟩
    (Alteration cfg "a.t" first [] ∧ (cfg.skippedTarget? keyed).isSome = true ∧
      (convert cfg [keyed]).output = banner ++ [keyed]) ∧
    (Alteration cfg "a.t" line₀ [line₁, line₂] ∧ (cfg.skippedTarget? key).isSome = true ∧
      (convert cfg [line₀.line, line₁.line, key]).output = banner ++ [line₀.line]) ∧
    (Alteration cfg "a.v" before [] ∧ cfg.skippedTarget? column = none ∧
      (convert cfg [column, keyed]).output = banner ++ [keyed]) := by
  decide +kernel

end DumpDialect
