import DumpDialect.Proofs.Conversion.Accounting
import DumpDialect.Proofs.Conversion.History
import DumpDialect.Proofs.Conversion.Openings
import DumpDialect.Quoting

/-!
# Blocks are passed over

Between the line that opens a block and the line that closes it no line is looked at for more than
whether it closes the block. So the state inside of a block is known from the state in front of it
and from the number of lines since (`State.insideBlock`), and it does not matter what these lines
would mean anywhere else. Only the check for CREATE TYPE, which comes before all else, reaches into
a block.

- `step_opening`, `step_inside`, `step_forbidden`, `step_closing`: the lines of a block, each by the
  state in front of the block.
- `PassedOver`: a run that shows nothing but where it ends.
- `passedOver_inside`: the lines inside of a block, by induction on those that are left.
- `block_is_opaque`: whole blocks.
-/

namespace DumpDialect

open Pattern

variable {cfg : Config} {st : State} {line next : Text}

/-! ## The states of a block -/

/-- The state in a block that began behind `st`, after so many of its lines. -/
def State.insideBlock (st : State) (lines : Nat) : State :=
  { st with
    context := some .block
    suppressed := true
    lineNumber := st.lineNumber + lines
    tally := (st.tally.bump (.statement .block)).bump .suppressed }

/-- The state behind a block of so many lines that began behind `st`. -/
def State.behindBlock (st : State) (lines : Nat) : State :=
  { st.insideBlock lines with context := none }

/-- The line is not allowed in the dump, whatever statement it stands in. -/
def Config.Forbids (cfg : Config) (line : Text) : Prop :=
  cfg.strict = true ∧ CreateTable.typeDeclaration.occursIn line = true

instance (cfg : Config) : DecidablePred cfg.Forbids := fun _ =>
  inferInstanceAs (Decidable (_ ∧ _))

/-! ## Lines -/

/-- The line that opens a block holds no more than the keyword, so it is always allowed. -/
theorem Block.not_forbids_of_opening (h : Block.opening.opens line = true) :
    ¬ cfg.Forbids line := by
  rintro ⟨-, hdeclares⟩
  obtain ⟨before, after, rfl⟩ := occursIn_word_iff.mp hdeclares
  refine Block.not_mem_of_opening (s := .char 'P') h (by decide) (by decide) ?_
  exact List.mem_append_left _ (List.mem_append_right _ (by decide))

section

variable [Quoting]

/-- A line in a block, or one that opens a block, is a line of the block. -/
theorem step_of_block (hallowed : ¬ cfg.Forbids line)
    (h : st.context = some .block ∨ Block.opening.opens line = true) :
    step cfg st line next = ⟨.ok [],
      st.advanced.afterStatement .block (Treatment.ofBlock st.advanced line),
      .lineRead (st.lineNumber + 1) line :: (Treatment.ofBlock st.advanced line).events⟩ := by
  have hstrict : (cfg.strict && CreateTable.typeDeclaration.occursIn line) = false := by
    rwa [Bool.eq_false_iff, ne_eq, Bool.and_eq_true]
  have hblock : (decide (st.context = some .block) || Block.opening.opens line) = true := by
    rwa [Bool.or_eq_true, decide_eq_true_eq]
  have hk : Visit.kind? cfg ⟨st, line, next⟩ = some (.statement .block) := by
    rw [Visit.kind?, hstrict, if_neg Bool.false_ne_true, LineKind.of, if_pos hblock]
  exact Visit.step_of_statement hk

theorem step_opening (hst : st.context ≠ some .block) (h : Block.opening.opens line = true) :
    step cfg st line next = ⟨.ok [], st.insideBlock 1,
      [.lineRead (st.lineNumber + 1) line, .blockSkipped (st.lineNumber + 1)]⟩ := by
  rw [step_of_block (Block.not_forbids_of_opening h) (.inr h)]
  simp only [Treatment.ofBlock, State.afterStatement, State.advanced, hst,
    Block.closing_of_opening h]
  rfl

/-- A line of a block that does not close it shows nothing. -/
theorem step_inside {n : Nat} (hallowed : ¬ cfg.Forbids line)
    (h : Block.closing.opens line = false) :
    step cfg (st.insideBlock n) line next = ⟨.ok [], st.insideBlock (n + 1),
      [.lineRead (st.lineNumber + n + 1) line]⟩ := by
  rw [step_of_block hallowed (.inl rfl)]
  simp only [Treatment.ofBlock, State.afterStatement, State.advanced, State.insideBlock, h]
  rfl

/-- A line that is not allowed fails and leaves the block open. -/
theorem step_forbidden {n : Nat} (hforbidden : cfg.Forbids line) :
    step cfg (st.insideBlock n) line next =
      ⟨.error ⟨.typeDeclaration, st.lineNumber + n + 1⟩, st.insideBlock (n + 1),
        [.lineRead (st.lineNumber + n + 1) line]⟩ := by
  have hk : Visit.kind? cfg ⟨st.insideBlock n, line, next⟩ = none := by
    rw [Visit.kind?, Bool.and_eq_true_iff.mpr hforbidden, if_pos rfl]
  exact Visit.step_of_forbidden hk

theorem step_closing {n : Nat} (hallowed : ¬ cfg.Forbids line)
    (h : Block.closing.opens line = true) :
    step cfg (st.insideBlock n) line next = ⟨.ok [], st.behindBlock (n + 1),
      [.lineRead (st.lineNumber + n + 1) line]⟩ := by
  rw [step_of_block hallowed (.inl rfl)]
  simp only [Treatment.ofBlock, State.afterStatement, State.advanced, State.insideBlock, h]
  rfl

/-! ## Runs -/

/-- A run that writes nothing and does not fail, the state in which it ends, and how many warnings
it gives. -/
structure PassedOver (cfg : Config) (st : State) (lines : List (Text × Text)) (after : State)
    (warnings : Nat) : Prop where
  silent : ∀ s ∈ run cfg st lines, s.output = []
  noError : errorOf (run cfg st lines) = none
  ends : stateAfter st (run cfg st lines) = after
  warned : ((run cfg st lines).flatMap Step.events).countP Event.isWarning = warnings

theorem PassedOver.cons {st' after : State} {events : List Event} {lines : List (Text × Text)}
    {warnings : Nat} (hstep : step cfg st line next = ⟨.ok [], st', events⟩)
    (h : PassedOver cfg st' lines after warnings) :
    PassedOver cfg st ((line, next) :: lines) after
      (events.countP Event.isWarning + warnings) := by
  have hrun : run cfg st ((line, next) :: lines) = ⟨.ok [], st', events⟩ :: run cfg st' lines := by
    rw [run_cons, hstep]
  have hfirst : errorOf [⟨.ok [], st', events⟩] = none := rfl
  refine ⟨?_, ?_, ?_, ?_⟩
  · rw [hrun]
    exact List.forall_mem_cons.mpr ⟨rfl, h.silent⟩
  · rw [hrun, ← List.singleton_append, errorOf_append hfirst, h.noError]
  · rw [hrun, stateAfter_cons, h.ends]
  · rw [hrun, List.flatMap_cons, List.countP_append, h.warned]

/-- The lines inside of a block. The induction is on the lines that are left. -/
theorem passedOver_inside {body : List (Text × Text)}
    (hbody : ∀ pair ∈ body, Block.closing.opens pair.1 = false ∧ ¬ cfg.Forbids pair.1) (n : Nat) :
    PassedOver cfg (st.insideBlock n) body (st.insideBlock (n + body.length)) 0 := by
  induction body generalizing n with
  | nil => exact ⟨List.forall_mem_nil _, rfl, rfl, rfl⟩
  | cons pair body ih =>
    obtain ⟨⟨hopen, hallowed⟩, hbody⟩ := List.forall_mem_cons.mp hbody
    have hrest := ih hbody (n + 1)
    rw [Nat.add_assoc, Nat.add_comm 1] at hrest
    exact PassedOver.cons (step_inside hallowed hopen) hrest

/-- **Blocks are opaque.** Take a state in which no block is open, a line that opens a block, lines
that do not close it, whatever else they are, and a line that closes it. Nothing is written for
them, no database is declared, no change is deferred, and there is one warning. The run fails only
if CREATE TYPE is an error and the last line holds it; else it ends outside of statements, in a
state that depends on the number of the lines and on nothing in them. -/
theorem block_is_opaque (cfg : Config) {st : State} (hst : st.context ≠ some .block)
    {opening closing : Text × Text} {body : List (Text × Text)}
    (hopening : Block.opening.opens opening.1 = true)
    (hbody : ∀ pair ∈ body, Block.closing.opens pair.1 = false ∧ ¬ cfg.Forbids pair.1)
    (hclosing : Block.closing.opens closing.1 = true) :
    let steps := run cfg st (opening :: body ++ [closing])
    let after := stateAfter st steps
    (∀ s ∈ steps, s.output = []) ∧ after.schemas = st.schemas ∧ after.deferred = st.deferred ∧
      (steps.flatMap Step.events).countP Event.isWarning = 1 ∧
      (errorOf steps = none ↔ ¬ cfg.Forbids closing.1) ∧
      (errorOf steps = none → after = st.behindBlock (body.length + 2)) := by
  intro steps after
  obtain ⟨line, next⟩ := closing
  -- Up to the last line all is said by the invariant of lines passed over; the last step is looked
  -- at on its own.
  have hopen : PassedOver cfg st (opening :: body) (st.insideBlock (1 + body.length)) 1 :=
    PassedOver.cons (step_opening hst hopening) (passedOver_inside hbody 1)
  let last := step cfg (st.insideBlock (1 + body.length)) line next
  have hlast : run cfg (st.insideBlock (1 + body.length)) [(line, next)] = [last] := by
    rw [run_cons_eq_ite, run_nil, ite_self]
  have hsteps : steps = run cfg st (opening :: body) ++ [last] := by
    rw [← hlast, ← hopen.ends]
    exact run_append hopen.noError [(line, next)]
  have hafter : after = last.state := by
    show stateAfter st steps = last.state
    rw [hsteps, stateAfter_append, stateAfter_cons, stateAfter_nil]
  have herror : errorOf steps = last.error? := by
    rw [hsteps, errorOf_append hopen.noError]
    rfl
  have hwarned : (steps.flatMap Step.events).countP Event.isWarning =
      1 + last.events.countP Event.isWarning := by
    rw [hsteps, List.flatMap_append, List.countP_append, hopen.warned, List.flatMap_singleton]
  have hsilent (hquiet : last.output = []) : ∀ s ∈ steps, s.output = [] := by
    rw [hsteps, List.forall_mem_append, List.forall_mem_singleton]
    exact ⟨hopen.silent, hquiet⟩
  -- The strict check comes in front of the block, also on its last line.
  by_cases hforbidden : cfg.Forbids line
  · have hfails : last = ⟨.error ⟨.typeDeclaration, st.lineNumber + (1 + body.length) + 1⟩,
        st.insideBlock (1 + body.length + 1),
        [.lineRead (st.lineNumber + (1 + body.length) + 1) line]⟩ := step_forbidden hforbidden
    rw [hafter, herror, hwarned, hfails]
    refine ⟨hsilent (by rw [hfails]; rfl), rfl, rfl, rfl, ?_, nofun⟩
    exact iff_of_false nofun (not_not_intro hforbidden)
  · have hcloses : last = ⟨.ok [], st.behindBlock (1 + body.length + 1),
        [.lineRead (st.lineNumber + (1 + body.length) + 1) line]⟩ :=
      step_closing hforbidden hclosing
    rw [hafter, herror, hwarned, hcloses]
    refine ⟨hsilent (by rw [hcloses]; rfl), rfl, rfl, rfl, iff_of_true rfl hforbidden, fun _ => ?_⟩
    rw [Nat.add_comm 1]

end

/-- A block that begins inside of an INSERT statement, with lines of which each would do something
outside of it, the third of them fail. -/
theorem function_body_passed_over :
    let cfg : Config := ⟨[], false, true⟩
    let st : State := stateAfter {} (run cfg {} [("INSERT INTO a.t VALUES ('x", "")])
    let opening : Text × Text := ("  Begin ", "")
    let body : List (Text × Text) :=
      [("INSERT INTO a.t VALUES (1);", ""), ("CREATE TABLE b.u (", ""), ("pg_catalog.setval", ""),
        ("ALTER TABLE a.t ALTER COLUMN c SET DEFAULT nextval", ""), ("begin", "")]
    let closing : Text × Text := ("END; INSERT", "")
    (st.context ≠ some .block ∧ Block.opening.opens opening.1 = true ∧
        (∀ pair ∈ body, Block.closing.opens pair.1 = false ∧ ¬ cfg.Forbids pair.1) ∧
        Block.closing.opens closing.1 = true ∧ ¬ cfg.Forbids closing.1) ∧
      stateAfter st (run cfg st (opening :: body ++ [closing])) = st.behindBlock 7 := by
  intro cfg st opening body closing
  have hst : st.context ≠ some .block := by decide +kernel
  have hopening : Block.opening.opens opening.1 = true := by decide +kernel
  have hbody : ∀ pair ∈ body, Block.closing.opens pair.1 = false ∧ ¬ cfg.Forbids pair.1 := by
    decide +kernel
  have hclosing : Block.closing.opens closing.1 = true := by decide +kernel
  have hallowed : ¬ cfg.Forbids closing.1 := by decide +kernel
  obtain ⟨-, -, -, -, herror, hends⟩ := block_is_opaque cfg hst hopening hbody hclosing
  exact ⟨⟨hst, hopening, hbody, hclosing, hallowed⟩, hends (herror.mpr hallowed)⟩

/-- The check for CREATE TYPE looks at the line that closes a block as at any other. -/
theorem type_declaration_behind_end_fails :
    let cfg : Config := ⟨[], false, true⟩
    let opening : Text × Text := ("begin", "INSERT INTO a.t VALUES (1);")
    let body : List (Text × Text) := [("INSERT INTO a.t VALUES (1);", "END; CREATE TYPE mood")]
    let closing : Text × Text := ("END; CREATE TYPE mood", "")
    Block.opening.opens opening.1 = true ∧
      (∀ pair ∈ body, Block.closing.opens pair.1 = false ∧ ¬ cfg.Forbids pair.1) ∧
      Block.closing.opens closing.1 = true ∧
      errorOf (run cfg {} (opening :: body ++ [closing])) = some ⟨.typeDeclaration, 3⟩ := by
  decide +kernel

end DumpDialect
