import DumpDialect.Conversion.Step
import DumpDialect.Text.Line

/-!
# Converting a dump

`run` handles lines one after the other and stops at the first that fails. `convert` gives what
is written for a whole dump: a banner, the lines of all steps, and, unless a step failed, the
changes that waited for the end.
-/

namespace DumpDialect

variable [Quoting]

/-- The steps over the lines, each with the line after it, from a state on, after the steps `done`,
the last one first. -/
def runOnto (cfg : Config) (done : List Step) : State → List (Text × Text) → List Step
  | _, [] => done.reverse
  | st, (line, next) :: rest =>
    let s := step cfg st line next
    match s.result with
    | .ok _ => runOnto cfg (s :: done) s.state rest
    | .error _ => (s :: done).reverse

/-- The steps over the lines, each with the line after it, from a state on. A step that fails is
the last one. -/
def run (cfg : Config) (st : State) (lines : List (Text × Text)) : List Step :=
  runOnto cfg [] st lines

/-- The state after some steps from a state on. -/
def stateAfter (st : State) (steps : List Step) : State :=
  (steps.getLast?.map Step.state).getD st

/-- The error with which some steps ended, if they did. -/
def errorOf (steps : List Step) : Option ConversionError := steps.getLast?.bind Step.error?

/-- The lines that every converted dump begins with. -/
def banner : List Text :=
  ["--", "-- Generated by pg2mysql", "--", "set foreign_key_checks = off;"]

/-- The conversion of a dump: the lines written, the state at the end, what happened, and the
error that ended it early, if one did. -/
structure Conversion where
  output : List Text
  state : State
  events : List Event
  error? : Option ConversionError

/-- The conversion of the lines of a dump. Their endings do not matter. -/
def convert (cfg : Config) (lines : List Text) : Conversion :=
  let steps := run cfg {} (withLookahead lines)
  let state := stateAfter {} steps
  let output := banner ++ steps.flatMap Step.output
  let events := steps.flatMap Step.events
  match errorOf steps with
  | some e => ⟨output, state, events, some e⟩
  | none =>
    ⟨output ++ state.deferred.map DeferredChange.statement, state,
      events ++ (if state.deferred = [] then [] else [.changesAppended state.deferred.length]),
      none⟩

/-- The text of the lines written, each ended by LF. -/
def Conversion.text (t : Conversion) : Text := t.output.flatMap (· ++ [.lineFeed])

/-- The conversion of a text, which is cut into lines after each LF. -/
def convertText (cfg : Config) (dump : Text) : Conversion := convert cfg dump.lines

/-! ## Runs, step by step -/

theorem runOnto_eq (cfg : Config) (done : List Step) (st : State) (lines : List (Text × Text)) :
    runOnto cfg done st lines = done.reverse ++ run cfg st lines := by
  simp only [run]
  induction lines generalizing done st with
  | nil => simp [runOnto]
  | cons pair rest ih =>
    simp only [runOnto]
    split
    · rw [ih, ih [step cfg st pair.1 pair.2]]
      simp
    · simp

@[simp] theorem run_nil (cfg : Config) (st : State) : run cfg st [] = [] := rfl

/-- A run is its first step and, unless that fails, the run from the state after it. -/
theorem run_cons (cfg : Config) (st : State) (line next : Text) (rest : List (Text × Text)) :
    run cfg st ((line, next) :: rest) =
      step cfg st line next :: match (step cfg st line next).result with
        | .ok _ => run cfg (step cfg st line next).state rest
        | .error _ => [] := by
  rw [run, runOnto]
  split
  · rw [runOnto_eq]
    rfl
  · rfl

end DumpDialect
