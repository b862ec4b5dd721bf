import DumpDialect.Proofs.Conversion.OneLine
import DumpDialect.Proofs.Text.Pieces

/-!
# Pieces in, lines out

A dump comes as a text and is written as one. It is cut at its LFs, each piece is handled with a
look at the piece behind it, and each line that is written is ended by an LF. Neither side loses,
merges or doubles anything: the steps of a conversion are those over the pieces, and what is read
back from the text that is written are the lines.

- `withLookahead_lines`: the pieces of a dump, as they are handled.
- `prefix_visits`, `map_visits_or_error`: the steps of a run, over the lines that it is given.
- `dump_is_framed`: both sides.
-/

namespace DumpDialect

variable {cfg : Config}

/-! ## What is read -/

/-- Each piece without the line ends behind it, and the piece behind it in the same form; behind the
last piece is the empty text. -/
def paired (pieces : List Text) : List (Text × Text) :=
  pieces.mapIdx fun i piece =>
    (piece.withoutLineEnd, (pieces[i + 1]?.map Text.withoutLineEnd).getD [])

theorem paired_cons (piece : Text) (more : List Text) :
    paired (piece :: more) =
      (piece.withoutLineEnd, (more.head?.map Text.withoutLineEnd).getD []) :: paired more := by
  rw [paired, List.mapIdx_cons, List.head?_eq_getElem?]
  rfl

/-- The lines of a dump are handled in pairs of its pieces. -/
theorem withLookahead_lines (dump : Text) : withLookahead dump.lines = paired dump.pieces := by
  have hbare : dump.lines.map Text.withoutLineEnd = dump.pieces.map Text.withoutLineEnd :=
    dump.bareLines_eq_map_pieces
  rw [withLookahead, hbare]
  induction dump.pieces with
  | nil => rfl
  | cons piece more ih =>
    rw [paired_cons, ← ih]
    cases more <;> rfl

theorem isOneLine_of_mem_paired {pieces : List Text} (h : ∀ p ∈ pieces, p.IsOneLine)
    {pair : Text × Text} (hpair : pair ∈ paired pieces) : pair.1.IsOneLine := by
  obtain ⟨i, hi, rfl⟩ := List.mem_mapIdx.mp hpair
  refine (h _ (List.getElem_mem hi)).of_subset fun s hs => ?_
  rw [Text.withoutLineEnd, Text.dropEndWhile, List.mem_reverse] at hs
  exact List.mem_reverse.mp ((List.dropWhile_sublist _).subset hs)

/-! ## The steps -/

/-- The visits of a run are to the lines that it is given, in their order. -/
theorem prefix_visits [Quoting] (st : State) (lines : List (Text × Text)) :
    (visits cfg st lines).map (fun v => (v.line, v.next)) <+: lines := by
  induction lines generalizing st with
  | nil => exact List.prefix_refl []
  | cons pair rest ih =>
    obtain ⟨line, next⟩ := pair
    rw [visits_cons, List.map_cons, List.prefix_cons_inj]
    split
    · exact ih _
    · exact List.nil_prefix

/-- A run comes to all lines, unless its last step fails. -/
theorem map_visits_or_error [Quoting] (st : State) (lines : List (Text × Text)) :
    (visits cfg st lines).map (fun v => (v.line, v.next)) = lines ∨
      errorOf (run cfg st lines) ≠ none ∧
        ∃ v ∈ (visits cfg st lines).getLast?, (v.step cfg).error? ≠ none := by
  cases herror : errorOf (run cfg st lines) with
  | none =>
    refine .inl ((prefix_visits st lines).eq_of_length ?_)
    rw [List.length_map, ← length_run herror, ← map_step_visits, List.length_map]
  | some e =>
    refine .inr ⟨Option.some_ne_none e, ?_⟩
    rw [errorOf, ← map_step_visits, List.getLast?_map] at herror
    obtain ⟨s, hs, he⟩ := Option.bind_eq_some_iff.mp herror
    obtain ⟨v, hv, rfl⟩ := Option.map_eq_some_iff.mp hs
    exact ⟨v, hv, by simp [he]⟩

/-! ## Whole dumps -/

/-- **A dump is framed by its line feeds.** A dump is cut into pieces without LF, each of which ends
with LF there; the last may end with the dump, if it is not empty. The conversion makes one step for
each piece, in their order, with the CR and LF symbols behind it gone and with the piece behind it
in the same form, the last with the empty text; only a step that fails ends it before the last
piece. What is written is the banner, what the steps write and, if none failed, the changes that
waited. No line of it holds an LF, so the fields of the text that is written are these lines and an
empty field. -/
theorem dump_is_framed [Quoting] (cfg : Config) (dump : Text) :
    let pieces := dump.pieces
    let history := visits cfg {} (withLookahead dump.lines)
    let c := convertText cfg dump
    (∀ piece ∈ pieces, Symbol.lineFeed ∉ piece) ∧
      (dump = pieces.flatMap (· ++ [.lineFeed]) ∨
        ∃ front last, last ≠ [] ∧ pieces = front ++ [last] ∧
          dump = front.flatMap (· ++ [.lineFeed]) ++ last) ∧
      run cfg {} (withLookahead dump.lines) = history.map (Visit.step cfg) ∧
      history.map (fun v => (v.line, v.next)) <+: paired pieces ∧
      (history.map (fun v => (v.line, v.next)) = paired pieces ∨
        c.error? ≠ none ∧ ∃ v ∈ history.getLast?, (v.step cfg).error? ≠ none) ∧
      c.output = banner ++ history.flatMap (fun v => (v.step cfg).output) ++
        (if c.error? = none then (deferredIn cfg history).map DeferredChange.statement else []) ∧
      (∀ line ∈ c.output, Symbol.lineFeed ∉ line) ∧
      c.text.fields .lineFeed = c.output ++ [[]] := by
  intro pieces history c
  have hpieces : ∀ piece ∈ pieces, Symbol.lineFeed ∉ piece :=
    fun piece hpiece => Text.lineFeed_not_mem_of_mem_pieces hpiece
  have hread : withLookahead dump.lines = paired pieces := withLookahead_lines dump
  have hwritten : ∀ line ∈ c.output, Symbol.lineFeed ∉ line := fun line hline =>
    isOneLine_of_mem_convert cfg (fun pair hpair => isOneLine_of_mem_paired hpieces (hread ▸ hpair))
      hline
  have hall : history.map (fun v => (v.line, v.next)) = paired pieces ∨
      c.error? ≠ none ∧ ∃ v ∈ history.getLast?, (v.step cfg).error? ≠ none := by
    rw [← hread, show c.error? = _ from error?_convert cfg dump.lines]
    exact map_visits_or_error {} _
  exact ⟨hpieces, dump.pieces_cases, (map_step_visits {} _).symm, hread ▸ prefix_visits {} _, hall,
    output_convert cfg dump.lines, hwritten, Text.fields_flatMap_concat hwritten⟩

/-- An empty piece, a piece with two CR at its end, and a piece without LF. -/
example : paired (Text.pieces "\na\r\r\nb") =
    ([([], "a"), ("a", "b"), ("b", [])] : List (Text × Text)) := by
  decide

end DumpDialect
