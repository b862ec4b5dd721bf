import DumpDialect.Text.Basic

/-!
# Lines

A text is cut into lines after each LF. Input from a file or a terminal may end its lines with CR
or CR LF as well, and is put into the form with LF alone first (`Text.unifyLineEnds`). The reader
of a dump sees each line without its ending and together with the line after it
(`withLookahead`).
-/

namespace DumpDialect

/-- Whether the symbol is CR or LF. -/
def Symbol.isLineEnd (s : Symbol) : Bool := s = .lineFeed || s = .carriageReturn

namespace Text

/-- The lines of a text whose first symbol is `s`, given the lines of the text after it. -/
def lineStart (s : Symbol) (after : List Text) : List Text :=
  if s = .lineFeed then [s] :: after
  else match after with
    | [] => [[s]]
    | line :: more => (s :: line) :: more

/-- The lines of a text, each with its LF; the last one may lack it. -/
def lines (t : Text) : List Text := t.foldr lineStart []

/-- What is written for a symbol, given the symbol after it: nothing for a CR in front of an LF, an
LF for any other CR, and every other symbol as it is. -/
def unifiedLineEnd (s : Symbol) (next : Option Symbol) : Text :=
  if s = .carriageReturn then if next = some .lineFeed then [] else [.lineFeed] else [s]

/-- The text with LF at the end of each line, in place of CR LF or of CR alone. -/
def unifyLineEnds (t : Text) : Text :=
  (t.zip ((t.drop 1).map some ++ [none])).flatMap fun (s, next) => unifiedLineEnd s next

/-- The line without its ending: without all the CR and LF symbols at its end. -/
def withoutLineEnd (line : Text) : Text := line.dropEndWhile Symbol.isLineEnd

@[simp] theorem lines_nil : lines [] = [] := rfl

@[simp] theorem lines_cons (s : Symbol) (rest : Text) :
    lines (s :: rest) = lineStart s (lines rest) := rfl

theorem flatten_lineStart (s : Symbol) (after : List Text) :
    (lineStart s after).flatten = s :: after.flatten := by
  unfold lineStart
  split
  · rfl
  · cases after <;> rfl

/-- No symbol is lost when a text is cut into lines. -/
theorem flatten_lines (t : Text) : t.lines.flatten = t := by
  induction t with
  | nil => rfl
  | cons s rest ih => rw [lines_cons, flatten_lineStart, ih]

@[simp] theorem unifyLineEnds_nil : unifyLineEnds [] = [] := rfl

@[simp] theorem unifyLineEnds_cons (s : Symbol) (rest : Text) :
    unifyLineEnds (s :: rest) = unifiedLineEnd s rest.head? ++ unifyLineEnds rest := by
  cases rest <;> simp [unifyLineEnds]

end Text

/-- Each line, without its ending, with the line after it; the last line with the empty text. -/
def withLookahead (lines : List Text) : List (Text × Text) :=
  let bare := lines.map Text.withoutLineEnd
  bare.zip (bare.drop 1 ++ [[]])

/-- No line is lost, merged or doubled. -/
theorem length_withLookahead (lines : List Text) : (withLookahead lines).length = lines.length := by
  cases lines <;> simp [withLookahead]

/-- The lines come in their order, without their endings. -/
theorem map_fst_withLookahead (lines : List Text) :
    (withLookahead lines).map Prod.fst = lines.map Text.withoutLineEnd := by
  apply List.map_fst_zip
  cases lines <;> simp

end DumpDialect
