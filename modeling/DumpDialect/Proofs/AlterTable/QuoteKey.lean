import DumpDialect.AlterTable
import DumpDialect.Proofs.Pattern.Derived
import DumpDialect.Proofs.Pattern.Preferred
import DumpDialect.Proofs.Text.Splitting

/-!
# The columns of a key

The list of columns of a key reaches to the first closing parenthesis, and a semicolon has to follow
it at once. Then the list is quoted and what stands behind the semicolon is dropped; any other line
stays as it is.

- `KeyHead`: what stands in front of the columns.
- `KeyHead.quoteKey_append`, `KeyHead.quoteKey_eq_self`: a line that pg_dump indents, in both cases.
- `KeyHead.quoteKey_indented`, `KeyHead.quoteKey_cases`: any line.
-/

namespace DumpDialect.AlterTable

open Pattern

/-- The kinds of keys whose columns are quoted. -/
inductive KeyKind where
  | unique
  | primary
deriving DecidableEq

/-- The keyword of the kind. -/
def KeyKind.text : KeyKind → Text
  | unique => "UNIQUE"
  | primary => "PRIMARY KEY"

/-- The first letter tells the kinds apart. -/
theorem KeyKind.eq_of_text_append {k k' : KeyKind} {t t' : Text}
    (h : k.text ++ t = k'.text ++ t') : k = k' := by
  have hletter := congrArg List.head? h
  cases k <;> cases k' <;> simp_all [text, Text.ofString]

/-- What stands in front of the columns of a key that is added to a table: its name and its kind. -/
structure KeyHead where
  name : Text
  kind : KeyKind
  name_ne_nil : name ≠ []
  isInk : ∀ s ∈ name, s.isInk = true

namespace KeyHead

variable (head : KeyHead)

/-- The line up to the columns. -/
def front : Text :=
  "    " ++ ("ADD CONSTRAINT " ++ (head.name ++ (" " ++ (head.kind.text ++ " ("))))

/-- The clause that adds the key, up to the columns: the line without its indentation. -/
def clause : Text := "ADD CONSTRAINT " ++ (head.name ++ (" " ++ (head.kind.text ++ " (")))

variable {head} {indent list : Text}

theorem indent_blank : ∀ s ∈ Text.ofString "    ", s.isBlank = true := by decide

/-- What is found where a semicolon follows the parenthesis behind the list at once. -/
private theorem keyConstraint_prefers (hindent : ∀ s ∈ indent, s.isBlank = true)
    (hlist : .char ')' ∉ list) (rest : Text) :
    keyConstraint.Prefers none (indent ++ (head.clause ++ (list ++ ");"))) rest
      [(1, indent), (2, head.name), (3, head.kind.text), (4, list)] := by
  -- One preferred run for each part of the pattern; the first symbol of the next part stops it.
  have hclause : head.clause ++ (list ++ Text.ofString ");") = "ADD CONSTRAINT " ++
      (head.name ++ (" " ++ (head.kind.text ++ (" (" ++ (list ++ ");"))))) := by
    simp [clause]
  have hblanks {t after : Text} :
      (group 1 blanks).Prefers none indent ("ADD CONSTRAINT " ++ t ++ after) [(1, indent)] :=
    (prefers_run hindent (by simp [Text.ofString]; decide)).group 1
  have hname {prev : Option Symbol} {t after : Text} :
      (group 2 ink).Prefers prev head.name (" " ++ t ++ after) [(2, head.name)] :=
    (prefers_someOf head.name_ne_nil head.isInk (by simp [Text.ofString]; decide)).group 2
  have hkind {prev : Option Symbol} {t after : Text} :
      (group 3 (anyOf ["UNIQUE", "PRIMARY KEY"])).Prefers prev head.kind.text (" (" ++ t ++ after)
        [(3, head.kind.text)] := by
    cases head.kind with
    | unique => exact (prefers_word.alt_left _).group 3
    -- `UNIQUE` is tried first and fails at its first letter.
    | primary =>
      refine (Prefers.alt_right ?_ prefers_word).group 3
      simp [outcomes, Text.ofString, Cursor.follow]
  have hcolumns {prev : Option Symbol} {after : Text} :
      (group 4 (Pattern.run (Symbol.isNotIn ")"))).Prefers prev list (");" ++ after)
        [(4, list)] := by
    refine (prefers_run (fun s hs => ?_) (by simp [Text.ofString]; decide)).group 4
    have hs' : s ≠ .char ')' := fun heq => hlist (heq ▸ hs)
    simpa [Symbol.isNotIn, Text.ofString] using hs'
  rw [hclause]
  refine hblanks.inOrder_cons (prefers_word.inOrder_cons ?_)
  refine hname.inOrder_cons (prefers_word.inOrder_cons ?_)
  refine hkind.inOrder_cons (prefers_word.inOrder_cons ?_)
  exact hcolumns.inOrder_cons prefers_word

/-- Behind any indentation the list is quoted, and what stands behind the semicolon is dropped. -/
theorem quoteKey_indented [Quoting] (hindent : ∀ s ∈ indent, s.isBlank = true)
    (hlist : .char ')' ∉ list) (rest : Text) :
    quoteKey (indent ++ (head.clause ++ (list ++ .char ')' :: .char ';' :: rest))) =
      indent ++ (head.clause ++ (ColumnList.quote list ++ [.char ')', .char ';'])) := by
  have hline : indent ++ (head.clause ++ (list ++ .char ')' :: .char ';' :: rest)) =
      indent ++ (head.clause ++ (list ++ Text.ofString ");")) ++ rest := by
    simp [Text.ofString]
  rw [quoteKey, hline, atStart?, (keyConstraint_prefers hindent hlist rest).at?]
  have hgroups : ∀ n ∈ [1, 2, 3], (n == 4) = false := by decide
  simp only [Match.group, Match.group?, List.lookup_cons, List.lookup_nil]
  simp [clause, Text.ofString]

theorem front_eq : head.front = "    " ++ head.clause := rfl

/-- The list is quoted, and what stands behind the semicolon is dropped. -/
theorem quoteKey_append [Quoting] (hlist : .char ')' ∉ list) (rest : Text) :
    quoteKey (head.front ++ (list ++ .char ')' :: .char ';' :: rest)) =
      head.front ++ (ColumnList.quote list ++ [.char ')', .char ';']) := by
  rw [front_eq, List.append_assoc, quoteKey_indented indent_blank hlist, List.append_assoc]

/-- What is found is a clause that adds a key, with its indentation and its columns. -/
private theorem exists_of_matches {w rest : Text} {groups : List (Nat × Text)}
    (hm : keyConstraint.Matches none w rest groups) :
    ∃ (indent : Text) (head : KeyHead) (list : Text), (∀ s ∈ indent, s.isBlank = true) ∧
      .char ')' ∉ list ∧ w = indent ++ (head.clause ++ (list ++ Text.ofString ");")) := by
  rw [keyConstraint] at hm
  obtain ⟨indent, _, _, _, rfl, -, ⟨_, -, hindent, -⟩, hm⟩ := matches_inOrder_cons.mp hm
  obtain ⟨_, _, _, _, rfl, -, ⟨rfl, -⟩, hm⟩ := matches_inOrder_cons.mp hm
  obtain ⟨name, _, _, _, rfl, -, ⟨_, -, hname⟩, hm⟩ := matches_inOrder_cons.mp hm
  obtain ⟨_, _, _, _, rfl, -, ⟨rfl, -⟩, hm⟩ := matches_inOrder_cons.mp hm
  obtain ⟨kind, _, _, _, rfl, -, ⟨_, -, hkind⟩, hm⟩ := matches_inOrder_cons.mp hm
  obtain ⟨_, _, _, _, rfl, -, ⟨rfl, -⟩, hm⟩ := matches_inOrder_cons.mp hm
  obtain ⟨list, _, _, _, rfl, -, ⟨_, -, hlist, -⟩, hm⟩ := matches_inOrder_cons.mp hm
  obtain ⟨rfl, -⟩ := hm
  obtain ⟨hne, hink, -⟩ := matches_someOf.mp hname
  have hkinds : ∃ k : KeyKind, kind = k.text := by
    rcases hkind with ⟨rfl, -⟩ | ⟨rfl, -⟩
    · exact ⟨.unique, rfl⟩
    · exact ⟨.primary, rfl⟩
  obtain ⟨k, rfl⟩ := hkinds
  refine ⟨indent, ⟨name, k, hne, hink⟩, list, hindent, ?_, by simp [clause]⟩
  exact fun hmem => absurd (hlist _ hmem) (by decide)

/-- What is found in the line begins with the front. -/
private theorem exists_list {t w rest : Text} {groups : List (Nat × Text)}
    (hsplit : head.front ++ t = w ++ rest) (hm : keyConstraint.Matches none w rest groups) :
    ∃ list, .char ')' ∉ list ∧ t = list ++ .char ')' :: .char ';' :: rest := by
  obtain ⟨indent, head', list, hindent, hlist, rfl⟩ := exists_of_matches hm
  simp only [front, clause, List.append_assoc] at hsplit
  have hkeyword (t : Text) : ∀ s ∈ ("ADD CONSTRAINT " ++ t).head?, s.isBlank = false :=
    Text.forall_head?_append (by decide) t
  have hspace (t : Text) : ∀ s ∈ (" " ++ t).head?, s.isInk = false :=
    Text.forall_head?_append (by decide) t
  obtain ⟨-, hbehind⟩ := Text.eq_of_runs_eq indent_blank hindent (hkeyword _) (hkeyword _) hsplit
  obtain ⟨-, hbehind⟩ := Text.eq_of_runs_eq head.isInk head'.isInk (hspace _) (hspace _)
    (List.append_cancel_left hbehind)
  have hwords := List.append_cancel_left hbehind
  rw [KeyKind.eq_of_text_append hwords] at hwords
  have hend := List.append_cancel_left (List.append_cancel_left hwords)
  have hclose : Text.ofString ");" = [.char ')', .char ';'] := by decide
  refine ⟨list, hlist, ?_⟩
  rw [hend, hclose]
  simp

/-- A line stays as it is, or it adds a key whose list is quoted. -/
theorem quoteKey_cases [Quoting] (line : Text) :
    quoteKey line = line ∨
      ∃ (indent : Text) (head : KeyHead) (list rest : Text),
        (∀ s ∈ indent, s.isBlank = true) ∧ .char ')' ∉ list ∧
          line = indent ++ (head.clause ++ (list ++ .char ')' :: .char ';' :: rest)) := by
  cases hfound : keyConstraint.atStart? line with
  | none => exact .inl (by rw [quoteKey, hfound])
  | some m =>
    obtain ⟨hline, hm⟩ := matches_of_at? hfound
    obtain ⟨indent, head, list, hindent, hlist, hw⟩ := exists_of_matches hm
    refine .inr ⟨indent, head, list, m.after, hindent, hlist, ?_⟩
    have hclose : Text.ofString ");" = [.char ')', .char ';'] := by decide
    rw [hw, hclose] at hline
    simpa using hline

/-- A line in which the semicolon does not follow the list at once stays as it is. -/
theorem quoteKey_eq_self [Quoting] {t : Text}
    (h : ∀ list rest : Text, .char ')' ∉ list → t ≠ list ++ .char ')' :: .char ';' :: rest) :
    quoteKey (head.front ++ t) = head.front ++ t := by
  have hnone : keyConstraint.atStart? (head.front ++ t) = none := by
    refine at?_eq_none_iff.mpr fun w rest groups hsplit hm => ?_
    obtain ⟨list, hlist, ht⟩ := exists_list hsplit hm
    exact h list rest hlist ht
  rw [quoteKey, hnone]

end KeyHead

end DumpDialect.AlterTable
