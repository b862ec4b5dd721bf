import DumpDialect.Text.Blank

/-!
# Identifiers

PostgreSQL writes an identifier bare, or between double quotes with each double quote in it
doubled. MySQL's quotes are backticks, and any name may stand between them. The package `sqlglot`
puts a name between them; its code is not part of this library, so `Quoting` stands for it and says
what is assumed of it. All that quotes a name takes a `Quoting`.

- `Quoting.plain`, `Quoting.doubled`: the assumptions, and `Quoting.inBackticks_eq` what they give.
- `Identifier.quote` puts an identifier into backticks; one that stands in backticks already is
  left alone.
- `ColumnList.names` and `ColumnList.quote` do so for the names of a list with commas.
- `undouble_double` says that a name is read back from between its quotes.
-/

namespace DumpDialect

/-- The symbols with each `quote` doubled. -/
def doubleQuotes (quote : Symbol) (t : Text) : Text :=
  t.flatMap fun s => if s = quote then [quote, quote] else [s]

/-- The symbols with each pair of neighbours `quote quote` replaced by one, from left to right. -/
def undoubleQuotes (quote : Symbol) : Text → Text
  | [] => []
  | [s] => [s]
  | s :: t :: rest =>
    if s = quote ∧ t = quote then quote :: undoubleQuotes quote rest
    else s :: undoubleQuotes quote (t :: rest)

/-- Whether the text has a `quote` at each end, and not the same one. -/
def isBetween (quote : Symbol) (t : Text) : Bool :=
  2 ≤ t.length && t.head? = some quote && t.getLast? = some quote

/-- The text without its first and its last symbol. -/
def withoutEnds (t : Text) : Text := (t.drop 1).dropLast

theorem doubleQuotes_cons (quote s : Symbol) (t : Text) :
    doubleQuotes quote (s :: t) =
      (if s = quote then [quote, quote] else [s]) ++ doubleQuotes quote t := rfl

theorem doubleQuotes_append (quote : Symbol) (t u : Text) :
    doubleQuotes quote (t ++ u) = doubleQuotes quote t ++ doubleQuotes quote u :=
  List.flatMap_append

theorem doubleQuotes_of_not_mem {quote : Symbol} {t : Text} (h : quote ∉ t) :
    doubleQuotes quote t = t := by
  induction t with
  | nil => rfl
  | cons s t ih =>
    obtain ⟨hs, ht⟩ := not_or.mp (mt List.mem_cons.mpr h)
    rw [doubleQuotes_cons, if_neg (Ne.symm hs), ih ht, List.singleton_append]

@[simp] theorem undouble_double (quote : Symbol) (t : Text) :
    undoubleQuotes quote (doubleQuotes quote t) = t := by
  induction t with
  | nil => rfl
  | cons s rest ih =>
    by_cases h : s = quote
    · subst h
      simp only [doubleQuotes, List.flatMap_cons, if_true] at ih ⊢
      simp [undoubleQuotes, ih]
    · simp only [doubleQuotes, List.flatMap_cons, if_neg h] at ih ⊢
      generalize rest.flatMap (fun s => if s = quote then [quote, quote] else [s]) = d at ih ⊢
      cases d <;> simp_all [undoubleQuotes]

/-! ## Quotes -/

/-- MySQL's quote. -/
abbrev Identifier.backtick : Symbol := .char '\x60'

/-- PostgreSQL's quote. -/
abbrev Identifier.doubleQuote : Symbol := .char '\x22'

open Identifier (backtick)

/-- The package that writes quoted identifiers in the dialect of MySQL, and what is assumed of
it. -/
class Quoting where
  /-- The name as a quoted identifier. -/
  inBackticks : Text → Text
  /-- A name without backticks is put between two of them as it is. -/
  plain (name : Text) : backtick ∉ name → inBackticks name = backtick :: name ++ [backtick]
  /-- A backtick in a name is written twice. -/
  doubled (front back : Text) : inBackticks (front ++ backtick :: back) =
    (inBackticks front).dropLast ++ [backtick, backtick] ++ (inBackticks back).tail

variable [Quoting]

/-- A quoted identifier is the name between backticks, with each backtick in it doubled. -/
theorem Quoting.inBackticks_eq (name : Text) :
    inBackticks name = backtick :: doubleQuotes backtick name ++ [backtick] := by
  induction hlength : name.length using Nat.strongRecOn generalizing name with
  | ind n ih =>
    by_cases hmem : backtick ∈ name
    · -- The first backtick leaves a plain name in front of it and a shorter name behind it.
      obtain ⟨front, back, rfl, hfront⟩ := List.eq_append_cons_of_mem hmem
      have hshorter : back.length < n := by
        rw [← hlength, List.length_append, List.length_cons]
        omega
      rw [doubled, plain front hfront, ih _ hshorter back rfl, List.dropLast_concat,
        doubleQuotes_append, doubleQuotes_cons, if_pos rfl, doubleQuotes_of_not_mem hfront]
      simp
    · rw [plain name hmem, doubleQuotes_of_not_mem hmem]

namespace Identifier

/-- The identifier as MySQL reads it, whether it was bare, in double quotes or in backticks. -/
def quote (identifier : Text) : Text :=
  if isBetween backtick identifier then identifier
  else if isBetween doubleQuote identifier then
    Quoting.inBackticks (undoubleQuotes doubleQuote (withoutEnds identifier))
  else Quoting.inBackticks identifier

end Identifier

namespace ColumnList

/-- The identifiers of a list with commas, without the blanks around them. -/
def names (columns : Text) : List Text :=
  ((columns.fields ',').map Text.trim).filter fun name => !name.isEmpty

/-- The list with each identifier quoted. -/
def quote (columns : Text) : Text := Text.joined "," ((names columns).map Identifier.quote)

end ColumnList

end DumpDialect
