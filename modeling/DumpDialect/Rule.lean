import DumpDialect.Pattern.Search

/-!
# Replacement rules

A rule replaces the matches of a pattern, and a list of rules runs from left to right over a text,
each rule on what the rules before it left (`applyRules`).
-/

namespace DumpDialect

/-- Which matches of its pattern a rule replaces. -/
inductive Scope where
  | leftmost
  | every
deriving DecidableEq

/-- A rule: what is looked for, what is written in its place, and how often. -/
structure Rule where
  name : String
  pattern : Pattern
  replacement : List Piece
  scope : Scope

namespace Rule

/-- The rule that replaces the leftmost match. -/
def once (name : String) (pattern : Pattern) (replacement : List Piece) : Rule :=
  ⟨name, pattern, replacement, .leftmost⟩

/-- The rule that replaces every match. -/
def throughout (name : String) (pattern : Pattern) (replacement : List Piece) : Rule :=
  ⟨name, pattern, replacement, .every⟩

/-- The text that the rule makes of a text. -/
def apply (r : Rule) (t : Text) : Text :=
  match r.scope with
  | .leftmost => r.pattern.replaceFirst r.replacement t
  | .every => r.pattern.replaceAll r.replacement t

end Rule

/-- The text that the rules make of a text, one after the other. -/
def applyRules (rules : List Rule) (t : Text) : Text := rules.foldl (fun t r => r.apply t) t

@[simp] theorem applyRules_nil (t : Text) : applyRules [] t = t := rfl

@[simp] theorem applyRules_cons (r : Rule) (rules : List Rule) (t : Text) :
    applyRules (r :: rules) t = applyRules rules (r.apply t) := rfl

theorem applyRules_append (rules more : List Rule) (t : Text) :
    applyRules (rules ++ more) t = applyRules more (applyRules rules t) := by
  simp [applyRules]

end DumpDialect
