import DumpDialect.CreateTable.Check
import DumpDialect.Proofs.CreateTable.Parentheses
import DumpDialect.Proofs.CreateTable.Reading
import DumpDialect.Proofs.Pattern.Leading

/-!
# Casts in expressions

Casts are removed in two steps. As long as there is one, a cast of an expression in parentheses that
holds no parentheses is dropped together with the parentheses; then all other casts are dropped, and
the parentheses around what was cast stay.

- `parenthesizedCast_enclosed`, `parenthesizedCast_balanced`: parentheses that no cast begins with.
- `parenthesizedCast_cast`, `bareCast_cast`: casts that are dropped.
- `Phrase.parenthesizedCast_text`, `Phrase.bareCast_text`: a round, and the last step, over a
  phrase.
- `Phrase.uncast_plain_peel`, `Phrase.plain_bare`: what is left of the phrase.
-/

namespace DumpDialect.CheckConstraint

open Pattern DumpDialect.TypeName

variable {t y rest : Text}

/-! ## Where a cast begins -/

theorem parenthesizedCast_leading : parenthesizedCast.pattern.leading? = some (.char '(') := by
  decide

theorem bareCast_leading : bareCast.pattern.leading? = some (.char ':') := by
  decide

/-- A front without an opening parenthesis is passed over. -/
theorem parenthesizedCast_append (ht : .char '(' ∉ t) (rest : Text) :
    parenthesizedCast.apply (t ++ rest) = t ++ parenthesizedCast.apply rest :=
  replaceAll_append parenthesizedCast_leading ht _ rest

/-- A front without a colon is passed over. -/
theorem bareCast_append (ht : .char ':' ∉ t) (rest : Text) :
    bareCast.apply (t ++ rest) = t ++ bareCast.apply rest :=
  replaceAll_append bareCast_leading ht _ rest

theorem parenthesizedCast_eq_self (ht : .char '(' ∉ t) : parenthesizedCast.apply t = t := by
  have happly := parenthesizedCast_append ht []
  rw [List.append_nil] at happly
  exact happly.trans (List.append_nil t)

theorem bareCast_eq_self (ht : .char ':' ∉ t) : bareCast.apply t = t := by
  have happly := bareCast_append ht []
  rw [List.append_nil] at happly
  exact happly.trans (List.append_nil t)

/-- Where a cast of an expression in parentheses begins, the first parenthesis that follows closes
it, and the sign of the cast stands behind that. -/
theorem at?_parenthesizedCast_eq_none {prev : Option Symbol}
    (h : ∀ y tail, Text.IsFlat y →
      t ≠ .char '(' :: (y ++ .char ')' :: .char ':' :: .char ':' :: tail)) :
    parenthesizedCast.pattern.at? ⟨prev, t⟩ = none := by
  refine at?_eq_none_iff.mpr fun w rest groups ht hm => ?_
  simp only [parenthesizedCast, Rule.throughout, TypeName.cast, matches_inOrder_cons] at hm
  obtain ⟨_, _, _, _, rfl, rfl, ⟨rfl, rfl⟩, y, _, _, _, rfl, rfl, ⟨_, rfl, hy⟩, _, _, _, _, rfl,
    rfl, ⟨rfl, rfl⟩, _, _, _, _, rfl, rfl, ⟨v, tail, _, _, rfl, rfl, ⟨rfl, rfl⟩, -⟩, rfl, rfl⟩ := hm
  obtain ⟨-, hy, -⟩ := matches_someOf.mp hy
  have hflat : y.IsFlat :=
    ⟨fun hs => absurd (hy _ hs) (by decide), fun hs => absurd (hy _ hs) (by decide)⟩
  exact h y (tail ++ rest) hflat (ht.trans (by simp; rfl))

/-- A parenthesis around a balanced text does not begin a cast, unless that text holds no
parentheses and the sign of a cast stands behind it. -/
theorem parenthesizedCast_enclosed (ht : t.Balanced)
    (h : ¬ t.IsFlat ∨ rest.head? ≠ some (.char ':')) :
    parenthesizedCast.apply (.char '(' :: (t ++ .char ')' :: rest)) =
      .char '(' :: parenthesizedCast.apply (t ++ .char ')' :: rest) := by
  refine replaceAll_cons_of_none parenthesizedCast_leading _
    (at?_parenthesizedCast_eq_none fun y tail hy heq => ?_)
  obtain ⟨rfl, rfl⟩ := ht.eq_of_closed hy (List.cons.inj heq).2
  exact h.elim (· hy) (· rfl)

/-- No cast of an expression in parentheses begins in a balanced text without colons. -/
theorem parenthesizedCast_balanced (ht : t.Balanced) (hcolon : .char ':' ∉ t)
    (h : rest.head? ≠ some (.char ':')) :
    parenthesizedCast.apply (t ++ rest) = t ++ parenthesizedCast.apply rest := by
  refine replaceAll_append_of_none parenthesizedCast_leading _ fun gone here hsplit hne =>
    at?_parenthesizedCast_eq_none fun y tail hy heq => ?_
  obtain ⟨s, here, rfl⟩ := List.exists_cons_of_ne_nil hne
  obtain ⟨rfl, hinner⟩ := List.cons.inj heq
  have hclose : .char ')' ∈ here := Text.Balanced.closing_mem (hsplit ▸ ht)
  rcases List.append_eq_append_iff.mp hinner with ⟨between, rfl, -⟩ | ⟨between, rfl, hbehind⟩
  · exact hy.2 (List.mem_append_left between hclose)
  · rcases List.append_eq_cons_iff.mp hbehind.symm with ⟨rfl, -⟩ | ⟨between, rfl, hsign⟩
    · exact hy.2 (by simpa using hclose)
    · rcases List.append_eq_cons_iff.mp hsign.symm with ⟨-, rfl⟩ | ⟨between, rfl, -⟩
      · exact h rfl
      · exact hcolon (by simp [hsplit])

/-! ## Casts that are dropped -/

/-- A cast of an expression that holds no parentheses is dropped, together with the parentheses
around the expression. -/
theorem parenthesizedCast_cast (T : CastType) (hne : t ≠ []) (ht : t.IsFlat) (hrest : GoesOn rest) :
    parenthesizedCast.apply
        (.char '(' :: (t ++ .char ')' :: (Text.ofString "::" ++ (T.text ++ rest)))) =
      t ++ parenthesizedCast.apply rest := by
  have hclosed (p : Option Symbol) : (inOrder [word ")", TypeName.cast]).Prefers p
      (Text.ofString ")" ++ ("::" ++ T.text)) rest [] :=
    prefers_word.inOrder_cons (T.prefers hrest).inOrder_singleton
  -- The inner run stops at the first parenthesis, which is the one that closes.
  have hinner (p : Option Symbol) :
      (group 1 (someOf (Symbol.isNotIn "()"))).Prefers p t
        ((Text.ofString ")" ++ ("::" ++ T.text)) ++ rest) [(1, t)] := by
    refine (prefers_someOf hne (fun s hs => ?_) (by rintro _ ⟨⟩; decide)).group 1
    have hother : s ∉ Text.ofString "()" := fun hmem => by
      obtain rfl | rfl : s = .char '(' ∨ s = .char ')' := by simpa [Text.ofString] using hmem
      · exact ht.1 hs
      · exact ht.2 hs
    simpa [Symbol.isNotIn] using hother
  have hprefers : parenthesizedCast.pattern.Prefers none
      (Text.ofString "(" ++ (t ++ (Text.ofString ")" ++ ("::" ++ T.text)))) rest [(1, t)] :=
    prefers_word.inOrder_cons ((hinner _).inOrder_cons (hclosed _))
  have happly :=
    replaceAll_of_prefers parenthesizedCast_leading hprefers parenthesizedCast.replacement
  have hpar : Text.ofString "(" = [.char '('] ∧ Text.ofString ")" = [.char ')'] := by decide
  have hexpand : (Match.mk [] (Text.ofString "(" ++ (t ++ (Text.ofString ")" ++ ("::" ++ T.text))))
      rest [(1, t)]).expand parenthesizedCast.replacement = t ++ [] := rfl
  rw [hexpand] at happly
  simp only [hpar, List.append_assoc, List.cons_append, List.nil_append] at happly
  exact happly

/-- A cast is dropped. -/
theorem bareCast_cast (T : CastType) (hrest : GoesOn rest) :
    bareCast.apply (Text.ofString "::" ++ (T.text ++ rest)) = bareCast.apply rest := by
  have happly := replaceAll_of_prefers bareCast_leading (T.prefers hrest) bareCast.replacement
  rw [List.append_assoc] at happly
  exact happly

/-! ## Rounds -/

namespace Phrase

variable {shape : Shape}

/-- The phrase after one round: the casts of expressions that hold no parentheses are dropped, with
the parentheses around those. -/
def peel : {shape : Shape} → Phrase shape → Phrase shape
  | _, operand a => operand a
  | _, castOperand a T => castOperand a T
  | _, cast e T => if e.text.IsFlat then e else cast e.peel T
  | _, binary op e₁ e₂ => binary op e₁.peel e₂.peel
  | _, call f args => call f args.peel
  | _, parens e => parens e.peel
  | _, one e => one e.peel
  | _, more e args => more e.peel args.peel

/-- The phrase with every cast dropped; the parentheses around what was cast stay. -/
def bare : {shape : Shape} → Phrase shape → Phrase shape
  | _, operand a => operand a
  | _, castOperand a _ => operand a
  | _, cast e _ => parens e.bare
  | _, binary op e₁ e₂ => binary op e₁.bare e₂.bare
  | _, call f args => call f args.bare
  | _, parens e => parens e.bare
  | _, one e => one e.bare
  | _, more e args => more e.bare args.bare

/-- A round drops no more than casts and the parentheses around what was cast. -/
theorem uncast_plain_peel (e : Phrase shape) : e.peel.plain.uncast = e.plain.uncast := by
  induction e with
  | cast e T ih =>
    rw [peel]
    split
    · rfl
    · exact ih
  | operand | castOperand => rfl
  | binary op e₁ e₂ ih₁ ih₂ => simp only [peel, plain, uncast, ih₁, ih₂]
  | call | parens | one => simp only [peel, plain, uncast, *]
  | more e args ihe ihargs => simp only [peel, plain, uncast, ihe, ihargs]

/-- Without its casts a phrase is what it was, up to redundant parentheses. -/
theorem plain_bare (e : Phrase shape) : e.bare.plain = e.plain.uncast := by
  induction e with
  | operand | castOperand => rfl
  | cast e T ih => exact ih
  | binary op e₁ e₂ ih₁ ih₂ => simp only [bare, plain, uncast, ih₁, ih₂]
  | call | parens | one => simp only [bare, plain, uncast, *]
  | more e args ihe ihargs => simp only [bare, plain, uncast, ihe, ihargs]

/-- **One round** over a phrase in front of more text. -/
theorem parenthesizedCast_text (e : Phrase shape) (hrest : GoesOn rest) :
    parenthesizedCast.apply (e.text ++ rest) = e.peel.text ++ parenthesizedCast.apply rest := by
  have hclose (t : Text) : parenthesizedCast.apply (.char ')' :: t) =
      .char ')' :: parenthesizedCast.apply t :=
    parenthesizedCast_append (t := [.char ')']) (by decide) t
  -- By induction on the phrase, with any text behind it: what stands behind a part is the rest of
  -- the whole.
  induction e generalizing rest with
  | operand a => exact parenthesizedCast_append a.isFlat.1 rest
  | castOperand a T =>
    simp only [text, peel, List.append_assoc]
    rw [parenthesizedCast_append a.isFlat.1, parenthesizedCast_append (by decide),
      parenthesizedCast_balanced T.balanced_text T.not_mem_colon hrest.head?_ne]
  | cast e T ih =>
    -- The parentheses go only if nothing inside has its own; else the inner casts go in this round.
    rw [peel]
    split
    · next hflat =>
      simp only [text, List.append_assoc, List.cons_append]
      exact parenthesizedCast_cast T e.ne_nil hflat hrest
    · next hflat =>
      simp only [text, List.append_assoc, List.cons_append]
      rw [parenthesizedCast_enclosed e.balanced_text (.inl hflat), ih (.close _), hclose,
        parenthesizedCast_append (by decide),
        parenthesizedCast_balanced T.balanced_text T.not_mem_colon hrest.head?_ne]
  | binary op e₁ e₂ ih₁ ih₂ =>
    have hopen := parenthesizedCast_enclosed (op.balanced e₁.balanced_text e₂.balanced_text)
      (.inr hrest.head?_ne)
    have hop (t : Text) : parenthesizedCast.apply (.char ' ' :: (op.text ++ .char ' ' :: t)) =
        .char ' ' :: (op.text ++ .char ' ' :: parenthesizedCast.apply t) := by
      have happly := parenthesizedCast_append (t := .char ' ' :: (op.text ++ [.char ' ']))
        (by simp [op.isFlat.1]) t
      simpa using happly
    simp only [text, peel, List.append_assoc, List.cons_append, List.nil_append] at hopen ⊢
    rw [hopen, ih₁ (op.goesOn _), hop, ih₂ (.close _), hclose]
  | call f args ih =>
    simp only [text, peel, List.append_assoc, List.cons_append, List.nil_append]
    rw [parenthesizedCast_append f.isFlat.1,
      parenthesizedCast_enclosed args.balanced_text (.inr hrest.head?_ne), ih (.close _), hclose]
  | parens e ih =>
    simp only [text, peel, List.append_assoc, List.cons_append, List.nil_append]
    rw [parenthesizedCast_enclosed e.balanced_text (.inr hrest.head?_ne), ih (.close _), hclose]
  | one e ih => exact ih hrest
  | more e args ihe ihargs =>
    have hcomma (t : Text) := parenthesizedCast_append (t := [.char ',', .char ' ']) (by decide) t
    simp only [text, peel, List.append_assoc, List.cons_append, List.nil_append] at hcomma ⊢
    rw [ihe (.comma _), hcomma, ihargs hrest]

/-- The casts that are left are dropped from a phrase in front of more text. -/
theorem bareCast_text (e : Phrase shape) (hrest : GoesOn rest) :
    bareCast.apply (e.text ++ rest) = e.bare.text ++ bareCast.apply rest := by
  have hopen (t : Text) : bareCast.apply (.char '(' :: t) = .char '(' :: bareCast.apply t :=
    bareCast_append (t := [.char '(']) (by decide) t
  have hclose (t : Text) : bareCast.apply (.char ')' :: t) = .char ')' :: bareCast.apply t :=
    bareCast_append (t := [.char ')']) (by decide) t
  -- As for a round; here parentheses are passed over like any other symbol.
  induction e generalizing rest with
  | operand a => exact bareCast_append (a.not_mem (by decide)) rest
  | castOperand a T =>
    simp only [text, bare, List.append_assoc]
    rw [bareCast_append (a.not_mem (by decide)), bareCast_cast T hrest]
  | cast e T ih =>
    simp only [text, bare, List.append_assoc, List.cons_append, List.nil_append]
    rw [hopen, ih (.close _), hclose, bareCast_cast T hrest]
  | binary op e₁ e₂ ih₁ ih₂ =>
    have hop (t : Text) : bareCast.apply (.char ' ' :: (op.text ++ .char ' ' :: t)) =
        .char ' ' :: (op.text ++ .char ' ' :: bareCast.apply t) := by
      have happly := bareCast_append (t := .char ' ' :: (op.text ++ [.char ' ']))
        (by simp [op.not_mem (s := .char ':') (by decide)]) t
      simpa using happly
    simp only [text, bare, List.append_assoc, List.cons_append, List.nil_append]
    rw [hopen, ih₁ (op.goesOn _), hop, ih₂ (.close _), hclose]
  | call f args ih =>
    simp only [text, bare, List.append_assoc, List.cons_append, List.nil_append]
    rw [bareCast_append (f.not_mem (by decide)), hopen, ih (.close _), hclose]
  | parens e ih =>
    simp only [text, bare, List.append_assoc, List.cons_append, List.nil_append]
    rw [hopen, ih (.close _), hclose]
  | one e ih => exact ih hrest
  | more e args ihe ihargs =>
    have hcomma (t : Text) := bareCast_append (t := [.char ',', .char ' ']) (by decide) t
    simp only [text, bare, List.append_assoc, List.cons_append, List.nil_append] at hcomma ⊢
    rw [ihe (.comma _), hcomma, ihargs hrest]

/-! ## What is left -/

/-- A phrase without casts holds no colons and no brackets. -/
theorem not_mem_bare (e : Phrase shape) {s : Symbol} (hs : s.isIn "[]:" = true) :
    s ∉ e.bare.text := by
  have hall : ∀ s ∈ Text.ofString "[]:", s.isIn "()[]:" = true ∧ s.isIn " ()[]:" = true ∧
      s.isIn " ,'()[]:" = true ∧ s ≠ .char '(' ∧ s ≠ .char ')' ∧ s ≠ .char ' ' ∧
      s ≠ .char ',' := by decide
  obtain ⟨hoperand, hoperator, htoken, hopen, hclose, hblank, hcomma⟩ :=
    hall s (List.contains_iff_mem.mp hs)
  induction e with
  | operand a | castOperand a T => exact a.not_mem hoperand
  | cast e T ih | parens e ih => simp [bare, text, hopen, hclose, ih]
  | binary op e₁ e₂ ih₁ ih₂ =>
    simp [bare, text, hopen, hclose, hblank, op.not_mem hoperator, ih₁, ih₂]
  | call f args ih => simp [bare, text, hopen, hclose, f.not_mem htoken, ih]
  | one e ih => exact ih
  | more e args ihe ihargs => simp [bare, text, hcomma, hblank, ihe, ihargs]

/-- The parenthesis of a call stands behind the name without a blank. -/
theorem not_infix_call (f : Token) {t : Text} (ht : ¬ Text.ofString "N (" <:+: .char '(' :: t) :
    ¬ Text.ofString "N (" <:+: f.text ++ .char '(' :: t := by
  have hword : Text.ofString "N (" = "N " ++ [Symbol.char '('] := by decide
  have hf : .char ' ' ∉ f.text := f.not_mem (by decide)
  intro h
  rcases List.infix_append_iff.mp h with h | h | ⟨w₁, w₂, hsplit, hw₁, hw₂⟩
  · exact hf (h.subset (by decide))
  · exact ht h
  · have hgap : .char ' ' ∉ w₁ := fun hmem => hf (hw₁.subset hmem)
    cases w₂ with
    | nil =>
      rw [List.append_nil] at hsplit
      exact hgap (hsplit ▸ by decide)
    | cons s w₂ =>
      obtain ⟨rfl, -⟩ := List.cons_prefix_cons.mp hw₂
      rw [hword] at hsplit
      obtain ⟨rfl, -⟩ := Text.eq_of_append_cons_eq_of_front (by decide)
        (fun hmem => f.isFlat.1 (hw₁.subset hmem)) hsplit
      exact hgap (by decide)

/-- No parenthesis in a phrase stands behind a word that ends in N: the words in front of a blank
and a parenthesis are operators. -/
theorem not_infix_bare (e : Phrase shape) : ¬ Text.ofString "N (" <:+: e.bare.text := by
  have hword : Text.ofString "N (" = "N " ++ [Symbol.char '('] := by decide
  have hcons {s : Symbol} {t : Text} (hs : .char 'N' ≠ s) (ht : ¬ Text.ofString "N (" <:+: t) :
      ¬ Text.ofString "N (" <:+: s :: t := fun h => ht (Text.infix_of_infix_cons hs h)
  have henclosed {t : Text} (ht : ¬ Text.ofString "N (" <:+: t) :
      ¬ Text.ofString "N (" <:+: .char '(' :: (t ++ [.char ')']) := by
    rw [← List.cons_append, Text.infix_append_cons_iff (by decide) (by decide), not_or]
    exact ⟨hcons (by decide) ht, by decide⟩
  induction e with
  | operand a | castOperand a T =>
    exact fun h => a.isFlat.1 (h.subset (by decide : .char '(' ∈ Text.ofString "N ("))
  | cast e T ih | parens e ih => exact henclosed ih
  | binary op e₁ e₂ ih₁ ih₂ =>
    -- An operator ends in a symbol that is no N, so the word cannot reach over it.
    obtain ⟨p, z, hop, hp, hz⟩ := op.exists_last
    have hsplit : (binary op e₁ e₂).bare.text = .char '(' ::
        (((e₁.bare.text ++ .char ' ' :: p) ++ z :: (.char ' ' :: e₂.bare.text)) ++
          [.char ')']) := by
      simp [bare, text, hop]
    have hleft : ¬ Text.ofString "N (" <:+: e₁.bare.text ++ .char ' ' :: p := by
      rw [hword] at ih₁ ⊢
      exact fun h => ih₁ (Text.infix_of_infix_append (by simp [hp]) h)
    rw [hsplit]
    refine henclosed ?_
    rw [Text.infix_append_cons_iff (by decide) hz, not_or]
    exact ⟨hleft, hcons (by decide) ih₂⟩
  | call f args ih => exact not_infix_call f (henclosed ih)
  | one e ih => exact ih
  | more e args ihe ihargs =>
    have hsplit : (more e args).bare.text =
        e.bare.text ++ .char ',' :: (.char ' ' :: args.bare.text) := rfl
    rw [hsplit, Text.infix_append_cons_iff (by decide) (by decide), not_or]
    exact ⟨ihe, hcons (by decide) ihargs⟩

end Phrase

end DumpDialect.CheckConstraint
