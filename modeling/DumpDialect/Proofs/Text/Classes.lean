import DumpDialect.Text.Alphanumeric
import DumpDialect.Text.Blank
import DumpDialect.Text.DecimalDigit
import DumpDialect.Text.LetterCase

/-!
# How the classes of symbols lie to each other

- `Symbol.isBlank_of_isWord`, `Symbol.isBlank_of_isDigit`: a blank is part of no word or number.
- `Symbol.eq_of_folded`: leaving the case out makes small letters only.
- `Text.IsWord`, `Text.IsDigits`: words and numbers.
-/

namespace DumpDialect

/-! ## Blanks -/

theorem exists_of_inRanges {ranges : List (Nat × Nat)} {n : Nat} (h : inRanges ranges n = true) :
    ∃ r ∈ ranges, r.1 ≤ n ∧ n ≤ r.2 := by
  induction ranges with
  | nil => cases h
  | cons r more ih =>
    obtain ⟨first, last⟩ := r
    rw [inRanges] at h
    split at h
    · cases h
    · split at h
      · exact ⟨_, List.mem_cons_self, by simp only; omega⟩
      · obtain ⟨r, hr, hn⟩ := ih h
        exact ⟨r, List.mem_cons_of_mem _ hr, hn⟩

namespace Symbol

/-- There are few blanks, so that each can be looked at. -/
private theorem class_of_isBlank {ok : Symbol → Bool}
    (hok : ∀ r ∈ blankRanges, ∀ i < r.2 + 1 - r.1, ok (.char (Char.ofNat (r.1 + i))) = false)
    {s : Symbol} (hs : s.isBlank = true) : ok s = false := by
  cases s with
  | raw b => cases hs
  | char c =>
    obtain ⟨r, hr, hlow, hhigh⟩ := exists_of_inRanges hs
    have hc := hok r hr (c.toNat - r.1) (by omega)
    rwa [Nat.add_sub_cancel' hlow, Char.ofNat_toNat] at hc

theorem isBlank_of_isWord {s : Symbol} (hs : s.isWord = true) : s.isBlank = false := by
  refine Bool.eq_false_iff.mpr fun hblank => ?_
  have hclass : s.isWord = false := class_of_isBlank (by decide +kernel) hblank
  rw [hs] at hclass
  cases hclass

theorem isBlank_of_isDigit {s : Symbol} (hs : s.isDigit = true) : s.isBlank = false := by
  refine Bool.eq_false_iff.mpr fun hblank => ?_
  have hclass : s.isDigit = false := class_of_isBlank (by decide) hblank
  rw [hs] at hclass
  cases hclass

/-! ## Letters -/

/-- The range of the capitals. -/
theorem range_of_isUpper {c : Char} (h : c.isUpper = true) : 65 ≤ c.toNat ∧ c.toNat ≤ 90 := by
  have hrange : c.val ≥ 'A'.val ∧ c.val ≤ 'Z'.val := of_decide_eq_true h
  rwa [ge_iff_le, UInt32.le_iff_toNat_le, UInt32.le_iff_toNat_le] at hrange

private theorem isLower_toLower {c : Char} (h : c.isUpper = true) : c.toLower.isLower = true := by
  have hall : ∀ i < 26, (Char.ofNat (65 + i)).toLower.isLower = true := by decide
  have hupper := range_of_isUpper h
  have hletter := hall (c.toNat - 65) (by omega)
  rwa [Nat.add_sub_cancel' hupper.1, Char.ofNat_toNat] at hletter

/-- Only a small letter is another character without its case. -/
theorem eq_of_folded {s : Symbol} {c : Char} (h : s.folded = .char c) (hc : c.isLower = false) :
    s = .char c := by
  cases s with
  | raw b => cases h
  | char d =>
    rw [folded, Symbol.char.injEq] at h
    have hsmall {e : Char} (he : e.isLower = true) (hec : e = c) : d = c := by
      rw [hec, hc] at he
      cases he
    congr 1
    unfold foldedChar at h
    repeat' split at h
    · next hupper => exact hsmall (isLower_toLower hupper) h
    · exact hsmall (by decide) h
    · exact hsmall (by decide) h
    · exact hsmall (by decide) h
    · exact h

end Symbol

/-! ## Words and numbers -/

namespace Text

/-- One or more word characters. -/
def IsWord (t : Text) : Prop := t ≠ [] ∧ ∀ s ∈ t, s.isWord = true

/-- One or more digits. -/
def IsDigits (t : Text) : Prop := t ≠ [] ∧ ∀ s ∈ t, s.isDigit = true

instance : DecidablePred IsWord := fun _ => inferInstanceAs (Decidable (_ ∧ _))

instance : DecidablePred IsDigits := fun _ => inferInstanceAs (Decidable (_ ∧ _))

variable {t : Text} {s : Symbol}

theorem IsWord.not_mem (h : t.IsWord) (hs : s.isWord = false) : s ∉ t := fun hmem => by
  rw [h.2 s hmem] at hs
  cases hs

theorem IsDigits.not_mem (h : t.IsDigits) (hs : s.isDigit = false) : s ∉ t := fun hmem => by
  rw [h.2 s hmem] at hs
  cases hs

end Text

end DumpDialect
