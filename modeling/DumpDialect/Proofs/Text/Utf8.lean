import DumpDialect.Text.Utf8
import Mathlib.Data.List.Infix

/-!
# Where symbols begin

The bytes of a character are the encoding of no other, and none but the first of them is ASCII. So a
text of characters is read back whatever stands behind it, and reading may start anew at a byte of
ASCII, whatever stands in front of it.

- `Text.leadingChar?_eq_some_iff`: the character that bytes begin with.
- `Text.decode_encode_append`: a text of characters in front of any bytes.
- `Text.decode_append`: any bytes in front of a byte of ASCII.
- `Text.bytes_subset_of_mem_decode`: where a symbol comes from.
-/

namespace DumpDialect.Text

/-! ## Characters -/

/-- The payload bits of an encoding are those of the character, whatever stands behind it. -/
theorem candidate_encoding (c : Char) (rest : List UInt8) :
    candidate (String.utf8EncodeChar c ++ rest) = c := by
  have hmax : c.val.toNat < 0x110000 := by
    rcases c.valid with h | h
    · exact Nat.lt_trans h (by decide)
    · exact h.2
  have hbytes {n : Nat} (hn : n = c.val.toNat) : Char.ofNat n = c := by
    rw [hn]
    exact Char.ofNat_toNat c
  rw [candidate, String.utf8EncodeChar]
  generalize c.val.toNat = v at *
  simp only
  -- One case for each length of the encoding, the shortest first.
  split
  · simp only [List.cons_append, List.getD_cons_zero, UInt8.toNat_ofNat']
    apply hbytes
    rw [if_pos (by omega)]
    omega
  · split
    · simp only [List.cons_append, List.getD_cons_zero, List.getD_cons_succ, UInt8.toNat_ofNat']
      apply hbytes
      rw [if_neg (by omega), if_pos (by omega)]
      omega
    · split
      · simp only [List.cons_append, List.getD_cons_zero, List.getD_cons_succ, UInt8.toNat_ofNat']
        apply hbytes
        rw [if_neg (by omega), if_neg (by omega), if_pos (by omega)]
        omega
      · simp only [List.cons_append, List.getD_cons_zero, List.getD_cons_succ, UInt8.toNat_ofNat']
        apply hbytes
        rw [if_neg (by omega), if_neg (by omega), if_neg (by omega)]
        omega

theorem leadingChar?_eq_some_iff {bytes : List UInt8} {c : Char} :
    leadingChar? bytes = some c ↔ String.utf8EncodeChar c <+: bytes := by
  constructor
  · exact fun h => List.isPrefixOf_iff_prefix.mp (isPrefixOf_of_leadingChar? h)
  · rintro ⟨rest, rfl⟩
    rw [leadingChar?, candidate_encoding, if_pos (List.isPrefixOf_iff_prefix.mpr ⟨rest, rfl⟩)]

/-- The bytes of a character behind its first one are not ASCII. -/
theorem exists_encoding (c : Char) :
    ∃ first more, String.utf8EncodeChar c = first :: more ∧ c.utf8Size - 1 = more.length ∧
      ∀ b ∈ more, 0x80 ≤ b.toNat := by
  have hother (n : Nat) : 0x80 ≤ (n % 64 + 128) % 256 := by omega
  have htail : ∀ b ∈ (String.utf8EncodeChar c).tail, 0x80 ≤ b.toNat := by
    rw [String.utf8EncodeChar]
    split
    · simp
    · split
      · simp [hother]
      · split <;> simp [hother]
  have hlen := String.length_utf8EncodeChar c
  cases henc : String.utf8EncodeChar c with
  | nil =>
    rw [henc] at hlen
    exact absurd hlen (Nat.ne_of_lt (Char.utf8Size_pos c))
  | cons first more =>
    rw [henc] at hlen htail
    exact ⟨first, more, rfl, by rw [← hlen, List.length_cons, Nat.add_sub_cancel], htail⟩

/-! ## Reading -/

/-- The bytes begin with one of ASCII, or there are none. -/
def StartsAnew (bytes : List UInt8) : Prop := ∀ b ∈ bytes.head?, b.toNat < 0x80

instance : DecidablePred StartsAnew := fun bytes =>
  inferInstanceAs (Decidable (∀ b ∈ bytes.head?, b.toNat < 0x80))

/-- A character does not reach over the place where reading starts anew. -/
theorem leadingChar?_append {rest : List UInt8} (hrest : StartsAnew rest) (b : UInt8)
    (bytes : List UInt8) : leadingChar? (b :: bytes ++ rest) = leadingChar? (b :: bytes) := by
  ext c
  rw [leadingChar?_eq_some_iff, leadingChar?_eq_some_iff]
  refine ⟨fun h => ?_, fun h => h.trans (List.prefix_append ..)⟩
  obtain ⟨first, more, henc, -, hmore⟩ := exists_encoding c
  rw [henc, List.cons_append, List.cons_prefix_cons] at h
  obtain ⟨rfl, hbehind⟩ := h
  rw [henc, List.cons_prefix_cons, eq_self, true_and]
  -- A character that reached beyond would hold a byte of ASCII behind its first one.
  rcases List.prefix_or_prefix_of_prefix hbehind (List.prefix_append ..) with hshort | ⟨beyond, rfl⟩
  · exact hshort
  · cases beyond with
    | nil => simp
    | cons b beyond =>
      obtain ⟨after, rfl⟩ := (List.prefix_append_right_inj bytes).mp hbehind
      exact absurd (hrest b rfl) (Nat.not_lt.mpr (hmore b (by simp)))

private theorem decodeFrom_append {done : Nat} {bytes rest : List UInt8}
    (hdone : done ≤ bytes.length) (hrest : StartsAnew rest) :
    decodeFrom done (bytes ++ rest) = decodeFrom done bytes ++ decode rest := by
  induction bytes generalizing done with
  | nil =>
    obtain rfl := Nat.le_zero.mp hdone
    rfl
  | cons b bytes ih =>
    cases done with
    | succ done => exact ih (Nat.le_of_succ_le_succ hdone)
    | zero =>
      rw [List.cons_append, decodeFrom_zero, ← List.cons_append, leadingChar?_append hrest,
        decodeFrom_zero]
      cases hc : leadingChar? (b :: bytes) with
      | none => simp only [ih (Nat.zero_le _), List.cons_append]
      | some c =>
        obtain ⟨first, more, henc, hlen, -⟩ := exists_encoding c
        have hbegins := leadingChar?_eq_some_iff.mp hc
        rw [henc, List.cons_prefix_cons] at hbegins
        have hmore : c.utf8Size - 1 ≤ bytes.length := hlen ▸ hbegins.2.length_le
        simp only [ih hmore, List.cons_append]

/-- Reading may start anew at a byte of ASCII, whatever stands in front of it. -/
theorem decode_append (bytes : List UInt8) {rest : List UInt8} (hrest : StartsAnew rest) :
    decode (bytes ++ rest) = decode bytes ++ decode rest :=
  decodeFrom_append (Nat.zero_le _) hrest

theorem decodeFrom_length_append (gone rest : List UInt8) :
    decodeFrom gone.length (gone ++ rest) = decode rest := by
  induction gone with
  | nil => rfl
  | cons b gone ih => exact ih

/-- A character is read whatever stands behind it. -/
theorem decode_char_append (c : Char) (rest : List UInt8) :
    decode (String.utf8EncodeChar c ++ rest) = .char c :: decode rest := by
  obtain ⟨first, more, henc, hlen, -⟩ := exists_encoding c
  have hc : leadingChar? (first :: (more ++ rest)) = some c :=
    leadingChar?_eq_some_iff.mpr (by rw [henc]; exact List.prefix_append ..)
  rw [henc, List.cons_append, decode, decodeFrom_zero, hc]
  simp only [hlen, decodeFrom_length_append]

/-! ## Writing -/

theorem encode_cons (s : Symbol) (t : Text) : encode (s :: t) = s.bytes ++ encode t := rfl

@[simp] theorem encode_append (t u : Text) : encode (t ++ u) = encode t ++ encode u :=
  List.flatMap_append

/-- A text of characters is read back whatever stands behind it. -/
theorem decode_encode_append {t : Text} (ht : ∀ s ∈ t, s.char?.isSome = true)
    (rest : List UInt8) : decode (encode t ++ rest) = t ++ decode rest := by
  induction t with
  | nil => rfl
  | cons s t ih =>
    obtain ⟨hs, hmore⟩ := List.forall_mem_cons.mp ht
    obtain ⟨c, rfl⟩ : ∃ c, s = .char c := by
      cases s with
      | char c => exact ⟨c, rfl⟩
      | raw b => cases hs
    rw [encode_cons, List.append_assoc, Symbol.bytes, decode_char_append, ih hmore]
    rfl

/-- The bytes of lines are those of the lines, each with the byte of LF. -/
theorem encode_flatMap_lineFeed (lines : List Text) :
    encode (lines.flatMap (· ++ [.lineFeed])) = (lines.map encode).flatMap (· ++ [0x0A]) := by
  have hfeed : encode [.lineFeed] = [0x0A] := by decide
  induction lines with
  | nil => rfl
  | cons line lines ih =>
    rw [List.flatMap_cons, encode_append, encode_append, hfeed, ih, List.map_cons,
      List.flatMap_cons]

theorem decode_encode {t : Text} (ht : ∀ s ∈ t, s.char?.isSome = true) :
    decode (encode t) = t := by
  have hread := decode_encode_append ht []
  rwa [List.append_nil, show decode [] = [] from rfl, List.append_nil] at hread

/-- The bytes of a symbol that was read are among those that were given. -/
theorem bytes_subset_of_mem_decode {s : Symbol} {bytes : List UInt8} (h : s ∈ decode bytes) :
    s.bytes ⊆ bytes := by
  intro b hb
  rw [← encode_decode bytes]
  exact List.mem_flatMap.mpr ⟨s, h, hb⟩

end DumpDialect.Text
