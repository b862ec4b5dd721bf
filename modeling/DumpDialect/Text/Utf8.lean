import DumpDialect.Text.Basic

/-!
# UTF-8 with raw bytes

`Text.decode` reads bytes as UTF-8, and a byte that begins no encoded character becomes a raw
symbol. `Text.encode` writes the bytes of each symbol. So no byte sequence is refused and none is
changed: `encode_decode` says that writing what was read gives the same bytes.
-/

namespace DumpDialect

/-- The bytes of a symbol: a character's UTF-8 encoding, or the raw byte. -/
def Symbol.bytes : Symbol → List UInt8
  | .char c => String.utf8EncodeChar c
  | .raw b => [b]

namespace Text

/-- The character that a lead byte and the bytes after it would encode: the payload bits of as
many bytes as the lead byte asks for. Whether these bytes are its encoding is not checked here. -/
def candidate (bytes : List UInt8) : Char :=
  let byte (i : Nat) : Nat := (bytes.getD i 0).toNat
  Char.ofNat <|
    if byte 0 < 0x80 then byte 0
    else if byte 0 < 0xE0 then byte 0 % 32 * 64 + byte 1 % 64
    else if byte 0 < 0xF0 then byte 0 % 16 * 4096 + byte 1 % 64 * 64 + byte 2 % 64
    else byte 0 % 8 * 262144 + byte 1 % 64 * 4096 + byte 2 % 64 * 64 + byte 3 % 64

/-- The character whose encoding the bytes begin with. Overlong forms and encoded surrogates are
the encoding of no character. -/
def leadingChar? (bytes : List UInt8) : Option Char :=
  let c := candidate bytes
  if (String.utf8EncodeChar c).isPrefixOf bytes then some c else none

theorem isPrefixOf_of_leadingChar? {bytes : List UInt8} {c : Char}
    (h : leadingChar? bytes = some c) : (String.utf8EncodeChar c).isPrefixOf bytes = true := by
  simp only [leadingChar?] at h
  split at h
  · next hp => cases h; exact hp
  · cases h

/-- Reads bytes, the first `done` of which belong to a symbol read already, after the symbols
`decoded`, the one read last first. -/
def decodeOnto (decoded : Text) : Nat → List UInt8 → Text
  | _, [] => decoded.reverse
  | 0, b :: rest =>
    match leadingChar? (b :: rest) with
    | some c => decodeOnto (.char c :: decoded) (c.utf8Size - 1) rest
    | none => decodeOnto (.raw b :: decoded) 0 rest
  | done + 1, _ :: rest => decodeOnto decoded done rest

/-- Reads bytes, the first `done` of which belong to a symbol read already. -/
def decodeFrom (done : Nat) (bytes : List UInt8) : Text := decodeOnto [] done bytes

/-- The text that the bytes encode. -/
def decode (bytes : List UInt8) : Text := decodeFrom 0 bytes

theorem decodeOnto_eq (decoded : Text) (done : Nat) (bytes : List UInt8) :
    decodeOnto decoded done bytes = decoded.reverse ++ decodeFrom done bytes := by
  simp only [decodeFrom]
  induction bytes generalizing decoded done with
  | nil => simp [decodeOnto]
  | cons b rest ih =>
    cases done with
    | succ done => exact ih decoded done
    | zero =>
      simp only [decodeOnto]
      split
      · next c _ =>
        rw [ih, ih [.char c]]
        simp
      · rw [ih, ih [.raw b]]
        simp

@[simp] theorem decodeFrom_nil (done : Nat) : decodeFrom done [] = [] := by
  cases done <;> rfl

@[simp] theorem decodeFrom_succ (done : Nat) (b : UInt8) (rest : List UInt8) :
    decodeFrom (done + 1) (b :: rest) = decodeFrom done rest := rfl

/-- The first byte begins a character or is a raw byte. -/
theorem decodeFrom_zero (b : UInt8) (rest : List UInt8) :
    decodeFrom 0 (b :: rest) =
      match leadingChar? (b :: rest) with
      | some c => .char c :: decodeFrom (c.utf8Size - 1) rest
      | none => .raw b :: decodeFrom 0 rest := by
  rw [decodeFrom, decodeOnto]
  split <;> rw [decodeOnto_eq] <;> rfl

/-- The bytes of the text. -/
def encode (t : Text) : List UInt8 := t.flatMap Symbol.bytes

/-- Writing what was read after the first `done` bytes gives the bytes after them. -/
theorem encode_decodeFrom (done : Nat) (bytes : List UInt8) :
    encode (decodeFrom done bytes) = bytes.drop done := by
  induction bytes generalizing done with
  | nil => simp [encode]
  | cons b rest ih =>
    cases done with
    | succ done => simpa using ih done
    | zero =>
      rw [decodeFrom_zero]
      split
      · next c h =>
        obtain ⟨tail, ht⟩ := List.isPrefixOf_iff_prefix.1 (isPrefixOf_of_leadingChar? h)
        have hlen : (String.utf8EncodeChar c).length = c.utf8Size := String.length_utf8EncodeChar c
        have hpos : 0 < c.utf8Size := Char.utf8Size_pos c
        have hrest : rest.drop (c.utf8Size - 1) = tail := by
          have : (b :: rest).drop c.utf8Size = tail := by
            rw [← ht, ← hlen, List.drop_left]
          rwa [show c.utf8Size = c.utf8Size - 1 + 1 by omega, List.drop_succ_cons] at this
        simp only [encode, List.flatMap_cons, Symbol.bytes] at ih ⊢
        rw [ih, hrest, ht, List.drop_zero]
      · simp only [encode, List.flatMap_cons, Symbol.bytes] at ih ⊢
        rw [ih 0]
        rfl

/-- Writing what was read gives the bytes back, valid UTF-8 or not. -/
theorem encode_decode (bytes : List UInt8) : encode (decode bytes) = bytes := by
  simpa [decode] using encode_decodeFrom 0 bytes

end Text

end DumpDialect
