import ChipEight.Text.CodePoint

/-!
# Texts as bytes

The system keeps names and variables as bytes and ends them at NUL. A text becomes bytes in
UTF-8. A byte that is part of no character in UTF-8 is read as a half of a surrogate pair, and
these halves become the same bytes again when they are written; other halves have no bytes.

## Main results

* `ofCodes?_codesAt` — every sequence of bytes is that of the text it is read as.
-/

namespace ChipEight.Text.Bytes

/-! ## Writing -/

/-- The half that stands for a byte is this much further on. -/
abbrev byteOffset : Nat := 0xDC00

/-- The bytes of a code point, if it has any. -/
def ofCode? (code : Nat) : Option (List UInt8) :=
  if byteOffset + 0x80 ≤ code ∧ code < byteOffset + 0x100 then
    some [UInt8.ofNat (code - byteOffset)]
  else if CodePoint.isHalf code then none
  else some (String.utf8EncodeChar (Char.ofNat code))

/-- The bytes of a sequence of code points, if all of them have bytes. -/
def ofCodes? : List Nat → Option (List UInt8)
  | [] => some []
  | code :: codes =>
    match ofCode? code, ofCodes? codes with
    | some bytes, some more => some (bytes ++ more)
    | _, _ => none

/-- The bytes of a text, if it has any. -/
def ofText? (s : String) : Option (List UInt8) := ofCodes? (CodePoint.codes s)

/-- Why a text cannot be handed to the system. -/
inductive TextError
  /-- It has a half that has no bytes. -/
  | notEncodable
  | nulCharacter
  deriving DecidableEq, Repr

/-- The wording of an error, if it has one. -/
def TextError.message : TextError → Option String
  | .notEncodable => none
  | .nulCharacter => some "embedded null byte"

/-- The bytes of a text for the system. -/
def forSystem (s : String) : Except TextError (List UInt8) :=
  match ofText? s with
  | none => .error .notEncodable
  | some bytes => if bytes.contains 0 then .error .nulCharacter else .ok bytes

/-! ## Reading -/

/-- The character at the start of a sequence of bytes. -/
def char? (bytes : List UInt8) : Option Char :=
  (bytes.take 4).toByteArray.utf8DecodeChar? 0

/-- The code points of a sequence of bytes, whose first `skipped` bytes belong to a character
that has been read. -/
def codesAt (skipped : Nat) : List UInt8 → List Nat
  | [] => []
  | b :: bytes =>
    match skipped, char? (b :: bytes) with
    | skipped + 1, _ => codesAt skipped bytes
    | 0, some c => c.toNat :: codesAt (c.utf8Size - 1) bytes
    | 0, none => (byteOffset + b.toNat) :: codesAt 0 bytes

/-- The text that a sequence of bytes is read as. -/
def toText (bytes : List UInt8) : String := CodePoint.ofCodes (codesAt 0 bytes)

/-! ## Lemmas -/

theorem char?_utf8EncodeChar_append (c : Char) (bytes : List UInt8) :
    char? (String.utf8EncodeChar c ++ bytes) = some c := by
  have hlen : (String.utf8EncodeChar c).length ≤ 4 := by
    rw [String.length_utf8EncodeChar]
    exact c.utf8Size_le_four
  rw [char?, List.take_append, List.take_of_length_le hlen, List.toByteArray_append]
  exact ByteArray.utf8DecodeChar?_utf8EncodeChar_append

theorem eq_append_of_char? {bytes : List UInt8} {c : Char} (h : char? bytes = some c) :
    bytes = String.utf8EncodeChar c ++ bytes.drop c.utf8Size := by
  obtain ⟨l, hl⟩ := ByteArray.exists_of_utf8DecodeChar?_eq_some h
  have htake : bytes.take 4 = String.utf8EncodeChar c ++ l.data.toList := by
    have hdata := congrArg (·.data.toList) hl
    simpa using hdata
  have hbytes : bytes = String.utf8EncodeChar c ++ (l.data.toList ++ bytes.drop 4) := by
    rw [← List.append_assoc, ← htake, List.take_append_drop]
  have hdrop : bytes.drop c.utf8Size = l.data.toList ++ bytes.drop 4 := by
    conv => lhs; rw [hbytes]
    rw [← String.length_utf8EncodeChar, List.drop_left]
  rw [hdrop, ← hbytes]

theorem le_toNat_of_char? {b : UInt8} {bytes : List UInt8} (h : char? (b :: bytes) = none) :
    0x80 ≤ b.toNat := by
  by_cases hb : b.toNat < 0x80
  · have hvalid : Nat.isValidChar b.toNat := Or.inl (by omega)
    have hval : (Char.ofNat b.toNat).val.toNat = b.toNat := by
      rw [Char.ofNat, dif_pos hvalid]
      rfl
    have hcode : String.utf8EncodeChar (Char.ofNat b.toNat) = [b] := by
      unfold String.utf8EncodeChar
      rw [hval, if_pos (by omega), UInt8.ofNat_toNat]
    have hsome := char?_utf8EncodeChar_append (Char.ofNat b.toNat) bytes
    rw [hcode, List.singleton_append, h] at hsome
    cases hsome
  · omega

theorem ofCode?_toNat (c : Char) : ofCode? c.toNat = some (String.utf8EncodeChar c) := by
  have hhalf : ¬(0xD800 ≤ c.toNat ∧ c.toNat < 0xE000) :=
    of_decide_eq_false (CodePoint.isHalf_toNat c)
  have hoffset : byteOffset = 0xDC00 := rfl
  rw [ofCode?, if_neg (by omega), CodePoint.isHalf_toNat, Char.ofNat_toNat]
  rfl

theorem ofCode?_byteOffset_add {b : UInt8} (h : 0x80 ≤ b.toNat) :
    ofCode? (byteOffset + b.toNat) = some [b] := by
  have hlt := b.toNat_lt
  rw [ofCode?, if_pos ⟨by omega, by omega⟩, Nat.add_sub_cancel_left, UInt8.ofNat_toNat]

/-- Every sequence of bytes is that of the text it is read as. -/
theorem ofCodes?_codesAt (skipped : Nat) (bytes : List UInt8) :
    ofCodes? (codesAt skipped bytes) = some (bytes.drop skipped) := by
  induction bytes generalizing skipped with
  | nil => rw [codesAt, List.drop_nil, ofCodes?]
  | cons b bytes ih =>
    unfold codesAt
    split
    next k => rw [ih, List.drop_succ_cons]
    next c hc =>
      have hsize : c.utf8Size - 1 + 1 = c.utf8Size := Nat.sub_add_cancel c.utf8Size_pos
      have hdrop : (b :: bytes).drop c.utf8Size = bytes.drop (c.utf8Size - 1) := by
        rw [← hsize, List.drop_succ_cons, hsize]
      have hbytes := eq_append_of_char? hc
      rw [hdrop] at hbytes
      rw [ofCodes?, ofCode?_toNat, ih, List.drop_zero, hbytes]
    next hnone =>
      rw [ofCodes?, ofCode?_byteOffset_add (le_toNat_of_char? hnone), ih]
      rfl

end ChipEight.Text.Bytes
