import ChipEight.Instruction.Mnemonic

/-!
# Program listings

A byte string is listed as the words it holds, each with its address; a last
byte that has no partner is listed as one data byte. Nothing is dropped:
`Listing.bytes` gives back the bytes that `Listing.ofBytes` was given.

## Main results

* `bytes_ofBytes` — a listing determines the bytes it was made from.
-/

namespace ChipEight

open Text

/-- What stands at one line of a listing. -/
inductive Datum
  /-- Two bytes, the high one first. -/
  | word (w : Word)
  /-- A last byte without partner. -/
  | byte (b : UInt8)
  deriving DecidableEq, Repr

/-- One line of a listing. -/
structure Line where
  /-- Address of the first byte. -/
  address : Int
  /-- What stands there. -/
  datum : Datum
  deriving DecidableEq, Repr

/-- The number that a listing shows for a datum. -/
def Datum.value : Datum → Nat
  | .word w => w.toNat
  | .byte b => b.toNat

/-- The assembly text of a datum. -/
def Datum.text : Datum → String
  | .word w => w.mnemonic
  | .byte b => "DB 0x" ++ Hex.upper 2 b.toNat

/-- The bytes of a datum, in memory order. -/
def Datum.bytes : Datum → List UInt8
  | .word w => [UInt8.ofNat (w.toNat / 256), UInt8.ofNat (w.toNat % 256)]
  | .byte b => [b]

/-- A line as printed: address, value and assembly text. -/
def Line.text (l : Line) : String :=
  Hex.upper 3 l.address ++ ": " ++ Hex.upper 4 l.datum.value ++ "  " ++ l.datum.text

namespace Listing

/-- Lists `bytes` from the address `start` on. -/
def ofBytes (start : Int) : List UInt8 → List Line
  | hi :: lo :: rest =>
    ⟨start, .word (Word.ofBytes hi lo)⟩ :: ofBytes (start + wordSize) rest
  | [b] => [⟨start, .byte b⟩]
  | [] => []

/-- The bytes that a listing shows. -/
def bytes (lines : List Line) : List UInt8 := lines.flatMap (·.datum.bytes)

theorem bytes_ofBytes_word (hi lo : UInt8) :
    (Datum.word (Word.ofBytes hi lo)).bytes = [hi, lo] := by
  have hhi := hi.toNat_lt
  have hlo := lo.toNat_lt
  have h : (Word.ofBytes hi lo).toNat = hi.toNat * 256 + lo.toNat := by
    simp only [Word.ofBytes, UInt16.toNat_ofNat']
    omega
  have h₁ : (hi.toNat * 256 + lo.toNat) / 256 = hi.toNat := by omega
  have h₂ : (hi.toNat * 256 + lo.toNat) % 256 = lo.toNat := by omega
  simp [Datum.bytes, h, h₁, h₂]

theorem bytes_ofBytes (start : Int) (bs : List UInt8) : bytes (ofBytes start bs) = bs := by
  fun_induction ofBytes start bs with
  | case1 start hi lo rest ih =>
    simp only [bytes, List.flatMap_cons, bytes_ofBytes_word] at ih ⊢
    rw [ih]
    rfl
  | case2 => rfl
  | case3 => rfl

end Listing

end ChipEight
