/-!
# Decimal numerals

An integer is written as its decimal digits, behind a minus sign if it is below zero, and can be
read back.

## Main results

* `Text.Decimal.toList_toString` — the characters of a numeral.
* `Text.Decimal.exists_digits_eq_cons` — no numeral has superfluous zeros.
* `Text.Decimal.signedValue_toString` — the number that a numeral was written for.
-/

namespace ChipEight.Text.Decimal

/-- The sign in front of the digits. -/
def sign (v : Int) : List Char := if v < 0 then ['-'] else []

/-- The digits of a natural number. -/
def digits (n : Nat) : List Char := Nat.toDigits 10 n

/-- How many digits an integer has. -/
def digitCount (v : Int) : Nat := (digits v.natAbs).length

/-- The characters of a numeral. -/
theorem toList_toString (v : Int) : (toString v).toList = sign v ++ digits v.natAbs := by
  rw [Int.toString_eq_repr, Int.repr_eq_if]
  by_cases hneg : v < 0
  · have habs : (-v).toNat = v.natAbs := by omega
    rw [sign, if_pos hneg, if_neg (by omega), habs, String.toList_append, Nat.toList_repr]
    rfl
  · have habs : v.toNat = v.natAbs := by omega
    rw [sign, if_neg hneg, if_pos (by omega), habs, Nat.toList_repr]
    rfl

theorem isDigit_of_mem {n : Nat} {c : Char} (hc : c ∈ digits n) : c.isDigit = true :=
  Nat.isDigit_of_mem_toDigits (by decide) (by decide) hc

/-- Only zero is written with a zero in front. -/
theorem exists_digits_eq_cons {n : Nat} (hn : 0 < n) :
    ∃ d ds, digits n = d :: ds ∧ d ≠ '0' := by
  induction n using Nat.strongRecOn with
  | ind n ih =>
      by_cases hsmall : n < 10
      · refine ⟨n.digitChar, [], Nat.toDigits_of_lt_base hsmall, fun heq => ?_⟩
        have hdigit : ∀ m : Fin 10, m.val.digitChar = '0' → m.val = 0 := by decide
        have := hdigit ⟨n, hsmall⟩ heq
        exact absurd this (Nat.ne_of_gt hn)
      · obtain ⟨d, ds, hds, hd⟩ := ih (n / 10) (by omega) (by omega)
        refine ⟨d, ds ++ [(n % 10).digitChar], ?_, hd⟩
        show Nat.toDigits 10 n = _
        rw [Nat.toDigits_of_base_le (by decide) (Nat.le_of_not_lt hsmall),
          show Nat.toDigits 10 (n / 10) = _ from hds, List.cons_append]

/-- A numeral is made of digits and perhaps a sign. -/
theorem of_mem_toString {v : Int} {c : Char} (hc : c ∈ (toString v).toList) :
    c = '-' ∨ c.isDigit = true := by
  rw [toList_toString, List.mem_append] at hc
  rcases hc with hsign | hdigit
  · unfold sign at hsign
    split at hsign
    · exact .inl (List.mem_singleton.mp hsign)
    · cases hsign
  · exact .inr (isDigit_of_mem hdigit)

theorem exists_toList_toString_eq_cons (v : Int) :
    ∃ c cs, (toString v).toList = c :: cs ∧ (c = '-' ∨ c.isDigit = true) := by
  cases htext : (toString v).toList with
  | nil =>
      rw [toList_toString] at htext
      have hpos : 0 < (digits v.natAbs).length := Nat.length_toDigits_pos
      rw [(List.append_eq_nil_iff.mp htext).2] at hpos
      exact absurd hpos (Nat.lt_irrefl 0)
  | cons c cs => exact ⟨c, cs, rfl, of_mem_toString (htext ▸ List.mem_cons_self)⟩

/-- The number that digits behind a sign stand for. -/
def signedValue : List Char → Int
  | '-' :: ds => -(Nat.ofDigitChars 10 ds 0 : Int)
  | cs => Nat.ofDigitChars 10 cs 0

/-- The number that a numeral was written for. -/
theorem signedValue_toString (v : Int) : signedValue (toString v).toList = v := by
  have hvalue : Nat.ofDigitChars 10 (digits v.natAbs) 0 = v.natAbs :=
    Nat.ofDigitChars_toDigits (by decide) (by decide)
  rw [toList_toString]
  by_cases hneg : v < 0
  · rw [sign, if_pos hneg]
    show -(Nat.ofDigitChars 10 (digits v.natAbs) 0 : Int) = v
    omega
  · rw [sign, if_neg hneg, List.nil_append]
    unfold signedValue
    split
    next ds hds =>
      have hmem : '-' ∈ digits v.natAbs := hds ▸ List.mem_cons_self
      exact absurd (isDigit_of_mem hmem) (by decide)
    next => omega

end ChipEight.Text.Decimal
