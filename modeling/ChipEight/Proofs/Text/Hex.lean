import ChipEight.Text.Hex

/-!
# Reading hexadecimal numerals

A numeral can be read back: zeros in front do not change the number, every digit behind them
multiplies it by sixteen, and a sign stands in front of them all. So numerals of different
numbers differ, whatever their widths are.

## Main results

* `Text.Hex.value_upper` — the number that a numeral was written for.
* `Text.Hex.length_upper` — a number that fits has a numeral of the width asked for.
* `Text.Hex.signedValue_lower` — the signed number that a numeral was written for.
-/

namespace ChipEight.Text.Hex

/-- The number that digits stand for. -/
def value (cs : List Char) : Nat := cs.foldl (fun v c => 16 * v + (digitValue? c).getD 0) 0

/-- Adds one digit behind the others. -/
theorem value_concat (cs : List Char) (c : Char) :
    value (cs ++ [c]) = 16 * value cs + (digitValue? c).getD 0 := by
  unfold value
  rw [List.foldl_append]
  rfl

theorem value_zeros_append (k : Nat) (cs : List Char) :
    value (List.replicate k '0' ++ cs) = value cs := by
  induction k with
  | zero => rfl
  | succ k ih =>
      rw [List.replicate_succ, List.cons_append]
      exact ih

/-! ## Digits -/

/-- Whether digits can be read that are written through `f`. -/
def Readable (f : Char → Char) : Prop := ∀ d < 16, digitValue? (f (Nat.digitChar d)) = some d

theorem readable_toUpper : Readable Char.toUpper := by
  have hall : ∀ k : Fin 16, digitValue? (Nat.digitChar k).toUpper = some k.val := by decide
  exact fun d hd => hall ⟨d, hd⟩

theorem readable_id : Readable id := by
  have hall : ∀ k : Fin 16, digitValue? (Nat.digitChar k) = some k.val := by decide
  exact fun d hd => hall ⟨d, hd⟩

/-- The digits of a number are those of its sixteenth part and one more. -/
theorem digits_eq (v : Nat) :
    digits v = if v < 16 then [Nat.digitChar v]
      else digits (v / 16) ++ [Nat.digitChar (v % 16)] := Nat.toDigits_eq_if (by decide)

variable {f : Char → Char}

theorem value_digits (hf : Readable f) (v : Nat) : value ((digits v).map f) = v := by
  induction v using Nat.strongRecOn with
  | ind v ih =>
      rw [digits_eq]
      by_cases hsmall : v < 16
      · rw [if_pos hsmall]
        show 16 * 0 + (digitValue? (f (Nat.digitChar v))).getD 0 = v
        rw [hf v hsmall]
        exact Nat.zero_add v
      · have hrest := ih (v / 16) (by omega)
        rw [if_neg hsmall, List.map_append, List.map_singleton, value_concat, hrest,
          hf _ (Nat.mod_lt v (by decide))]
        exact Nat.div_add_mod v 16

theorem isSome_digitValue?_of_mem (hf : Readable f) (v : Nat) :
    ∀ c ∈ (digits v).map f, (digitValue? c).isSome = true := by
  induction v using Nat.strongRecOn with
  | ind v ih =>
      intro c hc
      rw [digits_eq] at hc
      by_cases hsmall : v < 16
      · rw [if_pos hsmall, List.map_singleton, List.mem_singleton] at hc
        rw [hc, hf v hsmall]
        rfl
      · rw [if_neg hsmall, List.map_append, List.map_singleton, List.mem_append,
          List.mem_singleton] at hc
        rcases hc with hfront | hlast
        · exact ih (v / 16) (by omega) c hfront
        · rw [hlast, hf _ (Nat.mod_lt v (by decide))]
          rfl

/-! ## Numerals -/

theorem toList_upper (width v : Nat) :
    (upper width v).toList =
      List.replicate (width - (digits v).length) '0' ++ (digits v).map Char.toUpper := by
  have hsign : sign (v : Int) = [] := if_neg (Int.not_lt.mpr (Int.natCast_nonneg v))
  unfold upper pad
  rw [hsign, String.toList_ofList, Int.natAbs_natCast, List.length_map]
  simp only [List.length_nil, Nat.zero_add, List.nil_append]

/-- The number that a numeral was written for. -/
theorem value_upper (width v : Nat) : value (upper width v).toList = v := by
  rw [toList_upper, value_zeros_append, value_digits readable_toUpper]

theorem length_digits_le {width v : Nat} (hwidth : 0 < width) (hv : v < Nat.pow 16 width) :
    (digits v).length ≤ width := (Nat.length_toDigits_le_iff (by decide) hwidth).mpr hv

/-- A number that fits has a numeral of the width asked for. -/
theorem length_upper {width v : Nat} (hwidth : 0 < width) (hv : v < Nat.pow 16 width) :
    (upper width v).toList.length = width := by
  have hle := length_digits_le hwidth hv
  rw [toList_upper, List.length_append, List.length_replicate, List.length_map]
  omega

/-- A numeral is made of digits. -/
theorem isSome_of_mem_upper (width v : Nat) :
    ∀ c ∈ (upper width v).toList, (digitValue? c).isSome = true := by
  intro c hc
  rw [toList_upper, List.mem_append] at hc
  rcases hc with hzero | hdigit
  · rw [List.eq_of_mem_replicate hzero]
    rfl
  · exact isSome_digitValue?_of_mem readable_toUpper v c hdigit

theorem notMem_upper {c : Char} (hc : digitValue? c = none) (width v : Nat) :
    c ∉ (upper width v).toList := by
  intro hmem
  have hdigit := isSome_of_mem_upper width v c hmem
  rw [hc] at hdigit
  cases hdigit

/-! ## Signed numerals -/

/-- The number that digits behind a sign stand for. -/
def signedValue : List Char → Int
  | '-' :: ds => -(value ds : Int)
  | cs => value cs

theorem signedValue_of_head? {cs : List Char} (h : cs.head? ≠ some '-') :
    signedValue cs = value cs := by
  unfold signedValue
  split
  next ds => exact absurd rfl h
  next => rfl

theorem toList_lower (width : Nat) (v : Int) :
    (lower width v).toList =
      sign v ++ (List.replicate (width - ((sign v).length + (digits v.natAbs).length)) '0' ++
        (digits v.natAbs).map id) := by
  unfold lower pad
  rw [String.toList_ofList, List.map_id, List.append_assoc]

/-- The signed number that a numeral was written for. -/
theorem signedValue_lower (width : Nat) (v : Int) : signedValue (lower width v).toList = v := by
  rw [toList_lower]
  by_cases hneg : v < 0
  · rw [sign, if_pos hneg]
    show -(value (_ ++ _) : Int) = v
    rw [List.nil_append, value_zeros_append, value_digits readable_id]
    omega
  · rw [sign, if_neg hneg, List.nil_append, signedValue_of_head?, value_zeros_append,
      value_digits readable_id]
    · omega
    · intro hhead
      have hmem := List.mem_of_mem_head? hhead
      rw [List.mem_append] at hmem
      rcases hmem with hzero | hdigit
      · exact absurd (List.eq_of_mem_replicate hzero) (by decide)
      · exact absurd (isSome_digitValue?_of_mem readable_id _ '-' hdigit) (by decide)

/-- A numeral is made of digits and perhaps a sign. -/
theorem notMem_lower {c : Char} (hsign : c ≠ '-') (hc : digitValue? c = none) (width : Nat)
    (v : Int) : c ∉ (lower width v).toList := by
  rw [toList_lower, List.mem_append, List.mem_append]
  rintro (hmem | hzero | hdigit)
  · unfold sign at hmem
    split at hmem
    · exact hsign (List.mem_singleton.mp hmem)
    · cases hmem
  · rw [List.eq_of_mem_replicate hzero] at hc
    cases hc
  · have hsome := isSome_digitValue?_of_mem readable_id _ c hdigit
    rw [hc] at hsome
    cases hsome

end ChipEight.Text.Hex
