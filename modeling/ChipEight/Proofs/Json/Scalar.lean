import ChipEight.Json.Reader
import ChipEight.Json.Writer
import ChipEight.Proofs.Text.Decimal

/-!
# Scalars are read as they were written

The reader takes what belongs to a value and leaves the text behind it. A truth value and the
word for nothing end by themselves; an integer is read up to the first character that belongs to
no number, so what is read depends on how the text goes on. Names are read up to their closing
quote.

## Main results

* `JsonValue.number_digits` — the number that digits were written for.
* `JsonValue.value_scalar` — what is read of a scalar and the text behind it.
* `JsonValue.memberName_written` — what is read of a name and the text behind it.
-/

namespace ChipEight.JsonValue

open Text

/-! ## Numbers -/

/-- A number that stands in front of the text ends there. -/
def EndsNumber (cs : List Char) : Prop :=
  ∀ c, cs.head? = some c → c.isDigit = false ∧ c ≠ '.' ∧ c ≠ 'e' ∧ c ≠ 'E'

variable {rest : List Char}

theorem digitRun_append {ds : List Char} (hds : ∀ d ∈ ds, d.isDigit = true)
    (hrest : EndsNumber rest) : digitRun (ds ++ rest) = (ds, rest) := by
  unfold digitRun
  rw [List.takeWhile_append_of_pos hds, List.dropWhile_append_of_pos hds]
  cases rest with
  | nil => rw [List.takeWhile_nil, List.dropWhile_nil, List.append_nil]
  | cons c cs =>
      have hc : ¬c.isDigit = true := Bool.eq_false_iff.mp (hrest c rfl).1
      rw [List.takeWhile_cons_of_neg hc, List.dropWhile_cons_of_neg hc, List.append_nil]

/-- All digits of a number belong to its whole part. -/
theorem wholePart?_digits (n : Nat) (hrest : EndsNumber rest) :
    wholePart? (Decimal.digits n ++ rest) = some (Decimal.digits n, rest) := by
  rcases Nat.eq_zero_or_pos n with rfl | hn
  · rfl
  · obtain ⟨d, ds, hdigits, hd⟩ := Decimal.exists_digits_eq_cons hn
    have hrun : digitRun (d :: ds ++ rest) = (d :: ds, rest) := by
      rw [← hdigits]
      exact digitRun_append (fun _ => Decimal.isDigit_of_mem) hrest
    rw [hdigits]
    unfold wholePart?
    split
    next more heq => exact absurd (List.cons.inj heq).1 hd
    next => rw [hrun]

theorem fraction_of_ends (hrest : EndsNumber rest) : fraction rest = ([], rest) := by
  unfold fraction
  split
  next more => exact absurd rfl (hrest '.' rfl).2.1
  next => rfl

theorem exponent?_of_ends (hrest : EndsNumber rest) : exponent? rest = none := by
  cases rest with
  | nil => rfl
  | cons c cs =>
      obtain ⟨-, -, hlower, hupper⟩ := hrest c rfl
      exact if_neg (not_or.mpr ⟨hlower, hupper⟩)

theorem digitsValue_digits (n : Nat) : digitsValue (Decimal.digits n) = n := by
  have hfold : ∀ (ds : List Char) (k : Nat),
      (ds.map fun c => c.toNat - '0'.toNat).foldl (fun n d => n * 10 + d) k =
        Nat.ofDigitChars 10 ds k := by
    intro ds k
    rw [List.foldl_map, Nat.ofDigitChars_eq_foldl]
    simp only [Nat.mul_comm]
  exact (hfold _ 0).trans (Nat.ofDigitChars_toDigits (by decide) (by decide))

/-- The number that digits were written for, unless they are too many. -/
theorem number_digits (minus : Bool) {n : Nat}
    (hn : (Decimal.digits n).length ≤ Integer.maxDecimalDigits) (hrest : EndsNumber rest) :
    number minus (Decimal.digits n ++ rest) =
      .ok (.int (if minus then -(n : Int) else n), rest) := by
  unfold number
  simp only [wholePart?_digits n hrest, fraction_of_ends hrest, exponent?_of_ends hrest,
    if_pos hn, digitsValue_digits]

/-! ## Scalars -/

/-- An integer that is not too long, a truth value or nothing. -/
def Scalar : JsonValue → Prop
  | .null => True
  | .bool _ => True
  | .int i => Decimal.digitCount i ≤ Integer.maxDecimalDigits
  | _ => False

theorem word_of_isDigit {c : Char} (hc : c.isDigit = true) (cs : List Char) :
    word (c :: cs) = number false (c :: cs) := by
  have hne : ∀ d : Char, d.isDigit = false → c ≠ d := by
    rintro d hd rfl
    exact Bool.false_ne_true (hd.symm.trans hc)
  unfold word
  split
  case h_8 => rfl
  all_goals
    rename_i heq
    exact absurd (List.cons.inj heq).1 (hne _ (by decide))

theorem word_minus {c : Char} (hc : c.isDigit = true) (cs : List Char) :
    word ('-' :: c :: cs) = number true (c :: cs) := by
  have hne : c ≠ 'I' := by
    rintro rfl
    exact absurd hc (by decide)
  unfold word
  split
  case h_6 heq => exact absurd (List.cons.inj (List.cons.inj heq).2).1 hne
  case h_7 heq => rw [(List.cons.inj heq).2]
  case h_8 hno => exact absurd rfl (hno _)
  all_goals
    rename_i heq
    exact absurd (List.cons.inj heq).1 (by decide)

/-- An integer is read from its numeral. -/
theorem word_toString {i : Int} (hi : Decimal.digitCount i ≤ Integer.maxDecimalDigits)
    (hrest : EndsNumber rest) : word ((toString i).toList ++ rest) = .ok (.int i, rest) := by
  obtain ⟨d, ds, hdigits⟩ : ∃ d ds, Decimal.digits i.natAbs = d :: ds :=
    List.exists_cons_of_length_pos Nat.length_toDigits_pos
  have hd : d.isDigit = true := Decimal.isDigit_of_mem (hdigits ▸ List.mem_cons_self)
  have hread := fun minus => number_digits minus hi hrest
  rw [hdigits, List.cons_append] at hread
  rw [Decimal.toList_toString, hdigits]
  by_cases hneg : i < 0
  · have habs : -(i.natAbs : Int) = i := by omega
    rw [Decimal.sign, if_pos hneg]
    show word ('-' :: d :: (ds ++ rest)) = _
    rw [word_minus hd, hread, if_pos rfl, habs]
  · have habs : (i.natAbs : Int) = i := by omega
    rw [Decimal.sign, if_neg hneg]
    show word (d :: (ds ++ rest)) = _
    rw [word_of_isDigit hd, hread, if_neg Bool.false_ne_true, habs]

theorem toList_text_int (i : Int) : (text (.int i)).toList = (toString i).toList := by
  show ("" ++ toString i).toList = _
  rw [String.empty_append]

/-- A scalar has no white space in front. -/
theorem skipSpace_scalar {v : JsonValue} (hv : v.Scalar) (rest : List Char) :
    skipSpace (v.text.toList ++ rest) = v.text.toList ++ rest := by
  cases v with
  | null => rfl
  | bool b => cases b <;> rfl
  | int i =>
      obtain ⟨c, cs, hcs, hc⟩ := Decimal.exists_toList_toString_eq_cons i
      have hspace : ¬isSpace c = true := by
        intro h
        simp only [isSpace, Bool.or_eq_true, beq_iff_eq] at h
        rcases h with ((rfl | rfl) | rfl) | rfl <;> exact absurd hc (by decide)
      rw [toList_text_int, hcs]
      exact List.dropWhile_cons_of_neg hspace
  | double _ | str _ | arr _ | obj _ => cases hv

/-- What is read of a scalar and the text behind it. -/
theorem value_scalar {v : JsonValue} (hv : v.Scalar) (depth room : Nat)
    (hrest : EndsNumber rest) :
    value (depth + 1) room (v.text.toList ++ rest) = .ok (v, rest) := by
  cases v with
  | null => rfl
  | bool b => cases b <;> rfl
  | int i =>
      rw [toList_text_int, ← word_toString hv hrest]
      obtain ⟨c, cs, hcs, hc⟩ := Decimal.exists_toList_toString_eq_cons i
      have hne : ∀ d : Char, d ≠ '-' → d.isDigit = false → c ≠ d := by
        rintro d hminus hd rfl
        exact hc.elim hminus (Bool.eq_false_iff.mp hd)
      rw [hcs, List.cons_append]
      unfold value
      split
      case h_4 => rfl
      all_goals
        rename_i heq
        exact absurd (List.cons.inj heq).1 (hne _ (by decide) (by decide))
  | double _ | str _ | arr _ | obj _ => cases hv

/-! ## Names -/

/-- A character stands for itself between quotes. -/
def IsPlain (c : Char) : Prop :=
  c ≠ '"' ∧ c ≠ '\\' ∧ 0x20 ≤ c.toNat ∧ c ≠ CodePoint.mark

instance (c : Char) : Decidable (IsPlain c) := by unfold IsPlain; infer_instance

/-- Plain characters are read up to the closing quote. -/
theorem stringBody_plain {cs : List Char} (hcs : ∀ c ∈ cs, IsPlain c) (found rest : List Char) :
    stringBody found (cs ++ '"' :: rest) = .ok (String.ofList (found.reverse ++ cs), rest) := by
  induction cs generalizing found with
  | nil =>
      rw [List.nil_append, stringBody, if_pos rfl, List.append_nil]
  | cons c cs ih =>
      obtain ⟨hquote, hslash, hcontrol, hmark⟩ := hcs c List.mem_cons_self
      rw [List.cons_append, stringBody, if_neg hquote, if_neg hslash,
        if_neg (Nat.not_lt.mpr hcontrol), CodePoint.ofChar, if_neg hmark,
        ih fun d hd => hcs d (List.mem_cons_of_mem c hd)]
      simp only [List.reverse_cons, List.reverse_nil, List.nil_append, List.append_assoc,
        List.singleton_append]

/-- What is read of a name and the text behind it. -/
theorem memberName_written {name : String} (hname : ∀ c ∈ name.toList, IsPlain c)
    (rest : List Char) :
    memberName ('"' :: (name.toList ++ '"' :: ':' :: rest)) = .ok (name, skipSpace rest) := by
  simp only [memberName, stringBody_plain hname]
  show Except.ok (String.ofList ([] ++ name.toList), skipSpace rest) = _
  rw [List.nil_append, String.ofList_toList]

end ChipEight.JsonValue
