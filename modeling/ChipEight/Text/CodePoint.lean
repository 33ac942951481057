/-!
# Code points

A text is a sequence of code points. Nearly all of them are characters, but the halves of
surrogate pairs are code points too, and a text may be given that has a half alone. No
`String` can hold one. Texts from outside are therefore kept in *written form*: a half is
written as a mark and a private character that stands for it, the mark itself is written
twice, and every other character stands for itself. A text without halves and without the
mark is its own written form.

## Main results

* `codesOf_written` — the written form tells every text from every other.
* `plain?_ofPlain` — a text of characters can be had back from its written form.
-/

namespace ChipEight.Text.CodePoint

/-! ## Surrogate pairs -/

/-- Whether a code point is half of a pair. -/
def isHalf (code : Nat) : Bool := decide (0xD800 ≤ code ∧ code < 0xE000)

/-- The code point that a pair stands for, if its halves belong together. -/
def join? (hi lo : Nat) : Option Nat :=
  if 0xD800 ≤ hi ∧ hi < 0xDC00 ∧ 0xDC00 ≤ lo ∧ lo < 0xE000 then
    some (0x10000 + (hi - 0xD800) * 0x400 + (lo - 0xDC00))
  else none

/-! ## Written form -/

/-- The mark in front of a character that stands for a half. -/
def mark : Char := Char.ofNat 0x10FFFF

/-- The character that stands for a half is this much further on. -/
abbrev privateOffset : Nat := 0xE7000

/-- The written form of a character. -/
def ofChar (c : Char) : List Char := if c = mark then [mark, mark] else [c]

/-- The written form of a code point. -/
def ofCode (code : Nat) : List Char :=
  if isHalf code then [mark, Char.ofNat (code + privateOffset)] else ofChar (Char.ofNat code)

/-- The written form of a sequence of code points. -/
def written (codes : List Nat) : List Char := codes.flatMap ofCode

/-- The code point that is written as the mark and a character. -/
def behindMark (c : Char) : Nat := if c = mark then c.toNat else c.toNat - privateOffset

/-- The code points of a written form. -/
def codesOf : List Char → List Nat
  | [] => []
  | [c] => [c.toNat]
  | c :: d :: cs =>
    if c = mark then behindMark d :: codesOf cs else c.toNat :: codesOf (d :: cs)

/-- The code points of a text. -/
def codes (s : String) : List Nat := codesOf s.toList

/-- The text with the given code points. -/
def ofCodes (codes : List Nat) : String := String.ofList (written codes)

/-! ## Texts of characters -/

/-- The written form of a text of characters. -/
def ofPlain (s : String) : String := String.ofList (s.toList.flatMap ofChar)

/-- The characters of a text, unless one of its code points is a half. -/
def plain? (s : String) : Option String :=
  if (codes s).any isHalf then none else some (String.ofList ((codes s).map Char.ofNat))

/-! ## Order -/

/-- Whether a sequence of code points comes no later than another in dictionary order. -/
def precedes : List Nat → List Nat → Bool
  | [], _ => true
  | _ :: _, [] => false
  | a :: as, b :: bs => if a = b then precedes as bs else decide (a < b)

/-! ## Lemmas -/

theorem toNat_mark : mark.toNat = 0x10FFFF := rfl

theorem isHalf_toNat (c : Char) : isHalf c.toNat = false := by
  have hvalid : c.toNat < 0xD800 ∨ 0xDFFF < c.toNat ∧ c.toNat < 0x110000 := c.valid
  exact decide_eq_false (by omega)

theorem toNat_ofNat {code : Nat} (hlt : code < 0x110000) (h : isHalf code = false) :
    (Char.ofNat code).toNat = code := by
  have hhalf : ¬(0xD800 ≤ code ∧ code < 0xE000) := of_decide_eq_false h
  have hvalid : Nat.isValidChar code := by
    by_cases hlow : code < 0xD800
    · exact Or.inl hlow
    · exact Or.inr ⟨by omega, hlt⟩
  rw [Char.ofNat, dif_pos hvalid]
  rfl

theorem codesOf_ofChar_append (c : Char) (cs : List Char) :
    codesOf (ofChar c ++ cs) = c.toNat :: codesOf cs := by
  unfold ofChar
  split
  next h =>
    subst h
    show (if mark = mark then behindMark mark :: codesOf cs else _) = _
    rw [if_pos rfl, behindMark, if_pos rfl]
  next h =>
    cases cs with
    | nil => rfl
    | cons d cs =>
      show (if c = mark then _ else c.toNat :: codesOf (d :: cs)) = _
      rw [if_neg h]

theorem codesOf_ofCode_append {code : Nat} (hlt : code < 0x110000) (cs : List Char) :
    codesOf (ofCode code ++ cs) = code :: codesOf cs := by
  unfold ofCode
  split
  next h =>
    have hcode : 0xD800 ≤ code ∧ code < 0xE000 := of_decide_eq_true h
    have hoffset : privateOffset = 0xE7000 := rfl
    have hnat : (Char.ofNat (code + privateOffset)).toNat = code + privateOffset :=
      toNat_ofNat (by omega) (decide_eq_false (by omega))
    have hmark : Char.ofNat (code + privateOffset) ≠ mark := by
      intro heq
      rw [heq, toNat_mark] at hnat
      omega
    show (if mark = mark then behindMark _ :: codesOf cs else _) = _
    rw [if_pos rfl, behindMark, if_neg hmark, hnat, Nat.add_sub_cancel]
  next h =>
    rw [codesOf_ofChar_append, toNat_ofNat hlt (by simpa using h)]

/-- No two sequences of code points have the same written form. -/
theorem codesOf_written {codes : List Nat} (h : ∀ code ∈ codes, code < 0x110000) :
    codesOf (written codes) = codes := by
  induction codes with
  | nil => rfl
  | cons code codes ih =>
    rw [written, List.flatMap_cons, codesOf_ofCode_append (h code List.mem_cons_self)]
    exact congrArg _ (ih fun c hc => h c (List.mem_cons_of_mem _ hc))

theorem codesOf_flatMap_ofChar (cs : List Char) :
    codesOf (cs.flatMap ofChar) = cs.map Char.toNat := by
  induction cs with
  | nil => rfl
  | cons c cs ih => rw [List.flatMap_cons, codesOf_ofChar_append, ih, List.map_cons]

theorem plain?_ofPlain (s : String) : plain? (ofPlain s) = some s := by
  have hcodes : codes (ofPlain s) = s.toList.map Char.toNat := by
    rw [codes, ofPlain, String.toList_ofList, codesOf_flatMap_ofChar]
  have hno : (s.toList.map Char.toNat).any isHalf = false := by
    rw [List.any_map]
    exact List.any_eq_false.2 fun c _ => by simp [isHalf_toNat c]
  have hback : (s.toList.map Char.toNat).map Char.ofNat = s.toList := by
    rw [List.map_map]
    exact (List.map_congr_left fun c _ => Char.ofNat_toNat c).trans (List.map_id _)
  rw [plain?, hcodes, hno, hback, String.ofList_toList]
  rfl

end ChipEight.Text.CodePoint
