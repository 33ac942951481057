import ChipEight.Proofs.Instruction.Form
import ChipEight.Proofs.Text.Hex

/-!
# Reading assembly texts

The text of a word can be read back. It is cut at the first blank, and what follows at the
commas: no verb has a blank in it, and no operand a comma. The first characters of an operand
tell what it is, and the others are its number.

A verb and the looks of its operands belong to one form, or to the two that jump. The form and
the numbers are all bits of the word. So a text belongs to one word, or to the two that jump to
one address.

## Main results

* `Form.text_inj` — equal texts have equal verbs and equal operands.
* `Word.mnemonic_eq_iff` — the words that share a text.
* `Word.isKnown_eq` — the words that are not written as data are the instructions.
-/

namespace ChipEight

open Text

namespace Operand

/-! ## Operands -/

/-- What the text of an operand looks like: that of a register does not tell which one it is. -/
def look : Operand → Operand
  | .regY => .regX
  | o => o

/-- The number in the text of an operand. -/
def number (w : Word) : Operand → Nat
  | .name _ => 0
  | .regX | .upToX => w.x.val
  | .regY => w.y.val
  | .address => w.target.val
  | .byte => w.byte.toNat
  | .count => w.n.val
  | .word => w.toNat

/-- What a text looks like, and the number in it. -/
def read : List Char → Operand × Nat
  | 'V' :: '0' :: '-' :: 'V' :: ds => (.upToX, Hex.value ds)
  | 'V' :: ds => (.regX, Hex.value ds)
  | '0' :: 'x' :: ds =>
      (if ds.length = 2 then .byte else if ds.length = 3 then .address else .word, Hex.value ds)
  | cs =>
      if cs.all Char.isDigit then (.count, Nat.ofDigitChars 10 cs 0)
      else (.name (String.ofList cs), 0)

/-- A fixed text that is read as itself and cannot be mistaken for two. -/
def isPlain : Operand → Bool
  | .name text => read text.toList = (.name text, 0) ∧ ',' ∉ text.toList
  | _ => true

theorem read_reg : ∀ r : Reg, read r.name.toList = (.regX, r.val) ∧
    read ("V0-" ++ r.name).toList = (.upToX, r.val) := by
  decide

theorem read_count : ∀ n : Fin 16, read (Nat.repr n.val).toList = (.count, n.val) := by
  decide

theorem read_numeral {width v : Nat} (hwidth : 0 < width) (hv : v < Nat.pow 16 width) :
    read ("0x" ++ Hex.upper width v).toList =
      (if width = 2 then .byte else if width = 3 then .address else .word, v) := by
  have hlength := Hex.length_upper hwidth hv
  have hvalue := Hex.value_upper width v
  rw [String.toList_append]
  show (if (Hex.upper width v).toList.length = 2 then byte
      else if (Hex.upper width v).toList.length = 3 then address else word,
      Hex.value (Hex.upper width v).toList) = _
  rw [hlength, hvalue]

/-- An operand is read from its text. -/
theorem read_text {o : Operand} (ho : o.isPlain = true) (w : Word) :
    read (o.text w).toList = (o.look, o.number w) := by
  cases o with
  | name text =>
      exact (of_decide_eq_true ho).1
  | regX => exact (read_reg w.x).1
  | regY => exact (read_reg w.y).1
  | upToX => exact (read_reg w.x).2
  | address => exact read_numeral (show 0 < 3 by decide) w.target.isLt
  | byte => exact read_numeral (show 0 < 2 by decide) w.byte.toNat_lt
  | count => exact read_count w.n
  | word => exact read_numeral (show 0 < 4 by decide) w.toNat_lt

/-! ### Commas -/

theorem comma_notMem_reg : ∀ r : Reg, ',' ∉ r.name.toList ∧ ',' ∉ ("V0-" ++ r.name).toList := by
  decide

theorem comma_notMem_count : ∀ n : Fin 16, ',' ∉ (Nat.repr n.val).toList := by
  decide

theorem comma_notMem_numeral (width v : Nat) : ',' ∉ ("0x" ++ Hex.upper width v).toList := by
  rw [String.toList_append, List.mem_append]
  rintro (hfront | hnumeral)
  · exact absurd hfront (by decide)
  · exact Hex.notMem_upper (by decide) width v hnumeral

theorem comma_notMem_text {o : Operand} (ho : o.isPlain = true) (w : Word) :
    ',' ∉ (o.text w).toList := by
  cases o with
  | name text =>
      exact (of_decide_eq_true ho).2
  | regX | regY => exact (comma_notMem_reg _).1
  | upToX => exact (comma_notMem_reg _).2
  | count => exact comma_notMem_count _
  | address | byte | word => exact comma_notMem_numeral _ _

end Operand

namespace Form

/-! ## Texts -/

/-- The verb of a text, and what its operands look like with their numbers. -/
def parse (cs : List Char) : List Char × List (Operand × Nat) :=
  (cs.takeWhile (· != ' '),
    (((cs.dropWhile (· != ' ')).splitOn ',').filter (!·.isEmpty)).map fun ds =>
      Operand.read ds.tail)

/-- What the cuts at blanks and commas rely on. -/
def isPlain (f : Form) : Bool := ' ' ∉ f.verb.toList ∧ ∀ o ∈ f.operands, o.isPlain = true

theorem table_isPlain : ∀ f ∈ data :: table, f.isPlain = true := by
  decide

/-- The operands of a word in a form, each behind a blank. -/
def items (f : Form) (w : Word) : List (List Char) :=
  f.operands.map fun o => ' ' :: (o.text w).toList

theorem toList_text (f : Form) (w : Word) :
    (f.text w).toList = f.verb.toList ++ [','].intercalate (f.items w) := by
  unfold text items
  rw [String.toList_append, String.toList_intercalate, List.map_map]
  congr 3
  funext o
  exact String.toList_append

/-- The operands start with a blank, if there are any. -/
theorem takeWhile_items (f : Form) (w : Word) :
    ([','].intercalate (f.items w)).takeWhile (· != ' ') = [] := by
  unfold items
  rcases f.operands with _ | ⟨o, _ | ⟨p, os⟩⟩ <;> rfl

/-- Cuts at the commas what was joined by them. -/
theorem splitOn_items {f : Form} (hf : f.isPlain = true) (w : Word) :
    (([','].intercalate (f.items w)).splitOn ',').filter (!·.isEmpty) = f.items w := by
  obtain ⟨-, hplain⟩ := of_decide_eq_true hf
  have hcomma : ∀ item ∈ f.items w, ',' ∉ item := by
    intro item hitem
    obtain ⟨o, ho, rfl⟩ := List.mem_map.mp hitem
    rw [List.mem_cons]
    rintro (hblank | htext)
    · exact absurd hblank (by decide)
    · exact Operand.comma_notMem_text (hplain o ho) w htext
  have hfilled : ∀ item ∈ f.items w, (!item.isEmpty) = true := by
    intro item hitem
    obtain ⟨o, -, rfl⟩ := List.mem_map.mp hitem
    rfl
  cases hitems : f.items w with
  | nil => rfl
  | cons item rest =>
      rw [hitems] at hcomma hfilled
      rw [List.splitOn_intercalate ',' hcomma (List.cons_ne_nil item rest)]
      exact List.filter_eq_self.mpr hfilled

/-- The verb and the operands are read back from a text. -/
theorem parse_text {f : Form} (hf : f.isPlain = true) (w : Word) :
    parse (f.text w).toList =
      (f.verb.toList, f.operands.map fun o => (o.look, o.number w)) := by
  obtain ⟨hblank, hplain⟩ := of_decide_eq_true hf
  have hverb : ∀ c ∈ f.verb.toList, (c != ' ') = true := by
    intro c hc
    rw [bne_iff_ne]
    rintro rfl
    exact hblank hc
  have hrest : ([','].intercalate (f.items w)).dropWhile (· != ' ') =
      [','].intercalate (f.items w) := by
    have happend := List.takeWhile_append_dropWhile
      (p := (· != ' ')) (l := [','].intercalate (f.items w))
    rwa [takeWhile_items, List.nil_append] at happend
  unfold parse
  rw [toList_text, List.takeWhile_append_of_pos hverb, List.dropWhile_append_of_pos hverb,
    takeWhile_items, hrest, List.append_nil, splitOn_items hf]
  unfold items
  rw [List.map_map]
  refine congrArg (Prod.mk f.verb.toList) (List.map_congr_left ?_)
  intro o ho
  exact Operand.read_text (hplain o ho) w

/-- Equal texts have equal verbs and equal operands. -/
theorem text_inj {f g : Form} {w v : Word} (hf : f ∈ data :: table) (hg : g ∈ data :: table)
    (h : f.text w = g.text v) :
    f.verb = g.verb ∧ f.operands.map Operand.look = g.operands.map Operand.look ∧
      f.operands.map (Operand.number w) = g.operands.map (Operand.number v) := by
  have hparse := parse_text (table_isPlain f hf) w
  rw [h, parse_text (table_isPlain g hg) v, Prod.mk.injEq] at hparse
  obtain ⟨hverb, hoperands⟩ := hparse
  have hlooks := congrArg (List.map Prod.fst) hoperands
  have hnumbers := congrArg (List.map Prod.snd) hoperands
  rw [List.map_map, List.map_map] at hlooks hnumbers
  exact ⟨String.toList_inj.mp hverb.symm, hlooks.symm, hnumbers.symm⟩

end Form

/-! ## Operands as bits -/

namespace Word

variable {w v : Word}

theorem and_or_distrib (w m k : Word) : w &&& (m ||| k) = w &&& m ||| w &&& k := by
  apply UInt16.toNat_inj.mp
  simp only [UInt16.toNat_and, UInt16.toNat_or]
  exact Nat.and_or_distrib_left ..

/-- Words agree under a mask if their fields agree under those of the mask. -/
theorem and_ext {m : Word} (hfamily : w.family.val &&& m.family.val = v.family.val &&& m.family.val)
    (hx : w.x.val &&& m.x.val = v.x.val &&& m.x.val)
    (hy : w.y.val &&& m.y.val = v.y.val &&& m.y.val)
    (hn : w.n.val &&& m.n.val = v.n.val &&& m.n.val) : w &&& m = v &&& m := by
  rw [← family_and, ← family_and] at hfamily
  rw [← x_and, ← x_and] at hx
  rw [← y_and, ← y_and] at hy
  rw [← n_and, ← n_and] at hn
  rw [← ofRegs_fields (w &&& m), ← ofRegs_fields (v &&& m), hfamily, Fin.ext hx, Fin.ext hy, hn]

/-- Under a mask of ones stand the lowest bits. -/
theorem and_lowest {k : Nat} {m : Word} (hm : m.toNat = Nat.pow 2 k - 1)
    (h : w.toNat % Nat.pow 2 k = v.toNat % Nat.pow 2 k) : w &&& m = v &&& m := by
  apply UInt16.toNat_inj.mp
  rw [UInt16.toNat_and, UInt16.toNat_and, hm]
  exact (Nat.and_two_pow_sub_one_eq_mod _ k).trans
    (h.trans (Nat.and_two_pow_sub_one_eq_mod _ k).symm)

end Word

namespace Operand

/-- The bits of a word that an operand shows. -/
def mask : Operand → Word
  | .name _ => 0
  | .regX | .upToX => 0x0F00
  | .regY => 0x00F0
  | .address => 0x0FFF
  | .byte => 0x00FF
  | .count => 0x000F
  | .word => 0xFFFF

/-- The number in an operand is made of the bits that it shows. -/
theorem and_mask_eq {o : Operand} {w v : Word} (h : o.number w = o.number v) :
    w &&& o.mask = v &&& o.mask := by
  have hnone : ∀ a b : Nat, a &&& 0 = b &&& 0 := fun a b =>
    (Nat.and_zero a).trans (Nat.and_zero b).symm
  cases o with
  | name text => exact UInt16.and_zero.trans UInt16.and_zero.symm
  | regX | upToX =>
      have hx : w.x.val = v.x.val := h
      exact Word.and_ext (hnone _ _) (by rw [hx]) (hnone _ _) (hnone _ _)
  | regY =>
      have hy : w.y.val = v.y.val := h
      exact Word.and_ext (hnone _ _) (hnone _ _) (by rw [hy]) (hnone _ _)
  | address => exact Word.and_lowest (k := 12) rfl h
  | byte =>
      have hbyte : w.byte.toNat = v.byte.toNat := h
      rw [Word.toNat_byte, Word.toNat_byte] at hbyte
      exact Word.and_lowest (k := 8) rfl hbyte
  | count => exact Word.and_lowest (k := 4) rfl h
  | word => rw [UInt16.toNat_inj.mp h]

end Operand

namespace Form

/-- The bits that a list of operands shows. -/
def shown (operands : List Operand) : Word := operands.foldr (fun o m => o.mask ||| m) 0

/-- A form shows all the bits that it does not ask for. -/
theorem mask_or_shown : ∀ f ∈ data :: table, f.mask ||| shown f.operands = 0xFFFF := by
  decide

theorem and_shown_eq {operands : List Operand} {w v : Word}
    (h : operands.map (Operand.number w) = operands.map (Operand.number v)) :
    w &&& shown operands = v &&& shown operands := by
  induction operands with
  | nil => exact UInt16.and_zero.trans UInt16.and_zero.symm
  | cons o os ih =>
      simp only [List.map_cons, List.cons.injEq] at h
      show w &&& (o.mask ||| shown os) = v &&& (o.mask ||| shown os)
      rw [Word.and_or_distrib, Word.and_or_distrib, Operand.and_mask_eq h.1, ih h.2]

/-- A word of a form is made of the numbers in its operands. -/
theorem eq_of_numbers {f : Form} {w v : Word} (hf : f ∈ data :: table) (hw : f.has w = true)
    (hv : f.has v = true)
    (h : f.operands.map (Operand.number w) = f.operands.map (Operand.number v)) : w = v := by
  have hbits : w &&& f.mask = v &&& f.mask := (eq_of_beq hw).trans (eq_of_beq hv).symm
  calc w = w &&& (f.mask ||| shown f.operands) := by rw [mask_or_shown f hf, Word.and_all]
    _ = v &&& (f.mask ||| shown f.operands) := by
      rw [Word.and_or_distrib, Word.and_or_distrib, hbits, and_shown_eq h]
    _ = v := by rw [mask_or_shown f hf, Word.and_all]

/-! ## Texts of two words -/

/-- The two forms that jump. -/
def jumps : List Form := [⟨0xF000, 0x1000, "JP", [.address]⟩, ⟨0xF000, 0xB000, "JP", [.address]⟩]

/-- A verb and the looks of its operands belong to one form, or to the two that jump. -/
theorem table_looks : ∀ f ∈ data :: table, ∀ g ∈ data :: table, f.verb = g.verb →
    f.operands.map Operand.look = g.operands.map Operand.look →
    f = g ∨ f ∈ jumps ∧ g ∈ jumps := by
  decide +kernel

end Form

namespace Word

open Form

/-- A word has the form that it is written in. -/
theorem has_form (w : Word) : w.form ∈ data :: table ∧ w.form.has w = true := by
  cases hsome : (Instruction.ofWord? w).isSome with
  | true =>
      obtain ⟨hmem, hhas⟩ := form_of_isSome hsome
      exact ⟨List.mem_cons_of_mem data hmem, hhas⟩
  | false =>
      rw [form_of_isSome_eq_false hsome]
      exact ⟨List.mem_cons_self, beq_iff_eq.mpr UInt16.and_zero⟩

/-- A word is written in the form of the table that it has. -/
theorem form_eq {f : Form} {w : Word} (hf : f ∈ table) (hw : f.has w = true) : w.form = f := by
  obtain ⟨hmem, hhas⟩ := form_of_isSome (exists_has_iff.mp ⟨f, hf, hw⟩)
  exact eq_of_has hmem hf hhas hw

/-- The family of a word, told by its highest nibble. -/
theorem family_of_and {w m : Word} (h : w &&& 0xF000 = m) : w.family = m.family := by
  rw [← h, and_family]
  exact (Fin.ext (fields_ofTarget _ w.family.isLt).1).symm

/-- The words of the two forms that jump. -/
theorem eq_ofTarget_of_has {f : Form} {w : Word} (hf : f ∈ jumps) (hw : f.has w = true) :
    f.operands = [.address] ∧ (w = ofTarget 0x1 w.target ∨ w = ofTarget 0xB w.target) := by
  have hfields := ofTarget_fields w
  simp only [jumps, List.mem_cons, List.not_mem_nil, or_false] at hf
  rcases hf with rfl | rfl
  · rw [family_of_and (eq_of_beq hw)] at hfields
    exact ⟨rfl, .inl hfields.symm⟩
  · rw [family_of_and (eq_of_beq hw)] at hfields
    exact ⟨rfl, .inr hfields.symm⟩

/-- The two words that jump to one address have one text. -/
theorem mnemonic_ofTarget (t : Target) :
    (ofTarget 0x1 t).mnemonic = (ofTarget 0xB t).mnemonic := by
  have hfields : ∀ family < 16, (ofTarget family t).family.val = family ∧
      (ofTarget family t).target = t := fun family h => fields_ofTarget t h
  have hjump : (ofTarget 0x1 t).form = ⟨0xF000, 0x1000, "JP", [.address]⟩ := by
    apply form_eq (by decide)
    show (ofTarget 0x1 t &&& 0xF000 == 0x1000) = true
    rw [and_family, (hfields 0x1 (by decide)).1]
    rfl
  have hjumpAlt : (ofTarget 0xB t).form = ⟨0xF000, 0xB000, "JP", [.address]⟩ := by
    apply form_eq (by decide)
    show (ofTarget 0xB t &&& 0xF000 == 0xB000) = true
    rw [and_family, (hfields 0xB (by decide)).1]
    rfl
  unfold mnemonic
  rw [hjump, hjumpAlt]
  show "JP" ++ ",".intercalate [" " ++ ("0x" ++ Hex.upper 3 (ofTarget 0x1 t).target.val)] =
    "JP" ++ ",".intercalate [" " ++ ("0x" ++ Hex.upper 3 (ofTarget 0xB t).target.val)]
  rw [(hfields 0x1 (by decide)).2, (hfields 0xB (by decide)).2]

/-- Different words share a text only if they jump to one address. -/
theorem mnemonic_eq_iff {w v : Word} :
    w.mnemonic = v.mnemonic ↔ w = v ∨ ∃ t : Target,
      w = ofTarget 0x1 t ∧ v = ofTarget 0xB t ∨ w = ofTarget 0xB t ∧ v = ofTarget 0x1 t := by
  constructor
  · intro htext
    obtain ⟨hf, hw⟩ := has_form w
    obtain ⟨hg, hv⟩ := has_form v
    obtain ⟨hverb, hlooks, hnumbers⟩ := text_inj hf hg htext
    -- The verb and the looks leave one form for both, or the two that jump.
    rcases table_looks _ hf _ hg hverb hlooks with heq | ⟨hjump, hjump'⟩
    · rw [← heq] at hv hnumbers
      exact .inl (eq_of_numbers hf hw hv hnumbers)
    · obtain ⟨hshape, hword⟩ := eq_ofTarget_of_has hjump hw
      obtain ⟨hshape', hword'⟩ := eq_ofTarget_of_has hjump' hv
      rw [hshape, hshape'] at hnumbers
      have htarget : w.target = v.target := Fin.ext (List.head_eq_of_cons_eq hnumbers)
      rw [← htarget] at hword'
      rcases hword with hword | hword <;> rcases hword' with hword' | hword'
      · exact .inl (hword.trans hword'.symm)
      · exact .inr ⟨w.target, .inl ⟨hword, hword'⟩⟩
      · exact .inr ⟨w.target, .inr ⟨hword, hword'⟩⟩
      · exact .inl (hword.trans hword'.symm)
  · rintro (rfl | ⟨t, ⟨rfl, rfl⟩ | ⟨rfl, rfl⟩⟩)
    · rfl
    · exact mnemonic_ofTarget t
    · exact (mnemonic_ofTarget t).symm

/-- A text that starts as that of a data word has the verb of one. -/
theorem verb_of_isPrefixOf {f : Form} {w : Word} (hf : f.isPlain = true)
    (h : "DW ".toList.isPrefixOf (f.text w).toList = true) : f.verb = "DW" := by
  obtain ⟨rest, hrest⟩ := List.isPrefixOf_iff_prefix.mp h
  have hparse := congrArg Prod.fst (parse_text hf w)
  rw [← hrest] at hparse
  exact String.toList_inj.mp hparse.symm

/-- The words that are not written as data are the instructions. -/
theorem isKnown_eq (w : Word) : w.isKnown = (Instruction.ofWord? w).isSome := by
  cases hsome : (Instruction.ofWord? w).isSome with
  | true =>
      obtain ⟨hmem, -⟩ := form_of_isSome hsome
      have hverbs : ∀ f ∈ table, f.verb ≠ "DW" := by decide
      unfold isKnown mnemonic
      rw [Bool.not_eq_true', Bool.eq_false_iff]
      intro hprefix
      exact hverbs _ hmem
        (verb_of_isPrefixOf (table_isPlain _ (List.mem_cons_of_mem data hmem)) hprefix)
  | false =>
      unfold isKnown mnemonic
      rw [form_of_isSome_eq_false hsome, toList_text]
      rfl

end Word

end ChipEight
