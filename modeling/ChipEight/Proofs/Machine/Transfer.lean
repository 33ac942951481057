import ChipEight.Proofs.Machine.Arithmetic

/-!
# Moving registers to memory and back

`Fx55` writes the registers up to `V[x]` to the index, and `Fx65` reads them from there. Each undoes
the other if the index is put back in between: registers that were stored are loaded again,
whatever was done to them, and bytes that were loaded are stored where they already are. `Fx33`
writes a register as three decimal digits, which `F265` reads.

The loops of these instructions are those of `ChipEight.Proofs.Machine.Block`; here it only matters
which byte goes with which register.

## Main results

* `Machine.byte_stored`, `Machine.bytes_stored_same` — the bytes behind `Fx55`.
* `Machine.transfer_inverse` — storing and loading, loading and storing, and the digits.
-/

namespace ChipEight

/-! ## Registers in order -/

theorem Reg.getElem?_upTo {r x : Reg} (h : r ≤ x) : (Reg.upTo x)[r.val]? = some r := by
  have hr := r.isLt
  have hrx : r.val < x.val + 1 := Nat.lt_succ_of_le h
  rw [Reg.upTo, List.getElem?_take_of_lt hrx,
    List.getElem?_eq_getElem (by rw [List.length_finRange]; exact hr), List.getElem_finRange]
  rfl

/-! ## Digits -/

/-- The digits of a byte. -/
theorem digits_exact (v : UInt8) :
    (v / 100).toNat ≤ 9 ∧ (v / 10 % 10).toNat ≤ 9 ∧ (v % 10).toNat ≤ 9 ∧
      100 * (v / 100).toNat + 10 * (v / 10 % 10).toNat + (v % 10).toNat = v.toNat := by
  have hv := v.toNat_lt
  have hhundreds : (v / 100).toNat = v.toNat / 100 := UInt8.toNat_div v 100
  have htens : (v / 10 % 10).toNat = v.toNat / 10 % 10 := by
    rw [UInt8.toNat_mod, UInt8.toNat_div]
    rfl
  have hunits : (v % 10).toNat = v.toNat % 10 := UInt8.toNat_mod v 10
  omega

namespace Machine

variable {m : Machine} {divider : Int} {keys : Keyboard} {s : Step} {x r : Reg}

/-! ## Bytes and registers -/

/-- Every register that is stored has a byte of its own. -/
theorem byte_stored (hindex : 0 ≤ m.index) (hroom : m.index + (x.val + 1) ≤ memorySize)
    (hr : r ≤ x) :
    (m.stored ((Reg.upTo x).map m.reg)).memory.byte (m.index.toNat + r.val) = m.reg r := by
  have hrx : r.val ≤ x.val := hr
  apply Memory.byte_storeAll
  · rw [List.getElem?_map, Reg.getElem?_upTo hr]
    rfl
  · omega

/-- Storing registers over bytes that are the same changes no byte. -/
theorem bytes_stored_same (hindex : 0 ≤ m.index) (hroom : m.index + (x.val + 1) ≤ memorySize)
    (hsame : ∀ r, r ≤ x → m.reg r = m.memory.byte (m.index.toNat + r.val)) :
    (m.stored ((Reg.upTo x).map m.reg)).memory.bytes = m.memory.bytes := by
  have hx := x.isLt
  apply Memory.bytes_ext
  intro a
  by_cases hin : m.index.toNat ≤ a ∧ a - m.index.toNat ≤ x.val
  · let r : Reg := ⟨a - m.index.toNat, by omega⟩
    have hr : r ≤ x := hin.2
    have ha : a = m.index.toNat + r.val := (Nat.add_sub_cancel' hin.1).symm
    rw [ha, byte_stored hindex hroom hr, hsame r hr]
  · apply Memory.byte_congr
    show (m.memory.storeAll m.index.toNat (some m.pc) _).bytes[a]? = _
    rw [Memory.bytes_storeAll, Memory.setBytes_outside]
    rw [List.length_map, Action.length_upTo]
    omega

/-- Registers that are loaded hold the bytes at the index. -/
theorem reg_loaded_of_lt {k : Nat} (h : r.val < k) :
    reg { m with registers := m.loaded k } r = m.memory.byte (m.index.toNat + r.val) := by
  unfold reg loaded
  rw [Fin.getElem_fin, Vector.getElem_ofFn]
  exact if_pos h

/-! ## Words -/

/-- `Fx55` stores at the index if there is room in the program region. -/
theorem yields_storeRegs (hlow : programStart ≤ m.index)
    (hroom : m.index + (x.val + 1) ≤ memorySize) :
    m.Yields (Word.ofRegByte 0xF x 0x55) fun m' =>
      m'.index = m.index + (x.val + 1) ∧
        m'.memory = (m.stored ((Reg.upTo x).map m.reg)).memory := by
  refine Yields.of_executes (i := .storeRegs x) ?_ ?_
  · intro keys
    exact allowed_storeRegs.mpr ⟨hlow, by omega, hroom⟩
  · intro divider keys s hexec
    rw [hexec.next, index_finish, memory_finish]
    exact ⟨rfl, rfl⟩

/-- `Fx65` loads what is at the index if that is in memory. -/
theorem yields_loadRegs (hindex : 0 ≤ m.index) (hroom : m.index + (x.val + 1) ≤ memorySize) :
    m.Yields (Word.ofRegByte 0xF x 0x65) fun m' =>
      m'.index = m.index + (x.val + 1) ∧ m'.memory = m.memory ∧
        ∀ r, m'.reg r = if r ≤ x then m.memory.byte (m.index.toNat + r.val) else m.reg r := by
  refine Yields.of_executes (i := .loadRegs x) ?_ ?_
  · intro keys
    exact allowed_loadRegs.mpr ⟨hindex, hroom⟩
  · intro divider keys s hexec
    rw [hexec.next, index_finish, memory_finish, effect]
    refine ⟨rfl, rfl, ?_⟩
    intro r
    rw [reg_finish]
    by_cases hr : r ≤ x
    · rw [if_pos hr]
      exact reg_loaded_of_lt (m := m) (Nat.lt_succ_of_le hr)
    · rw [if_neg hr]
      exact reg_loaded_of_le (m := m) (Nat.lt_of_not_le hr)

/-- `Fx33` stores digits at the index if there is room in the program region. -/
theorem yields_storeDecimal (hlow : programStart ≤ m.index) (hroom : m.index + 3 ≤ memorySize) :
    m.Yields (Word.ofRegByte 0xF x 0x33) fun m' =>
      m'.index = m.index ∧ m'.memory = (m.stored (decimalDigits (m.reg x))).memory := by
  refine Yields.of_executes (i := .storeDecimal x) ?_ ?_
  · intro keys
    exact allowed_storeDecimal.mpr ⟨hlow, by omega, hroom⟩
  · intro divider keys s hexec
    rw [hexec.next, index_finish, memory_finish]
    exact ⟨rfl, rfl⟩

/-! ## There and back -/

/-- From `m` to `m'` the index was put to `start`, and the `length` bytes from there on were left
alone. All else may have changed. -/
structure Rewound (start : Int) (length : Nat) (m m' : Machine) : Prop where
  index : m'.index = start
  bytes : ∀ a : Nat, start ≤ a → a < start + length → m'.memory.byte a = m.memory.byte a

/-- Registers that were stored are loaded again. -/
theorem yields_store_load (hlow : programStart ≤ m.index)
    (hroom : m.index + (x.val + 1) ≤ memorySize) :
    m.Yields (Word.ofRegByte 0xF x 0x55) fun m₁ =>
      m₁.index = m.index + (x.val + 1) ∧
      ∀ m₂, Rewound m.index (x.val + 1) m₁ m₂ →
        m₂.Yields (Word.ofRegByte 0xF x 0x65) fun m₃ =>
          m₃.index = m.index + (x.val + 1) ∧
          ∀ r, m₃.reg r = if r ≤ x then m.reg r else m₂.reg r := by
  have hindex : 0 ≤ m.index := by omega
  refine (yields_storeRegs hlow hroom).mono ?_
  rintro m₁ ⟨hbehind, hstored⟩
  refine ⟨hbehind, ?_⟩
  rintro m₂ ⟨hback, hblock⟩
  have hload := yields_loadRegs (x := x) (hback ▸ hindex) (hback ▸ hroom)
  rw [hback] at hload
  refine hload.mono ?_
  rintro m₃ ⟨hbehind', -, hloaded⟩
  refine ⟨hbehind', ?_⟩
  intro r
  rw [hloaded]
  by_cases hr : r ≤ x
  · have hrx : r.val ≤ x.val := hr
    rw [if_pos hr, if_pos hr, hblock _ (by omega) (by omega), hstored]
    exact byte_stored hindex hroom hr
  · rw [if_neg hr, if_neg hr]

/-- Bytes that were loaded are stored where they are. -/
theorem yields_load_store (hlow : programStart ≤ m.index)
    (hroom : m.index + (x.val + 1) ≤ memorySize) :
    m.Yields (Word.ofRegByte 0xF x 0x65) fun m₁ =>
      m₁.index = m.index + (x.val + 1) ∧
      ∀ m₂ : Machine, m₂.index = m.index → m₂.memory.bytes = m₁.memory.bytes →
        (∀ r, r ≤ x → m₂.reg r = m₁.reg r) →
        m₂.Yields (Word.ofRegByte 0xF x 0x55) fun m₃ =>
          m₃.index = m.index + (x.val + 1) ∧ m₃.memory.bytes = m.memory.bytes := by
  have hindex : 0 ≤ m.index := by omega
  refine (yields_loadRegs hindex hroom).mono ?_
  rintro m₁ ⟨hbehind, hkept, hloaded⟩
  refine ⟨hbehind, ?_⟩
  intro m₂ hback hbytes hregs
  rw [hkept] at hbytes
  refine (yields_storeRegs (hback ▸ hlow) (hback ▸ hroom)).mono ?_
  rintro m₃ ⟨hbehind', hstored⟩
  refine ⟨hback ▸ hbehind', ?_⟩
  have hsame : ∀ r, r ≤ x → m₂.reg r = m₂.memory.byte (m₂.index.toNat + r.val) := by
    intro r hr
    rw [hregs r hr, hloaded, if_pos hr, hback]
    exact Memory.byte_congr (by rw [hbytes])
  rw [hstored, bytes_stored_same (hback ▸ hindex) (hback ▸ hroom) hsame, hbytes]

/-- The digits of a register are stored, and loaded from where they are. -/
theorem yields_digits_load (hlow : programStart ≤ m.index) (hroom : m.index + 3 ≤ memorySize) :
    m.Yields (Word.ofRegByte 0xF x 0x33) fun m₁ =>
      m₁.index = m.index ∧
      (∀ k v, (decimalDigits (m.reg x))[k]? = some v →
        m₁.memory.byte (m.index.toNat + k) = v) ∧
      ∀ m₂, Rewound m.index 3 m₁ m₂ →
        m₂.Yields (Word.ofRegByte 0xF 2 0x65) fun m₃ =>
          ∀ r : Reg, r ≤ 2 → m₃.reg r = m₁.memory.byte (m.index.toNat + r.val) := by
  have hindex : 0 ≤ m.index := by omega
  refine (yields_storeDecimal hlow hroom).mono ?_
  rintro m₁ ⟨hkept, hstored⟩
  refine ⟨hkept, ?_, ?_⟩
  · intro k v hv
    have hk : k < 3 := (List.getElem?_eq_some_iff.mp hv).1
    rw [hstored]
    exact Memory.byte_storeAll _ _ hv (by omega)
  · rintro m₂ ⟨hback, hblock⟩
    have hload := yields_loadRegs (x := 2) (hback ▸ hindex) (hback ▸ hroom)
    rw [hback] at hload
    refine hload.mono ?_
    rintro m₃ ⟨-, -, hloaded⟩
    intro r hr
    have hr3 : r.val < 3 := Nat.lt_succ_of_le hr
    rw [hloaded, if_pos hr, hblock _ (by omega) (by omega)]

/-- Blocks of registers at an index in the program region, up to the last byte of memory. What
`Fx55` has stored, `Fx65` loads into whatever registers there are then, and the ones behind `V[x]`
are left alone; what `Fx65` has loaded, `Fx55` stores without changing any byte. Both leave the
index behind the block, and it has to be put back in between. `Fx33` stores the three digits of any
register, with the index left alone, and `F265` loads them. -/
theorem transfer_inverse (hlow : programStart ≤ m.index) (x : Reg) :
    (m.index + (x.val + 1) ≤ memorySize →
      (m.Yields (Word.ofRegByte 0xF x 0x55) fun m₁ =>
        m₁.index = m.index + (x.val + 1) ∧
        ∀ m₂, Rewound m.index (x.val + 1) m₁ m₂ →
          m₂.Yields (Word.ofRegByte 0xF x 0x65) fun m₃ =>
            m₃.index = m.index + (x.val + 1) ∧
            ∀ r, m₃.reg r = if r ≤ x then m.reg r else m₂.reg r) ∧
      m.Yields (Word.ofRegByte 0xF x 0x65) fun m₁ =>
        m₁.index = m.index + (x.val + 1) ∧
        ∀ m₂ : Machine, m₂.index = m.index → m₂.memory.bytes = m₁.memory.bytes →
          (∀ r, r ≤ x → m₂.reg r = m₁.reg r) →
          m₂.Yields (Word.ofRegByte 0xF x 0x55) fun m₃ =>
            m₃.index = m.index + (x.val + 1) ∧ m₃.memory.bytes = m.memory.bytes) ∧
    (m.index + 3 ≤ memorySize →
      m.Yields (Word.ofRegByte 0xF x 0x33) fun m₁ =>
        m₁.index = m.index ∧
        ∃ hundreds tens units : UInt8,
          m₁.memory.byte m.index.toNat = hundreds ∧
          m₁.memory.byte (m.index.toNat + 1) = tens ∧
          m₁.memory.byte (m.index.toNat + 2) = units ∧
          hundreds.toNat ≤ 9 ∧ tens.toNat ≤ 9 ∧ units.toNat ≤ 9 ∧
          100 * hundreds.toNat + 10 * tens.toNat + units.toNat = (m.reg x).toNat ∧
          ∀ m₂, Rewound m.index 3 m₁ m₂ →
            m₂.Yields (Word.ofRegByte 0xF 2 0x65) fun m₃ =>
              m₃.reg 0 = hundreds ∧ m₃.reg 1 = tens ∧ m₃.reg 2 = units) := by
  constructor
  · intro hroom
    exact ⟨yields_store_load hlow hroom, yields_load_store hlow hroom⟩
  · intro hroom
    refine (yields_digits_load hlow hroom).mono ?_
    rintro m₁ ⟨hkept, hdigits, hload⟩
    have hhundreds := hdigits 0 _ rfl
    have htens := hdigits 1 _ rfl
    have hunits := hdigits 2 _ rfl
    obtain ⟨hle, hle', hle'', hsum⟩ := digits_exact (m.reg x)
    refine ⟨hkept, _, _, _, hhundreds, htens, hunits, hle, hle', hle'', hsum, ?_⟩
    intro m₂ hback
    refine (hload m₂ hback).mono ?_
    intro m₃ hregs
    exact ⟨(hregs 0 (by decide)).trans hhundreds, (hregs 1 (by decide)).trans htens,
      (hregs 2 (by decide)).trans hunits⟩

/-- The machine that is about to execute a program, with the index at the last three bytes of
memory and 200 in every register. -/
def laden (program : List UInt8) : Machine := { poised program with index := 0xFFD }

/-- What is at the program counter behind a step that was computed. -/
theorem fetch_next {w : Word} (hstep : m.step divider keys = .ok s)
    (h : (m.step divider keys).toOption.bind (·.next.fetch.toOption) = some w) :
    s.next.fetch = .ok w := by
  rw [hstep] at h
  have hsome : s.next.fetch.toOption = some w := h
  cases hfetch : s.next.fetch with
  | error cause =>
      rw [hfetch] at hsome
      cases hsome
  | ok w' =>
      rw [hfetch] at hsome
      exact congrArg Except.ok (Option.some.inj hsome)

/-- Three registers come back after all were cleared; three bytes stay that are loaded and stored;
and the digits of 200 are loaded. -/
theorem laden_transfer :
    (∃ s s', (laden [0xF2, 0x55, 0xF2, 0x65]).step 8 Keypad.released.keyboard = .ok s ∧
      s.next.index = 0x1000 ∧
      step { s.next with index := 0xFFD, registers := Vector.replicate registerCount 0 } 8
        Keypad.released.keyboard = .ok s' ∧
      s'.next.index = 0x1000 ∧ ∀ r, r ≤ 2 → s'.next.reg r = 200) ∧
    (∃ s s', (laden [0xF2, 0x65, 0xF2, 0x55]).step 8 Keypad.released.keyboard = .ok s ∧
      step { s.next with index := 0xFFD } 8 Keypad.released.keyboard = .ok s' ∧
      s'.next.memory.bytes = (laden [0xF2, 0x65, 0xF2, 0x55]).memory.bytes) ∧
    ∃ s s', (laden [0xF7, 0x33, 0xF2, 0x65]).step 8 Keypad.released.keyboard = .ok s ∧
      s.next.step 8 Keypad.released.keyboard = .ok s' ∧
      100 * (s'.next.reg 0).toNat + 10 * (s'.next.reg 1).toNat + (s'.next.reg 2).toNat = 200 := by
  refine ⟨?_, ?_, ?_⟩
  · obtain ⟨s, hstep, hbehind, hback⟩ :=
      ((transfer_inverse (m := laden [0xF2, 0x55, 0xF2, 0x65]) (by decide) 2).1 (by decide)).1
        (fetch_poised 0xF2 0x55 _) 8 Keypad.released.keyboard
    have hnext := fetch_next hstep (w := Word.ofRegByte 0xF 2 0x65) (by decide +kernel)
    obtain ⟨s', hstep', hbehind', hregs⟩ :=
      hback { s.next with index := 0xFFD, registers := Vector.replicate registerCount 0 }
        ⟨rfl, fun _ _ _ => rfl⟩ hnext 8 Keypad.released.keyboard
    refine ⟨s, s', hstep, hbehind, hstep', hbehind', ?_⟩
    intro r hr
    rw [hregs, if_pos hr]
    exact Vector.getElem_replicate r.isLt
  · obtain ⟨s, hstep, -, hback⟩ :=
      ((transfer_inverse (m := laden [0xF2, 0x65, 0xF2, 0x55]) (by decide) 2).1 (by decide)).2
        (fetch_poised 0xF2 0x65 _) 8 Keypad.released.keyboard
    have hnext := fetch_next hstep (w := Word.ofRegByte 0xF 2 0x55) (by decide +kernel)
    obtain ⟨s', hstep', -, hbytes⟩ :=
      hback { s.next with index := 0xFFD } rfl rfl (fun _ _ => rfl) hnext 8
        Keypad.released.keyboard
    exact ⟨s, s', hstep, hstep', hbytes⟩
  · obtain ⟨s, hstep, hkept, hundreds, tens, units, -, -, -, -, -, -, hsum, hback⟩ :=
      (transfer_inverse (m := laden [0xF7, 0x33, 0xF2, 0x65]) (by decide) 7).2 (by decide)
        (fetch_poised 0xF7 0x33 _) 8 Keypad.released.keyboard
    have hnext := fetch_next hstep (w := Word.ofRegByte 0xF 2 0x65) (by decide +kernel)
    obtain ⟨s', hstep', rfl, rfl, rfl⟩ :=
      hback s.next ⟨hkept, fun _ _ _ => rfl⟩ hnext 8 Keypad.released.keyboard
    exact ⟨s, s', hstep, hstep', hsum⟩

end Machine

end ChipEight
