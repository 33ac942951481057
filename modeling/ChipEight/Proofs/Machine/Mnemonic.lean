import ChipEight.Proofs.Instruction.Text
import ChipEight.Proofs.Machine.Classification
import ChipEight.Proofs.Memory.Bytes

/-!
# Texts and steps

The text of a word tells whether a machine can execute it, and what it does then. The first is
read off the rules for faults: only one of them reports an unknown word. The second holds
because the words that share a text jump to the same place, and jumps look at nothing.

Two machines with different words to execute have different memories. `SameBut` says that they
differ in nothing else, and `SameChange` compares what becomes of two machines.

## Main results

* `Machine.unknownOpcode_iff` — the words that no machine executes.
* `Machine.SameBut.step` — machines about to execute words of one text do the same.
-/

namespace ChipEight

namespace Machine

variable {limit divider : Int} {m m' : Machine} {keys : Keyboard} {w : Word}

/-! ## Unknown words -/

/-- One rule only reports an unknown word. -/
theorem condition_of_unknownOpcode {r : FaultRule} (hr : r ∈ m.faultRules keys)
    (hcondition : r.condition) (hkind : r.kind = .unknownOpcode) :
    ∀ i : Instruction, i.toWord ≠ m.memory.word m.pc.toNat := by
  simp only [faultRules, wordRules, List.mem_cons, List.not_mem_nil, or_false] at hr
  rcases hr with rfl | rfl | rfl | rfl | rfl | rfl | rfl | rfl | rfl | rfl | rfl
  case inr.inl => exact hcondition
  all_goals cases hkind

/-- The words that no machine executes are those that are written as data. -/
theorem unknownOpcode_iff (hwell : m.WellFormed limit) (hfetch : m.fetch = .ok w) :
    (∃ word cause, Blocked m keys word (.fault cause) ∧ cause.category = .unknownOpcode) ↔
      w.isKnown = false := by
  rw [Word.isKnown_eq, Option.isSome_eq_false_iff, Option.isNone_iff_eq_none]
  constructor
  · rintro ⟨word, cause, hblocked, hcategory⟩
    obtain ⟨c, hc, hdecide⟩ := decide_of_blocked hwell hblocked
    cases hc
    obtain ⟨r, hr, hcondition, hkind⟩ := hdecide.exists_rule
    have hunknown : cause.kind = .unknownOpcode := by
      unfold Fault.Cause.kind
      rw [hcategory]
      rfl
    rw [Instruction.ofWord?_eq_none_iff, ← (fetch_eq_ok_iff.mp hfetch).2]
    exact condition_of_unknownOpcode hr hcondition (hkind.trans hunknown)
  · intro hdecode
    exact ⟨some w, .unknownOpcode, .decode hfetch hdecode, rfl⟩

/-! ## Machines with different words -/

/-- The machine with other bytes in memory. -/
def withBytes (m : Machine) (bytes : Vector UInt8 memorySize) : Machine :=
  { m with memory := { m.memory with bytes } }

/-- The machines are the same, except for the two bytes at the program counter. -/
structure SameBut (m m' : Machine) : Prop where
  rest : m' = m.withBytes m'.memory.bytes
  bytes : ∀ a, a ≠ m.pc.toNat → a ≠ m.pc.toNat + 1 → m'.memory.byte a = m.memory.byte a

/-- What became of the machines `m` and `m'` is the same: `n` and `n'` agree in every component,
and in every byte that was not left as it had been in both. -/
structure SameChange (m m' n n' : Machine) : Prop where
  rest : n' = n.withBytes n'.memory.bytes
  bytes : ∀ a, n'.memory.byte a = n.memory.byte a ∨
    n.memory.byte a = m.memory.byte a ∧ n'.memory.byte a = m'.memory.byte a

theorem SameChange.refl (m m' n : Machine) : SameChange m m' n n := ⟨rfl, fun _ => .inl rfl⟩

theorem decay_withBytes (m : Machine) (bytes : Vector UInt8 memorySize) :
    (m.withBytes bytes).decay divider = (m.decay divider).withBytes bytes := by
  have hcycle : (m.withBytes bytes).cycle = m.cycle := rfl
  unfold decay
  rw [hcycle]
  split
  · rfl
  · rfl

/-- What follows an instruction does not look at memory. -/
theorem finish_withBytes (m : Machine) (bytes : Vector UInt8 memorySize) (setsPc : Bool) :
    (m.withBytes bytes).finish setsPc divider = (m.finish setsPc divider).withBytes bytes := by
  unfold finish
  rw [decay_withBytes]
  cases setsPc
  · rfl
  · rfl

/-- Machines that also have the same word to execute are the same. -/
theorem SameBut.eq_of_word (h : SameBut m m')
    (hword : m'.memory.word m.pc.toNat = m.memory.word m.pc.toNat) : m' = m := by
  obtain ⟨hhigh, hlow⟩ := Memory.bytes_of_word_eq hword
  have hbytes : m'.memory.bytes = m.memory.bytes := by
    apply Memory.bytes_ext
    intro a
    by_cases hfirst : a = m.pc.toNat
    · rw [hfirst, hhigh]
    · by_cases hsecond : a = m.pc.toNat + 1
      · rw [hsecond, hlow]
      · exact h.bytes a hfirst hsecond
  have hrest := h.rest
  rw [hbytes] at hrest
  exact hrest

/-! ## Jumps -/

/-- A machine that jumps, or is kept from it, does so in one way for both words. -/
theorem outcome_of_jump {t : Target} (hword : w = Word.ofTarget 0x1 t ∨ w = Word.ofTarget 0xB t)
    (hfetch : m.fetch = .ok w) (divider : Int) (keys : Keyboard) :
    if t.val < programStart then Blocked m keys (some w) (.fault (.reservedJump t.val))
    else ∃ i, Executes m divider keys
      ⟨m.pc, w, { m with pc := t.val }.finish true divider, none⟩ i := by
  obtain ⟨i, hjump, hdecode⟩ : ∃ i : Instruction, (i = .jump t ∨ i = .jumpAlt t) ∧
      Instruction.ofWord? w = some i := by
    rcases hword with rfl | rfl
    · exact ⟨.jump t, .inl rfl, Instruction.ofWord?_toWord (.jump t)⟩
    · exact ⟨.jumpAlt t, .inr rfl, Instruction.ofWord?_toWord (.jumpAlt t)⟩
  have hcheck : m.refusal? keys i =
      if t.val < programStart then some (.fault (.reservedJump t.val)) else none := by
    rcases hjump with rfl | rfl <;> rfl
  have heffect : m.effect keys i = { machine := { m with pc := t.val }, setsPc := true } := by
    rcases hjump with rfl | rfl <;> rfl
  split
  next hreserved =>
    rw [if_pos hreserved] at hcheck
    exact .check hfetch hdecode hcheck
  next hfree =>
    rw [if_neg hfree] at hcheck
    refine ⟨i, hfetch, hdecode, hcheck, rfl, ?_, ?_⟩
    · rw [heffect]
    · rw [heffect]

namespace SameBut

theorem pc (h : SameBut m m') : m'.pc = m.pc := by
  rw [h.rest]
  rfl

/-- Both machines jump to the same place, and nothing in their memories changes. -/
theorem sameChange_jump (h : SameBut m m') (t : Target) (divider : Int) :
    SameChange m m' ({ m with pc := t.val }.finish true divider)
      ({ m' with pc := t.val }.finish true divider) := by
  have hjump : { m' with pc := t.val } =
      { m with pc := (t.val : Int) }.withBytes m'.memory.bytes := by
    rw [h.rest]
    rfl
  have hmemory : ({ m with pc := (t.val : Int) }.finish true divider).memory = m.memory :=
    memory_finish _ true
  rw [hjump, finish_withBytes]
  refine ⟨rfl, fun a => .inr ⟨?_, rfl⟩⟩
  rw [hmemory]

/-- Machines that are about to execute words of one text do the same, or are kept from it for the
same reason. -/
theorem step (h : SameBut m m')
    (hshare : (m.memory.word m.pc.toNat).mnemonic = (m'.memory.word m.pc.toNat).mnemonic)
    (divider : Int) (keys : Keyboard) :
    (∃ s i s' i', Executes m divider keys s i ∧ Executes m' divider keys s' i' ∧
      s'.redraw = s.redraw ∧ SameChange m m' s.next s'.next) ∨
    ∃ word word' halt, Blocked m keys word halt ∧ Blocked m' keys word' halt := by
  -- Either both machines hold the same word, and are the same, or they hold the two jumps.
  rcases Word.mnemonic_eq_iff.mp hshare with hword | ⟨t, hwords⟩
  · obtain rfl := h.eq_of_word hword.symm
    rcases executes_or_blocked m' divider keys with ⟨s, i, hexec⟩ | ⟨word, halt, hblocked⟩
    · exact .inl ⟨s, i, s, i, hexec, hexec, rfl, .refl _ _ _⟩
    · exact .inr ⟨word, word, halt, hblocked, hblocked⟩
  · by_cases hrange : Memory.InRange m.pc 2
    · have hfetch := fetch_of_inRange hrange
      rw [← h.pc] at hrange
      have hfetch' := fetch_of_inRange hrange
      rw [h.pc] at hfetch'
      obtain ⟨hjump, hjump'⟩ :
          (m.memory.word m.pc.toNat = Word.ofTarget 0x1 t ∨
            m.memory.word m.pc.toNat = Word.ofTarget 0xB t) ∧
          (m'.memory.word m.pc.toNat = Word.ofTarget 0x1 t ∨
            m'.memory.word m.pc.toNat = Word.ofTarget 0xB t) := by
        rcases hwords with ⟨hw, hw'⟩ | ⟨hw, hw'⟩
        · exact ⟨.inl hw, .inr hw'⟩
        · exact ⟨.inr hw, .inl hw'⟩
      have houtcome := outcome_of_jump hjump hfetch divider keys
      have houtcome' := outcome_of_jump hjump' hfetch' divider keys
      split at houtcome
      next hreserved =>
        rw [if_pos hreserved] at houtcome'
        exact .inr ⟨_, _, _, houtcome, houtcome'⟩
      next hfree =>
        rw [if_neg hfree] at houtcome'
        obtain ⟨i, hexec⟩ := houtcome
        obtain ⟨i', hexec'⟩ := houtcome'
        exact .inl ⟨_, i, _, i', hexec, hexec', rfl, h.sameChange_jump t divider⟩
    · have hfetch := fetch_of_not_inRange hrange
      rw [← h.pc] at hrange
      have hfetch' := fetch_of_not_inRange hrange
      rw [h.pc] at hfetch'
      exact .inr ⟨none, none, _, .fetch hfetch, .fetch hfetch'⟩

end SameBut

end Machine

end ChipEight
