import ChipEight.Proofs.Console.Step
import ChipEight.Proofs.Machine.Mnemonic
import ChipEight.Proofs.Session.WellFormed

/-!
# What assembly texts tell of a session

A step fails for an unknown word iff the word is written as data, and words with one text do the
same to a console. The second needs two consoles, which hold the one and the other word: they
differ in these bytes only, and `Concur` compares what their steps result in. Failures are
compared up to the word that is reported and the copy of the state.

## Main results

* `Console.concur_step` — words with one text do the same.
* `Session.reachable_mnemonic` — texts and steps agree.
-/

namespace ChipEight

/-- The failure with another word and another state in the report. -/
def Failure.restated (opcode : Option Int) (state : Snapshot) : Failure → Failure
  | .fault f => .fault { f with opcode, snapshot := some state }
  | e => e

/-- The same halt is reported alike by all machines. -/
theorem Machine.failure_eq_restated (m m' : Machine) (pc : Int) (word word' : Option Word)
    (halt : Halt) : m'.failure pc word' halt =
      (m.failure pc word halt).restated (word'.map fun w => (w.toNat : Int)) m'.snapshot := by
  cases halt with
  | fault cause => rfl
  | notAByte => rfl

namespace Console

/-! ## Steps of two consoles -/

/-- Steps of the consoles `c` and `c'` had the same results: both did the same, and the reports
tell only the words apart; or both were given up for the same reason, and the reports tell apart
the words and the machines, which are still what they were. -/
inductive Concur (c c' : Console) :
    Console × Except Failure StepReport → Console × Except Failure StepReport → Prop
  | executed {d d' : Console} {r r' : StepReport}
      (machine : Machine.SameChange c.machine c'.machine d.machine d'.machine)
      (rest : d'.bare = { d.bare with machine := d'.machine })
      (report : r' = { r with word := r'.word, description := r'.description }) :
      Concur c c' (d, .ok r) (d', .ok r')
  | failed {d d' : Console} {opcode opcode' : Option Int} (e : Failure) (left : d.bare = c.bare)
      (left' : d'.bare = c'.bare) :
      Concur c c' (d, .error (e.restated opcode c.machine.snapshot))
        (d', .error (e.restated opcode' c'.machine.snapshot))

/-- A console with another machine shows the same picture behind an instruction that does the
same. -/
theorem behind_withMachine (c : Console) (m' : Machine) {s s' : Machine.Step}
    (hredraw : s'.redraw = s.redraw) (hdisplay : s'.next.display = s.next.display) :
    { c with machine := m' }.behind s' = { c.behind s with machine := s'.next } := by
  unfold behind redraw
  rw [hredraw]
  split
  · rw [hdisplay]
  · rfl

/-- Words with one text do the same to a console, or are refused for the same reason. -/
theorem concur_step {c : Console} {m' : Machine} (h : c.machine.SameBut m')
    (hshare : (c.machine.memory.word c.machine.pc.toNat).mnemonic =
      (m'.memory.word m'.pc.toNat).mnemonic) (keys : Keyboard) :
    Concur c { c with machine := m' } (c.step keys) ({ c with machine := m' }.step keys) := by
  rw [h.pc] at hshare
  rcases h.step hshare c.config.timerDivider keys with
    ⟨s, i, s', i', hexec, hexec', hredraw, hchange⟩ | ⟨word, word', halt, hblocked, hblocked'⟩
  · obtain ⟨d, hstep, hbare⟩ := step_of_executes hexec
    obtain ⟨d', hstep', hbare'⟩ := step_of_executes (c := { c with machine := m' }) hexec'
    have hmachine : d.machine = s.next := (machine_of_bare hbare).trans (machine_behind c s)
    have hmachine' : d'.machine = s'.next := (machine_of_bare hbare').trans (machine_behind _ s')
    have hnext : s'.next = s.next.withBytes s'.next.memory.bytes := hchange.rest
    rw [hstep, hstep']
    apply Concur.executed
    · rw [hmachine, hmachine']
      exact hchange
    · rw [hbare', hbare, hmachine', behind_withMachine c m' hredraw (by rw [hnext]; rfl)]
      rfl
    · unfold answerOf
      rw [hredraw, hexec.pc, hexec'.pc, h.pc, hnext]
      rfl
  · obtain ⟨d, hstep, hbare⟩ := step_of_blocked hblocked
    obtain ⟨d', hstep', hbare'⟩ : ∃ d', { c with machine := m' }.step keys =
        (d', .error (m'.failure c.machine.pc word' halt)) ∧
        d'.bare = { c with machine := m' }.bare := h.pc ▸ step_of_blocked hblocked'
    rw [c.machine.failure_eq_restated c.machine] at hstep
    rw [c.machine.failure_eq_restated m' _ word word' halt] at hstep'
    rw [hstep, hstep']
    exact .failed _ hbare hbare'

/-! ## Unknown words -/

/-- A step of a console fails for an unknown word iff that is written as data. -/
theorem unknownOpcode_iff {c : Console} {w : Word} (hwell : c.machine.WellFormed Machine.pcLimit)
    (hfetch : c.machine.fetch = .ok w) (keys : Keyboard) :
    (∃ f, (c.step keys).2 = .error (.fault f) ∧ f.category = .unknownOpcode) ↔
      w.isKnown = false := by
  constructor
  · rintro ⟨f, hstep, hcategory⟩
    obtain ⟨word, halt, hblocked, hfailure, -⟩ := step_error_inv (Prod.ext rfl hstep)
    obtain ⟨cause, rfl⟩ := hblocked.eq_fault hwell
    cases hfailure
    exact (Machine.unknownOpcode_iff hwell hfetch).mp ⟨word, cause, hblocked, hcategory⟩
  · intro hdata
    obtain ⟨word, cause, hblocked, hcategory⟩ :=
      (Machine.unknownOpcode_iff hwell hfetch).mpr hdata
    obtain ⟨d, hstep, -⟩ := step_of_blocked hblocked
    rw [hstep]
    exact ⟨_, rfl, hcategory⟩

end Console

namespace Session

/-- Texts and steps agree. In a reachable session with the word `w` at the program counter, a
step fails for an unknown word iff `w` is written as data. No word has two of the forms in the
table, so their order makes no difference to any text. Words with one text do the same to every
console, in every component of its machine, and are refused for the same reason. And different
words share a text only if they are `1nnn` and `Bnnn`, which do so for every `nnn`. -/
theorem reachable_mnemonic {s : Session} (h : Reachable s) :
    (s.console.machine.pc ≤ 0xFFE → ∃ w, s.console.machine.fetch = .ok w ∧ ∀ keys,
      (∃ f, (s.console.step keys).2 = .error (.fault f) ∧ f.category = .unknownOpcode) ↔
        w.isKnown = false) ∧
    (Form.table.Pairwise fun f g => ∀ w, ¬(f.has w = true ∧ g.has w = true)) ∧
    (∀ forms, List.Perm forms Form.table → ∀ w : Word,
      (w.formIn forms).text w = w.mnemonic) ∧
    (∀ (c : Console) (m' : Machine) (keys : Keyboard), c.machine.SameBut m' →
      (c.machine.memory.word c.machine.pc.toNat).mnemonic =
        (m'.memory.word m'.pc.toNat).mnemonic →
      c.Concur { c with machine := m' } (c.step keys) ({ c with machine := m' }.step keys)) ∧
    ∀ w v : Word, w.mnemonic = v.mnemonic ↔ w = v ∨ ∃ t : Target,
      w = .ofTarget 0x1 t ∧ v = .ofTarget 0xB t ∨ w = .ofTarget 0xB t ∧ v = .ofTarget 0x1 t := by
  refine ⟨?_, Form.table_pairwise, ?_, ?_, fun w v => Word.mnemonic_eq_iff⟩
  · intro hpc
    have hwell := h.machine_of_invariant Machine.invariant_wellFormed
    have hrange := (Machine.inRange_pc_iff hwell).mpr (Int.not_lt.mpr hpc)
    have hfetch := Machine.fetch_of_inRange hrange
    exact ⟨_, hfetch, Console.unknownOpcode_iff hwell hfetch⟩
  · intro forms hperm w
    rw [Word.formIn_of_perm hperm]
    rfl
  · intro c m' keys hsame hshare
    exact Console.concur_step hsame hshare keys

/-- The session with a program that jumps ahead. -/
def leaping : Session := fresh.perform (.load [0x13, 0x00])

/-- Its machine, with the other jump in place of the one. -/
def otherLeap : Machine :=
  leaping.console.machine.withBytes
    (Memory.setBytes leaping.console.machine.memory.bytes 0x200 [0xB3, 0x00])

theorem sameBut_otherLeap (hpc : leaping.console.machine.pc = 0x200) :
    leaping.console.machine.SameBut otherLeap where
  rest := rfl
  bytes := by
    intro a hfirst hsecond
    rw [hpc] at hfirst hsecond
    have houtside : a < 0x200 ∨ 0x200 + [(0xB3 : UInt8), 0x00].length ≤ a := by
      simp only [List.length_cons, List.length_nil]
      omega
    exact Memory.byte_congr (Memory.setBytes_outside houtside)

/-- The jump is known, and the other one does the same. -/
theorem leaping_mnemonic :
    (¬∃ f, (leaping.console.step leaping.keyboard).2 = .error (.fault f) ∧
      f.category = .unknownOpcode) ∧
    leaping.console.Concur { leaping.console with machine := otherLeap }
      (leaping.console.step leaping.keyboard)
      ({ leaping.console with machine := otherLeap }.step leaping.keyboard) := by
  have hreachable : Reachable leaping := reachable_fresh.perform _
  obtain ⟨hunknown, -, -, hconcur, hshare⟩ := reachable_mnemonic hreachable
  have hbegin : leaping.console.machine.pc = 0x200 ∧
      leaping.console.machine.memory.word leaping.console.machine.pc.toNat = 0x1300 ∧
      otherLeap.memory.word otherLeap.pc.toNat = 0xB300 ∧
      Word.isKnown 0x1300 = true := by
    decide +kernel
  obtain ⟨hpc, hword, hother, htext⟩ := hbegin
  constructor
  · obtain ⟨w, hfetch, hstep⟩ := hunknown (by rw [hpc]; decide)
    obtain rfl : w = 0x1300 := (Machine.fetch_eq_ok_iff.mp hfetch).2.symm.trans hword
    rw [hstep, htext]
    exact Bool.noConfusion
  · apply hconcur _ _ _ (sameBut_otherLeap hpc)
    rw [hword, hother]
    exact (hshare _ _).mpr (.inr ⟨⟨0x300, by decide⟩, .inl ⟨rfl, rfl⟩⟩)

end Session

end ChipEight
