import ChipEight.Proofs.Machine.Journal
import ChipEight.Proofs.Session.Frame

/-!
# The log of stores of a session

Whatever a session does, other than loading programs and going back to power-on, is a run of its
machine, perhaps with the random source replaced in between. So the log of stores is a faithful
record of it, with the 256 entries that every machine has room for.

## Main results

* `Console.Course.performs`, `Session.performs_performAll` — what sessions do are runs of machines.
* `Session.log_faithful` — the log of any memory, and that of the machine of any session.
-/

namespace ChipEight

/-! ## Runs -/

/-- Steps that fail ask nothing of memory. -/
theorem Console.Course.performs {c d : Console} {rs : List StepReport} (h : Course c rs d) :
    ∃ ops, Machine.Performs c.config.timerDivider c.machine ops d.machine := by
  induction h with
  | refl c => exact ⟨[], .refl c.machine⟩
  | ok hstep _ ih =>
      obtain ⟨s, i, hexec, hconfig, -, hmachine, -⟩ := step_ok_inv hstep
      obtain ⟨ops, hrest⟩ := ih
      rw [hconfig, hmachine] at hrest
      exact ⟨_, .step hexec hrest⟩
  | error hstep _ ih =>
      obtain ⟨-, -, -, -, hbare⟩ := step_error_inv hstep
      rwa [config_of_bare hbare, machine_of_bare hbare] at ih

namespace Session

/-- The operation neither loads a program nor goes back to power-on. -/
def Op.GoesOn (o : Op) : Prop := o ≠ .reset ∧ ∀ program, o ≠ .load program

variable {s : Session}

theorem performs_perform {o : Op} (hgoes : o.GoesOn) :
    ∃ ops, Machine.Performs s.console.config.timerDivider s.console.machine ops
      (s.perform o).console.machine := by
  rcases o.onlySteps_or with honly | ⟨program, rfl⟩ | rfl | ⟨random, rfl⟩
  · obtain ⟨c, hcourse, hbare⟩ := s.course_perform honly
    rw [Console.machine_of_bare hbare]
    exact hcourse.performs
  · exact absurd rfl (hgoes.2 program)
  · exact absurd rfl hgoes.1
  · exact ⟨[], .reseed random (.refl _)⟩

theorem performs_performAll (ops : List Op) (hgo : ∀ o ∈ ops, o.GoesOn) :
    ∃ asked, Machine.Performs s.console.config.timerDivider s.console.machine asked
      (s.performAll ops).console.machine := by
  induction ops generalizing s with
  | nil => exact ⟨[], .refl _⟩
  | cons o ops ih =>
      obtain ⟨first, hfirst⟩ := performs_perform (s := s) (hgo o List.mem_cons_self)
      obtain ⟨rest, hrest⟩ :=
        ih (s := s.perform o) fun o' hmem => hgo o' (List.mem_cons_of_mem o hmem)
      rw [(s.settings_perform o).1] at hrest
      exact ⟨first ++ rest, hfirst.trans hrest⟩

/-! ## Logs -/

/-- At power-on the log is empty. -/
theorem log_reset (s : Session) : (s.perform .reset).console.machine.memory.log.toList = [] :=
  Recent.toList_empty _

/-- Loading a program leaves the log as it is. -/
theorem log_load (s : Session) (program : List UInt8) :
    (s.perform (.load program)).console.machine.memory.log = s.console.machine.memory.log := by
  show (s.console.load program).1.machine.memory.log = _
  unfold Console.load Machine.load Memory.load
  split
  · rfl
  · rename_i m hload
    split at hload
    · cases hload
      rfl
    · cases hload

/-- The log of stores is a faithful record. A memory whose log was empty keeps the entries of the
stores since the log was last emptied, as many of the latest as the log has room for, and with the
bytes put back that these have replaced, it is behind the stack what it was before the oldest of
them; that goes for all operations but loads. A store outside of memory fails and leaves no trace.
And so it is with the machine of a session, whose log has room for 256 entries, from power-on and
the last load on: each entry holds the address of the instruction `Fx33` or `Fx55` that has written
it. -/
theorem log_faithful :
    (∀ (m : Memory) (ops : List Memory.Op), m.log.toList = [] →
      (∀ program, .load program ∉ ops) → m.Journals ops) ∧
    (∀ (m : Memory) (address value : Int) (pc : Option Int), ¬Memory.InRange address 1 →
      m.writeByte address value pc = .error (.outOfBounds 1 address) ∧
        m.perform (.writeByte address value pc) = m) ∧
    ∀ (s : Session) (ops : List Op), s.Reachable → s.console.machine.memory.log.toList = [] →
      (∀ o ∈ ops, o.GoesOn) →
      s.console.machine.memory.log.capacity = some 256 ∧
        Machine.Journals s.console.config.timerDivider s.console.machine
          (s.performAll ops).console.machine := by
  refine ⟨fun _ _ => Memory.journals, ?_, ?_⟩
  · intro m address value pc hout
    constructor
    · unfold Memory.writeByte Memory.checkRange
      rw [if_neg hout]
      rfl
    · rw [Memory.perform_writeByte, if_neg hout]
  · intro s ops hreachable hempty hgo
    obtain ⟨asked, hrun⟩ := performs_performAll ops hgo
    exact ⟨hreachable.machine_of_invariant Machine.invariant_logLimit, hrun.journals hempty⟩

/-- Stores to one address, an address that is pushed, and a store outside of memory. -/
def scribbles : List Memory.Op :=
  [.writeByte 0x300 0x1FF none, .clearLog, .writeByte 0x300 7 none, .push 0x222,
    .writeByte (-1) 0 none, .writeByte 0x300 8 (some 0x204), .writeByte 0x301 9 none]

/-- A log with room for two entries holds the last two of the three stores since it was emptied, and
takes memory back to between the first and the second. The digits that the program `digits` stores
are logged with the address of the instruction. -/
theorem scribbles_log_faithful :
    (Memory.powerOn (some 2)).Journals scribbles ∧
      ((Memory.powerOn (some 2)).performAll scribbles).log.toList =
        [⟨0x300, 8, 7, some 0x204⟩, ⟨0x301, 9, 0, none⟩] ∧
      (Memory.undone ((Memory.powerOn (some 2)).performAll scribbles).bytes
        [⟨0x300, 8, 7, some 0x204⟩, ⟨0x301, 9, 0, none⟩])[0x300]? = some 7 ∧
      Machine.Journals 8 (fresh.perform (.load digits)).console.machine
        ((fresh.perform (.load digits)).performAll [.run 3]).console.machine ∧
      ((fresh.perform (.load digits)).performAll [.run 3]).console.machine.memory.log.toList =
        [⟨0x300, 1, 0, some 0x204⟩, ⟨0x301, 2, 0, some 0x204⟩, ⟨0x302, 3, 0, some 0x204⟩] := by
  obtain ⟨hmemory, -, hsession⟩ := log_faithful
  have hload : ∀ program, Memory.Op.load program ∉ scribbles := by
    intro program hmem
    simp [scribbles] at hmem
  have hempty : (fresh.perform (.load digits)).console.machine.memory.log.toList = [] := by
    rw [log_load]
    rfl
  have hgo : ∀ o ∈ [Op.run 3], o.GoesOn := by
    intro o ho
    rw [List.mem_singleton.mp ho]
    exact ⟨nofun, nofun⟩
  refine ⟨hmemory _ _ rfl hload, by decide +kernel, by decide +kernel, ?_, by decide +kernel⟩
  exact (hsession _ _ (reachable_fresh.perform _) hempty hgo).2

end Session

end ChipEight
