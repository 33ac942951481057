import ChipEight.Proofs.Console.PowerOn
import ChipEight.Proofs.Console.Step
import ChipEight.Proofs.Machine.CallStack
import ChipEight.Proofs.Session.Reachable

/-!
# The call stack and the open calls

Whoever watches a console step can keep a list of the calls that are open: a call that was
executed opens one, a return closes the newest, power-on closes all. This module shows that
the list is what the machine holds in the lowest bytes of its memory, over every sequence of
steps, failed ones included, of loads and of resets. Nothing that a routine does to memory
can therefore make its return go astray.

## Main results

* `Console.callStack_eq_openCalls` — the stack is the list of open calls; and the return that
  closes a call continues behind it, with the stack as it was at the call.
-/

namespace ChipEight

namespace Console

/-! ## Operations -/

/-- What can be done to a console. -/
inductive Op
  | load (program : List UInt8)
  /-- Executes one instruction, with the keys as they are then. -/
  | step (keys : Keyboard)
  /-- Goes back to power-on. -/
  | reset
  /-- Puts the random source anywhere, where one without a seed is after a reset. -/
  | reseed (random : Generator)

/-- The console behind an operation, whether that failed or not. -/
def perform (c : Console) : Op → Console
  | .load program => (c.load program).1
  | .step keys => (c.step keys).1
  | .reset => c.reset
  | .reseed random => { c with machine := { c.machine with random } }

/-- The console behind a sequence of operations. -/
def performAll (c : Console) (ops : List Op) : Console := ops.foldl perform c

/-! ## Open calls -/

/-- The open calls behind an executed instruction. -/
def openBehind (calls : List Int) (r : StepReport) : List Int :=
  if r.word.family.val = 0x2 then calls ++ [r.pc]
  else if r.word = 0x00EE then calls.dropLast
  else calls

/-- The open calls behind an operation on the console `c`. A step that fails executes
nothing. -/
def openAfter (c : Console) (calls : List Int) : Op → List Int
  | .load _ => calls
  | .step keys =>
    match (c.step keys).2 with
    | .ok r => openBehind calls r
    | .error _ => calls
  | .reset => []
  | .reseed _ => calls

/-- The open calls behind a sequence of operations on the console `c`. -/
def openCalls (c : Console) (calls : List Int) : List Op → List Int
  | [] => calls
  | o :: ops => (c.perform o).openCalls (c.openAfter calls o) ops

/-- The machine of the console is well formed and has the calls on its stack. -/
structure Tracks (c : Console) (calls : List Int) : Prop where
  wellFormed : c.machine.WellFormed Machine.pcLimit
  calls : c.machine.calls = calls

variable {c c' : Console} {calls : List Int} {keys : Keyboard} {r : StepReport}

/-! ## Steps -/

theorem Tracks.step_ok (h : Tracks c calls) (hstep : c.step keys = (c', .ok r)) :
    Tracks c' (openBehind calls r) := by
  obtain ⟨s, i, hexec, -, -, hmachine, hpc, hword, -⟩ := step_ok_inv hstep
  constructor
  · rw [hmachine]
    exact h.wellFormed.step (Machine.step_of_executes hexec)
  · unfold openBehind
    rw [hmachine, hword, hpc, ← h.calls]
    by_cases hcall : s.word.family.val = 0x2
    · rw [if_pos hcall]
      exact hexec.calls_of_call h.wellFormed hcall
    · rw [if_neg hcall]
      by_cases hret : s.word = 0x00EE
      · obtain ⟨p, hcalls, -⟩ := hexec.calls_of_ret hret
        rw [if_pos hret, hcalls, List.dropLast_concat]
      · rw [if_neg hret]
        exact hexec.calls_of_other hcall hret

theorem Tracks.step_error (h : Tracks c calls) {e : Failure}
    (hstep : c.step keys = (c', .error e)) : Tracks c' calls := by
  obtain ⟨-, -, -, -, hbare⟩ := step_error_inv hstep
  have hmachine := machine_of_bare hbare
  constructor
  · rw [hmachine]
    exact h.wellFormed
  · rw [hmachine]
    exact h.calls

theorem tracks_powerOn {g : Generator} (h : c.machine = .powerOn g) : Tracks c [] := by
  constructor
  · rw [h]
    exact Machine.wellFormed_powerOn g
  · rw [h]
    rfl

/-! ## Runs -/

theorem Tracks.load (h : Tracks c calls) (program : List UInt8) :
    Tracks (c.load program).1 calls := by
  unfold Console.load
  cases hload : c.machine.load program with
  | error cause => exact h
  | ok m => exact ⟨h.wellFormed.load hload, (Machine.calls_load hload).trans h.calls⟩

/-- One operation keeps track. -/
theorem Tracks.perform (h : Tracks c calls) (o : Op) :
    Tracks (c.perform o) (c.openAfter calls o) := by
  cases o with
  | load program => exact h.load program
  | step keys =>
      rcases hstep : c.step keys with ⟨c', e | r⟩
      · simp only [Console.perform, openAfter, hstep]
        exact h.step_error hstep
      · simp only [Console.perform, openAfter, hstep]
        exact h.step_ok hstep
  | reset => exact tracks_powerOn rfl
  | reseed random =>
      obtain ⟨hmemory, hindex, hdelay, hsound, hpc⟩ := h.wellFormed
      exact ⟨⟨hmemory, hindex, hdelay, hsound, hpc⟩, h.calls⟩

theorem Tracks.performAll (ops : List Op) :
    ∀ {c : Console} {calls : List Int}, Tracks c calls →
      Tracks (c.performAll ops) (c.openCalls calls ops) := by
  induction ops with
  | nil =>
      intro c calls h
      exact h
  | cons o ops ih =>
      intro c calls h
      exact ih (h.perform o)

theorem tracks_create {config : Config} {random : Option Generator} {trace : Trace.Dispatcher}
    (hcreate : create config random trace = .ok c) (ops : List Op) :
    Tracks (c.performAll ops) (c.openCalls [] ops) := by
  obtain ⟨g, hmachine⟩ := machine_create hcreate
  exact (tracks_powerOn hmachine).performAll ops

/-! ## Returns -/

/-- A call from `p` on top of the calls `base` is still open, or even some of those are
closed. -/
def Above (base : List Int) (p : Int) (calls : List Int) : Prop :=
  base ++ [p] <+: calls ∨ calls.length < base.length

variable {base : List Int} {p : Int}

/-- Closing the newest call leaves the one from `p` open, unless it is the newest. -/
theorem Above.dropLast (h : Above base p calls) (hne : calls.dropLast.length ≠ base.length) :
    Above base p calls.dropLast := by
  rcases h with ⟨later, rfl⟩ | hless
  · rcases List.eq_nil_or_concat later with rfl | ⟨init, x, rfl⟩
    · rw [List.append_nil, List.dropLast_concat] at hne
      exact absurd rfl hne
    · refine .inl ⟨init, ?_⟩
      rw [List.concat_eq_append, ← List.append_assoc, List.dropLast_concat]
  · refine .inr ?_
    rw [List.length_dropLast]
    omega

theorem Above.append (h : Above base p calls) {q : Int}
    (hne : (calls ++ [q]).length ≠ base.length) : Above base p (calls ++ [q]) := by
  rcases h with hkept | hless
  · exact .inl (hkept.trans (List.prefix_append calls [q]))
  · refine .inr ?_
    rw [List.length_append, List.length_singleton] at hne ⊢
    omega

/-- One operation that does not come back to the depth of `base`. -/
theorem Above.openAfter (h : Above base p calls) {o : Op}
    (hne : (c.openAfter calls o).length ≠ base.length) : Above base p (c.openAfter calls o) := by
  cases o with
  | load program => exact h
  | reset => exact .inr (Nat.pos_of_ne_zero fun hbase => hne hbase.symm)
  | reseed random => exact h
  | step keys =>
      unfold Console.openAfter at hne ⊢
      cases hresult : (c.step keys).2 with
      | error e =>
          simp only [hresult]
          exact h
      | ok r =>
          simp only [hresult, openBehind] at hne ⊢
          by_cases hcall : r.word.family.val = 0x2
          · rw [if_pos hcall] at hne ⊢
            exact h.append hne
          · rw [if_neg hcall] at hne ⊢
            by_cases hret : r.word = 0x00EE
            · rw [if_pos hret] at hne ⊢
              exact h.dropLast hne
            · rw [if_neg hret]
              exact h

/-- A sequence of operations none of which comes back to the depth of `base`. -/
theorem Above.openCalls (ops : List Op) :
    ∀ {c : Console} {calls : List Int}, Tracks c calls → Above base p calls →
      (∀ k, (c.performAll (ops.take k)).machine.calls.length ≠ base.length) →
      Above base p (c.openCalls calls ops) := by
  induction ops with
  | nil =>
      intro c calls _ h _
      exact h
  | cons o ops ih =>
      intro c calls htracks h hne
      have hnext := htracks.perform o
      have hfirst := hne 1
      have hlater : ∀ k,
          ((c.perform o).performAll (ops.take k)).machine.calls.length ≠ base.length :=
        fun k => hne (k + 1)
      change (c.perform o).machine.calls.length ≠ base.length at hfirst
      rw [hnext.calls] at hfirst
      exact ih hnext (h.openAfter hfirst) hlater

/-- The return that comes back to the depth of `base` closes the call from `p`. -/
theorem Above.pc_of_ret (h : Above base p calls) (hcalls : c.machine.calls = calls)
    (hstep : c.step keys = (c', .ok r)) (hret : r.word = 0x00EE)
    (hback : c'.machine.calls.length = base.length) :
    c'.machine.pc = p + 2 ∧ c'.machine.calls = base := by
  obtain ⟨s, i, hexec, -, -, hmachine, -, hword, -⟩ := step_ok_inv hstep
  obtain ⟨q, hstack, hpc⟩ := hexec.calls_of_ret (hword.symm.trans hret)
  rw [hmachine] at hback ⊢
  rw [← hcalls, hstack] at h
  -- The stack before the return is one call longer than `base`, so the call from `p` is the
  -- newest of it.
  rcases h with hkept | hless
  · have hlength : (base ++ [p]).length = (s.next.calls ++ [q]).length := by
      simp only [List.length_append, List.length_singleton]
      omega
    obtain ⟨hbase, hp⟩ := List.append_inj' (hkept.eq_of_length hlength) rfl
    cases hp
    exact ⟨hpc, hbase.symm⟩
  · rw [List.length_append, List.length_singleton] at hless
    omega

/-! ## The stack and the open calls -/

theorem sp_snapshot (m : Machine) : m.snapshot.sp = 2 * m.calls.length := by
  show ((stackBase + stackFrameSize * m.memory.depth.val : Nat) : Int) = _
  rw [Machine.length_calls]
  simp only [stackBase, stackFrameSize]
  omega

/-- After any operations on a console, the stack is the list of open calls, and there are at
most sixteen. If a call is executed then, whatever is done afterwards, the return that is
the first to come back to the depth before the call continues behind the call and leaves the
stack of before the call. -/
theorem callStack_eq_openCalls {config : Config} {random : Option Generator}
    {trace : Trace.Dispatcher} (hcreate : create config random trace = .ok c) (ops : List Op) :
    let d := c.performAll ops
    d.machine.snapshot.stack = c.openCalls [] ops ∧
    d.machine.snapshot.sp = 2 * (c.openCalls [] ops).length ∧
    (c.openCalls [] ops).length ≤ 16 ∧
    ∀ keys e call, d.step keys = (e, .ok call) → call.word.family.val = 0x2 →
      ∀ (during : List Op) keys' f ret,
        (∀ k, (e.performAll (during.take k)).machine.snapshot.sp ≠ d.machine.snapshot.sp) →
        (e.performAll during).step keys' = (f, .ok ret) → ret.word = 0x00EE →
        f.machine.snapshot.sp = d.machine.snapshot.sp →
        f.machine.pc = call.pc + 2 ∧ f.machine.snapshot.stack = d.machine.snapshot.stack := by
  intro d
  have htracks : Tracks d (c.openCalls [] ops) := tracks_create hcreate ops
  refine ⟨htracks.calls, ?_, ?_, ?_⟩
  · rw [sp_snapshot, htracks.calls]
  · rw [← htracks.calls, Machine.length_calls]
    exact Nat.le_of_lt_succ d.machine.memory.depth.isLt
  · intro keys e call hcall hcallWord during keys' f ret haway hret hretWord hback
    have hcalled := htracks.step_ok hcall
    rw [openBehind, if_pos hcallWord] at hcalled
    have hne : ∀ k, (e.performAll (during.take k)).machine.calls.length ≠
        (c.openCalls [] ops).length := by
      intro k hk
      apply haway k
      rw [sp_snapshot, sp_snapshot, htracks.calls, hk]
    have habove := Above.openCalls during hcalled (.inl (List.prefix_refl _)) hne
    have hreached := hcalled.performAll during
    rw [sp_snapshot, sp_snapshot, htracks.calls] at hback
    obtain ⟨hpc, hstack⟩ := habove.pc_of_ret hreached.calls hret hretWord (by omega)
    exact ⟨hpc, hstack.trans htracks.calls.symm⟩

/-- A program of a call at `0x200` and, at `0x204`, the return from it. -/
def callAndReturn : List UInt8 := [0x22, 0x04, 0x00, 0x00, 0x00, 0xEE]

/-- The console that is about to make that call. -/
def calling : Console := Session.fresh.console.performAll [.load callAndReturn]

/-- The two steps of the program. -/
theorem calling_steps :
    ∃ called returned call ret,
      calling.step noKeys = (called, .ok call) ∧
      called.step noKeys = (returned, .ok ret) ∧
      call.word.family.val = 0x2 ∧ ret.word = 0x00EE ∧
      called.machine.snapshot.sp ≠ calling.machine.snapshot.sp ∧
      returned.machine.snapshot.sp = calling.machine.snapshot.sp := by
  have hsteps :
      (calling.step noKeys).2.toOption = some ⟨0x200, 0x2204, 0x204, false, none⟩ ∧
      ((calling.step noKeys).1.step noKeys).2.toOption =
        some ⟨0x204, 0x00EE, 0x202, false, none⟩ ∧
      (calling.step noKeys).1.machine.snapshot.sp ≠ calling.machine.snapshot.sp ∧
      ((calling.step noKeys).1.step noKeys).1.machine.snapshot.sp =
        calling.machine.snapshot.sp := by
    decide +kernel
  obtain ⟨hcall, hret, haway, hback⟩ := hsteps
  exact ⟨_, _, _, _, step_eq_of_toOption hcall, step_eq_of_toOption hret, by decide, rfl,
    haway, hback⟩

/-- The return of the program continues behind its call. -/
theorem calling_callStack :
    ∃ called returned call ret,
      calling.step noKeys = (called, .ok call) ∧
      called.step noKeys = (returned, .ok ret) ∧
      returned.machine.pc = call.pc + 2 ∧
      returned.machine.snapshot.stack = calling.machine.snapshot.stack := by
  obtain ⟨called, returned, call, ret, hcall, hret, hcallWord, hretWord, haway, hback⟩ :=
    calling_steps
  obtain ⟨-, -, -, hreturns⟩ := callStack_eq_openCalls Session.create_fresh [.load callAndReturn]
  have hmatch := hreturns _ called call hcall hcallWord [] _ returned ret
    (fun k => by rw [List.take_nil]; exact haway) hret hretWord hback
  exact ⟨called, returned, call, ret, hcall, hret, hmatch⟩

end Console

end ChipEight
