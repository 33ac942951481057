import ChipEight.Keypad

/-!
# Which keys are held

A key is held if the last operation that concerned it was a press. `Keypad.Op.about` says what an
operation means for a key; one that fails, because its code or its name stands for no key, means
nothing for any key. A keypad is the answers for its sixteen keys, so everything else follows key by
key: operations that concern no key in common may change places, and the key that is reported is the
first of those held.

## Main results

* `Keypad.isHeld_perform`, `Keypad.held_iff` — the keys that are held behind operations.
* `Keypad.perform_comm` — operations on different keys commute.
* `Keypad.pressedKey_eq_some_iff` — the key that is reported.
-/

namespace ChipEight

/-- A code names the key that has it as its number. -/
theorem Key.ofInt?_eq_ok_iff {code : Int} {k : Key} : Key.ofInt? code = .ok k ↔ code = k.val := by
  unfold Key.ofInt?
  constructor
  · intro h
    split at h
    · cases h
      simp only
      omega
    · cases h
  · rintro rfl
    have hlt := k.isLt
    rw [dif_pos ⟨Int.natCast_nonneg _, by omega⟩]
    rfl

theorem Key.toOption_ofInt?_eq_some_iff {code : Int} {k : Key} :
    (Key.ofInt? code).toOption = some k ↔ code = k.val := by
  rw [← Key.ofInt?_eq_ok_iff]
  cases Key.ofInt? code with
  | error cause => exact ⟨nofun, nofun⟩
  | ok j => exact ⟨fun h => congrArg _ (Option.some.inj h), fun h => congrArg _ (Except.ok.inj h)⟩

namespace Keypad

/-! ## Operations -/

/-- What can be done to a keypad. -/
inductive Op
  | press (code : Int)
  | release (code : Int)
  | pressHost (name : String)
  | releaseHost (name : String)
  | releaseAll
  deriving DecidableEq, Repr

/-- Whether an operation succeeds, and the keypad behind it; a code that names no key is a fault. -/
def answer (p : Keypad) : Op → Except Fault.Cause (Bool × Keypad)
  | .press code => (p.press code).map (true, ·)
  | .release code => (p.release code).map (true, ·)
  | .pressHost name => .ok (p.pressHost name)
  | .releaseHost name => .ok (p.releaseHost name)
  | .releaseAll => .ok (true, p.releaseAll)

/-- The keypad behind an operation, whether that succeeds or not. -/
def perform (p : Keypad) (o : Op) : Keypad :=
  match p.answer o with
  | .ok (_, p') => p'
  | .error _ => p

/-- The operation succeeds. -/
def Succeeds (p : Keypad) (o : Op) : Prop := ∃ p', p.answer o = .ok (true, p')

/-- The keypad behind a sequence of operations. -/
def performAll (p : Keypad) (ops : List Op) : Keypad := ops.foldl perform p

/-- What an operation means for the key `k`: that it is pressed, that it is released, or nothing. -/
def Op.about (k : Key) : Op → Option Bool
  | .press code => if code = k.val then some true else none
  | .release code => if code = k.val then some false else none
  | .pressHost name => if Key.ofHost? name = some k then some true else none
  | .releaseHost name => if Key.ofHost? name = some k then some false else none
  | .releaseAll => some false

variable {p q : Keypad} {k : Key} {o o' : Op}

/-! ## Single operations -/

theorem isHeld_released (k : Key) : released.isHeld k = false := by
  unfold isHeld released
  rw [Fin.getElem_fin, Vector.getElem_replicate]

theorem isHeld_mark (p : Keypad) (j : Key) (isDown : Bool) (k : Key) :
    (p.mark j isDown).isHeld k = if j = k then isDown else p.isHeld k := by
  unfold isHeld mark
  rw [Fin.getElem_fin, Vector.getElem_set]
  simp only [Fin.val_inj]
  rfl

/-- A keypad is the keys that are held. -/
theorem ext_isHeld (h : ∀ k, p.isHeld k = q.isHeld k) : p = q := by
  have hheld : p.held = q.held := Vector.ext fun i hi => h ⟨i, hi⟩
  cases p
  cases q
  cases hheld
  rfl

/-- The keypad with a key marked, if there is one to mark. -/
def marked (p : Keypad) (j? : Option Key) (isDown : Bool) : Keypad :=
  j?.elim p fun j => p.mark j isDown

theorem isHeld_marked (p : Keypad) (j? : Option Key) (isDown : Bool) (k : Key) :
    (p.marked j? isDown).isHeld k =
      (if j? = some k then some isDown else none).getD (p.isHeld k) := by
  cases j? with
  | none => rfl
  | some j =>
      show (p.mark j isDown).isHeld k = _
      rw [isHeld_mark]
      by_cases hjk : j = k
      · rw [if_pos hjk, if_pos (congrArg some hjk)]
        rfl
      · rw [if_neg hjk, if_neg fun heq => hjk (Option.some.inj heq)]
        rfl

theorem perform_press (p : Keypad) (code : Int) :
    p.perform (.press code) = p.marked (Key.ofInt? code).toOption true := by
  rw [perform, answer, press]
  cases Key.ofInt? code <;> rfl

theorem perform_release (p : Keypad) (code : Int) :
    p.perform (.release code) = p.marked (Key.ofInt? code).toOption false := by
  rw [perform, answer, release]
  cases Key.ofInt? code <;> rfl

theorem perform_pressHost (p : Keypad) (name : String) :
    p.perform (.pressHost name) = p.marked (Key.ofHost? name) true := by
  rw [perform, answer, pressHost]
  cases Key.ofHost? name <;> rfl

theorem perform_releaseHost (p : Keypad) (name : String) :
    p.perform (.releaseHost name) = p.marked (Key.ofHost? name) false := by
  rw [perform, answer, releaseHost]
  cases Key.ofHost? name <;> rfl

/-- A key behind an operation is as that says, or as it was. -/
theorem isHeld_perform (p : Keypad) (o : Op) (k : Key) :
    (p.perform o).isHeld k = (o.about k).getD (p.isHeld k) := by
  cases o with
  | press code =>
      rw [perform_press, isHeld_marked, Op.about]
      simp only [Key.toOption_ofInt?_eq_some_iff]
  | release code =>
      rw [perform_release, isHeld_marked, Op.about]
      simp only [Key.toOption_ofInt?_eq_some_iff]
  | pressHost name => rw [perform_pressHost, isHeld_marked, Op.about]
  | releaseHost name => rw [perform_releaseHost, isHeld_marked, Op.about]
  | releaseAll => exact isHeld_released k

/-- An operation that does not succeed concerns no key. -/
theorem about_of_not_succeeds (h : ¬p.Succeeds o) (k : Key) : o.about k = none := by
  cases o with
  | press code =>
      refine if_neg fun heq => h ⟨p.mark k true, ?_⟩
      rw [answer, press, Key.ofInt?_eq_ok_iff.mpr heq]
      rfl
  | release code =>
      refine if_neg fun heq => h ⟨p.mark k false, ?_⟩
      rw [answer, release, Key.ofInt?_eq_ok_iff.mpr heq]
      rfl
  | pressHost name =>
      refine if_neg fun heq => h ⟨p.mark k true, ?_⟩
      rw [answer, pressHost, heq]
  | releaseHost name =>
      refine if_neg fun heq => h ⟨p.mark k false, ?_⟩
      rw [answer, releaseHost, heq]
  | releaseAll => exact absurd ⟨_, rfl⟩ h

/-- An operation that concerns no key changes nothing. -/
theorem perform_of_about_eq_none (h : ∀ k, o.about k = none) : p.perform o = p := by
  apply ext_isHeld
  intro k
  rw [isHeld_perform, h k]
  rfl

/-- Operations that concern no key in common may change places. -/
theorem perform_comm (hapart : ∀ k, o.about k = none ∨ o'.about k = none) :
    (p.perform o).perform o' = (p.perform o').perform o := by
  apply ext_isHeld
  intro k
  simp only [isHeld_perform]
  rcases hapart k with hnone | hnone
  · rw [hnone]
    rfl
  · rw [hnone]
    rfl

/-! ## Sequences of operations -/

/-- The last operation that concerns a key decides. -/
theorem isHeld_performAll (ops : List Op) (p : Keypad) (k : Key) :
    (p.performAll ops).isHeld k = (ops.reverse.findSome? (·.about k)).getD (p.isHeld k) := by
  induction ops generalizing p with
  | nil => rfl
  | cons o ops ih =>
      show ((p.perform o).performAll ops).isHeld k = _
      rw [ih, isHeld_perform, List.reverse_cons, List.findSome?_append, List.findSome?_singleton]
      cases ops.reverse.findSome? (·.about k) <;> rfl

/-- A key is held iff the last operation that concerned it was a press. -/
theorem held_iff (ops : List Op) (k : Key) :
    (released.performAll ops).isHeld k = true ↔
      ∃ before o after, ops = before ++ o :: after ∧ o.about k = some true ∧
        ∀ o' ∈ after, o'.about k = none := by
  rw [isHeld_performAll, isHeld_released]
  constructor
  · intro h
    have hlast : ops.reverse.findSome? (·.about k) = some true := by
      cases hfind : ops.reverse.findSome? (·.about k) with
      | none =>
          rw [hfind] at h
          cases h
      | some b =>
          rw [hfind] at h
          exact congrArg some h
    obtain ⟨after, o, before, hsplit, habout, hquiet⟩ := List.findSome?_eq_some_iff.mp hlast
    refine ⟨before.reverse, o, after.reverse, ?_, habout, fun o' ho' =>
      hquiet o' (List.mem_reverse.mp ho')⟩
    rw [← List.reverse_reverse ops, hsplit, List.reverse_append, List.reverse_cons,
      List.append_assoc]
    rfl
  · rintro ⟨before, o, after, rfl, habout, hquiet⟩
    have hlast : (before ++ o :: after).reverse.findSome? (·.about k) = some true := by
      apply List.findSome?_eq_some_iff.mpr
      refine ⟨after.reverse, o, before.reverse, ?_, habout, fun o' ho' =>
        hquiet o' (List.mem_reverse.mp ho')⟩
      rw [List.reverse_append, List.reverse_cons, List.append_assoc]
      rfl
    rw [hlast]
    rfl

/-! ## The key that is reported -/

theorem pressedKey_eq_find? (p : Keypad) :
    p.pressedKey = (List.finRange keyCount).find? p.isHeld := List.head?_filter

theorem pressedKey_eq_none_iff : p.pressedKey = none ↔ ∀ k, p.isHeld k = false := by
  rw [pressedKey_eq_find?, List.find?_eq_none]
  simp only [List.mem_finRange, true_imp_iff, Bool.not_eq_true]

/-- The key that is reported is held, and no lower one is. -/
theorem least_of_pressedKey (h : p.pressedKey = some k) :
    p.isHeld k = true ∧ ∀ j, p.isHeld j = true → k ≤ j := by
  rw [pressedKey_eq_find?] at h
  obtain ⟨hheld, lower, higher, hsplit, hfree⟩ := List.find?_eq_some_iff_append.mp h
  refine ⟨hheld, ?_⟩
  intro j hj
  have hsorted := List.pairwise_lt_finRange keyCount
  have hmem := List.mem_finRange j
  rw [hsplit] at hsorted hmem
  rcases List.mem_append.mp hmem with hlower | hhigher
  · have hno := hfree j hlower
    rw [hj] at hno
    cases hno
  · rcases List.mem_cons.mp hhigher with rfl | hbehind
    · exact Fin.le_refl j
    · exact Fin.le_of_lt (List.rel_of_pairwise_cons (List.pairwise_append.mp hsorted).2.1 hbehind)

/-- The key that is reported is the least of those held. -/
theorem pressedKey_eq_some_iff :
    p.pressedKey = some k ↔ p.isHeld k = true ∧ ∀ j, p.isHeld j = true → k ≤ j := by
  constructor
  · exact least_of_pressedKey
  · rintro ⟨hheld, hleast⟩
    cases hkey : p.pressedKey with
    | none =>
        rw [pressedKey_eq_none_iff.mp hkey k] at hheld
        cases hheld
    | some j =>
        obtain ⟨hj, hlow⟩ := least_of_pressedKey hkey
        rw [Fin.le_antisymm (hleast j hj) (hlow k hheld)]

end Keypad

end ChipEight
