import ChipEight.Proofs.Snapshot.Field

/-!
# What a difference tells

The difference of two snapshots of machines tells all that differs and nothing else. It lists
every field and every byte that differs, once, with both values; the call stack, which is not
compared, is told by the bytes and the stack pointer. So the second snapshot can be made from the
first: `Snapshot.patched` writes the new values over the old ones and reads the stack anew.

A list of changed bytes is made address by address, and every fact about it is an induction on
the two memories. Fields are changed one after another, and since each has a name of its own, a
change is neither lost nor overwritten.

## Main results

* `Snapshot.fields_diff`, `Snapshot.mem_byteChanges_iff` — what is listed.
* `Snapshot.foldl_setByte_byteChanges`, `Snapshot.value_foldl_setField` — the listed values, written
  over the first snapshot, are those of the second.
* `Machine.diff_tells` — differences of machines.
-/

namespace ChipEight

/-! ## Changes back and forth -/

/-- The change in the other direction. -/
def FieldChange.swap (c : FieldChange) : FieldChange :=
  { c with before := c.after, after := c.before }

/-- The change in the other direction. -/
def ByteChange.swap (c : ByteChange) : ByteChange :=
  { c with before := c.after, after := c.before }

/-- The difference in the other direction. -/
def SnapshotDiff.swap (d : SnapshotDiff) : SnapshotDiff :=
  { d with fields := d.fields.map FieldChange.swap, bytes := d.bytes.map ByteChange.swap }

namespace Snapshot

/-- Changes the field that a change names to its new value. -/
def setField (s : Snapshot) (c : FieldChange) : Snapshot :=
  (Field.ofName? c.name).elim s (s.put c.after)

/-- Writes the new value of a byte over the old one. -/
def setByte (memory : List UInt8) (c : ByteChange) : List UInt8 := memory.set c.address c.after

/-- The snapshot in which all that a difference lists has its new value. The new display is not
part of a difference, and the stack is read anew. -/
def patched (s : Snapshot) (d : SnapshotDiff) (display : List Int) : Snapshot :=
  let t := d.fields.foldl setField s
  let memory := d.bytes.foldl setByte s.memory
  { t with
    memory
    display := if d.displayChanged then display else s.display
    stack := framesIn memory t.sp }

variable {a b : Snapshot}

/-! ## Fields -/

/-- The values of a field in two snapshots. -/
def change (a b : Snapshot) (f : Field) : FieldChange := ⟨f.name, a.value f, b.value f⟩

/-- The fields that differ, in the order of comparison. -/
def changed (a b : Snapshot) : List Field := Field.all.filter fun f => a.value f ≠ b.value f

theorem mem_changed_iff {f : Field} : f ∈ a.changed b ↔ a.value f ≠ b.value f := by
  unfold changed
  rw [List.mem_filter, decide_eq_true_eq]
  exact and_iff_right f.mem_all

theorem fieldChanges_map (a b : Snapshot) (fs : List Field) :
    fieldChanges (fs.map fun f => (f.name, a.value f)) (fs.map fun f => (f.name, b.value f)) =
      (fs.filter fun f => a.value f ≠ b.value f).map (a.change b) := by
  induction fs with
  | nil => rfl
  | cons f fs ih =>
      unfold fieldChanges at ih ⊢
      rw [List.map_cons, List.map_cons, List.zip_cons_cons, List.filterMap_cons, ih,
        List.filter_cons]
      unfold fieldChange?
      by_cases hsame : a.value f = b.value f
      · simp [hsame]
      · simp [hsame, change]

/-- The fields that differ are listed. -/
theorem fields_diff (ha : a.IsCapture) (hb : b.IsCapture) :
    (a.diff b).fields = (a.changed b).map (a.change b) := by
  show fieldChanges a.namedRegisters b.namedRegisters ++ fieldChanges a.counters b.counters = _
  rw [namedRegisters_eq ha.registerCount, namedRegisters_eq hb.registerCount, counters_eq,
    counters_eq, fieldChanges_map, fieldChanges_map, changed, Field.all, List.filter_append,
    List.map_append]

theorem mem_fields_diff_iff (ha : a.IsCapture) (hb : b.IsCapture) (c : FieldChange) :
    c ∈ (a.diff b).fields ↔ c.before ≠ c.after ∧
      ∃ f : Field, f.name = c.name ∧ a.value f = c.before ∧ b.value f = c.after := by
  rw [fields_diff ha hb, List.mem_map]
  constructor
  · rintro ⟨f, hf, rfl⟩
    exact ⟨mem_changed_iff.mp hf, f, rfl, rfl, rfl⟩
  · obtain ⟨name, before, after⟩ := c
    rintro ⟨hdiffer, f, rfl, rfl, rfl⟩
    exact ⟨f, mem_changed_iff.mpr hdiffer, rfl⟩

theorem nodup_names_diff (ha : a.IsCapture) (hb : b.IsCapture) :
    ((a.diff b).fields.map (·.name)).Nodup := by
  have hnames : ((a.changed b).map (a.change b)).map (·.name) = (a.changed b).map Field.name := by
    rw [List.map_map]
    rfl
  rw [fields_diff ha hb, hnames]
  exact Field.nodup_names.sublist (List.filter_sublist.map _)

/-- Among changes with distinct names, a name finds the one that has it. -/
theorem find?_name_eq_some_iff {cs : List FieldChange} (hnodup : (cs.map (·.name)).Nodup)
    (name : String) (c : FieldChange) :
    cs.find? (fun e => e.name == name) = some c ↔ c ∈ cs ∧ c.name = name := by
  constructor
  · intro hfind
    exact ⟨List.mem_of_find?_eq_some hfind, eq_of_beq (List.find?_some hfind :)⟩
  · rintro ⟨hmem, rfl⟩
    induction cs with
    | nil => cases hmem
    | cons e es ih =>
        rw [List.map_cons, List.nodup_cons] at hnodup
        rcases List.mem_cons.mp hmem with rfl | hrest
        · exact List.find?_cons_of_pos (beq_self_eq_true _)
        · have hne : e.name ≠ c.name := fun h =>
            hnodup.1 (h ▸ List.mem_map_of_mem hrest)
          rw [List.find?_cons_of_neg (by simpa using hne)]
          exact ih hnodup.2 hrest

theorem setField_change (s : Snapshot) (f : Field) :
    s.setField (a.change b f) = s.put (b.value f) f := by
  unfold setField change
  rw [f.ofName?_name]
  rfl

theorem length_registers_foldl_setField (fs : List Field) (s : Snapshot) :
    ((fs.map (a.change b)).foldl setField s).registers.length = s.registers.length := by
  induction fs generalizing s with
  | nil => rfl
  | cons f fs ih =>
      rw [List.map_cons, List.foldl_cons, ih, setField_change, length_registers_put]

/-- Writing the new values of some fields over a snapshot changes these and no others. -/
theorem value_foldl_setField (fs : List Field) {s : Snapshot}
    (hcount : s.registers.length = registerCount) (g : Field) :
    ((fs.map (a.change b)).foldl setField s).value g =
      if g ∈ fs then b.value g else s.value g := by
  induction fs generalizing s with
  | nil => rfl
  | cons f fs ih =>
      rw [List.map_cons, List.foldl_cons, setField_change,
        ih ((length_registers_put ..).trans hcount), value_put hcount]
      by_cases hrest : g ∈ fs
      · rw [if_pos hrest, if_pos (List.mem_cons_of_mem f hrest)]
      · by_cases hhead : g = f
        · rw [if_neg hrest, if_pos hhead, hhead, if_pos List.mem_cons_self]
        · rw [if_neg hrest, if_neg hhead,
            if_neg (fun h => (List.mem_cons.mp h).elim hhead hrest)]

/-! ## Bytes -/

/-- The element at an address, in a list that begins at address `k`. -/
theorem getElem?_cons_sub {x : UInt8} {xs : List UInt8} {i k : Nat} (h : k ≤ i) :
    (x :: xs)[i - k]? = if i = k then some x else xs[i - (k + 1)]? := by
  split
  next heq => rw [heq, Nat.sub_self, List.getElem?_cons_zero]
  next hne =>
    rw [show i - k = i - (k + 1) + 1 by omega, List.getElem?_cons_succ]

/-- A byte is another in the second of two memories that begin at address `k`. -/
def Occurs (c : ByteChange) (k : Nat) (xs ys : List UInt8) : Prop :=
  c.before ≠ c.after ∧ k ≤ c.address ∧
    xs[c.address - k]? = some c.before ∧ ys[c.address - k]? = some c.after

theorem occurs_cons_iff {c : ByteChange} {k : Nat} {x y : UInt8} {xs ys : List UInt8} :
    Occurs c k (x :: xs) (y :: ys) ↔ x ≠ y ∧ c = ⟨k, x, y⟩ ∨ Occurs c (k + 1) xs ys := by
  unfold Occurs
  constructor
  · rintro ⟨hdiffer, hle, hx, hy⟩
    rw [getElem?_cons_sub hle] at hx hy
    by_cases heq : c.address = k
    · rw [if_pos heq] at hx hy
      cases hx
      cases hy
      exact .inl ⟨hdiffer, by rw [← heq]⟩
    · rw [if_neg heq] at hx hy
      exact .inr ⟨hdiffer, by omega, hx, hy⟩
  · rintro (⟨hxy, rfl⟩ | ⟨hdiffer, hle, hx, hy⟩)
    · rw [Nat.sub_self]
      exact ⟨hxy, Nat.le_refl _, rfl, rfl⟩
    · have hne : c.address ≠ k := by omega
      rw [getElem?_cons_sub (by omega), getElem?_cons_sub (by omega), if_neg hne, if_neg hne]
      exact ⟨hdiffer, by omega, hx, hy⟩

/-- Where one of the memories has ended there is nothing to compare. -/
theorem not_occurs_of_ended {c : ByteChange} {k : Nat} {xs ys : List UInt8}
    (hends : ∀ x xs' y ys', xs = x :: xs' → ys = y :: ys' → False) : ¬Occurs c k xs ys := by
  rintro ⟨-, -, hx, hy⟩
  cases xs with
  | nil => cases hx
  | cons x xs =>
      cases ys with
      | nil => cases hy
      | cons y ys => exact hends x xs y ys rfl rfl

/-- The bytes that differ are listed, and no others. -/
theorem mem_byteChanges_iff (c : ByteChange) (k : Nat) (xs ys : List UInt8) :
    c ∈ byteChanges k xs ys ↔ Occurs c k xs ys := by
  fun_induction byteChanges k xs ys with
  | case1 k x xs ys ih =>
      rw [ih, occurs_cons_iff]
      exact (or_iff_right fun h => h.1 rfl).symm
  | case2 k x xs y ys hxy ih =>
      rw [List.mem_cons, ih, occurs_cons_iff]
      exact or_congr_left (and_iff_right hxy).symm
  | case3 k xs ys hends => exact iff_of_false List.not_mem_nil (not_occurs_of_ended hends)

theorem mem_bytes_diff_iff (a b : Snapshot) (c : ByteChange) :
    c ∈ (a.diff b).bytes ↔ c.before ≠ c.after ∧
      a.memory[c.address]? = some c.before ∧ b.memory[c.address]? = some c.after := by
  have hiff := mem_byteChanges_iff c 0 a.memory b.memory
  unfold Occurs at hiff
  rw [Nat.sub_zero] at hiff
  exact hiff.trans (and_congr_right fun _ => and_iff_right (Nat.zero_le _))

theorem le_address_of_mem {c : ByteChange} {k : Nat} {xs ys : List UInt8}
    (h : c ∈ byteChanges k xs ys) : k ≤ c.address := ((mem_byteChanges_iff c k xs ys).mp h).2.1

/-- Bytes are listed in the order of their addresses. -/
theorem sorted_byteChanges (k : Nat) (xs ys : List UInt8) :
    (byteChanges k xs ys).Pairwise fun c e => c.address < e.address := by
  fun_induction byteChanges k xs ys with
  | case1 k x xs ys ih => exact ih
  | case2 k x xs y ys hxy ih =>
      rw [List.pairwise_cons]
      exact ⟨fun c hc => le_address_of_mem hc, ih⟩
  | case3 => exact .nil

theorem byteChanges_swap (k : Nat) (xs ys : List UInt8) :
    byteChanges k ys xs = (byteChanges k xs ys).map ByteChange.swap := by
  induction xs generalizing k ys with
  | nil => cases ys <;> rfl
  | cons x xs ih =>
      cases ys with
      | nil => rfl
      | cons y ys =>
          unfold byteChanges
          by_cases hxy : x = y
          · rw [if_pos hxy, if_pos hxy.symm, ih]
          · rw [if_neg hxy, if_neg (Ne.symm hxy), ih]
            rfl

/-- The changes of bytes behind others, written over the one memory, make the other. -/
theorem foldl_setByte_byteChanges (front xs ys : List UInt8) (h : xs.length = ys.length) :
    (byteChanges front.length xs ys).foldl setByte (front ++ xs) = front ++ ys := by
  induction xs generalizing front ys with
  | nil =>
      rw [List.eq_nil_of_length_eq_zero h.symm]
      rfl
  | cons x xs ih =>
      cases ys with
      | nil => cases h
      | cons y ys =>
          have hrest := ih (front ++ [y]) ys (Nat.succ.inj h)
          rw [List.length_append, List.append_assoc, List.append_assoc] at hrest
          unfold byteChanges
          split
          next heq =>
            rw [heq]
            exact hrest
          next hne =>
            have hset : setByte (front ++ x :: xs) ⟨front.length, x, y⟩ = front ++ y :: xs := by
              unfold setByte
              rw [List.set_append_right _ _ (Nat.le_refl _), Nat.sub_self, List.set_cons_zero]
            rw [List.foldl_cons, hset]
            exact hrest

/-! ## Differences -/

/-- The second snapshot is the first with the difference laid over it. -/
theorem patched_diff (ha : a.IsCapture) (hb : b.IsCapture) :
    a.patched (a.diff b) b.display = b := by
  have hfields : ∀ f, ((a.diff b).fields.foldl setField a).value f = b.value f := by
    intro f
    rw [fields_diff ha hb, value_foldl_setField _ ha.registerCount]
    split
    next => rfl
    next hsame => exact Decidable.not_not.mp fun h => hsame (mem_changed_iff.mpr h)
  have hmemory : (a.diff b).bytes.foldl setByte a.memory = b.memory :=
    foldl_setByte_byteChanges [] _ _ (ha.memoryLength.trans hb.memoryLength.symm)
  have hdisplay : (if (a.diff b).displayChanged then b.display else a.display) = b.display := by
    show (if (a.display != b.display) = true then b.display else a.display) = b.display
    split
    next => rfl
    next hsame => exact Decidable.not_not.mp fun h => hsame (bne_iff_ne.mpr h)
  have hcapture : (a.patched (a.diff b) b.display).IsCapture := by
    constructor
    · show ((a.diff b).fields.foldl setField a).registers.length = _
      rw [fields_diff ha hb, length_registers_foldl_setField]
      exact ha.registerCount
    · show ((a.diff b).bytes.foldl setByte a.memory).length = _
      rw [hmemory]
      exact hb.memoryLength
    · rfl
  apply hcapture.ext hb _ hmemory hdisplay
  intro f
  rw [← hfields f]
  cases f <;> rfl

/-- A difference is empty only if there is none. -/
theorem diff_isEmpty_iff (ha : a.IsCapture) (hb : b.IsCapture) :
    (a.diff b).isEmpty = true ↔ a = b := by
  unfold SnapshotDiff.isEmpty
  rw [Bool.and_eq_true, Bool.and_eq_true, List.isEmpty_iff, List.isEmpty_iff, Bool.not_eq_true']
  constructor
  · rintro ⟨⟨hfields, hbytes⟩, hdisplay⟩
    have hpatched : a.patched (a.diff b) a.display = a := by
      unfold patched
      rw [hfields, hbytes, hdisplay]
      show { a with stack := framesIn a.memory a.sp } = a
      rw [← ha.stack]
    have hsame : a.display = b.display := by
      exact Decidable.not_not.mp fun h => Bool.noConfusion ((bne_iff_ne.mpr h).symm.trans hdisplay)
    rw [← patched_diff ha hb, ← hsame, hpatched]
  · rintro rfl
    refine ⟨⟨?_, ?_⟩, bne_self_eq_false _⟩
    · rw [fields_diff ha hb, changed, List.filter_eq_nil_iff.mpr (by simp), List.map_nil]
    · apply List.eq_nil_iff_forall_not_mem.mpr
      intro c hc
      obtain ⟨hdiffer, hx, hy⟩ := (mem_bytes_diff_iff _ _ c).mp hc
      exact hdiffer (Option.some.inj (hx.symm.trans hy))

theorem diff_swap (ha : a.IsCapture) (hb : b.IsCapture) : b.diff a = (a.diff b).swap := by
  have hfields : (b.diff a).fields = (a.diff b).fields.map FieldChange.swap := by
    have hchanged : b.changed a = a.changed b := by
      unfold changed
      congr 1
      funext f
      exact decide_eq_decide.mpr ne_comm
    rw [fields_diff hb ha, fields_diff ha hb, hchanged, List.map_map]
    rfl
  have hbytes : (b.diff a).bytes = (a.diff b).bytes.map ByteChange.swap := byteChanges_swap 0 _ _
  have hdisplay : (b.diff a).displayChanged = (a.diff b).displayChanged := bne_comm
  show (⟨_, _, _⟩ : SnapshotDiff) = ⟨_, _, _⟩
  rw [SnapshotDiff.mk.injEq]
  exact ⟨hfields, hbytes, hdisplay⟩

end Snapshot

/-- A difference tells all that differs between two snapshots, and nothing else. -/
structure SnapshotDiff.Tells (d : SnapshotDiff) (a b : Snapshot) : Prop where
  /-- It is empty only between equal snapshots, although the call stack is not compared. -/
  isEmpty_iff : d.isEmpty = true ↔ a = b
  /-- Laid over the first snapshot it makes the second. -/
  patched : a.patched d b.display = b
  /-- The fields that differ are listed, with the values that they have. -/
  mem_fields_iff : ∀ c, c ∈ d.fields ↔ c.before ≠ c.after ∧
    ∃ f : Snapshot.Field, f.name = c.name ∧ a.value f = c.before ∧ b.value f = c.after
  /-- The bytes that differ are listed, with the values that they have. -/
  mem_bytes_iff : ∀ c, c ∈ d.bytes ↔ c.before ≠ c.after ∧
    a.memory[c.address]? = some c.before ∧ b.memory[c.address]? = some c.after
  displayChanged_iff : d.displayChanged = true ↔ a.display ≠ b.display
  /-- No field is listed twice. -/
  nodup_names : (d.fields.map (·.name)).Nodup
  /-- Addresses increase. -/
  sorted_bytes : d.bytes.Pairwise fun c e => c.address < e.address
  /-- A name finds the field that has it, if that differs. -/
  get?_eq_some_iff : ∀ name c, d.get? name = some c ↔ c ∈ d.fields ∧ c.name = name
  /-- The difference in the other direction has the values exchanged. -/
  swap : b.diff a = d.swap

/-- Differences are complete and minimal, whatever machines the snapshots were taken of. -/
theorem Machine.diff_tells (m n : Machine) :
    (m.snapshot.diff n.snapshot).Tells m.snapshot n.snapshot := by
  have hm := m.isCapture_snapshot
  have hn := n.isCapture_snapshot
  have hnodup := Snapshot.nodup_names_diff hm hn
  constructor
  case isEmpty_iff => exact Snapshot.diff_isEmpty_iff hm hn
  case patched => exact Snapshot.patched_diff hm hn
  case mem_fields_iff => exact Snapshot.mem_fields_diff_iff hm hn
  case mem_bytes_iff => exact Snapshot.mem_bytes_diff_iff _ _
  case displayChanged_iff => exact bne_iff_ne
  case nodup_names => exact hnodup
  case sorted_bytes => exact Snapshot.sorted_byteChanges 0 _ _
  case get?_eq_some_iff => exact Snapshot.find?_name_eq_some_iff hnodup
  case swap => exact Snapshot.diff_swap hm hn

end ChipEight
