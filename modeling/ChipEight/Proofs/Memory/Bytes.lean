import ChipEight.Proofs.Machine.Effect

/-!
# Bytes and frames

What is stored where: a block that is written changes its own bytes and no others, whether
it is a program, a sequence of stores or a return address. Everything that is said of frames
follows, for a frame is two bytes below `stackLimit`.

## Main results

* `Memory.getElem?_setBytes` — the bytes after a block was written.
* `Memory.log_storeAll` — the log after a sequence of stores.
* `Memory.frame_pushed_of_lt`, `Memory.frame_pushed_self` — the frames after a call.
* `Memory.frames_pushed`, `Memory.frames_eq_append_top` — the stack as a list.
-/

namespace ChipEight

namespace Memory

variable {bytes : Vector UInt8 memorySize} {m m' : Memory} {a i : Nat} {vs : List UInt8}

/-! ## Blocks -/

/-- A block is written to the addresses that it takes up, as far as they exist. -/
theorem getElem?_setBytes :
    (setBytes bytes a vs)[i]? =
      if a ≤ i ∧ i < memorySize ∧ i - a < vs.length then vs[i - a]? else bytes[i]? := by
  induction vs generalizing bytes a with
  | nil =>
      have hempty : ¬(a ≤ i ∧ i < memorySize ∧ i - a < ([] : List UInt8).length) := by
        rintro ⟨-, -, h⟩
        exact Nat.not_lt_zero _ h
      rw [if_neg hempty]
      rfl
  | cons v vs ih =>
      rw [setBytes, ih, Vector.getElem?_setIfInBounds, List.length_cons]
      rcases Nat.lt_trichotomy i a with hlt | heq | hgt
      · rw [if_neg (by omega), if_neg (by omega), if_neg (by omega)]
      · subst heq
        rw [if_neg (by omega), if_pos rfl, Nat.sub_self, List.getElem?_cons_zero]
        by_cases hmem : i < memorySize
        · rw [if_pos hmem, if_pos ⟨Nat.le_refl i, hmem, Nat.succ_pos _⟩]
        · rw [if_neg hmem, if_neg (fun h => hmem h.2.1)]
          exact (Vector.getElem?_eq_none (Nat.le_of_not_lt hmem)).symm
      · have hnext : i - a = i - (a + 1) + 1 := by omega
        rw [if_neg (show ¬a = i by omega), hnext, List.getElem?_cons_succ]
        have hiff : (a + 1 ≤ i ∧ i < memorySize ∧ i - (a + 1) < vs.length) ↔
            (a ≤ i ∧ i < memorySize ∧ i - (a + 1) + 1 < vs.length + 1) := by omega
        simp only [hiff]

/-- Writing a block changes no byte outside of it. -/
theorem setBytes_outside (h : i < a ∨ a + vs.length ≤ i) :
    (setBytes bytes a vs)[i]? = bytes[i]? := by
  rw [getElem?_setBytes, if_neg (by omega)]

/-- Stores one after another write a block. -/
theorem bytes_storeAll (m : Memory) (pc : Option Int) :
    (m.storeAll a pc vs).bytes = setBytes m.bytes a vs := by
  induction vs generalizing m a with
  | nil => rfl
  | cons v vs ih => exact ih (m.store a v pc)

/-- What was stored is there. -/
theorem byte_storeAll (m : Memory) (pc : Option Int) {k : Nat} {v : UInt8}
    (hv : vs[k]? = some v) (hroom : a + k < memorySize) :
    (m.storeAll a pc vs).byte (a + k) = v := by
  have hlength : k < vs.length := (List.getElem?_eq_some_iff.mp hv).1
  unfold byte
  rw [bytes_storeAll, getElem?_setBytes, if_pos ⟨Nat.le_add_right a k, hroom, by omega⟩,
    Nat.add_sub_cancel_left, hv]
  rfl

theorem depth_storeAll (m : Memory) (pc : Option Int) :
    (m.storeAll a pc vs).depth = m.depth := by
  induction vs generalizing m a with
  | nil => rfl
  | cons v vs ih => exact ih (m.store a v pc)

/-- The entries in the log for stores one after another. -/
def writesOf (m : Memory) (a : Nat) (pc : Option Int) : List UInt8 → List ByteWrite
  | [] => []
  | v :: vs => { address := a, value := v, previous := m.byte a, pc } :: m.writesOf (a + 1) pc vs

theorem length_writesOf (m : Memory) (pc : Option Int) (vs : List UInt8) :
    ∀ a, (m.writesOf a pc vs).length = vs.length := by
  induction vs with
  | nil =>
      intro a
      rfl
  | cons v vs ih =>
      intro a
      exact congrArg (· + 1) (ih (a + 1))

/-- A store changes no byte that a later one of the sequence replaces. -/
theorem writesOf_store (m : Memory) (v : UInt8) (pc : Option Int) (vs : List UInt8) :
    ∀ b, a < b → (m.store a v pc).writesOf b pc vs = m.writesOf b pc vs := by
  induction vs with
  | nil =>
      intro b _
      rfl
  | cons w vs ih =>
      intro b hlt
      have hbyte : (m.store a v pc).byte b = m.byte b := by
        show (setBytes m.bytes a [v])[b]?.getD 0 = _
        rw [setBytes_outside (.inr hlt)]
        rfl
      rw [writesOf, writesOf, hbyte, ih (b + 1) (by omega)]

/-- Every store is logged, with the byte that was there before the first of them. -/
theorem log_storeAll (m : Memory) (pc : Option Int) :
    (m.storeAll a pc vs).log = (m.writesOf a pc vs).foldl Recent.push m.log := by
  induction vs generalizing m a with
  | nil => rfl
  | cons v vs ih =>
      rw [storeAll, ih, writesOf_store m v pc vs (a + 1) (Nat.lt_succ_self a)]
      rfl

theorem byte_congr (h : m'.bytes[a]? = m.bytes[a]?) : m'.byte a = m.byte a := by
  unfold byte
  rw [h]

/-- The two bytes of a word are told from it. -/
theorem bytes_of_word_eq (h : m'.word a = m.word a) :
    m'.byte a = m.byte a ∧ m'.byte (a + 1) = m.byte (a + 1) := by
  have hvalue := congrArg UInt16.toNat h
  unfold word Word.ofBytes at hvalue
  rw [UInt16.toNat_ofNat', UInt16.toNat_ofNat'] at hvalue
  have hhigh := (m.byte a).toNat_lt
  have hlow := (m.byte (a + 1)).toNat_lt
  have hhigh' := (m'.byte a).toNat_lt
  have hlow' := (m'.byte (a + 1)).toNat_lt
  rw [← UInt8.toNat_inj, ← UInt8.toNat_inj]
  omega

/-- Memory is its bytes. -/
theorem bytes_ext (h : ∀ a, m'.byte a = m.byte a) : m'.bytes = m.bytes := by
  apply Vector.ext
  intro a ha
  have hbyte := h a
  unfold byte at hbyte
  rwa [Vector.getElem?_eq_getElem ha, Vector.getElem?_eq_getElem ha] at hbyte

theorem getD_zeros (a : Nat) : (Vector.replicate memorySize (0 : UInt8))[a]?.getD 0 = 0 := by
  rw [Vector.getElem?_replicate]
  split <;> rfl

/-- Behind the glyphs, memory is zero at power-on. -/
theorem byte_powerOn_of_le {logLimit : Option Nat} (ha : fontBase + font.length ≤ a) :
    (powerOn logLimit).byte a = 0 := by
  show (setBytes (Vector.replicate memorySize 0) fontBase font)[a]?.getD 0 = 0
  rw [setBytes_outside (.inr ha)]
  exact getD_zeros a

/-- Loading a program succeeds if it fits, and writes the program region only. -/
theorem load_inv {program : List UInt8} (hload : m.load program = .ok m') :
    program.length ≤ maxProgramSize ∧ m'.depth = m.depth ∧
      ∀ a, a < programStart → m'.byte a = m.byte a := by
  unfold load at hload
  split at hload
  · rename_i hfits
    cases hload
    refine ⟨hfits, rfl, ?_⟩
    intro a ha
    exact byte_congr (setBytes_outside (.inl ha))
  · cases hload

/-! ## Frames -/

/-- Memories with the same two bytes at a frame have the same frame. -/
theorem frame_congr {slot : Nat} (hslot : slot < stackDepth)
    (h : ∀ a, a < stackLimit → m'.byte a = m.byte a) : m'.frame slot = m.frame slot := by
  unfold frame word
  rw [h _ (by simp only [stackBase, stackFrameSize, stackLimit, stackDepth] at *; omega),
    h _ (by simp only [stackBase, stackFrameSize, stackLimit, stackDepth] at *; omega)]

/-- A frame in use is told by the bytes below the next free one. -/
theorem frame_congr_of_lt {slot : Nat} (hslot : slot < m.depth.val)
    (h : ∀ a, a < m.sp → m'.byte a = m.byte a) : m'.frame slot = m.frame slot := by
  unfold frame word
  rw [h _ (by simp only [sp, stackBase, stackFrameSize]; omega),
    h _ (by simp only [sp, stackBase, stackFrameSize]; omega)]

/-- A pushed address overwrites no older frame. -/
theorem frame_pushed_of_lt {slot : Nat} (address : Int) (h : slot < m.depth.val) :
    (m.pushed address).frame slot = m.frame slot := by
  apply frame_congr_of_lt h
  intro a ha
  exact byte_congr (setBytes_outside (.inl ha))

/-- The low byte of a number. -/
theorem toNat_ofInt (n : Int) : ((UInt8.ofInt n).toNat : Int) = n % 256 := by
  show ((UInt8.ofNat (n % 256).toNat).toNat : Int) = n % 256
  rw [UInt8.toNat_ofNat']
  omega

/-- The frame of a pushed address holds its low sixteen bits. -/
theorem frame_pushed_self (address : Int) (h : m.depth.val < stackDepth) :
    (((m.pushed address).frame m.depth.val).toNat : Int) = address % 65536 := by
  have hsp : m.sp + 1 < memorySize := by
    simp only [sp, stackBase, stackFrameSize, stackDepth, stackLimit, memorySize] at *
    omega
  have hhi : (m.pushed address).byte m.sp = UInt8.ofInt (address / 256) := by
    unfold byte pushed
    rw [getElem?_setBytes, if_pos ⟨Nat.le_refl _, by omega, by simp⟩, Nat.sub_self]
    rfl
  have hlo : (m.pushed address).byte (m.sp + 1) = UInt8.ofInt address := by
    unfold byte pushed
    rw [getElem?_setBytes, if_pos ⟨by omega, hsp, by simp⟩, Nat.add_sub_cancel_left]
    rfl
  show (((m.pushed address).word m.sp).toNat : Int) = _
  unfold word Word.ofBytes
  rw [hhi, hlo, UInt16.toNat_ofNat']
  have h1 := toNat_ofInt (address / 256)
  have h2 := toNat_ofInt address
  omega

/-! ## The stack as a list -/

theorem length_frames (m : Memory) : m.frames.length = m.depth.val := by
  unfold frames
  rw [List.length_map, List.length_range]

/-- The stack is told by the bytes below the next free one. -/
theorem frames_congr_of_lt (hdepth : m'.depth = m.depth)
    (h : ∀ a, a < m.sp → m'.byte a = m.byte a) : m'.frames = m.frames := by
  unfold frames
  rw [hdepth]
  apply List.map_congr_left
  intro slot hslot
  exact frame_congr_of_lt (List.mem_range.mp hslot) h

theorem sp_le (m : Memory) : m.sp ≤ stackLimit := by
  have hdepth := m.depth.isLt
  simp only [sp, stackBase, stackFrameSize, stackDepth, stackLimit] at *
  omega

theorem frames_congr (hdepth : m'.depth = m.depth)
    (h : ∀ a, a < stackLimit → m'.byte a = m.byte a) : m'.frames = m.frames :=
  frames_congr_of_lt hdepth fun a ha => h a (Nat.lt_of_lt_of_le ha m.sp_le)

theorem frames_pushed (address : Int) (h : m.depth.val < stackDepth) :
    (m.pushed address).frames = m.frames ++ [(m.pushed address).frame m.depth.val] := by
  have hdepth : (m.pushed address).depth.val = m.depth.val + 1 := Nat.min_eq_left h
  have hold : (List.range m.depth.val).map (m.pushed address).frame = m.frames := by
    apply List.map_congr_left
    intro slot hslot
    exact frame_pushed_of_lt address (List.mem_range.mp hslot)
  unfold frames at hold ⊢
  rw [hdepth, List.range_succ, List.map_append, hold]
  rfl

/-- The newest return address is the last frame. -/
theorem frames_eq_append_top (h : m.depth.val ≠ 0) : m.frames = m.popped.frames ++ [m.top] := by
  have hdepth : m.depth.val = m.depth.val - 1 + 1 := by omega
  show (List.range m.depth.val).map m.frame =
    (List.range (m.depth.val - 1)).map m.frame ++ [m.frame (m.depth.val - 1)]
  rw [hdepth, List.range_succ, List.map_append, Nat.add_sub_cancel]
  rfl

end Memory

end ChipEight
