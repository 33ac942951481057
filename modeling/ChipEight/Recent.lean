/-!
# The most recent entries

`Recent α` keeps entries in the order in which they came and forgets the oldest
ones beyond its capacity. A capacity of `none` keeps everything, one of zero
keeps nothing.

The entries are held in two parts. The newer part grows until it fills the capacity on its
own; then it takes the place of the older part, which nobody can see any more. So adding
an entry never looks at the ones before it.

## Main results

* `toList_push` — an entry is added at the end, then the front is cut back.
* `toList_foldl_push` — what is left of any number of entries.
* `exists_since` — what came up to the last of some entry, and what came since.
-/

namespace ChipEight

/-- A bounded sequence of entries. -/
structure Recent (α : Type) where
  /-- How many entries are kept; `none` is no bound. -/
  capacity : Option Nat
  /-- The entries since the older part was replaced, the latest first. -/
  newer : List α := []
  /-- How many there are. -/
  count : Nat := 0
  /-- Entries before those, the latest first. -/
  older : List α := []
  /-- The count is right. -/
  count_eq : count = newer.length := by rfl
  deriving DecidableEq, Repr

namespace Recent

variable {α : Type}

/-- A capacity given as a number must be a count that the machine can index. -/
inductive CapacityError
  /-- The number is below zero. -/
  | negative
  /-- The number exceeds every index of the machine. -/
  | tooLarge
  deriving DecidableEq, Repr

/-- The wording of a rejected capacity. -/
def CapacityError.message : CapacityError → String
  | .negative => "maxlen must be non-negative"
  | .tooLarge => "capacity is too large"

/-- The largest index of the machine. -/
abbrev maxIndex : Int := 0x7FFFFFFFFFFFFFFF

/-- Reads a number as a capacity. -/
def capacity? (limit : Int) : Except CapacityError Nat :=
  if limit < -maxIndex - 1 ∨ maxIndex < limit then .error .tooLarge
  else if limit < 0 then .error .negative
  else .ok limit.toNat

/-- What is taken for a capacity is the number itself. -/
theorem capacity_eq_ok_iff {limit : Int} {n : Nat} :
    capacity? limit = .ok n ↔ 0 ≤ limit ∧ limit ≤ maxIndex ∧ n = limit.toNat := by
  unfold capacity? maxIndex
  constructor
  · intro h
    split at h
    · cases h
    next hfits =>
      split at h
      · cases h
      next hlow =>
        cases h
        exact ⟨by omega, by omega, rfl⟩
  · rintro ⟨hlow, hhigh, rfl⟩
    rw [if_neg (by omega), if_neg (by omega)]

/-- No entries yet. -/
def empty (capacity : Option Nat) : Recent α := { capacity }

/-- The front part of `xs` that fits the capacity. -/
def keep : Option Nat → List α → List α
  | none, xs => xs
  | some n, xs => xs.take n

/-- Whether `count` entries fill a capacity. -/
def fills (count : Nat) (capacity : Option Nat) : Bool := capacity.any fun n => decide (n ≤ count)

/-- Adds an entry as the latest one. -/
def push (q : Recent α) (a : α) : Recent α :=
  if fills (q.count + 1) q.capacity then { capacity := q.capacity, older := a :: q.newer }
  else
    { capacity := q.capacity, newer := a :: q.newer, count := q.count + 1, older := q.older
      count_eq := congrArg (· + 1) q.count_eq }

/-- Forgets all entries. -/
def clear (q : Recent α) : Recent α := { capacity := q.capacity }

/-- The entries that are kept, the latest first. -/
def latest (q : Recent α) : List α := keep q.capacity (q.newer ++ q.older)

/-- The entries that are kept, the oldest first. -/
def toList (q : Recent α) : List α := q.latest.reverse

/-- The rear part of `xs` that fits the capacity. -/
def rear : Option Nat → List α → List α
  | none, xs => xs
  | some n, xs => xs.drop (xs.length - n)

@[simp] theorem keep_nil (capacity : Option Nat) : keep capacity ([] : List α) = [] := by
  cases capacity <;> simp [keep]

@[simp] theorem toList_empty (capacity : Option Nat) : (empty capacity : Recent α).toList = [] := by
  simp [toList, latest, empty]

@[simp] theorem toList_clear (q : Recent α) : q.clear.toList = [] := by
  simp [toList, latest, clear]

@[simp] theorem capacity_push (q : Recent α) (a : α) : (q.push a).capacity = q.capacity := by
  unfold push
  split <;> rfl

@[simp] theorem capacity_clear (q : Recent α) : q.clear.capacity = q.capacity := rfl

/-- Cutting back before an entry is added makes no difference. -/
theorem keep_cons_keep (capacity : Option Nat) (a : α) (xs : List α) :
    keep capacity (a :: keep capacity xs) = keep capacity (a :: xs) := by
  cases capacity with
  | none => rfl
  | some n => cases n <;> simp [keep, List.take_take]

theorem latest_push (q : Recent α) (a : α) :
    (q.push a).latest = keep q.capacity (a :: q.latest) := by
  rw [latest, latest, capacity_push, keep_cons_keep]
  unfold push
  split
  next h =>
    cases hc : q.capacity with
    | none => simp [fills, hc] at h
    | some n =>
      have hn : n ≤ (a :: q.newer).length := by
        have := q.count_eq
        simp only [fills, hc, Option.any_some, decide_eq_true_eq] at h
        rw [List.length_cons]
        omega
      show (([] : List α) ++ a :: q.newer).take n = (a :: q.newer ++ q.older).take n
      rw [List.nil_append, List.take_append_of_le_length hn]
  next => rfl

theorem toList_push (q : Recent α) (a : α) :
    (q.push a).toList = rear q.capacity (q.toList ++ [a]) := by
  rw [toList, toList, latest_push]
  cases q.capacity with
  | none => simp [keep, rear]
  | some n => simp [keep, rear, List.reverse_take]

/-- Cutting back before entries are added makes no difference. -/
theorem rear_rear_append (capacity : Option Nat) (xs ys : List α) :
    rear capacity (rear capacity xs ++ ys) = rear capacity (xs ++ ys) := by
  cases capacity with
  | none => rfl
  | some n =>
      have hkept : xs.length - n ≤ xs.length := Nat.sub_le _ _
      simp only [rear]
      rw [← List.drop_append_of_le_length hkept, List.drop_drop]
      congr 1
      simp only [List.length_drop, List.length_append]
      omega

/-- There are never more entries than the capacity has room for. -/
theorem rear_toList (q : Recent α) : rear q.capacity q.toList = q.toList := by
  unfold toList latest
  cases q.capacity with
  | none => rfl
  | some n =>
      have hfits : (keep (some n) (q.newer ++ q.older)).reverse.length - n = 0 := by
        simp only [keep, List.length_reverse, List.length_take]
        omega
      rw [rear, hfits, List.drop_zero]

theorem capacity_foldl_push (entries : List α) (q : Recent α) :
    (entries.foldl push q).capacity = q.capacity := by
  induction entries generalizing q with
  | nil => rfl
  | cons a entries ih => rw [List.foldl_cons, ih, capacity_push]

theorem toList_foldl_push (entries : List α) (q : Recent α) :
    (entries.foldl push q).toList = rear q.capacity (q.toList ++ entries) := by
  induction entries generalizing q with
  | nil =>
      rw [List.append_nil, rear_toList]
      rfl
  | cons a entries ih =>
      rw [List.foldl_cons, ih, toList_push, capacity_push, rear_rear_append, List.append_assoc]
      rfl

/-- A sequence is what came up to the last `a`, and what came since. -/
theorem exists_since (a : α) (xs : List α) : ∃ past recent, xs = past ++ recent ∧
    (past = [] ∨ ∃ front, past = front ++ [a]) ∧ a ∉ recent := by
  by_cases hmem : a ∈ xs.reverse
  · obtain ⟨later, front, hsplit, hnew⟩ := List.eq_append_cons_of_mem hmem
    refine ⟨front.reverse ++ [a], later.reverse, ?_, .inr ⟨front.reverse, rfl⟩, ?_⟩
    · rw [← List.reverse_reverse xs, hsplit, List.reverse_append, List.reverse_cons]
    · rwa [List.mem_reverse]
  · exact ⟨[], xs, rfl, .inl rfl, mt List.mem_reverse.mpr hmem⟩

end Recent

end ChipEight
