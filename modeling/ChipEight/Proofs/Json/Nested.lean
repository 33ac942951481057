import ChipEight.Json.Reader

/-!
# Nested lists

A list in a list, and so on, is the simplest value that goes deep. The reader has a bound for its
depth, which `parse` takes from the length of the text, and room for further brackets. Each list
takes two levels of depth, one for the brackets and one for what stands between them, and one
bracket of room. So the text is long enough for all its lists, and they are read if there is room.

## Main results

* `JsonValue.nesting_nestedLists` — how deep these lists are.
* `JsonValue.value_brackets` — what is read of their text.
-/

namespace ChipEight.JsonValue

/-- A list in a list, and so on, `depth` deep around an empty one. -/
def nestedLists : Nat → JsonValue
  | 0 => .arr []
  | depth + 1 => .arr [nestedLists depth]

/-- The text of these lists, and what comes behind it. -/
def bracketsBefore : Nat → List Char → List Char
  | 0, rest => '[' :: ']' :: rest
  | depth + 1, rest => '[' :: bracketsBefore depth (']' :: rest)

theorem nesting_nestedLists (depth : Nat) : (nestedLists depth).nesting = depth + 1 := by
  induction depth with
  | zero => rfl
  | succ depth ih =>
      show max (nestedLists depth).nesting 0 + 1 = depth + 1 + 1
      rw [ih, Nat.max_zero]

theorem skipSpace_brackets (depth : Nat) (rest : List Char) :
    skipSpace (bracketsBefore depth rest) = bracketsBefore depth rest := by
  cases depth <;> rfl

/-- Lists are read as far as there is room. -/
theorem value_brackets {depth fuel room : Nat} (hfuel : 2 * depth < fuel) (hroom : depth < room)
    (rest : List Char) :
    value fuel room (bracketsBefore depth rest) = .ok (nestedLists depth, rest) := by
  induction depth generalizing fuel room rest with
  | zero =>
      obtain ⟨fuel, rfl⟩ := Nat.exists_eq_add_one.mpr hfuel
      rw [bracketsBefore, value, if_neg (Nat.ne_of_gt hroom)]
      rfl
  | succ depth ih =>
      obtain ⟨fuel, rfl⟩ : ∃ n, fuel = n + 2 := ⟨fuel - 2, by omega⟩
      have hitems : items (fuel + 1) (room - 1) [] (bracketsBefore depth (']' :: rest)) =
          .ok (nestedLists (depth + 1), rest) := by
        rw [items, ih (by omega) (by omega)]
        rfl
      rw [bracketsBefore, value, if_neg (by omega), skipSpace_brackets, ← hitems]
      -- the bracket behind the first one opens a list, so the outer list is not empty
      cases depth <;> rfl

theorem length_brackets (depth : Nat) (rest : List Char) :
    (bracketsBefore depth rest).length = 2 * depth + 2 + rest.length := by
  induction depth generalizing rest with
  | zero =>
      rw [bracketsBefore, List.length_cons, List.length_cons]
      omega
  | succ depth ih =>
      rw [bracketsBefore, List.length_cons, ih, List.length_cons]
      omega

end ChipEight.JsonValue
