import ChipEight.Proofs.Config.Settings
import ChipEight.Proofs.Json.Scalar

/-!
# Reading back a file

A file has one setting per line. The reader works through the lines with what it has found so
far; no name occurs twice, so every line adds a setting behind the others, and behind the last
line it has found the settings that were written, in their order. This holds for any scalars
under any names of plain characters, not only for those of a configuration.

## Main results

* `JsonValue.members_fileLines` — what is found in the lines.
* `JsonValue.parse_laidOut` — what is read from an object with a line per member.
* `Settings.ofFileText_fileText` — the settings of a configuration are read from its own file.
-/

namespace ChipEight

namespace JsonValue

open Text

/-- A character that is written as it stands: it is plain and belongs to ASCII. -/
def IsLetter (c : Char) : Prop := IsPlain c ∧ c.toNat < 0x7F

instance (c : Char) : Decidable (IsLetter c) := by unfold IsLetter; infer_instance

/-- A setting that is written as it stands: its name is of such characters, its value a scalar. -/
def Writable (m : String × JsonValue) : Prop := (∀ c ∈ m.1.toList, IsLetter c) ∧ m.2.Scalar

variable {m : String × JsonValue} {ms found : List (String × JsonValue)}

/-! ## Lines -/

/-- A line without its indentation. -/
def lineChars (m : String × JsonValue) : List Char :=
  '"' :: (m.1.toList ++ '"' :: ':' :: ' ' :: m.2.text.toList)

theorem asciiEscaped_letter {c : Char} (hc : IsLetter c) : asciiEscaped c.toNat = [c] := by
  obtain ⟨⟨hquote, hslash, hcontrol, -⟩, hdelete⟩ := hc
  have hne : ∀ d : Char, c ≠ d → c.toNat ≠ d.toNat := fun d h heq => h (Char.toNat_inj.mp heq)
  unfold asciiEscaped
  rw [if_neg (not_or.mpr ⟨hne '"' hquote, hne '\\' hslash⟩), if_pos ⟨hcontrol, hdelete⟩,
    Char.ofNat_toNat]

/-- A name of such characters stands between quotes. -/
theorem toList_asciiQuoted {name : String} (hname : ∀ c ∈ name.toList, IsLetter c) :
    (asciiQuoted name).toList = '"' :: (name.toList ++ ['"']) := by
  have hwritten : ∀ cs : List Char, (∀ c ∈ cs, IsLetter c) → cs.flatMap CodePoint.ofChar = cs ∧
      (cs.map Char.toNat).flatMap asciiEscaped = cs := by
    intro cs hcs
    induction cs with
    | nil => exact ⟨rfl, rfl⟩
    | cons c cs ih =>
        obtain ⟨hchars, hescaped⟩ := ih fun d hd => hcs d (List.mem_cons_of_mem c hd)
        have hc := hcs c List.mem_cons_self
        rw [List.map_cons, List.flatMap_cons, List.flatMap_cons, hchars, hescaped,
          asciiEscaped_letter hc, CodePoint.ofChar, if_neg hc.1.2.2.2]
        exact ⟨rfl, rfl⟩
  obtain ⟨hchars, hescaped⟩ := hwritten name.toList hname
  have hcodes : CodePoint.codes name = name.toList.map Char.toNat := by
    rw [CodePoint.codes, ← CodePoint.codesOf_flatMap_ofChar, hchars]
  rw [asciiQuoted, String.toList_ofList, hcodes, hescaped]
  rfl

theorem laidOut_scalar {v : JsonValue} (hv : v.Scalar) (margin : String) :
    v.laidOut margin = v.text := by
  cases v with
  | null => rfl
  | bool b => rfl
  | int i => rfl
  | double _ | str _ | arr _ | obj _ => cases hv

theorem map_laidOutMembers (hwritable : ∀ n ∈ ms, Writable n) (margin : String) :
    (laidOutMembers margin ms).map String.toList = ms.map lineChars := by
  induction ms with
  | nil => rfl
  | cons m ms ih =>
      obtain ⟨hname, hscalar⟩ := hwritable m List.mem_cons_self
      rw [laidOutMembers, List.map_cons, List.map_cons,
        ih fun n hn => hwritable n (List.mem_cons_of_mem m hn), String.toList_append,
        String.toList_append, toList_asciiQuoted hname, laidOut_scalar hscalar, lineChars]
      simp

/-- Lines up to the closing brace, without the indentation of the first one. -/
def fileLines (m : String × JsonValue) : List (String × JsonValue) → List Char
  | [] => lineChars m ++ ['\n', '\x7d']
  | n :: ms => lineChars m ++ ',' :: '\n' :: ' ' :: ' ' :: fileLines n ms

theorem exists_fileLines_eq_cons (m : String × JsonValue) (ms : List (String × JsonValue)) :
    ∃ cs, fileLines m ms = '"' :: cs := by
  cases ms with
  | nil => exact ⟨_, rfl⟩
  | cons n ms => exact ⟨_, rfl⟩

theorem length_lt_fileLines (m : String × JsonValue) (ms : List (String × JsonValue)) :
    ms.length < (fileLines m ms).length := by
  induction ms generalizing m with
  | nil => simp [fileLines, lineChars]
  | cons n ms ih =>
      have := ih n
      simp only [fileLines, List.length_append, List.length_cons]
      omega

/-- The lines are those of the text of an object. -/
theorem toList_laidOut (hwritable : ∀ n ∈ m :: ms, Writable n) :
    ((JsonValue.obj (m :: ms)).laidOut "\n").toList =
      '\x7b' :: '\n' :: ' ' :: ' ' :: fileLines m ms := by
  have hlines : ∀ (ms : List (String × JsonValue)) (m : String × JsonValue),
      [',', '\n', ' ', ' '].intercalate ((m :: ms).map lineChars) ++ ['\n', '\x7d'] =
        fileLines m ms := by
    intro ms
    induction ms with
    | nil =>
        intro m
        simp [fileLines]
    | cons n ms ih =>
        intro m
        have hrest := ih n
        rw [List.map_cons] at hrest
        rw [List.map_cons, List.map_cons, List.intercalate_cons_cons, List.append_assoc,
          List.append_assoc, hrest]
        rfl
  have hitems := map_laidOutMembers hwritable ("\n" ++ "  ")
  rw [← hlines, ← hitems]
  show (bracketed "\x7b" "\x7d" "\n" (laidOutMembers ("\n" ++ "  ") (m :: ms))).toList = _
  obtain ⟨item, items, hcons⟩ : ∃ item items,
      laidOutMembers ("\n" ++ "  ") (m :: ms) = item :: items := ⟨_, _, rfl⟩
  rw [hcons]
  simp only [bracketed, String.toList_append, String.toList_intercalate]
  simp

/-! ## Reading lines -/

/-- A member of a new name stands behind the others. -/
theorem putMember_of_notMem {name : String} (h : name ∉ found.map (·.1)) (v : JsonValue) :
    putMember found name v = found ++ [(name, v)] := by
  have hany : found.any (·.1 == name) = false := by
    rw [List.any_eq_false]
    intro n hn
    rw [beq_iff_eq]
    rintro rfl
    exact h (List.mem_map_of_mem hn)
  rw [putMember, hany, if_neg Bool.false_ne_true]

theorem endsNumber_cons {c : Char} (hc : c = ',' ∨ c = '\n') (cs : List Char) :
    EndsNumber (c :: cs) := by
  intro d hd
  cases hd
  rcases hc with rfl | rfl <;> decide

/-- The name in a line is read, and the value left. -/
theorem memberName_lineChars (hm : Writable m) (rest : List Char) :
    memberName (lineChars m ++ rest) = .ok (m.1, m.2.text.toList ++ rest) := by
  have hline : lineChars m ++ rest =
      '"' :: (m.1.toList ++ '"' :: ':' :: ' ' :: (m.2.text.toList ++ rest)) := by
    simp [lineChars]
  have hspace : skipSpace (' ' :: (m.2.text.toList ++ rest)) = m.2.text.toList ++ rest :=
    skipSpace_scalar hm.2 rest
  rw [hline, memberName_written fun c hc => (hm.1 c hc).1, hspace]

/-- The last line adds its setting, and the object ends. -/
theorem members_lastLine (hm : Writable m) (hnew : m.1 ∉ found.map (·.1)) (depth room : Nat) :
    members (depth + 2) room found (lineChars m ++ ['\n', '\x7d']) =
      .ok (.obj (found ++ [m]), []) := by
  rw [members, memberName_lineChars hm]
  simp only [value_scalar hm.2 depth room (endsNumber_cons (.inr rfl) _),
    putMember_of_notMem hnew]
  rfl

/-- Every other line adds its setting, and the next line follows. -/
theorem members_nextLine (hm : Writable m) (hnew : m.1 ∉ found.map (·.1)) (depth room : Nat)
    (rest : List Char) : members (depth + 2) room found (lineChars m ++ ',' :: rest) =
      members (depth + 1) room (found ++ [m]) (skipSpace rest) := by
  rw [members, memberName_lineChars hm]
  simp only [value_scalar hm.2 depth room (endsNumber_cons (.inl rfl) _),
    putMember_of_notMem hnew]
  rfl

theorem notMem_of_nodup (h : ((found ++ m :: ms).map (·.1)).Nodup) : m.1 ∉ found.map (·.1) := by
  intro hmem
  rw [List.map_append, List.nodup_append] at h
  exact h.2.2 m.1 hmem m.1 List.mem_cons_self rfl

/-- What is found in the lines, behind what was found before. -/
theorem members_fileLines (depth room : Nat) (hdepth : ms.length ≤ depth)
    (hwritable : ∀ n ∈ m :: ms, Writable n) (hnodup : ((found ++ m :: ms).map (·.1)).Nodup) :
    members (depth + 2) room found (fileLines m ms) = .ok (.obj (found ++ m :: ms), []) := by
  induction ms generalizing m found depth with
  | nil =>
      exact members_lastLine (hwritable m List.mem_cons_self) (notMem_of_nodup hnodup) depth room
  | cons n ms ih =>
      obtain ⟨depth, rfl⟩ : ∃ d, depth = d + 1 :=
        Nat.exists_eq_add_one.mpr (Nat.lt_of_lt_of_le (Nat.succ_pos _) hdepth)
      have hskip : skipSpace ('\n' :: ' ' :: ' ' :: fileLines n ms) = fileLines n ms := by
        obtain ⟨cs, hcs⟩ := exists_fileLines_eq_cons n ms
        rw [hcs]
        rfl
      have hrest : members (depth + 2) room (found ++ [m]) (fileLines n ms) =
          .ok (.obj (found ++ [m] ++ n :: ms), []) :=
        ih depth (Nat.le_of_succ_le_succ hdepth)
          (fun k hk => hwritable k (List.mem_cons_of_mem m hk))
          (by rwa [List.append_assoc, List.singleton_append])
      rw [fileLines, members_nextLine (hwritable m List.mem_cons_self) (notMem_of_nodup hnodup),
        hskip, hrest, List.append_assoc, List.singleton_append]

/-- An object with a line per member, read as a value. -/
theorem value_fileLines (depth room : Nat) (hdepth : ms.length ≤ depth)
    (hwritable : ∀ n ∈ m :: ms, Writable n) (hnodup : ((m :: ms).map (·.1)).Nodup) :
    value (depth + 3) (room + 1) ('\x7b' :: '\n' :: ' ' :: ' ' :: fileLines m ms) =
      .ok (.obj (m :: ms), []) := by
  obtain ⟨cs, hcs⟩ := exists_fileLines_eq_cons m ms
  have hmembers : members (depth + 2) room [] (fileLines m ms) = .ok (.obj (m :: ms), []) :=
    members_fileLines depth room hdepth hwritable hnodup
  rw [hcs] at hmembers
  rw [value, hcs, if_neg (Nat.succ_ne_zero room)]
  exact hmembers

/-- What is read from an object with a line per member. -/
theorem parse_laidOut (hms : ms ≠ []) (hwritable : ∀ n ∈ ms, Writable n)
    (hnodup : (ms.map (·.1)).Nodup) :
    parse ((JsonValue.obj ms).laidOut "\n") = .ok (.obj ms) := by
  obtain ⟨m, ms, rfl⟩ := List.exists_cons_of_ne_nil hms
  have hchars : skipSpace ((JsonValue.obj (m :: ms)).laidOut "\n").toList =
      '\x7b' :: '\n' :: ' ' :: ' ' :: fileLines m ms := by
    rw [toList_laidOut hwritable]
    rfl
  -- every line has characters, so there is depth enough for all of them
  have hdepth := length_lt_fileLines m ms
  have hvalue := value_fileLines (2 * (fileLines m ms).length + 6) 989 (by omega) hwritable hnodup
  unfold parse
  simp only [hchars, List.length_cons]
  rw [show 2 * ((fileLines m ms).length + 1 + 1 + 1 + 1) + 1 =
    2 * (fileLines m ms).length + 6 + 3 by omega, hvalue]
  rfl

end JsonValue

/-! ## Configurations -/

/-- No integer of a configuration has too many digits to be read. -/
structure Config.Brief (c : Config) : Prop where
  timerDivider : Text.Decimal.digitCount c.timerDivider ≤ Text.Integer.maxDecimalDigits
  cyclesPerSecond : Text.Decimal.digitCount c.cyclesPerSecond ≤ Text.Integer.maxDecimalDigits
  seed : ∀ n ∈ c.seed, Text.Decimal.digitCount n ≤ Text.Integer.maxDecimalDigits
  traceHistory : Text.Decimal.digitCount c.traceHistory ≤ Text.Integer.maxDecimalDigits

namespace Settings

open JsonValue

variable {c : Config}

/-- The names of settings are written as they are. -/
theorem isLetter_of_mem_names : ∀ name ∈ Setting.names, ∀ d ∈ name.toList, IsLetter d := by
  have hall : (Setting.names.all fun name =>
      name.toList.all fun d => decide (IsLetter d)) = true := by
    decide +kernel
  exact fun name hname d hd =>
    of_decide_eq_true (List.all_eq_true.mp (List.all_eq_true.mp hall name hname) d hd)

theorem writable_members (hbrief : c.Brief) : ∀ n ∈ c.settings.members, Writable n := by
  have hscalar : ∀ k, (c.settings.value k).Scalar := by
    intro k
    cases k with
    | timerDivider => exact hbrief.timerDivider
    | cyclesPerSecond => exact hbrief.cyclesPerSecond
    | traceHistory => exact hbrief.traceHistory
    | debug | dumpMemoryOnFault => trivial
    | seed =>
        show (c.seed.elim JsonValue.null JsonValue.int).Scalar
        cases hcase : c.seed with
        | none => trivial
        | some n => exact hbrief.seed n hcase
  intro n hn
  obtain ⟨k, -, rfl⟩ := List.mem_map.mp hn
  exact ⟨isLetter_of_mem_names k.name k.name_mem_names, hscalar k⟩

/-- A file holds the settings that were written. -/
theorem parse_fileText (hbrief : c.Brief) :
    JsonValue.parse c.settings.fileText = .ok (.obj c.settings.members) :=
  parse_laidOut (List.cons_ne_nil _ _) (writable_members hbrief)
    (by rw [map_members]; decide)

/-- The settings of a configuration are read from its own file. -/
theorem ofFileText_fileText (hvalid : c.Valid) (hbrief : c.Brief) :
    ofFileText c.settings.fileText = .ok c.settings :=
  ofFileText_eq_ok_iff.mpr ⟨c.settings.members, parse_fileText hbrief,
    ofMembers_members (passed_settings_iff.mpr hvalid)⟩

end Settings

end ChipEight
