import ChipEight.Config.Environment
import ChipEight.Config.File

/-!
# Settings and configurations

Settings that are made have every value that is given and every default of the others; no other
names are given. Whoever makes settings, from members, from a file, from the environment or by
choices, ends with the same check. What has passed it is never divided by as a number that is zero
or negative. The check is about numbers only, so settings may well be of no configuration: a
configuration is what settings are whose values have the types that are meant for them, and such
settings pass the check iff the configuration is valid.

## Main results

* `Settings.ofMembers_eq_ok_iff` — which settings are made of members.
* `Settings.Obtained.passed` — all settings that are made have passed the check.
* `Settings.passed_settings_iff`, `Settings.admitted_iff` — which of them are configurations.
-/

namespace ChipEight

open Float.Model (UnpackedFloat)
open JsonValue (member?)

/-! ## Numbers -/

/-- A double that is zero or negative is below one. -/
theorem lt_one_of_le_zero {x : Float} (h : x ≤ Float.ofNat 0) : x < Float.ofNat 1 := by
  have hone : (Float.ofNat 1).toModel.unpack = .finite .positive (2 ^ 52) (-52) (by decide) := rfl
  have hzero : (Float.ofNat 0).toModel.unpack = .zero .positive := rfl
  have hle : x.toModel.unpack.le (.zero .positive) = true := by
    rw [← hzero]
    exact of_decide_eq_true h
  show decide (x.toModel.unpack.lt (Float.ofNat 1).toModel.unpack = true) = true
  rw [hone]
  apply decide_eq_true
  revert hle
  cases x.toModel.unpack with
  | notANumber => exact id
  | infinity s => cases s <;> decide
  | zero s => exact fun _ => rfl
  | finite s mantissa exponent hpos =>
      cases s with
      | negative => exact fun _ => rfl
      | positive => exact nofun

namespace JsonValue

/-- The value is a number, and it is not below `n`. -/
def AtLeast (n : Nat) : JsonValue → Prop
  | .int i => n ≤ i
  | .bool b => n ≤ b.toNat
  | .double x => ¬x < Float.ofNat n
  | _ => False

/-- The value is a number that is zero or negative. -/
def Nonpositive : JsonValue → Prop
  | .int i => i ≤ 0
  | .bool b => b = false
  | .double x => x ≤ Float.ofNat 0
  | _ => False

variable {v : JsonValue} {n : Nat}

theorem below?_eq_false_iff : v.below? n = some false ↔ v.AtLeast n := by
  cases v with
  | int i => simp [below?, AtLeast]
  | bool b => simp [below?, AtLeast]
  | double x => simp [below?, AtLeast]
  | null | str | arr | obj => simp [below?, AtLeast]

theorem AtLeast.not_nonpositive (h : v.AtLeast 1) : ¬v.Nonpositive := by
  cases v with
  | int i =>
      intro hi
      have : 1 ≤ i := h
      have : i ≤ 0 := hi
      omega
  | bool b =>
      rintro rfl
      exact absurd (show 1 ≤ 0 from h) (by decide)
  | double x => exact fun hx => h (lt_one_of_le_zero hx)
  | null | str | arr | obj => exact h.elim

/-- What counts as an integer is not too low as one. -/
theorem AtLeast.le_int {i : Int} (h : v.AtLeast n) (hi : v.int? = some i) : n ≤ i := by
  cases v with
  | int j => cases hi; exact h
  | bool b => cases hi; exact Int.ofNat_le.mpr h
  | double x => cases hi
  | null | str | arr | obj => cases hi

end JsonValue

/-! ## Names -/

namespace Setting

theorem mem_all (k : Setting) : k ∈ all := by
  cases k <;> decide

theorem name_mem_names (k : Setting) : k.name ∈ names := List.mem_map_of_mem k.mem_all

/-- The value has a type that is meant for the setting. -/
def Admits (k : Setting) (v : JsonValue) : Prop :=
  match k with
  | .timerDivider | .cyclesPerSecond | .traceHistory => ∃ i, v = .int i
  | .debug | .dumpMemoryOnFault => ∃ b, v = .bool b
  | .seed => v = .null ∨ ∃ i, v = .int i

end Setting

namespace Settings

variable {members : List (String × JsonValue)} {t u base : Settings} {c : Config}
  {how : Copying}

/-- No name is unknown iff all are names of settings. -/
theorem unknownNames_eq_nil_iff {ns : List String} :
    unknownNames ns = [] ↔ ∀ n ∈ ns, n ∈ Setting.names := by
  have hdups : ∀ {xs : List String}, xs.eraseDups = [] ↔ xs = [] := by
    intro xs
    cases xs with
    | nil => simp
    | cons x xs => simp [List.eraseDups_cons]
  unfold unknownNames
  rw [← List.length_eq_zero_iff, List.length_mergeSort, List.length_eq_zero_iff, hdups,
    List.filter_eq_nil_iff]
  simp

/-! ## The check -/

/-- The values that are looked at are numbers, and none is too low. -/
def Passed (t : Settings) : Prop := ∀ k n, k.least? = some n → (t.value k).AtLeast n

theorem refusal?_eq_none_iff {k : Setting} :
    t.refusal? k = none ↔ ∀ n, k.least? = some n → (t.value k).AtLeast n := by
  unfold refusal?
  cases k.least? with
  | none => simp
  | some n =>
      simp only [Option.some.injEq, forall_eq', ← JsonValue.below?_eq_false_iff]
      cases (t.value k).below? n with
      | none => simp
      | some b => cases b <;> simp

theorem checked_eq_ok_iff : t.checked = .ok u ↔ t.Passed ∧ u = t := by
  have hpassed : Setting.all.findSome? t.refusal? = none ↔ t.Passed := by
    rw [List.findSome?_eq_none_iff]
    exact ⟨fun h k => refusal?_eq_none_iff.mp (h k k.mem_all),
      fun h k _ => refusal?_eq_none_iff.mpr (h k)⟩
  unfold checked
  rw [← hpassed]
  cases Setting.all.findSome? t.refusal? with
  | some e => exact ⟨nofun, nofun⟩
  | none => simp [eq_comm]

/-! ## Members -/

/-- Members make the settings that have every given value and every default, if these pass and no
other names are given. -/
theorem ofMembers_eq_ok_iff : ofMembers members = .ok t ↔
    (∀ m ∈ members, m.1 ∈ Setting.names) ∧ t.Passed ∧ ∀ k, t.value k = given members k := by
  have hnames : (∀ m ∈ members, m.1 ∈ Setting.names) ↔ unknownNames (members.map (·.1)) = [] := by
    rw [unknownNames_eq_nil_iff, List.forall_mem_map]
  rw [hnames]
  unfold ofMembers
  cases unknownNames (members.map (·.1)) with
  | cons n ns => exact ⟨nofun, fun h => nomatch h.1⟩
  | nil =>
      simp only [checked_eq_ok_iff, true_and]
      constructor
      · rintro ⟨hpassed, rfl⟩
        exact ⟨hpassed, fun _ => rfl⟩
      · rintro ⟨hpassed, hvalues⟩
        obtain rfl : t = ⟨given members⟩ := Settings.ext (funext hvalues)
        exact ⟨hpassed, rfl⟩

/-- A name that means nothing is refused. -/
theorem ofMembers_unknown (h : ∃ m ∈ members, m.1 ∉ Setting.names) :
    ofMembers members = .error (.unknownKeys (unknownNames (members.map (·.1)))) := by
  unfold ofMembers
  cases hunknown : unknownNames (members.map (·.1)) with
  | cons n ns => rfl
  | nil =>
      obtain ⟨m, hm, hname⟩ := h
      exact absurd (unknownNames_eq_nil_iff.mp hunknown _ (List.mem_map_of_mem hm)) hname

/-- A value is given that is too low, or that is no number although it has to be one. -/
def OutOfRange (members : List (String × JsonValue)) : Prop :=
  ∃ (k : Setting) (n : Nat) (v : JsonValue),
    k.least? = some n ∧ member? members k.name = some v ∧ ¬v.AtLeast n

theorem ofMembers_outOfRange (h : OutOfRange members) : ∃ e, ofMembers members = .error e := by
  obtain ⟨k, n, v, hleast, hv, hlow⟩ := h
  cases hmade : ofMembers members with
  | error e => exact ⟨e, rfl⟩
  | ok t =>
      obtain ⟨-, hpassed, hvalues⟩ := ofMembers_eq_ok_iff.mp hmade
      have hvalue : t.value k = v := by
        rw [hvalues k, given, hv]
        rfl
      exact absurd (hvalue ▸ hpassed k n hleast) hlow

/-- The settings by name are those that there are. -/
theorem map_members (t : Settings) : t.members.map (·.1) = Setting.names := rfl

theorem member?_members (t : Settings) (k : Setting) :
    member? t.members k.name = some (t.value k) := by
  cases k <;> rfl

/-- Settings that pass are made of their members. -/
theorem ofMembers_members (h : t.Passed) : ofMembers t.members = .ok t := by
  refine ofMembers_eq_ok_iff.mpr ⟨?_, h, ?_⟩
  · intro m hm
    rw [← map_members t]
    exact List.mem_map_of_mem hm
  · intro k
    rw [given, member?_members]
    rfl

/-! ## Copies -/

/-- All values can be copied. -/
def Copied (how : Copying) (t : Settings) : Prop := ∀ k, how.copies (t.value k) = true

theorem all_copies_iff :
    (Setting.all.all fun k => how.copies (t.value k)) = true ↔ t.Copied how := by
  rw [List.all_eq_true]
  exact ⟨fun h k => h k k.mem_all, fun h k _ => h k⟩

theorem copied_eq (h : t.Copied how) : t.copied how = .ok t.members :=
  if_pos (all_copies_iff.mpr h)

theorem copied_of_not (h : ¬t.Copied how) : t.copied how = .error .tooDeep :=
  if_neg fun hall => h (all_copies_iff.mp hall)

/-- Values that hold no others can be copied in any way. -/
theorem copied_of_flat (how : Copying) (h : ∀ k, (t.value k).nesting = 0) : t.Copied how :=
  fun k => how.flat _ (h k)

/-- The values of a configuration can be copied in any way. -/
theorem copied_settings (how : Copying) (c : Config) : c.settings.Copied how := by
  apply copied_of_flat
  intro k
  cases k with
  | seed =>
      show (c.seed.elim JsonValue.null .int).nesting = 0
      cases c.seed <;> rfl
  | timerDivider | cyclesPerSecond | debug | traceHistory | dumpMemoryOnFault => rfl

/-- A layer is made before it is laid over a copy. -/
theorem overlaid_eq_ok_iff {layer : Except ConfigError (List (String × JsonValue))} :
    t.overlaid how layer = .ok u ↔ t.Copied how ∧
      ∃ upper, layer = .ok upper ∧ ofMembers (JsonValue.laidOver t.members upper) = .ok u := by
  unfold overlaid
  by_cases h : t.Copied how
  · simp only [copied_eq h]
    cases layer with
    | error e => exact ⟨nofun, fun ⟨_, _, hmade, _⟩ => nomatch hmade⟩
    | ok upper => simp [h]
  · simp only [copied_of_not h]
    exact ⟨nofun, fun hmade => absurd hmade.1 h⟩

/-! ## Files -/

/-- Only an object can hold settings. -/
theorem ofValue_eq_ok_iff {v : JsonValue} : ofValue v = .ok t ↔
    ∃ members, v = .obj members ∧ ofMembers members = .ok t := by
  unfold ofValue
  split
  next members =>
    constructor
    · intro h
      exact ⟨members, rfl, h⟩
    · rintro ⟨_, heq, h⟩
      cases heq
      exact h
  next hno =>
    constructor
    · intro h
      split at h <;> cases h
    · rintro ⟨members, rfl, -⟩
      exact absurd rfl (hno members)

theorem ofFileText_eq_ok_iff {text : String} : ofFileText text = .ok t ↔
    ∃ members, JsonValue.parse text = .ok (.obj members) ∧ ofMembers members = .ok t := by
  unfold ofFileText
  cases JsonValue.parse text with
  | error e => exact ⟨nofun, nofun⟩
  | ok v =>
      have hvalue : ofValue v = .ok t ↔
          ∃ members, Except.ok v = Except.ok (ε := JsonError) (.obj members) ∧
            ofMembers members = .ok t := by
        simp only [ofValue_eq_ok_iff, Except.ok.injEq]
      rw [← hvalue]
      dsimp only
      cases ofValue v with
      | error e => exact ⟨nofun, nofun⟩
      | ok u => simp only [Except.ok.injEq]

/-! ## All settings that are made -/

/-- Settings that are made of members, of a file, or of others with choices or an environment laid
over them. -/
inductive Obtained : Settings → Prop
  | members {members : List (String × JsonValue)} {t : Settings} (h : ofMembers members = .ok t) :
      Obtained t
  | file {text : String} {t : Settings} (h : ofFileText text = .ok t) : Obtained t
  | chosen {base t : Settings} {how : Copying} {debug : Option Bool} {seed : Option Int}
      (h : base.choose how debug seed = .ok t) : Obtained t
  | environment {base t : Settings} {how : Copying} {e : Environment}
      (h : base.withEnvironment how e = .ok t) : Obtained t

theorem passed_of_ofMembers (h : ofMembers members = .ok t) : t.Passed :=
  (ofMembers_eq_ok_iff.mp h).2.1

/-- All settings that are made have passed the check. -/
theorem Obtained.passed (h : Obtained t) : t.Passed := by
  cases h with
  | members h => exact passed_of_ofMembers h
  | file h =>
      obtain ⟨members, -, hmembers⟩ := ofFileText_eq_ok_iff.mp h
      exact passed_of_ofMembers hmembers
  | chosen h | environment h =>
      obtain ⟨-, upper, -, hmembers⟩ := overlaid_eq_ok_iff.mp h
      exact passed_of_ofMembers hmembers

/-- What has passed the check is no number that is zero or negative, where it is divided by. -/
theorem Passed.not_nonpositive (h : t.Passed) :
    ¬(t.value .timerDivider).Nonpositive ∧ ¬(t.value .cyclesPerSecond).Nonpositive :=
  ⟨(h .timerDivider 1 rfl).not_nonpositive, (h .cyclesPerSecond 1 rfl).not_nonpositive⟩

/-! ## Configurations -/

/-- The settings of a configuration pass iff it is valid. -/
theorem passed_settings_iff : c.settings.Passed ↔ c.Valid := by
  constructor
  · intro h
    exact ⟨h .timerDivider 1 rfl, h .cyclesPerSecond 1 rfl, h .traceHistory 0 rfl⟩
  · rintro ⟨hdivider, hrate, hhistory⟩ k n hleast
    cases k <;> cases hleast
    · exact hdivider
    · exact hrate
    · exact hhistory

/-- The configuration of a machine with the settings of a configuration is that one. -/
theorem config?_settings (c : Config) : c.settings.config? = some c := by
  obtain ⟨_, _, debug, seed, _, dump⟩ := c
  cases debug <;> cases seed <;> cases dump <;> rfl

/-- Settings whose values have the types that are meant for them are those of a configuration. -/
theorem exists_eq_settings (h : ∀ k : Setting, k.Admits (t.value k)) :
    ∃ c : Config, t = c.settings := by
  obtain ⟨timerDivider, hdivider⟩ := h .timerDivider
  obtain ⟨cyclesPerSecond, hrate⟩ := h .cyclesPerSecond
  obtain ⟨debug, hdebug⟩ := h .debug
  obtain ⟨traceHistory, hhistory⟩ := h .traceHistory
  obtain ⟨dumpMemoryOnFault, hdump⟩ := h .dumpMemoryOnFault
  obtain ⟨seed, hseed⟩ : ∃ seed : Option Int, t.value .seed = seed.elim .null .int := by
    rcases h .seed with hnull | ⟨i, hi⟩
    · exact ⟨none, hnull⟩
    · exact ⟨some i, hi⟩
  refine ⟨⟨timerDivider, cyclesPerSecond, debug, seed, traceHistory, dumpMemoryOnFault⟩, ?_⟩
  ext k
  cases k <;> assumption

/-- Settings that pass are those of a valid configuration iff their values have the types that are
meant for them. -/
theorem Passed.admitted_iff (h : t.Passed) :
    (∀ k : Setting, k.Admits (t.value k)) ↔ ∃ c : Config, c.Valid ∧ t = c.settings := by
  constructor
  · intro hadmitted
    obtain ⟨c, rfl⟩ := exists_eq_settings hadmitted
    exact ⟨c, passed_settings_iff.mp h, rfl⟩
  · rintro ⟨c, -, rfl⟩ k
    cases k with
    | seed =>
        show c.seed.elim JsonValue.null .int = .null ∨ ∃ i, c.seed.elim JsonValue.null .int = .int i
        cases c.seed with
        | none => exact .inl rfl
        | some i => exact .inr ⟨i, rfl⟩
    | timerDivider | cyclesPerSecond | debug | traceHistory | dumpMemoryOnFault => exact ⟨_, rfl⟩

/-- The configuration of a machine is valid if its settings have passed. -/
theorem Passed.valid (h : t.Passed) (hc : t.config? = some c) : c.Valid := by
  unfold config? at hc
  simp only [Option.bind_eq_bind, Option.bind_eq_some_iff] at hc
  obtain ⟨divider, hdivider, rate, hrate, seed, -, history, hhistory, hmade⟩ := hc
  cases hmade
  exact ⟨(h .timerDivider 1 rfl).le_int hdivider, (h .cyclesPerSecond 1 rfl).le_int hrate,
    (h .traceHistory 0 rfl).le_int hhistory⟩

end Settings

end ChipEight
