import ChipEight.Proofs.Config.File
import ChipEight.Proofs.Session.Limit

/-!
# Configurations from the file to the session

The settings of a valid configuration survive being saved, and only settings that pass the check are
ever loaded. These are not always those of a configuration, since values of other types are loaded
too. A session keeps the configurations it began with, that of its machine and that of its pace,
whatever its user does; so the timers of a machine always have a period and a driver always has
a rate.

## Main results

* `Session.pacing_performAll` — no operation changes the pace.
* `Settings.saved_and_checked` — what is saved, what is loaded, and what sessions make of it.
-/

namespace ChipEight

namespace Session

/-! ## Pace -/

theorem pacing_drive (s : Session) (limit : Int) (o : DriveOptions) :
    (s.drive limit o).1.pacing = s.pacing := by
  cases hpace : s.pacing.stepInterval? with
  | none => rw [drive_of_no_pace hpace]
  | some interval =>
      rw [drive_of_pace hpace]
      exact pacing_cruise o interval limit.toNat s {}

theorem pacing_perform (s : Session) (o : Op) : (s.perform o).pacing = s.pacing := by
  cases o with
  | step =>
      show s.step.1.pacing = s.pacing
      cases hstep : s.step with
      | mk t result => rw [(console_step hstep).2]; rfl
  | run n =>
      show (s.run n).1.pacing = s.pacing
      unfold run
      rcases s.console.run s.keyboard n with ⟨c, result⟩
      rfl
  | press code =>
      show (s.withKeypad (s.keypad.press code)).pacing = s.pacing
      cases s.keypad.press code <;> rfl
  | release code =>
      show (s.withKeypad (s.keypad.release code)).pacing = s.pacing
      cases s.keypad.release code <;> rfl
  | drive limit o => exact s.pacing_drive limit o
  | driveOn o =>
      rcases s.driveOn_cases o with ⟨n, -, hperform, -⟩ | ⟨-, hperform, -⟩
      · rw [hperform]
        exact s.pacing_drive n o
      · rw [hperform]
  | load | reset | post | plug | reseed => simp only [perform, withConsole, post]

/-- No operation changes the pace. -/
theorem pacing_performAll (ops : List Op) :
    ∀ s : Session, (s.performAll ops).pacing = s.pacing := by
  induction ops with
  | nil =>
      intro s
      rfl
  | cons o ops ih =>
      intro s
      exact (ih (s.perform o)).trans (s.pacing_perform o)

end Session

namespace Settings

/-! ## Files -/

/-- A configuration is written out, saved and loaded without a loss. -/
structure Kept (c : Config) : Prop where
  members : ∀ how, (c.settings.copied how).bind ofMembers = .ok c.settings
  /-- Saved again, it has the same text. -/
  file : ∀ how, ∃ text, c.settings.saved how = .ok text ∧ ofFileText text = .ok c.settings ∧
    ∀ t, ofFileText text = .ok t → t.saved how = .ok text
  config : c.settings.config? = some c

theorem saved_settings (how : Copying) (c : Config) :
    c.settings.saved how = .ok c.settings.fileText := by
  unfold saved
  rw [copied_eq (copied_settings how c)]
  rfl

theorem kept {c : Config} (hvalid : c.Valid) (hbrief : c.Brief) : Kept c where
  members how := by
    rw [copied_eq (copied_settings how c)]
    exact ofMembers_members (passed_settings_iff.mpr hvalid)
  file how := by
    have hloaded := ofFileText_fileText hvalid hbrief
    refine ⟨c.settings.fileText, saved_settings how c, hloaded, ?_⟩
    intro t ht
    rw [hloaded, Except.ok.injEq] at ht
    rw [← ht]
    exact saved_settings how c
  config := config?_settings c

/-- Settings that were made are never divided by as a number that is zero or negative, and all that
is meant to be a number is one that is not too low. They are those of a valid configuration iff
their values have the types that are meant, and the configuration of a machine with them is valid
in any case. -/
structure Sound (t : Settings) : Prop where
  passed : t.Passed
  timerDivider : ¬(t.value .timerDivider).Nonpositive
  cyclesPerSecond : ¬(t.value .cyclesPerSecond).Nonpositive
  admitted : (∀ k : Setting, k.Admits (t.value k)) ↔ ∃ c : Config, c.Valid ∧ t = c.settings
  valid : ∀ c, t.config? = some c → c.Valid

theorem Obtained.sound {t : Settings} (h : Obtained t) : Sound t where
  passed := h.passed
  timerDivider := h.passed.not_nonpositive.1
  cyclesPerSecond := h.passed.not_nonpositive.2
  admitted := h.passed.admitted_iff
  valid _ hc := h.passed.valid hc

/-- A valid configuration is kept by its file, unless one of its integers is too long to be
read. Members make the settings that have all given values and else the defaults, as long as the
three numbers are numbers and not too low and no other names are given; a file is read as the
members it holds. So all settings that are made are sound, whatever the types of their other values,
unknown names and numbers out of range make none, and in no session that begins with valid
configurations a period or a rate below one comes up. -/
theorem saved_and_checked (t : Settings) :
    (∀ c : Config, c.Valid → c.Brief → Kept c) ∧
    (∀ members, ofMembers members = .ok t ↔
      (∀ m ∈ members, m.1 ∈ Setting.names) ∧ t.Passed ∧ ∀ k, t.value k = given members k) ∧
    (∀ text, ofFileText text = .ok t ↔
      ∃ members, JsonValue.parse text = .ok (.obj members) ∧ ofMembers members = .ok t) ∧
    (Obtained t → Sound t) ∧
    (∀ members, (∃ m ∈ members, m.1 ∉ Setting.names) ∨ OutOfRange members →
      ∃ e, ofMembers members = .error e) ∧
    (∀ (c : Config) (s : Session) (random : Option Generator) (trace : Trace.Dispatcher),
      c.Valid → s.pacing.Valid → Console.create c random trace = .ok s.console → ∀ ops,
        1 ≤ (s.performAll ops).console.config.timerDivider ∧
          1 ≤ (s.performAll ops).pacing.cyclesPerSecond) := by
  refine ⟨fun _ => kept, fun _ => ofMembers_eq_ok_iff, fun _ => ofFileText_eq_ok_iff,
    Obtained.sound, ?_, ?_⟩
  · rintro members (hunknown | hrange)
    · exact ⟨_, ofMembers_unknown hunknown⟩
    · exact ofMembers_outOfRange hrange
  · intro c s random trace hvalid hpacing hcreate ops
    rw [(s.settings_performAll ops).1, (Console.settings_create hcreate).1,
      s.pacing_performAll ops]
    exact ⟨hvalid.1, hpacing.2.1⟩

/-- A configuration of which every value differs from the default, with a seed of forty-one
digits. -/
def peculiar : Config where
  timerDivider := 1
  cyclesPerSecond := 1000003
  debug := true
  seed := some (-12345678901234567890123456789012345678901)
  traceHistory := 0
  dumpMemoryOnFault := false

/-- It is kept and checked, and so are the settings and the session of others. -/
theorem peculiar_kept :
    Kept peculiar ∧ (Obtained peculiar.settings ∧ Sound peculiar.settings) ∧
      (∃ e, ofMembers [("turbo", .bool true)] = .error e) ∧
      (∃ e, ofMembers [("seed", .null), ("timer_divider", .int 0)] = .error e) ∧
      (∃ e, ofMembers [("trace_history", .str "64")] = .error e) ∧
      1 ≤ (Session.fresh.performAll [.step, .drive 3 {}, .reset]).console.config.timerDivider ∧
      1 ≤ (Session.fresh.performAll [.step, .drive 3 {}, .reset]).pacing.cyclesPerSecond := by
  have hvalid : peculiar.Valid := by decide
  have hbrief : peculiar.Brief :=
    { timerDivider := by decide +kernel
      cyclesPerSecond := by decide +kernel
      seed := by
        intro n hn
        cases hn
        decide +kernel
      traceHistory := by decide +kernel }
  obtain ⟨hkept, -, -, hmade, hrefused, hsession⟩ := saved_and_checked peculiar.settings
  have hobtained : Obtained peculiar.settings := by
    obtain ⟨text, -, hloaded, -⟩ := (hkept peculiar hvalid hbrief).file .usual
    exact .file hloaded
  have hlow : OutOfRange [("seed", .null), ("timer_divider", .int 0)] :=
    ⟨.timerDivider, 1, .int 0, rfl, rfl, show ¬(1 : Int) ≤ 0 by decide⟩
  have hword : OutOfRange [("trace_history", .str "64")] :=
    ⟨.traceHistory, 0, .str "64", rfl, rfl, id⟩
  exact ⟨hkept peculiar hvalid hbrief, ⟨hobtained, hmade hobtained⟩,
    hrefused _ (.inl ⟨_, List.mem_cons_self, by decide⟩), hrefused _ (.inr hlow),
    hrefused _ (.inr hword),
    hsession {} Session.fresh _ _ (by decide) (by decide) Session.create_fresh _⟩

/-- The text that a value is. -/
def wordOf? : JsonValue → Option String
  | .str s => some s
  | _ => none

/-- The double that a value is. -/
def fractionOf? : JsonValue → Option Float
  | .double x => some x
  | _ => none

theorem wordOf?_eq_some_iff {v : JsonValue} {s : String} : wordOf? v = some s ↔ v = .str s := by
  cases v <;> simp [wordOf?]

theorem fractionOf?_eq_some_iff {v : JsonValue} {x : Float} :
    fractionOf? v = some x ↔ v = .double x := by
  cases v <;> simp [fractionOf?]

/-- A value that was read in settings, in settings that were read. -/
theorem exists_ok_of_bind {ε α : Type} {x : Except ε Settings} {f : Settings → Option α} {a : α}
    (h : x.toOption.bind f = some a) : ∃ t, x = .ok t ∧ f t = some a := by
  cases x with
  | error e => cases h
  | ok t => exact ⟨t, rfl, h⟩

/-- Not all settings that are loaded are those of a configuration. Tracing may be turned on by the
word `no`, and a rate that is no number is not below one, nor is it one or more. -/
theorem worded_not_settings :
    (∃ t, ofFileText "\x7b\"debug\": \"no\"\x7d" = .ok t ∧ t.value .debug = .str "no" ∧
      ¬∃ c : Config, t = c.settings) ∧
    ∃ t, ofFileText "\x7b\"cycles_per_second\": NaN\x7d" = .ok t ∧
      ∃ x, t.value .cyclesPerSecond = .double x ∧ ¬Float.ofNat 1 ≤ x := by
  constructor
  · have hword : (ofFileText "\x7b\"debug\": \"no\"\x7d").toOption.bind
        (fun t => wordOf? (t.value .debug)) = some "no" := by
      decide +kernel
    obtain ⟨t, hloaded, hvalue⟩ := exists_ok_of_bind hword
    rw [wordOf?_eq_some_iff] at hvalue
    refine ⟨t, hloaded, hvalue, ?_⟩
    rintro ⟨c, rfl⟩
    cases hvalue
  · have hrate : ∃ x ∈ (ofFileText "\x7b\"cycles_per_second\": NaN\x7d").toOption.bind
        (fun t => fractionOf? (t.value .cyclesPerSecond)), ¬Float.ofNat 1 ≤ x := by
      decide +kernel
    obtain ⟨x, hread, hless⟩ := hrate
    obtain ⟨t, hloaded, hvalue⟩ := exists_ok_of_bind hread
    exact ⟨t, hloaded, x, fractionOf?_eq_some_iff.mp hvalue, hless⟩

end Settings

end ChipEight
