import ChipEight.Proofs.Config.File

/-!
# Settings in layers

Settings are put over others name by name: a name that both have takes the upper value, and every
other name keeps the one it has. So whoever looks a name up behind any number of layers finds the
value of the uppermost layer that has the name. A value that is false, zero or null is a value
like any other; only a layer without the name lets the one below it through.

The environment and the command line are layers of two names at most, over settings that are
written out with all their names. Making settings of the outcome changes these two values and
nothing else. Neither is looked at, so settings that have passed the check pass it again; and what
has been copied once can be copied again.

## Main results

* `JsonValue.member?_laidOver` — what is found behind two layers.
* `Settings.choose_eq_ok_iff` — settings with a layer of choices over them.
* `Settings.withEnvironment_eq_ok_iff` — the environment is a layer.
* `Settings.withEnvironment_again` — the same environment changes nothing the second time.
-/

namespace ChipEight

namespace JsonValue

variable {members layer : List (String × JsonValue)} {name : String}

/-! ## Layers -/

theorem member?_cons (m : String × JsonValue) (ms : List (String × JsonValue)) (name : String) :
    member? (m :: ms) name = if name = m.1 then some m.2 else member? ms name := by
  unfold member?
  rw [List.lookup_cons]
  by_cases h : name = m.1
  · rw [if_pos h, beq_iff_eq.mpr h]
  · rw [if_neg h, beq_eq_false_iff_ne.mpr h]

theorem member?_append (ms ns : List (String × JsonValue)) (name : String) :
    member? (ms ++ ns) name = (member? ms name).or (member? ns name) := by
  induction ms with
  | nil => rfl
  | cons m ms ih =>
      rw [List.cons_append, member?_cons, member?_cons, ih]
      split <;> rfl

theorem member?_eq_none_iff : member? members name = none ↔ name ∉ members.map (·.1) := by
  induction members with
  | nil => exact ⟨fun _ => List.not_mem_nil, fun _ => rfl⟩
  | cons m ms ih =>
      rw [List.map_cons, List.mem_cons, not_or, member?_cons, ← ih]
      by_cases hname : name = m.1
      · rw [if_pos hname]
        exact ⟨nofun, fun h => absurd hname h.1⟩
      · rw [if_neg hname]
        exact ⟨fun h => ⟨hname, h⟩, And.right⟩

/-- Replacing the value of a name in its place. -/
theorem member?_replaced (members : List (String × JsonValue)) (n : String) (v : JsonValue)
    (name : String) :
    member? (members.map fun m => if m.1 == n then (n, v) else m) name =
      if name = n then (member? members name).map fun _ => v else member? members name := by
  induction members with
  | nil => split <;> rfl
  | cons m ms ih =>
      rw [List.map_cons, member?_cons, member?_cons, ih]
      by_cases hm : m.1 = n
      · subst hm
        by_cases hname : name = m.1
        · simp [hname]
        · simp [hname]
      · by_cases hname : name = m.1
        · simp [hm, hname]
        · simp [hm, hname]

/-- The name that is put has the new value, and no other name has changed. -/
theorem member?_putMember (members : List (String × JsonValue)) (n : String) (v : JsonValue)
    (name : String) :
    member? (putMember members n v) name = if name = n then some v else member? members name := by
  by_cases hmem : n ∈ members.map (·.1)
  · have hany : members.any (·.1 == n) = true := by
      obtain ⟨m, hm, hmn⟩ := List.mem_map.mp hmem
      exact List.any_eq_true.mpr ⟨m, hm, beq_iff_eq.mpr hmn⟩
    obtain ⟨w, hw⟩ :=
      Option.ne_none_iff_exists'.mp fun hnone => member?_eq_none_iff.mp hnone hmem
    rw [putMember, hany, if_pos rfl, member?_replaced]
    by_cases hname : name = n
    · rw [if_pos hname, if_pos hname, hname, hw]
      rfl
    · rw [if_neg hname, if_neg hname]
  · rw [putMember_of_notMem hmem, member?_append, member?_cons]
    by_cases hname : name = n
    · rw [if_pos hname, if_pos hname, hname, member?_eq_none_iff.mpr hmem]
      rfl
    · rw [if_neg hname, if_neg hname]
      exact Option.or_none

/-- The upper layer is asked first. -/
theorem member?_laidOver (hnodup : (layer.map (·.1)).Nodup) (name : String) :
    member? (laidOver members layer) name = (member? layer name).or (member? members name) := by
  induction layer generalizing members with
  | nil => rfl
  | cons m ms ih =>
      rw [List.map_cons, List.nodup_cons] at hnodup
      show member? (laidOver (putMember members m.1 m.2) ms) name = _
      rw [ih hnodup.2, member?_putMember, member?_cons]
      by_cases hname : name = m.1
      · rw [if_pos hname, if_pos hname, hname, member?_eq_none_iff.mpr hnodup.1]
        rfl
      · rw [if_neg hname, if_neg hname]

/-- A name that is given behind two layers is given in one of them. -/
theorem mem_laidOver (hnodup : (layer.map (·.1)).Nodup)
    (hname : name ∈ (laidOver members layer).map (·.1)) :
    name ∈ layer.map (·.1) ∨ name ∈ members.map (·.1) := by
  refine Decidable.byContradiction fun hno => ?_
  rw [not_or] at hno
  refine member?_eq_none_iff.mp ?_ hname
  rw [member?_laidOver hnodup, member?_eq_none_iff.mpr hno.1, member?_eq_none_iff.mpr hno.2]
  rfl

end JsonValue

/-! ## Choices -/

namespace Settings

open JsonValue (member? laidOver)

variable {members : List (String × JsonValue)} {t u base : Settings} {debug : Option Bool}
  {seed : Option Int} {how : Copying}

theorem sublist_choiceLayer (debug : Option Bool) (seed : Option Int) :
    ((choiceLayer debug seed).map (·.1)).Sublist [Setting.debug.name, Setting.seed.name] := by
  cases debug <;> cases seed <;> simp [choiceLayer]

theorem nodup_choiceLayer (debug : Option Bool) (seed : Option Int) :
    ((choiceLayer debug seed).map (·.1)).Nodup :=
  (sublist_choiceLayer debug seed).nodup (by decide)

theorem mem_choiceLayer {name : String} (hname : name ∈ (choiceLayer debug seed).map (·.1)) :
    name ∈ Setting.names := by
  rcases List.mem_cons.mp ((sublist_choiceLayer debug seed).subset hname) with rfl | hseed
  · exact Setting.debug.name_mem_names
  · rw [List.mem_singleton.mp hseed]
    exact Setting.seed.name_mem_names

/-- The settings with these choices. -/
def chosen (t : Settings) (debug : Option Bool) (seed : Option Int) : Settings where
  value
    | .debug => debug.elim (t.value .debug) .bool
    | .seed => seed.elim (t.value .seed) .int
    | k => t.value k

/-- What is given behind a layer: what the layer gives, or else what was given before. -/
theorem given_laidOver {layer : List (String × JsonValue)} (hnodup : (layer.map (·.1)).Nodup)
    (k : Setting) :
    given (laidOver members layer) k = (member? layer k.name).getD (given members k) := by
  unfold given
  rw [JsonValue.member?_laidOver hnodup, Option.getD_or]

/-- What is given behind choices. -/
theorem given_chosen (debug : Option Bool) (seed : Option Int)
    (hvalues : ∀ k, t.value k = given members k) (k : Setting) :
    given (laidOver members (choiceLayer debug seed)) k = (t.chosen debug seed).value k := by
  rw [given_laidOver (nodup_choiceLayer debug seed), ← hvalues]
  cases k <;> cases debug <;> cases seed <;> rfl

/-- Choices are not looked at. -/
theorem passed_chosen_iff : (t.chosen debug seed).Passed ↔ t.Passed := by
  refine forall_congr' fun k => forall_congr' fun n => forall_congr' fun hleast => ?_
  cases k with
  | debug | seed => cases hleast
  | timerDivider | cyclesPerSecond | traceHistory | dumpMemoryOnFault => exact Iff.rfl

/-- Choices that are laid over members make the settings that have them. -/
theorem ofMembers_laidOver (hbase : ofMembers members = .ok base) (debug : Option Bool)
    (seed : Option Int) :
    ofMembers (laidOver members (choiceLayer debug seed)) = .ok (base.chosen debug seed) := by
  obtain ⟨hnames, hpassed, hvalues⟩ := ofMembers_eq_ok_iff.mp hbase
  refine ofMembers_eq_ok_iff.mpr ⟨?_, passed_chosen_iff.mpr hpassed, ?_⟩
  · intro m hm
    have hname := List.mem_map_of_mem (f := Prod.fst) hm
    rcases JsonValue.mem_laidOver (nodup_choiceLayer debug seed) hname with hchoice | hbelow
    · exact mem_choiceLayer hchoice
    · obtain ⟨m', hm', heq⟩ := List.mem_map.mp hbelow
      exact heq ▸ hnames m' hm'
  · exact fun k => (given_chosen debug seed hvalues k).symm

/-- What is chosen can be copied. -/
theorem Copied.chosen (h : t.Copied how) (debug : Option Bool) (seed : Option Int) :
    (t.chosen debug seed).Copied how := by
  intro k
  cases k with
  | debug =>
      cases debug with
      | none => exact h .debug
      | some b => exact how.flat _ rfl
  | seed =>
      cases seed with
      | none => exact h .seed
      | some n => exact how.flat _ rfl
  | timerDivider | cyclesPerSecond | traceHistory | dumpMemoryOnFault => exact h _

/-- Settings with choices laid over them. -/
theorem choose_eq_ok_iff : t.choose how debug seed = .ok u ↔
    t.Copied how ∧ t.Passed ∧ u = t.chosen debug seed := by
  have hmade : ofMembers (laidOver t.members (choiceLayer debug seed)) = .ok u ↔
      t.Passed ∧ u = t.chosen debug seed := by
    constructor
    · intro h
      obtain ⟨-, hpassed, hvalues⟩ := ofMembers_eq_ok_iff.mp h
      have hgiven : ∀ k, t.value k = given t.members k := by
        intro k
        rw [given, member?_members]
        rfl
      obtain rfl : u = t.chosen debug seed := by
        ext k
        rw [hvalues k, given_chosen debug seed hgiven]
      exact ⟨passed_chosen_iff.mp hpassed, rfl⟩
    · rintro ⟨hpassed, rfl⟩
      exact ofMembers_laidOver (ofMembers_members hpassed) debug seed
  unfold choose
  rw [overlaid_eq_ok_iff, ← hmade]
  simp

/-- Settings that can be copied and have passed the check have their choices. -/
theorem choose_eq (hcopied : t.Copied how) (h : t.Passed) (debug : Option Bool)
    (seed : Option Int) : t.choose how debug seed = .ok (t.chosen debug seed) :=
  choose_eq_ok_iff.mpr ⟨hcopied, h, rfl⟩

/-- Choices that were made already change nothing. -/
theorem chosen_chosen (t : Settings) (debug : Option Bool) (seed : Option Int) :
    (t.chosen debug seed).chosen debug seed = t.chosen debug seed := by
  ext k
  cases k <;> cases debug <;> cases seed <;> rfl

end Settings

/-! ## The environment -/

namespace Environment

variable {e : Environment} {text : String}

/-- The seed is a text that is no integer. -/
def Misspelt (e : Environment) (text : String) : Prop :=
  e.seed = some text ∧ text ≠ "" ∧ Text.Integer.read? text = none

theorem Misspelt.unique {text' : String} (h : e.Misspelt text) (h' : e.Misspelt text') :
    text = text' := Option.some.inj (h.1.symm.trans h'.1)

/-- The seed that can be read. An empty text is none. -/
def seed? (e : Environment) : Option Int := (e.seed.filter (· ≠ "")).bind Text.Integer.read?

end Environment

namespace Settings

variable {e : Environment} {base t : Settings} {how : Copying}

/-- An environment asks for the seed that can be read in it, unless that is misspelt. -/
theorem environmentSeed_eq (e : Environment) :
    (∃ text, e.Misspelt text ∧ environmentSeed e = .error (.seedText text)) ∨
      (∀ text, ¬e.Misspelt text) ∧ environmentSeed e = .ok e.seed? := by
  unfold environmentSeed Environment.Misspelt Environment.seed?
  cases hseed : e.seed with
  | none => exact .inr ⟨nofun, rfl⟩
  | some text =>
      by_cases hempty : text = ""
      · refine .inr ⟨?_, ?_⟩
        · rintro _ ⟨heq, hne, -⟩
          cases heq
          exact hne hempty
        · rw [hempty]
          rfl
      · have hfilled : text.isEmpty = false := by
          rw [Bool.eq_false_iff]
          exact fun h => hempty (String.isEmpty_iff.mp h)
        have hkept : (some text).filter (· ≠ "") = some text := by
          simp [hempty]
        cases hread : Text.Integer.read? text with
        | none =>
            refine .inl ⟨text, ⟨rfl, hempty, hread⟩, ?_⟩
            simp [hfilled, hread]
        | some n =>
            refine .inr ⟨?_, ?_⟩
            · rintro _ ⟨heq, -, hnone⟩
              cases heq
              rw [hread] at hnone
              cases hnone
            · rw [hkept]
              simp [hfilled, hread]

/-- Settings that cannot be copied are not looked at any further. -/
theorem withEnvironment_of_not (h : ¬base.Copied how) (e : Environment) :
    base.withEnvironment how e = .error .tooDeep := by
  unfold withEnvironment overlaid
  simp only [copied_of_not h]

theorem withEnvironment_of_misspelt (h : base.Copied how) {text : String} (hbad : e.Misspelt text) :
    base.withEnvironment how e = .error (.seedText text) := by
  rcases environmentSeed_eq e with ⟨text', hbad', hseed⟩ | ⟨hgood, -⟩
  · unfold withEnvironment overlaid
    rw [hseed, copied_eq h, hbad.unique hbad']
    rfl
  · exact absurd hbad (hgood text)

/-- An environment whose seed is not misspelt is a layer of choices. -/
theorem withEnvironment_of_good (hgood : ∀ text, ¬e.Misspelt text) :
    base.withEnvironment how e = base.choose how (e.debug.map flagOn) e.seed? := by
  rcases environmentSeed_eq e with ⟨text, hbad, -⟩ | ⟨-, hseed⟩
  · exact absurd hbad (hgood text)
  · unfold withEnvironment
    rw [hseed]
    rfl

theorem withEnvironment_eq_ok_iff : base.withEnvironment how e = .ok t ↔
    base.Copied how ∧ (∀ text, ¬e.Misspelt text) ∧ base.Passed ∧
      t = base.chosen (e.debug.map flagOn) e.seed? := by
  by_cases hcopied : base.Copied how
  · rcases environmentSeed_eq e with ⟨text, hbad, -⟩ | ⟨hgood, -⟩
    · rw [withEnvironment_of_misspelt hcopied hbad]
      exact ⟨nofun, fun h => absurd hbad (h.2.1 text)⟩
    · rw [withEnvironment_of_good hgood, choose_eq_ok_iff]
      exact and_congr_right fun _ => (and_iff_right hgood).symm
  · rw [withEnvironment_of_not hcopied]
    exact ⟨nofun, fun h => absurd h.1 hcopied⟩

/-- Why an environment is not laid over settings that have passed the check. -/
inductive Barred (how : Copying) (base : Settings) (e : Environment) : ConfigError → Prop
  | tooDeep (h : ¬base.Copied how) : Barred how base e .tooDeep
  | misspelt {text : String} (h : base.Copied how) (hbad : e.Misspelt text) :
      Barred how base e (.seedText text)

theorem withEnvironment_eq_error_iff (hpassed : base.Passed) {error : ConfigError} :
    base.withEnvironment how e = .error error ↔ Barred how base e error := by
  constructor
  · intro h
    by_cases hcopied : base.Copied how
    · rcases environmentSeed_eq e with ⟨text, hbad, -⟩ | ⟨hgood, -⟩
      · rw [withEnvironment_of_misspelt hcopied hbad] at h
        cases h
        exact .misspelt hcopied hbad
      · rw [withEnvironment_of_good hgood, choose_eq hcopied hpassed] at h
        cases h
    · rw [withEnvironment_of_not hcopied] at h
      cases h
      exact .tooDeep hcopied
  · rintro (hdeep | ⟨hcopied, hbad⟩)
    · exact withEnvironment_of_not hdeep e
    · exact withEnvironment_of_misspelt hcopied hbad

/-- The same environment changes nothing the second time. -/
theorem withEnvironment_again (h : base.withEnvironment how e = .ok t) :
    t.withEnvironment how e = .ok t := by
  obtain ⟨hcopied, hgood, hpassed, rfl⟩ := withEnvironment_eq_ok_iff.mp h
  exact withEnvironment_eq_ok_iff.mpr ⟨hcopied.chosen _ _, hgood, passed_chosen_iff.mpr hpassed,
    (chosen_chosen ..).symm⟩

end Settings

end ChipEight
