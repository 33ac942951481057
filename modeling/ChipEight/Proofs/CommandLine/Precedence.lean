import ChipEight.CommandLine
import ChipEight.Proofs.Config.Layers
import ChipEight.Proofs.Json.Nested

/-!
# Where the settings of a run come from

The settings of a run lie in four layers: the command line, the environment, the configuration
file, the defaults. A setting has the value of the uppermost layer that has the setting, whatever
that value is. The two upper layers have no more than two settings, and they differ in what they
count as absent: a flag that was not given, a variable that is not set, and for the seed also a
variable that is empty. A seed that is misspelt in the environment ends the run, whatever the
command line says, since the layers are put together from below. What lies below is copied first,
so a run also ends if a value in its file is nested too deeply.

## Main results

* `CommandLine.fileSettings_eq_ok_iff` — the lower two layers.
* `CommandLine.settingsOf_layered` — all four.
* `CommandLine.pit_not_settled` — a file that can be loaded but gives no settings.
-/

namespace ChipEight.CommandLine

open JsonValue Settings Text

variable {s : Surroundings} {o : Options} {members : List (String × JsonValue)}
  {base t : Settings}

/-! ## Files -/

/-- The settings that stand in the configuration file of a run. Without a file there are none. -/
def FileSettings (s : Surroundings) (members : List (String × JsonValue)) : Option Path → Prop
  | none => members = []
  | some p => ∃ content text, s.read p = .ok content ∧
      String.fromUTF8? ⟨content.toArray⟩ = some text ∧ parse text = .ok (.obj members)

/-- A file is used for the settings that stand in it. -/
theorem fileSettings_eq_ok_iff {file : Option Path} : fileSettings s file = .ok base ↔
    ∃ members, FileSettings s members file ∧ ofMembers members = .ok base := by
  cases file with
  | none =>
      have hdefault : ofMembers [] = .ok ({} : Config).settings :=
        ofMembers_eq_ok_iff.mpr ⟨nofun, passed_settings_iff.mpr (by decide), fun _ => rfl⟩
      constructor
      · intro h
        cases h
        exact ⟨[], rfl, hdefault⟩
      · rintro ⟨_, rfl, h⟩
        cases hdefault.symm.trans h
        rfl
  | some p =>
      unfold fileSettings FileSettings
      constructor
      · intro h
        cases hread : s.read p with
        | error e =>
            simp only [hread] at h
            cases h
        | ok content =>
            simp only [hread] at h
            cases htext : String.fromUTF8? ⟨content.toArray⟩ with
            | none =>
                simp only [htext] at h
                cases h
            | some text =>
                simp only [htext] at h
                cases hmade : ofFileText text with
                | error e =>
                    simp only [hmade] at h
                    cases h
                | ok d =>
                    simp only [hmade] at h
                    cases h
                    obtain ⟨members, hparse, hmembers⟩ := ofFileText_eq_ok_iff.mp hmade
                    exact ⟨members, ⟨content, text, hread, htext, hparse⟩, hmembers⟩
      · rintro ⟨members, ⟨content, text, hread, htext, hparse⟩, hmembers⟩
        have hmade : ofFileText text = .ok base :=
          ofFileText_eq_ok_iff.mpr ⟨members, hparse, hmembers⟩
        simp only [hread, htext, hmade]

/-! ## All layers -/

/-- The settings of a run, if its file can be used. -/
theorem settingsOf_eq_ok_iff (hbase : fileSettings s o.config = .ok base) (hpassed : base.Passed) :
    settingsOf s o = .ok t ↔ base.Copied s.copying ∧ (∀ text, ¬s.environment.Misspelt text) ∧
      t = (base.chosen (s.environment.debug.map flagOn) s.environment.seed?).chosen
        o.debug o.seed.join := by
  unfold settingsOf
  simp only [hbase]
  cases hover : base.withEnvironment s.copying s.environment with
  | error error =>
      cases (withEnvironment_eq_error_iff hpassed).mp hover with
      | tooDeep hdeep => exact ⟨nofun, fun h => absurd h.1 hdeep⟩
      | @misspelt text _ hbad => exact ⟨nofun, fun h => absurd hbad (h.2.1 text)⟩
  | ok under =>
      obtain ⟨hcopied, hgood, -, rfl⟩ := withEnvironment_eq_ok_iff.mp hover
      simp only [choose_eq (hcopied.chosen _ _) (passed_chosen_iff.mpr hpassed), Except.ok.injEq]
      exact ⟨fun h => ⟨hcopied, hgood, h.symm⟩, fun h => h.2.2.symm⟩

/-- A run whose file can be used has no settings only if its environment cannot be laid over
those of the file. -/
theorem settingsOf_eq_error_iff (hbase : fileSettings s o.config = .ok base)
    (hpassed : base.Passed) {error : RunError} : settingsOf s o = .error error ↔
      ∃ e, Barred s.copying base s.environment e ∧ error = .config (.settings e) := by
  unfold settingsOf
  simp only [hbase, ← withEnvironment_eq_error_iff hpassed]
  cases hover : base.withEnvironment s.copying s.environment with
  | error e => simp [eq_comm]
  | ok under =>
      obtain ⟨hcopied, -, -, rfl⟩ := withEnvironment_eq_ok_iff.mp hover
      simp [choose_eq (hcopied.chosen _ _) (passed_chosen_iff.mpr hpassed)]

/-- The layers of the settings of a run, the uppermost first: those that were chosen on the
command line, those of the environment, those of the file, and the defaults. -/
def layersOf (s : Surroundings) (o : Options) (seed : Option Int)
    (members : List (String × JsonValue)) : List (List (String × JsonValue)) :=
  [choiceLayer o.debug seed, choiceLayer (s.environment.debug.map flagOn) s.environment.seed?,
    members, ({} : Config).settings.members]

/-- The value of a name in the uppermost layer that has it. -/
def uppermost (layers : List (List (String × JsonValue))) (name : String) : Option JsonValue :=
  layers.findSome? (member? · name)

theorem uppermost_cons (layer : List (String × JsonValue))
    (layers : List (List (String × JsonValue))) (name : String) :
    uppermost (layer :: layers) name = (member? layer name).or (uppermost layers name) := by
  unfold uppermost
  rw [List.findSome?_cons]
  cases member? layer name <;> rfl

/-- What is given for a setting stands in the layer of the members or in that of the defaults. -/
theorem uppermost_members (members : List (String × JsonValue)) (k : Setting) :
    uppermost [members, ({} : Config).settings.members] k.name = some (given members k) := by
  have hlowest : uppermost [({} : Config).settings.members] k.name = some (default k) :=
    (List.findSome?_singleton ..).trans (member?_members _ k)
  rw [uppermost_cons, hlowest, given]
  cases member? members k.name <;> rfl

/-- Choices that are put over settings one after another are layers. -/
theorem uppermost_chosen_chosen (hbase : ofMembers members = .ok base) (debug debug' : Option Bool)
    (seed seed' : Option Int) (k : Setting) :
    uppermost [choiceLayer debug' seed', choiceLayer debug seed, members,
        ({} : Config).settings.members] k.name =
      some (((base.chosen debug seed).chosen debug' seed').value k) := by
  have hvalues := (ofMembers_eq_ok_iff.mp hbase).2.2
  have hunder : ∀ k, (base.chosen debug seed).value k =
      given (laidOver members (choiceLayer debug seed)) k :=
    fun k => (given_chosen debug seed hvalues k).symm
  rw [← given_chosen debug' seed' hunder, given_laidOver (nodup_choiceLayer debug' seed'),
    given_laidOver (nodup_choiceLayer debug seed), uppermost_cons, uppermost_cons,
    uppermost_members]
  cases member? (choiceLayer debug' seed') k.name <;>
    cases member? (choiceLayer debug seed) k.name <;> rfl

theorem flagOn_eq_false_iff {text : String} : flagOn text = false ↔
    String.ofList (fold (strip text.toList)) ∈ ["", "0", "false", "off"] := by
  unfold flagOn offTexts
  simp only [Bool.not_eq_false', List.contains_iff_mem, List.mem_cons, List.not_mem_nil, or_false]
  constructor
  · rintro (h | h | h | h) <;> simp [h]
  · rintro (h | h | h | h) <;> simp [h]

/-! ## Runs -/

/-- The report of a run that breaks off before it does anything. -/
def stopped (error : RunError) : Report := { ending := .broken error }

/-- A run executes its program with its settings, and breaks off if there are none. -/
theorem run_of_read {program : Path} {content : List UInt8}
    (hread : s.read program = .ok content) :
    (∀ error, settingsOf s o = .error error → Request.run s ⟨program, o⟩ = stopped error) ∧
      ∀ t, settingsOf s o = .ok t → o.disassemble = false →
        Request.run s ⟨program, o⟩ =
          t.config?.elim (stopped .otherTypes) fun c => execute s c content o := by
  have hrun : Request.run s ⟨program, o⟩ = runProgram s content o := by
    unfold Request.run
    simp only [hread]
  rw [hrun]
  unfold runProgram
  constructor
  · intro error hsettings
    simp only [hsettings, stopped]
  · intro t hsettings hexecute
    simp only [hsettings, hexecute, machineConfig]
    cases t.config? <;> rfl

/-- Choices that are laid over the settings of a configuration. -/
theorem chosen_settings (c : Config) (debug : Option Bool) (seed : Option Int) :
    c.settings.chosen debug seed =
      { c with debug := debug.getD c.debug, seed := seed <|> c.seed : Config }.settings := by
  ext k
  cases k <;> cases debug <;> cases seed <;> rfl

/-- The settings of a run lie in layers. Let `members` be what stands in its file, with values of
any types, let `base` be the settings that are made of it, and let `seed` be the seed on the command
line. If a value of `base` is nested too deeply to be copied, the run breaks off; values that hold
no others always can be copied. Otherwise the run has no settings iff the seed in the environment is
misspelt, also if it would not be used, and every setting has the value of the uppermost layer that
has it: tracing and the seed have the value that the command line chooses, or else the environment,
or else that in `base`; all others are those in `base`. If `base` are the settings of a
configuration, so are they. They are the ones that the program is executed with. A flag in the
environment is off for four texts only, and an environment that was used already changes nothing. -/
theorem settingsOf_layered {seed : Option Int} (hfile : FileSettings s members o.config)
    (hbase : ofMembers members = .ok base) (hseed : o.seed = seed.map some) :
    let e := s.environment
    (¬base.Copied s.copying → settingsOf s o = .error (.config (.settings .tooDeep))) ∧
    ((∀ k, (base.value k).nesting = 0) → base.Copied s.copying) ∧
    (base.Copied s.copying → ∀ error, settingsOf s o = .error error ↔
      ∃ text, e.Misspelt text ∧ error = .config (.settings (.seedText text))) ∧
    (∀ t, settingsOf s o = .ok t ↔ base.Copied s.copying ∧ (∀ text, ¬e.Misspelt text) ∧
      ∀ k : Setting, uppermost (layersOf s o seed members) k.name = some (t.value k)) ∧
    (∀ t, settingsOf s o = .ok t →
      t.value .debug = ((o.debug <|> e.debug.map flagOn).map .bool).getD (base.value .debug) ∧
      t.value .seed = ((seed <|> e.seed?).map .int).getD (base.value .seed) ∧
      (∀ k, k ≠ .debug → k ≠ .seed → t.value k = base.value k) ∧
      ∃ under, ofMembers (laidOver base.members (choiceLayer (e.debug.map flagOn) e.seed?)) =
          .ok under ∧
        ofMembers (laidOver under.members (choiceLayer o.debug seed)) = .ok t) ∧
    (∀ c : Config, base = c.settings → (∀ text, ¬e.Misspelt text) →
      configOf s o = .ok { c with
        debug := (o.debug <|> e.debug.map flagOn).getD c.debug
        seed := seed <|> e.seed? <|> c.seed }) ∧
    (∀ program content, s.read program = .ok content →
      (∀ error, settingsOf s o = .error error → Request.run s ⟨program, o⟩ = stopped error) ∧
      ∀ t, settingsOf s o = .ok t → o.disassemble = false →
        Request.run s ⟨program, o⟩ =
          t.config?.elim (stopped .otherTypes) fun c => execute s c content o) ∧
    (∀ text, flagOn text = false ↔
      String.ofList (fold (strip text.toList)) ∈ ["", "0", "false", "off"]) ∧
    ∀ t u : Settings, t.withEnvironment s.copying e = .ok u →
      u.withEnvironment s.copying e = .ok u := by
  intro e
  have hsettings : fileSettings s o.config = .ok base :=
    fileSettings_eq_ok_iff.mpr ⟨members, hfile, hbase⟩
  have hpassed : base.Passed := passed_of_ofMembers hbase
  have hjoin : o.seed.join = seed := by
    rw [hseed]
    cases seed <;> rfl
  have herror : ∀ error, settingsOf s o = .error error ↔
      ∃ bar, Barred s.copying base e bar ∧ error = .config (.settings bar) :=
    fun _ => settingsOf_eq_error_iff hsettings hpassed
  have hok : ∀ t, settingsOf s o = .ok t ↔ base.Copied s.copying ∧ (∀ text, ¬e.Misspelt text) ∧
      t = (base.chosen (e.debug.map flagOn) e.seed?).chosen o.debug seed := by
    intro t
    rw [settingsOf_eq_ok_iff hsettings hpassed, hjoin]
  refine ⟨?_, copied_of_flat _, ?_, ?_, ?_, ?_, fun _ _ => run_of_read,
    fun _ => flagOn_eq_false_iff, fun _ _ => withEnvironment_again⟩
  · intro hdeep
    exact (herror _).mpr ⟨_, .tooDeep hdeep, rfl⟩
  · intro hcopied error
    rw [herror]
    constructor
    · rintro ⟨_, hdeep | ⟨-, hbad⟩, rfl⟩
      · exact absurd hcopied hdeep
      · exact ⟨_, hbad, rfl⟩
    · rintro ⟨text, hbad, rfl⟩
      exact ⟨_, .misspelt hcopied hbad, rfl⟩
  · intro t
    rw [hok t]
    refine and_congr_right fun _ => and_congr_right fun _ => ⟨?_, ?_⟩
    · rintro rfl k
      exact uppermost_chosen_chosen hbase ..
    · intro hvalues
      ext k
      exact Option.some.inj ((hvalues k).symm.trans (uppermost_chosen_chosen hbase ..))
  · intro t ht
    obtain ⟨-, -, rfl⟩ := (hok t).mp ht
    have hunder : ofMembers (laidOver base.members (choiceLayer (e.debug.map flagOn) e.seed?)) =
        .ok (base.chosen (e.debug.map flagOn) e.seed?) :=
      ofMembers_laidOver (ofMembers_members hpassed) _ _
    refine ⟨?_, ?_, ?_, _, hunder,
      ofMembers_laidOver (ofMembers_members (passed_chosen_iff.mpr hpassed)) _ _⟩
    · cases o.debug <;> cases e.debug <;> rfl
    · cases seed <;> cases e.seed? <;> rfl
    · intro k hdebug hseed
      cases k with
      | debug => exact absurd rfl hdebug
      | seed => exact absurd rfl hseed
      | timerDivider | cyclesPerSecond | traceHistory | dumpMemoryOnFault => rfl
  · rintro c rfl hgood
    have hdebug : o.debug.getD ((e.debug.map flagOn).getD c.debug) =
        (o.debug <|> e.debug.map flagOn).getD c.debug := by
      cases o.debug <;> rfl
    unfold configOf
    simp only [(hok _).mpr ⟨copied_settings _ c, hgood, rfl⟩, chosen_settings, machineConfig,
      config?_settings, hdebug]

/-- The settings of a run that is traced and has a seed. The word for tracing is no truth value. -/
def filed : List (String × JsonValue) :=
  [("debug", .int 1), ("seed", .int 5), ("timer_divider", .int 3)]

/-- A directory with a file of these settings, and an environment with a flag and the text of a
seed. -/
def office (flag seedText : Option String) : Surroundings where
  lookUp _ := .file ((JsonValue.obj filed).laidOut "\n").toUTF8.toList
  environment := { debug := flag, seed := seedText }

/-- The file is asked for, and the seed zero. -/
def zeroSeed : Options := { config := some (.ofText "settings"), seed := some (some 0) }

/-- An empty seed in the environment is none. The flag is that of the environment, the seed is the
zero of the command line, and the divider that of the file. If no flag is set, tracing has the value
that stands in the file, which is no truth value. A seed with a superfluous zero ends the run
although it would not be used. -/
theorem office_settingsOf :
    (∃ t, settingsOf (office (some " oFF\n") (some "")) zeroSeed = .ok t ∧
      t.value .debug = .bool false ∧ t.value .seed = .int 0 ∧ t.value .timerDivider = .int 3 ∧
      t.value .traceHistory = .int 64) ∧
    (∃ t, settingsOf (office none (some "7")) zeroSeed = .ok t ∧
      t.value .debug = .int 1 ∧ t.value .seed = .int 0) ∧
    Request.run (office none (some "07")) ⟨.ofText "rom", zeroSeed⟩ =
      stopped (.config (.settings (.seedText "07"))) := by
  have hwritable : ∀ n ∈ filed, Writable n := by
    have hnames : ∀ n ∈ filed, n.1 ∈ Setting.names := by decide
    have hscalar : ∀ n ∈ filed, n.2.Scalar := by
      simp only [filed, List.forall_mem_cons, List.not_mem_nil, false_implies, implies_true,
        and_true]
      exact ⟨show Decimal.digitCount 1 ≤ Integer.maxDecimalDigits by decide +kernel,
        show Decimal.digitCount 5 ≤ Integer.maxDecimalDigits by decide +kernel,
        show Decimal.digitCount 3 ≤ Integer.maxDecimalDigits by decide +kernel⟩
    exact fun n hn => ⟨isLetter_of_mem_names n.1 (hnames n hn), hscalar n hn⟩
  have hparse : parse ((JsonValue.obj filed).laidOut "\n") = .ok (.obj filed) :=
    parse_laidOut (List.cons_ne_nil _ _) hwritable (by decide)
  have htext : String.fromUTF8? ⟨((JsonValue.obj filed).laidOut "\n").toUTF8.toList.toArray⟩ =
      some ((JsonValue.obj filed).laidOut "\n") := by
    decide +kernel
  have hfile : ∀ flag seedText, FileSettings (office flag seedText) filed zeroSeed.config :=
    fun _ _ => ⟨_, _, rfl, htext, hparse⟩
  obtain ⟨base, hbase, hvalues⟩ : ∃ base, ofMembers filed = .ok base ∧
      base.value = given filed := by
    refine ⟨⟨given filed⟩, ofMembers_eq_ok_iff.mpr ⟨by decide, ?_, fun _ => rfl⟩, rfl⟩
    intro k n hleast
    cases k <;> cases hleast
    · exact show (1 : Int) ≤ 3 by decide
    · exact show (1 : Int) ≤ 500 by decide
    · exact show (0 : Int) ≤ 64 by decide
  have hseed : zeroSeed.seed = (some 0 : Option Int).map some := rfl
  have hlayered := fun flag seedText => settingsOf_layered (hfile flag seedText) hbase hseed
  have hcopied : ∀ flag seedText, base.Copied (office flag seedText).copying := by
    intro flag seedText
    refine (hlayered flag seedText).2.1 fun k => ?_
    rw [hvalues]
    cases k <;> rfl
  -- a run has settings if the seed in its environment is none or can be read
  have hsome : ∀ flag text, (text = "" ∨ Integer.read? text ≠ none) →
      ∃ t, settingsOf (office flag (some text)) zeroSeed = .ok t := by
    intro flag text htext
    cases hsettings : settingsOf (office flag (some text)) zeroSeed with
    | ok t => exact ⟨t, rfl⟩
    | error error =>
        obtain ⟨-, -, herror, -⟩ := hlayered flag (some text)
        obtain ⟨_, ⟨hset, hne, hnone⟩, -⟩ := (herror (hcopied _ _) error).mp hsettings
        cases hset
        exact (htext.elim hne fun hread => hread hnone).elim
  refine ⟨?_, ?_, ?_⟩
  · obtain ⟨t, ht⟩ := hsome (some " oFF\n") "" (.inl rfl)
    obtain ⟨-, -, -, -, hvalues', -, -, hflag, -⟩ := hlayered (some " oFF\n") (some "")
    obtain ⟨hdebug, hseed, hothers, -⟩ := hvalues' t ht
    have hoff : flagOn " oFF\n" = false := (hflag _).mpr (by decide +kernel)
    refine ⟨t, ht, ?_, hseed, ?_, ?_⟩
    · exact hdebug.trans (congrArg JsonValue.bool hoff)
    · rw [hothers .timerDivider nofun nofun, hvalues]
      rfl
    · rw [hothers .traceHistory nofun nofun, hvalues]
      rfl
  · obtain ⟨t, ht⟩ := hsome none "7" (.inr (by decide +kernel))
    obtain ⟨-, -, -, -, hvalues', -⟩ := hlayered none (some "7")
    obtain ⟨hdebug, hseed, -⟩ := hvalues' t ht
    refine ⟨t, ht, ?_, hseed⟩
    rw [hdebug, hvalues]
    rfl
  · have hmisspelt : (office none (some "07")).environment.Misspelt "07" :=
      ⟨rfl, by decide, by decide +kernel⟩
    obtain ⟨-, -, herror, -, -, -, hrun, -⟩ := hlayered none (some "07")
    exact (hrun _ _ rfl).1 _ ((herror (hcopied _ _) _).mpr ⟨"07", hmisspelt, rfl⟩)

/-! ## Settings that cannot be copied -/

/-- The text of a file whose seed is a list in a list, and so on. -/
def listedSeed (depth : Nat) : String :=
  "\x7b\"seed\": " ++ String.ofList (bracketsBefore depth ['\x7d'])

/-- The object around the lists takes room, too. -/
theorem parse_listedSeed {depth : Nat} (h : depth + 1 < maxNesting) :
    parse (listedSeed depth) = .ok (.obj [("seed", nestedLists depth)]) := by
  have hchars : (listedSeed depth).toList =
      '\x7b' :: '"' :: ("seed".toList ++ '"' :: ':' :: ' ' :: bracketsBefore depth ['\x7d']) := by
    simp [listedSeed]
  have hmembers : ∀ fuel, 2 * depth < fuel →
      JsonValue.members (fuel + 1) (maxNesting - 1) []
        ('"' :: ("seed".toList ++ '"' :: ':' :: ' ' :: bracketsBefore depth ['\x7d'])) =
      .ok (.obj [("seed", nestedLists depth)], []) := by
    intro fuel hfuel
    have hname : ∀ c ∈ "seed".toList, IsPlain c := fun c hc =>
      (isLetter_of_mem_names _ Setting.seed.name_mem_names c hc).1
    have hspace : skipSpace (' ' :: bracketsBefore depth ['\x7d']) =
        bracketsBefore depth ['\x7d'] := skipSpace_brackets depth _
    rw [JsonValue.members, memberName_written hname, hspace]
    dsimp only
    rw [value_brackets hfuel (Nat.lt_sub_of_add_lt h)]
    rfl
  have hvalue : JsonValue.value (2 * (listedSeed depth).toList.length + 1) maxNesting
      (listedSeed depth).toList = .ok (.obj [("seed", nestedLists depth)], []) := by
    obtain ⟨fuel, hfuel, hdepth⟩ :
        ∃ n, 2 * (listedSeed depth).toList.length = n + 1 ∧ 2 * depth < n := by
      refine ⟨2 * (listedSeed depth).toList.length - 1, ?_⟩
      simp only [hchars, List.length_cons, List.length_append, length_brackets]
      omega
    rw [hfuel, hchars, JsonValue.value]
    exact hmembers fuel hdepth
  have hskip : skipSpace (listedSeed depth).toList = (listedSeed depth).toList := by
    rw [hchars]
    rfl
  unfold parse
  simp only [hskip, hvalue]
  rfl

/-- Settings can be made of such lists, since nobody looks at a seed. -/
theorem ofMembers_listedSeed (depth : Nat) :
    ofMembers [("seed", nestedLists depth)] = .ok ⟨given [("seed", nestedLists depth)]⟩ := by
  refine ofMembers_eq_ok_iff.mpr ⟨?_, ?_, fun _ => rfl⟩
  · intro m hm
    cases List.mem_singleton.mp hm
    exact Setting.seed.name_mem_names
  · intro k n hleast
    cases k with
    | debug | seed | dumpMemoryOnFault => cases hleast
    | timerDivider | cyclesPerSecond | traceHistory =>
        cases hleast
        exact below?_eq_false_iff.mp rfl

/-- They cannot be copied if they are too deep. -/
theorem not_copied_listedSeed {depth bound : Nat} (h : bound ≤ depth) :
    ¬Copied (.upTo bound) ⟨given [("seed", nestedLists depth)]⟩ := by
  intro hcopied
  have hseed : (nestedLists depth).nesting ≤ bound := of_decide_eq_true (hcopied .seed)
  rw [nesting_nestedLists] at hseed
  omega

/-- The seed in every file of this directory is made of lists, 800 deep. -/
def pit : Surroundings where
  lookUp _ := .file (listedSeed 799).toUTF8.data.toList

/-- A file is asked for, and nothing else. -/
def asked : Options := { config := some (.ofText "settings") }

/-- The file can be loaded and no seed in the environment is misspelt. Still there are no settings
for the run, since the lists cannot be copied. -/
theorem pit_not_settled :
    (∃ members base, FileSettings pit members asked.config ∧ ofMembers members = .ok base) ∧
      (∀ text, ¬pit.environment.Misspelt text) ∧
      settingsOf pit asked = .error (.config (.settings .tooDeep)) := by
  have hparse : parse (listedSeed 799) = .ok (.obj [("seed", nestedLists 799)]) :=
    parse_listedSeed (by decide)
  have htext : String.fromUTF8? ⟨(listedSeed 799).toUTF8.data.toList.toArray⟩ =
      some (listedSeed 799) := by
    rw [Array.toArray_toList]
    exact dif_pos (listedSeed 799).isValidUTF8
  have hfile : FileSettings pit [("seed", nestedLists 799)] asked.config :=
    ⟨_, _, rfl, htext, hparse⟩
  have hbase := ofMembers_listedSeed 799
  have hdeep : ¬Copied pit.copying ⟨given [("seed", nestedLists 799)]⟩ :=
    not_copied_listedSeed (by decide)
  have hspelt : ∀ text, ¬pit.environment.Misspelt text := by
    rintro text ⟨hset, -⟩
    exact nomatch (hset : (none : Option String) = some text)
  have hsettings := fileSettings_eq_ok_iff.mpr ⟨_, hfile, hbase⟩
  have hstops := (settingsOf_eq_error_iff hsettings (passed_of_ofMembers hbase)).mpr
    ⟨_, .tooDeep hdeep, rfl⟩
  exact ⟨⟨_, _, hfile, hbase⟩, hspelt, hstops⟩

end ChipEight.CommandLine
