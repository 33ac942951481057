import ChipEight.Proofs.Machine.Word
import ChipEight.Proofs.Session.Course

/-!
# The random bytes of a session

An instruction `Cxkk` takes one byte from the random source of its machine, and nothing else
takes any: no other instruction, no step that fails, no load, no key event, no observer. So the
place in the stream of random bytes is known from the instructions that were executed. A
`Reading` says which source is read and how many of its bytes are gone, and
`Session.readingAll` computes it from the operations of a session. A program therefore sees the
same random bytes whatever it does between two instructions `Cxkk`.

## Main results

* `Console.Course.random_eq` — steps take as many random bytes as they execute `Cxkk`.
* `Session.randomBytes_counted` — the random source of a session is where its reading says,
  and the instruction `Cxkk` that comes next loads the byte that comes next.
-/

namespace ChipEight

theorem Generator.skip_add (m n : Nat) : ∀ g : Generator, g.skip (m + n) = (g.skip m).skip n := by
  induction m with
  | zero =>
      intro g
      rw [Nat.zero_add]
      rfl
  | succ m ih =>
      intro g
      rw [Nat.succ_add]
      exact ih g.next.2

/-- How many of the executed instructions take a random byte. -/
def randomsIn (rs : List StepReport) : Nat := rs.countP fun r => r.word.IsRandom

theorem randomsIn_cons (r : StepReport) (rs : List StepReport) :
    randomsIn (r :: rs) = (if r.word.IsRandom then 1 else 0) + randomsIn rs := by
  unfold randomsIn
  rw [List.countP_cons, Nat.add_comm]
  simp only [decide_eq_true_eq]

/-! ## Consoles -/

namespace Console

variable {c c' d : Console} {keys : Keyboard} {r : StepReport} {rs : List StepReport}

/-- One step takes one random byte if it executes `Cxkk`, and none otherwise. -/
theorem random_step (hstep : c.step keys = (c', .ok r)) :
    c'.machine.random = c.machine.random.skip (if r.word.IsRandom then 1 else 0) := by
  obtain ⟨s, i, hexec, -, -, hmachine, -, hword, -⟩ := step_ok_inv hstep
  rw [hmachine, hword]
  exact hexec.random_next

/-- The instruction `Cxkk` loads the next random byte, masked. -/
theorem reg_step_of_isRandom (hstep : c.step keys = (c', .ok r)) (hword : r.word.IsRandom) :
    c'.machine.reg r.word.x = c.machine.random.next.1 &&& r.word.byte := by
  obtain ⟨s, i, hexec, -, -, hmachine, -, hreport, -⟩ := step_ok_inv hstep
  rw [hreport] at hword
  rw [hmachine, hreport]
  exact hexec.reg_of_isRandom hword

theorem step_of_word {w : Word} (h : (c.step keys).2.toOption.map (·.word) = some w) :
    ∃ c' r, c.step keys = (c', .ok r) ∧ r.word = w := by
  rcases hstep : c.step keys with ⟨c', e | r⟩
  · rw [hstep] at h
    cases h
  · rw [hstep] at h
    exact ⟨c', r, rfl, Option.some.inj h⟩

theorem Course.random_eq (h : Course c rs d) :
    d.machine.random = c.machine.random.skip (randomsIn rs) := by
  induction h with
  | refl c => rfl
  | ok hstep _ ih => rw [ih, random_step hstep, randomsIn_cons, Generator.skip_add]
  | error hstep _ ih =>
      obtain ⟨-, -, -, -, hbare⟩ := step_error_inv hstep
      rw [ih, machine_of_bare hbare]

theorem random_create {config : Config} {random : Option Generator} {trace : Trace.Dispatcher}
    (hcreate : create config random trace = .ok c) :
    c.machine.random = random.getD (randomOf config.seed) := by
  obtain ⟨_, _, rfl⟩ := create_inv hcreate
  rfl

end Console

/-! ## Readings -/

/-- A place in a stream of random bytes. -/
structure Reading where
  source : Generator
  /-- How many bytes of the source are gone. -/
  read : Nat

/-- The source behind the bytes that are gone. -/
def Reading.random (p : Reading) : Generator := p.source.skip p.read

namespace Session

/-- The reading behind an operation. A reset goes back to the seed, unless the source was the
caller's; everything else but a change of the source itself goes on by what it executes. -/
def readingAfter (s : Session) (p : Reading) : Op → Reading
  | .reset =>
    if s.console.ownsRandom then ⟨Console.randomOf s.console.config.seed, 0⟩ else p
  | .reseed random => ⟨random, 0⟩
  | o => { p with read := p.read + randomsIn (s.executed o) }

/-- The reading behind a sequence of operations. -/
def readingAll (s : Session) (p : Reading) : List Op → Reading
  | [] => p
  | o :: ops => (s.perform o).readingAll (s.readingAfter p o) ops

/-- The operation is a change of the random source. -/
def Op.isReseed : Op → Bool
  | .reseed _ => true
  | _ => false

variable {s : Session} {p : Reading}

theorem random_perform (h : s.console.machine.random = p.random) (o : Op) :
    (s.perform o).console.machine.random = (s.readingAfter p o).random := by
  rcases o.onlySteps_or with honly | ⟨program, rfl⟩ | rfl | ⟨random, rfl⟩
  · have hreading : s.readingAfter p o = { p with read := p.read + randomsIn (s.executed o) } := by
      cases o with
      | reset | reseed random => cases honly
      | _ => rfl
    obtain ⟨c, hcourse, hbare⟩ := s.course_perform honly
    rw [Console.machine_of_bare hbare, hcourse.random_eq, h, hreading]
    exact (Generator.skip_add p.read _ p.source).symm
  · obtain ⟨memory, log, hload⟩ := s.console.load_eq program
    show (s.console.load program).1.machine.random = p.random
    rw [hload]
    exact h
  · show s.console.randomAfterReset = (s.readingAfter p .reset).random
    unfold Console.randomAfterReset readingAfter
    cases s.console.ownsRandom with
    | false => exact h
    | true => rfl
  · rfl

/-- The random source is where the reading says. -/
theorem random_performAll (ops : List Op) :
    ∀ {s : Session} {p : Reading}, s.console.machine.random = p.random →
      (s.performAll ops).console.machine.random = (s.readingAll p ops).random := by
  induction ops with
  | nil =>
      intro s p h
      exact h
  | cons o ops ih =>
      intro s p h
      exact ih (random_perform h o)

/-- If the source is not changed, it is the one of the beginning: a reset either goes back to
it or leaves the reading alone. -/
theorem source_readingAll (ops : List Op) (hkept : ∀ o ∈ ops, o.isReseed = false) :
    ∀ {s : Session} {p : Reading},
      (s.console.ownsRandom → p.source = Console.randomOf s.console.config.seed) →
      (s.readingAll p ops).source = p.source := by
  induction ops with
  | nil =>
      intro s p _
      rfl
  | cons o ops ih =>
      intro s p howned
      -- A reset of a console that owns its source is the case in which `howned` is needed.
      have hsource : (s.readingAfter p o).source = p.source := by
        cases o with
        | reset =>
            unfold readingAfter
            by_cases howns : s.console.ownsRandom
            · rw [if_pos howns]
              exact (howned howns).symm
            · rw [if_neg howns]
        | reseed random => cases hkept _ List.mem_cons_self
        | _ => rfl
      obtain ⟨hconfig, howns⟩ := s.settings_perform o
      rw [← hsource]
      apply ih fun o' ho' => hkept o' (List.mem_cons_of_mem _ ho')
      rw [hsource, hconfig, howns]
      exact howned

/-! ## Counting random bytes -/

/-- The session begins with a console at power-on, and its random source is `g`: that of the
caller, or else that of the seed. -/
def Begins (s : Session) (g : Generator) : Prop :=
  ∃ config random trace, Console.create config random trace = .ok s.console ∧
    g = random.getD (Console.randomOf config.seed)

theorem Begins.random {g : Generator} (h : s.Begins g) : s.console.machine.random = g := by
  obtain ⟨config, random, trace, hcreate, rfl⟩ := h
  exact Console.random_create hcreate

theorem Begins.owned {g : Generator} (h : s.Begins g) (howns : s.console.ownsRandom) :
    g = Console.randomOf s.console.config.seed := by
  obtain ⟨config, random, trace, hcreate, rfl⟩ := h
  obtain ⟨hconfig, hrandom⟩ := Console.settings_create hcreate
  obtain rfl : random = none := Option.isNone_iff_eq_none.mp (hrandom.symm.trans howns)
  rw [hconfig]
  rfl

/-- If nobody else changes it, the source of a session is the one that it began with. -/
theorem Begins.random_performAll {g : Generator} (h : s.Begins g) {ops : List Op}
    (hkept : ∀ o ∈ ops, o.isReseed = false) :
    (s.performAll ops).console.machine.random = g.skip (s.readingAll ⟨g, 0⟩ ops).read := by
  have hsource := source_readingAll ops hkept (p := ⟨g, 0⟩) h.owned
  have hrandom := Session.random_performAll ops (p := ⟨g, 0⟩) h.random
  rw [hrandom, Reading.random, hsource]

/-- Let a session have come to the reading `p`. Then its source has given out `p.read` bytes,
and whatever steps follow, an instruction `Cxkk` loads the byte behind those and behind the
bytes of the instructions `Cxkk` since then, masked with `kk`. So two sessions that began with
the same source and have read equally often will read the same. -/
theorem randomBytes_counted {g : Generator} (hbegins : s.Begins g) (ops : List Op) :
    let t := s.performAll ops
    let p := s.readingAll ⟨g, 0⟩ ops
    t.console.machine.random = p.source.skip p.read ∧
    (∀ rs c keys c' r, Console.Course t.console rs c → c.step keys = (c', .ok r) →
      r.word.family.val = 0xC →
      c'.machine.reg r.word.x = p.source.stream (p.read + randomsIn rs) &&& r.word.byte) ∧
    (∀ s' ops', Begins s' g → (∀ o ∈ ops ++ ops', o.isReseed = false) →
      (s'.readingAll ⟨g, 0⟩ ops').read = p.read →
      (s'.performAll ops').console.machine.random = t.console.machine.random) := by
  intro t p
  have hrandom : t.console.machine.random = p.source.skip p.read :=
    random_performAll ops (p := ⟨g, 0⟩) hbegins.random
  refine ⟨hrandom, ?_, ?_⟩
  · intro rs c keys c' r hcourse hstep hword
    rw [Console.reg_step_of_isRandom hstep hword, hcourse.random_eq, hrandom,
      ← Generator.skip_add]
    rfl
  · intro s' ops' hbegins' hkept hread
    have hrest := hbegins'.random_performAll
      fun o ho => hkept o (List.mem_append_right ops ho)
    have hfirst := hbegins.random_performAll
      fun o ho => hkept o (List.mem_append_left ops' ho)
    rw [hrest, hread]
    exact hfirst.symm

theorem begins_seeded : seeded.Begins (Generator.ofSeed 7) :=
  ⟨{ seed := some 7 }, none, {}, create_seeded, rfl⟩

/-- A program that takes a random byte under an empty mask, and another one. -/
def dice : List UInt8 := [0xC2, 0x00, 0xC1, 0x0F]

/-- The dice are thrown, then again after a reset, up to the last one. -/
def throwing : List Op := [.load dice, .run 2, .reset, .load dice, .step]

/-- One byte is taken, and then the run ends in a fault. -/
def failing : List Op := [.load [0xC5, 0x00], .run 9]

/-- A source whose first byte is zero and whose second byte is not. -/
def uneven : Generator := ⟨(Vector.replicate generatorSize 0).set 1 0xFFFFFFFF, 0⟩

/-- A session whose caller has brought that source along. -/
def gambling : Session where
  console := { fresh.console with machine := { fresh.console.machine with random := uneven } }
  pacing := {}

theorem begins_gambling : gambling.Begins uneven := ⟨{}, some uneven, {}, rfl, rfl⟩

/-- A program that takes two random bytes as they are. -/
def pair : List UInt8 := [0xC2, 0xFF, 0xC1, 0xFF]

theorem gambling_facts :
    (gambling.readingAll ⟨uneven, 0⟩ [.load pair]).read = 0 ∧
    (gambling.readingAll ⟨uneven, 0⟩ [.load pair, .step]).read = 1 ∧
    ((gambling.perform (.load pair)).console.step Console.noKeys).2.toOption =
      some ⟨0x200, 0xC2FF, 0x202, false, none⟩ ∧
    (((gambling.perform (.load pair)).console.step Console.noKeys).1.step
      Console.noKeys).2.toOption = some ⟨0x202, 0xC1FF, 0x204, false, none⟩ ∧
    uneven.stream 0 &&& 0xFF = 0 ∧ uneven.stream 1 &&& 0xFF = 111 ∧
    (uneven.skip 1).position ≠ (uneven.skip 0).position := by
  decide +kernel

/-- The last of the dice shows the second byte of the seed, which is also what comes next behind
the run that fails. An uneven source gives the two instructions of a pair two different bytes,
and is another one behind the first of them. -/
theorem seeded_randomBytes :
    (∃ c' r, (seeded.performAll throwing).console.step (seeded.performAll throwing).keyboard =
        (c', .ok r) ∧
      c'.machine.reg 1 = (Generator.ofSeed 7).stream 1 &&& 0x0F) ∧
    (seeded.performAll failing).console.machine.random =
      (seeded.performAll throwing).console.machine.random ∧
    (∃ c' r d r', (gambling.performAll [.load pair]).console.step Console.noKeys = (c', .ok r) ∧
      c'.step Console.noKeys = (d, .ok r') ∧
      c'.machine.reg 2 = 0 ∧ d.machine.reg 1 = 111) ∧
    (gambling.performAll [.load pair, .step]).console.machine.random ≠
      (gambling.performAll [.load pair]).console.machine.random := by
  have hread : (seeded.readingAll ⟨Generator.ofSeed 7, 0⟩ throwing).read = 1 := by
    decide +kernel
  have hreadFailing : (seeded.readingAll ⟨Generator.ofSeed 7, 0⟩ failing).read = 1 := by
    decide +kernel
  have hlast : ((seeded.performAll throwing).console.step
      (seeded.performAll throwing).keyboard).2.toOption.map (·.word) = some 0xC10F := by
    decide +kernel
  obtain ⟨c', r, hstep, hword⟩ := Console.step_of_word hlast
  have hsource := source_readingAll throwing (by decide) (p := ⟨Generator.ofSeed 7, 0⟩)
    begins_seeded.owned
  obtain ⟨-, hbytes, hsame⟩ := randomBytes_counted begins_seeded throwing
  have hagain := hsame seeded failing begins_seeded (by decide) (hreadFailing.trans hread.symm)
  have hloaded := hbytes [] _ _ c' r (.refl _) hstep (hword ▸ rfl)
  rw [hword, hread, hsource] at hloaded
  refine ⟨⟨c', r, hstep, hloaded⟩, hagain, ?_, ?_⟩
  · obtain ⟨hnone, -, hfirst, hsecond, hzero, hnonzero, -⟩ := gambling_facts
    replace hfirst := Console.step_eq_of_toOption hfirst
    replace hsecond := Console.step_eq_of_toOption hsecond
    obtain ⟨-, hpair, -⟩ := randomBytes_counted begins_gambling [.load pair]
    have htwo := hpair [] _ _ _ _ (.refl _) hfirst rfl
    have hone := hpair [_] _ _ _ _ (.ok hfirst (.refl _)) hsecond rfl
    have hsource : (gambling.readingAll ⟨uneven, 0⟩ [.load pair]).source = uneven := rfl
    rw [hnone, hsource] at htwo hone
    exact ⟨_, _, _, _, hfirst, hsecond, htwo.trans hzero, hone.trans hnonzero⟩
  · obtain ⟨hnone, hread, -, -, -, -, hchanged⟩ := gambling_facts
    have hbegin := (randomBytes_counted begins_gambling [.load pair]).1
    have hbehind := (randomBytes_counted begins_gambling [.load pair, .step]).1
    rw [hnone] at hbegin
    rw [hread] at hbehind
    rw [hbegin, hbehind]
    exact fun h => hchanged (congrArg Generator.position h)

end Session

end ChipEight
