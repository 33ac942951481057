import ChipEight.CommandLine
import ChipEight.Proofs.Console.Trace
import ChipEight.Proofs.Listing.Entries
import ChipEight.Proofs.Session.Reachable

/-!
# Programs as listed and as executed

Three readers cut a program into words: the listing, the loader with the fetch behind it, and the
trace. They agree. A program that fits lies in memory where its listing says, so a machine that
comes to a listed word, and has not stored anything over it, fetches that word; and a console that
is traced reports it in the words of the listing.

## Main results

* `Console.word_loaded` — the words of a loaded program are those that are listed.
* `Console.recites_of_fetch` — what a console tells of a word that it fetches.
* `Console.listing_faithful` — a listing loses nothing, and is what the console executes.
-/

namespace ChipEight

open Trace

/-- The text of a line without its address: four digits, two blanks and the assembly text. -/
def Line.description (l : Line) : String :=
  Text.Hex.upper 4 l.datum.value ++ "  " ++ l.datum.text

/-- A word in the trace looks as it is listed. -/
theorem Line.description_of_word {l : Line} {w : Word} (hw : l.datum = .word w) :
    l.description = w.describe := by
  unfold description
  rw [hw]
  rfl

/-- The printed listing, line by line. -/
theorem CommandLine.listingText_eq (d : List UInt8) :
    CommandLine.listingText d = String.join ((Listing.ofBytes programStart d).map fun l =>
      Text.Hex.upper 3 l.address ++ ": " ++ l.description ++ "\n") := by
  have hline : ∀ l : Line, l.text ++ "\n" =
      Text.Hex.upper 3 l.address ++ ": " ++ l.description ++ "\n" := by
    intro l
    unfold Line.text Line.description
    simp only [String.append_assoc]
  unfold listingText
  simp only [hline]

namespace Memory

variable {m m' : Memory} {program : List UInt8}

/-- A program that fits is loaded. -/
theorem load_of_fits (m : Memory) (hfits : program.length ≤ maxProgramSize) :
    m.load program = .ok { m with bytes := setBytes m.bytes programStart program } :=
  if_pos hfits

/-- The bytes of a loaded program stand one behind the other from `programStart` on. -/
theorem byte_loaded (m : Memory) (hfits : program.length ≤ maxProgramSize) {j : Nat} {v : UInt8}
    (hv : program[j]? = some v) :
    ({ m with bytes := setBytes m.bytes programStart program } : Memory).byte
      (programStart + j) = v := by
  have hj : j < program.length := (List.getElem?_eq_some_iff.mp hv).1
  have hroom : programStart + j < memorySize := by
    simp only [maxProgramSize, memorySize, programStart] at *
    omega
  unfold byte
  show (setBytes m.bytes programStart program)[programStart + j]?.getD 0 = v
  rw [getElem?_setBytes, if_pos ⟨Nat.le_add_right _ _, hroom, by omega⟩, Nat.add_sub_cancel_left,
    hv]
  rfl

end Memory

namespace Console

variable {c d : Console} {keys : Keyboard} {w : Word}

/-! ## Loading -/

/-- A program that fits is loaded, and nothing else of the machine changes. -/
theorem load_of_fits (c : Console) {program : List UInt8}
    (hfits : program.length ≤ maxProgramSize) :
    ∃ c', c.load program = (c', .ok ()) ∧ c'.machine = { c.machine with
      memory := { c.machine.memory with
        bytes := Memory.setBytes c.machine.memory.bytes programStart program } } := by
  have hload : c.machine.load program = .ok { c.machine with
      memory := { c.machine.memory with
        bytes := Memory.setBytes c.machine.memory.bytes programStart program } } := by
    unfold Machine.load
    rw [Memory.load_of_fits _ hfits]
    rfl
  unfold load
  rw [hload]
  exact ⟨_, rfl, rfl⟩

/-- The words of a loaded program are those that are listed, and lie in memory. -/
theorem word_loaded {program : List UInt8} (hfits : program.length ≤ maxProgramSize)
    (hload : c.load program = (d, .ok ())) {l : Line}
    (hl : l ∈ Listing.ofBytes programStart program) (hw : l.datum = .word w) :
    Memory.InRange l.address 2 ∧ d.machine.memory.word l.address.toNat = w := by
  obtain ⟨k, hi, lo, haddress, hhi, hlo, rfl⟩ := Listing.mem_ofBytes_word hl hw
  obtain ⟨c', hc', hmachine⟩ := c.load_of_fits hfits
  rw [hc'] at hload
  cases hload
  have hk : 2 * k + 1 < program.length := (List.getElem?_eq_some_iff.mp hlo).1
  have hnat : l.address.toNat = programStart + 2 * k := by
    rw [haddress]
    simp only [programStart, wordSize]
    omega
  refine ⟨?_, ?_⟩
  · rw [haddress]
    simp only [Memory.InRange, maxProgramSize, memorySize, programStart, wordSize] at *
    omega
  · rw [hnat, hmachine]
    unfold Memory.word
    rw [Memory.byte_loaded _ hfits hhi, Nat.add_assoc, Memory.byte_loaded _ hfits hlo]

/-! ## Executing -/

/-- A console fetches the word of a line, and tells of it in the words of the line. -/
structure Recites (c : Console) (l : Line) (w : Word) : Prop where
  fetched : c.machine.fetch = .ok w
  /-- What a step answers, if it succeeds. -/
  reported : ∀ keys c' r, c.step keys = (c', .ok r) → r.pc = l.address ∧ r.word = w ∧
    r.description = if c.config.debug then some l.description else none
  /-- What the observers are told first, also of a step that fails. -/
  traced : c.config.debug = true → ∀ keys, ∃ rest,
    Told c (.instruction l.address w.toNat l.description :: rest) (c.step keys).1

/-- What a console tells of a word that it fetches. -/
theorem recites_of_fetch {l : Line} (hfetch : c.machine.fetch = .ok w)
    (hpc : c.machine.pc = l.address) (hw : l.datum = .word w) : c.Recites l w where
  fetched := hfetch
  reported keys c' r hstep := by
    obtain ⟨s, i, hexec, rfl, -⟩ := step_ok_behind hstep
    have hword : s.word = w := Except.ok.inj (hexec.fetched.symm.trans hfetch)
    refine ⟨hexec.pc.trans hpc, hword, ?_⟩
    rw [Line.description_of_word hw, ← hword]
    rfl
  traced hdebug keys := by
    have hevents : (c.attempt keys).fetchEvents c.config.debug =
        [.instruction l.address w.toNat l.description] := by
      have hbefore : (c.attempt keys).before.fetch = .ok w := hfetch
      unfold Attempt.fetchEvents
      rw [hdebug, hbefore, Line.description_of_word hw, ← hpc]
      rfl
    have htold := c.told_step keys
    unfold eventsOfStep Attempt.events at htold
    rw [hevents, List.append_assoc] at htold
    exact ⟨_, htold⟩

/-- A listing loses nothing: the lines stand at consecutive addresses, a reader can write the bytes
out again, no two byte strings look alike, and a last byte `b` looks different from the word `00 b`,
though the number is the same. And it is what is executed: behind the load of a program that fits, a
machine that stands at a listed word and still holds it fetches it and reports it as the command
line prints it, without the address. -/
theorem listing_faithful (start : Int) (program : List UInt8) :
    Listing.Lossless start program ∧
    (∀ b : UInt8, (Datum.byte b).value = (Datum.word (Word.ofBytes 0 b)).value ∧
      ∀ w, (Datum.byte b).text ≠ (Datum.word w).text) ∧
    CommandLine.listingText program =
      String.join ((Listing.ofBytes programStart program).map fun l =>
        Text.Hex.upper 3 l.address ++ ": " ++ l.description ++ "\n") ∧
    (program.length ≤ maxProgramSize → ∀ c : Console, ∃ d, c.load program = (d, .ok ()) ∧
      ∀ l ∈ Listing.ofBytes programStart program, ∀ w, l.datum = .word w →
        d.machine.memory.readWord l.address = .ok w ∧
        ∀ e : Console, e.machine.pc = l.address →
          e.machine.memory.word l.address.toNat = d.machine.memory.word l.address.toNat →
          e.Recites l w) := by
  refine ⟨Listing.lossless start program, ?_, CommandLine.listingText_eq program, ?_⟩
  · intro b
    refine ⟨?_, Datum.text_byte_ne b⟩
    have hb := b.toNat_lt
    show b.toNat = (Word.ofBytes 0 b).toNat
    unfold Word.ofBytes
    rw [UInt16.toNat_ofNat']
    show b.toNat = (0 * 256 + b.toNat) % _
    omega
  · intro hfits c
    obtain ⟨d, hload, -⟩ := c.load_of_fits hfits
    refine ⟨d, hload, ?_⟩
    intro l hl w hw
    obtain ⟨hrange, hword⟩ := word_loaded hfits hload hl hw
    constructor
    · unfold Memory.readWord
      rw [Memory.checkRange_eq_ok_iff.mpr hrange]
      exact congrArg Except.ok hword
    · intro e hpc hsame
      rw [← hpc] at hrange hsame hword
      exact recites_of_fetch (Machine.fetch_eq_ok_iff.mpr ⟨hrange, hsame.trans hword⟩) hpc hw

/-- A word that draws, and a byte without partner. -/
def scrap : List UInt8 := [0xD0, 0x15, 0x07]

/-- A console at power-on that has loaded them fetches the word and recites it. -/
theorem fresh_recites_scrap :
    Listing.ofBytes programStart scrap =
        [⟨programStart, .word 0xD015⟩, ⟨programStart + wordSize, .byte 0x07⟩] ∧
      (Line.mk programStart (.word 0xD015)).description = "D015  DRW V0, V1, 5" ∧
      ∃ d, Session.fresh.console.load scrap = (d, .ok ()) ∧
        d.Recites ⟨programStart, .word 0xD015⟩ 0xD015 := by
  refine ⟨by decide, by decide +kernel, ?_⟩
  obtain ⟨-, -, -, hexecuted⟩ := listing_faithful programStart scrap
  obtain ⟨d, hload, hlines⟩ := hexecuted (by decide) Session.fresh.console
  have hpc : d.machine.pc = programStart := by
    obtain ⟨c', hc', hmachine⟩ :=
      Session.fresh.console.load_of_fits (show scrap.length ≤ maxProgramSize by decide)
    rw [hload] at hc'
    cases hc'
    rw [hmachine]
    rfl
  have hmem : (⟨programStart, .word 0xD015⟩ : Line) ∈ Listing.ofBytes programStart scrap :=
    List.mem_cons_self
  exact ⟨d, hload, (hlines _ hmem _ rfl).2 d hpc rfl⟩

end Console

end ChipEight
