import ChipEight.Listing
import ChipEight.Proofs.Instruction.Text

/-!
# Reading listings

Nothing of a byte string is lost in its listing. The line `k` lines below the first shows the
bytes `2 * k` and `2 * k + 1`, or the former alone if it is the last one.

A reader of a listing sees an address, a number and a text, and not whether the number is that of
two bytes or of one. The text tells: that of a last byte has the verb `DB`, which no form of a word
has. So what a reader sees can be written out again as the bytes it came from, and two listings
that look alike are listings of the same bytes.

## Main results

* `Listing.getElem?_ofBytes` — what stands at each line.
* `Datum.text_byte_ne` — no word is written like a byte.
* `Listing.lossless` — a byte string is told by what a reader sees of its listing.
-/

namespace ChipEight

open Text

/-! ## Lines -/

namespace Listing

/-- What stands at the line `k` lines below the first. -/
def datum? (d : List UInt8) (k : Nat) : Option Datum :=
  match d[2 * k]?, d[2 * k + 1]? with
  | some hi, some lo => some (.word (Word.ofBytes hi lo))
  | some b, none => some (.byte b)
  | none, _ => none

/-- Two bytes fewer are one line fewer. -/
theorem datum?_cons_cons (hi lo : UInt8) (d : List UInt8) (k : Nat) :
    datum? (hi :: lo :: d) (k + 1) = datum? d k := by
  unfold datum?
  rw [show 2 * (k + 1) = 2 * k + 1 + 1 by omega]
  rfl

/-- Each line has its address, two further than the line above. -/
theorem getElem?_ofBytes (start : Int) (d : List UInt8) (k : Nat) :
    (ofBytes start d)[k]? = (datum? d k).map (Line.mk (start + wordSize * k)) := by
  fun_induction ofBytes start d generalizing k with
  | case1 start hi lo rest ih =>
      cases k with
      | zero => simp [datum?]
      | succ k =>
          have haddress : start + wordSize + wordSize * (k : Int) =
              start + wordSize * ((k + 1 : Nat) : Int) := by
            simp only [wordSize]
            omega
          rw [List.getElem?_cons_succ, ih, datum?_cons_cons, haddress]
  | case2 start b =>
      cases k with
      | zero => simp [datum?]
      | succ k => simp [datum?, show 2 * (k + 1) = 2 * k + 1 + 1 by omega]
  | case3 => simp [datum?]

/-- Half as many lines as bytes, rounded up. -/
theorem length_ofBytes (start : Int) (d : List UInt8) :
    (ofBytes start d).length = (d.length + 1) / 2 := by
  fun_induction ofBytes start d with
  | case1 start hi lo rest ih =>
      simp only [List.length_cons, ih]
      omega
  | case2 => simp
  | case3 => rfl

/-- The bytes of a word that is listed. -/
theorem datum?_eq_word_iff {d : List UInt8} {k : Nat} {w : Word} :
    datum? d k = some (.word w) ↔
      ∃ hi lo, d[2 * k]? = some hi ∧ d[2 * k + 1]? = some lo ∧ w = Word.ofBytes hi lo := by
  unfold datum?
  constructor
  · intro h
    split at h
    · rename_i hi lo hhi hlo
      cases h
      exact ⟨hi, lo, hhi, hlo, rfl⟩
    · cases h
    · cases h
  · rintro ⟨hi, lo, hhi, hlo, rfl⟩
    rw [hhi, hlo]

/-- The line of a word that is listed. -/
theorem mem_ofBytes_word {start : Int} {d : List UInt8} {l : Line} {w : Word}
    (hl : l ∈ ofBytes start d) (hw : l.datum = .word w) :
    ∃ k : Nat, ∃ hi lo, l.address = start + wordSize * k ∧ d[2 * k]? = some hi ∧
      d[2 * k + 1]? = some lo ∧ w = Word.ofBytes hi lo := by
  obtain ⟨k, hk⟩ := List.mem_iff_getElem?.mp hl
  rw [getElem?_ofBytes, Option.map_eq_some_iff] at hk
  obtain ⟨x, hx, rfl⟩ := hk
  cases hw
  obtain ⟨hi, lo, hhi, hlo, hword⟩ := datum?_eq_word_iff.mp hx
  exact ⟨k, hi, lo, rfl, hhi, hlo, hword⟩

end Listing

/-! ## Texts -/

namespace Datum

/-- How the text of a last byte starts. -/
def byteVerb : String := "DB "

theorem isPrefixOf_text_byte (b : UInt8) :
    byteVerb.toList.isPrefixOf (Datum.byte b).text.toList = true := by
  unfold text
  rw [String.toList_append]
  rfl

/-- No form of a word has the verb of a byte. -/
theorem isPrefixOf_text_word (w : Word) :
    byteVerb.toList.isPrefixOf (Datum.word w).text.toList = false := by
  have hverbs : ∀ f ∈ Form.data :: Form.table, f.verb.toList ≠ ['D', 'B'] := by decide
  have hform := w.has_form.1
  rw [← Bool.not_eq_true]
  intro hprefix
  obtain ⟨rest, hrest⟩ := List.isPrefixOf_iff_prefix.mp hprefix
  have hparse := congrArg Prod.fst (Form.parse_text (Form.table_isPlain _ hform) w)
  have htext : (w.form.text w).toList = byteVerb.toList ++ rest := hrest.symm
  rw [htext] at hparse
  exact hverbs _ hform hparse.symm

/-- No word is written like a byte. -/
theorem text_byte_ne (b : UInt8) (w : Word) : (Datum.byte b).text ≠ (Datum.word w).text := by
  intro h
  have hword := isPrefixOf_text_word w
  rw [← h, isPrefixOf_text_byte] at hword
  cases hword

end Datum

/-! ## What a reader sees -/

/-- What a reader sees of a line: address, number and text. -/
structure Entry where
  address : Int
  value : Nat
  text : String
  deriving DecidableEq, Repr

namespace Entry

/-- The bytes that an entry was made of: one if the text says so, and otherwise two, the high one
first. -/
def bytes (e : Entry) : List UInt8 :=
  if Datum.byteVerb.toList.isPrefixOf e.text.toList then [UInt8.ofNat e.value]
  else [UInt8.ofNat (e.value / 256), UInt8.ofNat (e.value % 256)]

end Entry

/-- What a reader sees of a line. -/
def Line.entry (l : Line) : Entry := ⟨l.address, l.datum.value, l.datum.text⟩

/-- What a reader sees of a line is enough to write its bytes out. -/
theorem Line.bytes_entry (l : Line) : l.entry.bytes = l.datum.bytes := by
  obtain ⟨address, x⟩ := l
  unfold Entry.bytes entry
  cases x with
  | word w =>
      rw [if_neg (by rw [Datum.isPrefixOf_text_word]; exact Bool.false_ne_true)]
      rfl
  | byte b =>
      rw [if_pos (Datum.isPrefixOf_text_byte b)]
      exact congrArg (· :: []) UInt8.ofNat_toNat

namespace Listing

/-- What a reader sees of the listing of some bytes. -/
def entries (start : Int) (d : List UInt8) : List Entry := (ofBytes start d).map Line.entry

theorem bytes_entries (start : Int) (d : List UInt8) :
    (entries start d).flatMap Entry.bytes = d := by
  have hbytes := bytes_ofBytes start d
  unfold bytes at hbytes
  unfold entries
  rw [List.flatMap_map]
  simp only [Line.bytes_entry]
  exact hbytes

/-- The listing of the bytes `d` from the address `start` on shows all of them and nothing else. -/
structure Lossless (start : Int) (d : List UInt8) : Prop where
  /-- Every two bytes have a line, and so has a last one. -/
  length : (entries start d).length = (d.length + 1) / 2
  /-- The lines stand in the order of the bytes. -/
  entry : ∀ k, (entries start d)[k]? =
    (datum? d k).map fun x => ⟨start + wordSize * k, x.value, x.text⟩
  /-- The bytes can be written out again. -/
  bytes : (entries start d).flatMap Entry.bytes = d
  /-- No other bytes have this listing. -/
  unique : ∀ start' d', entries start' d' = entries start d → d' = d

theorem lossless (start : Int) (d : List UInt8) : Lossless start d where
  length := by
    unfold entries
    rw [List.length_map, length_ofBytes]
  entry k := by
    unfold entries
    rw [List.getElem?_map, getElem?_ofBytes, Option.map_map]
    rfl
  bytes := bytes_entries start d
  unique start' d' h := by rw [← bytes_entries start' d', h, bytes_entries]

end Listing

end ChipEight
