import ChipEight.Imaging

/-!
# Images as PNG files

A PNG file is a signature followed by chunks: a header with the size of the image, its
points, and an end. A chunk is its length, its name and its data, with a checksum over
the last two. The points are written row by row without compression, three bytes each;
a byte in front of every row says that they stand there as they are.

`Png.imaging` makes any image whose size can be counted, and writes PNG files only.
-/

namespace ChipEight.Png

/-! ## Numbers -/

/-- A number as four bytes, the high one first. -/
def word32 (n : Nat) : List UInt8 :=
  [n >>> 24, n >>> 16, n >>> 8, n].map UInt8.ofNat

/-- A number as two bytes, the low one first. -/
def word16 (n : Nat) : List UInt8 := [n, n >>> 8].map UInt8.ofNat

/-! ## Checksums -/

/-- Divides by the polynomial of the checksum, one bit. -/
def crcBit (c : UInt32) : UInt32 := if c &&& 1 = 1 then c >>> 1 ^^^ 0xEDB88320 else c >>> 1

/-- Takes a byte into the checksum. -/
def crcByte (c : UInt32) (b : UInt8) : UInt32 :=
  (List.range 8).foldl (fun c _ => crcBit c) (c ^^^ b.toUInt32)

/-- The cyclic checksum of a chunk. -/
def crc (bytes : List UInt8) : UInt32 := bytes.foldl crcByte 0xFFFFFFFF ^^^ 0xFFFFFFFF

/-- The modulus of the checksum of the points. -/
abbrev sumModulus : Nat := 65521

/-- Takes a byte into the two sums of which the checksum of the points consists. -/
def addByte (sums : Nat × Nat) (b : UInt8) : Nat × Nat :=
  let low := (sums.1 + b.toNat) % sumModulus
  (low, (sums.2 + low) % sumModulus)

/-- The checksum of the points. -/
def sum (bytes : List UInt8) : Nat :=
  let (low, high) := bytes.foldl addByte (1, 0)
  high * 0x10000 + low

/-! ## Data without compression -/

/-- The most bytes in a block. -/
abbrev maxBlock : Nat := 65535

/-- What stands in front of a block. -/
def blockHeader (isLast : Bool) (length : Nat) : List UInt8 :=
  (if isLast then 1 else 0) :: word16 length ++ word16 (maxBlock - length)

/-- Bytes as a sequence of blocks, the last of which is marked. -/
def blocks (bytes : List UInt8) : List UInt8 :=
  if bytes.length ≤ maxBlock then blockHeader true bytes.length ++ bytes
  else blockHeader false maxBlock ++ bytes.take maxBlock ++ blocks (bytes.drop maxBlock)
termination_by bytes.length
decreasing_by simp only [List.length_drop, maxBlock] at *; omega

/-- Bytes as a stream of stored blocks, with its checksum. -/
def stream (bytes : List UInt8) : List UInt8 := [0x78, 0x01] ++ blocks bytes ++ word32 (sum bytes)

/-! ## Files -/

/-- The bytes that every file begins with. -/
def signature : List UInt8 := [0x89, 0x50, 0x4E, 0x47, 0x0D, 0x0A, 0x1A, 0x0A]

def chunk (name : String) (data : List UInt8) : List UInt8 :=
  let body := name.toUTF8.toList ++ data
  word32 data.length ++ body ++ word32 (crc body).toNat

/-- The points of an image, row by row. -/
def points (i : Image) : List UInt8 :=
  i.rows.flatMap fun row => 0 :: row.flatMap fun c => [c.red, c.green, c.blue]

/-- The header of an image: its size, eight bits per component, three components. -/
def header (i : Image) : List UInt8 := word32 i.width ++ word32 i.height ++ [8, 2, 0, 0, 0]

/-- The file of an image. -/
def encode (i : Image) : List UInt8 :=
  signature ++ chunk "IHDR" (header i) ++ chunk "IDAT" (stream (points i)) ++ chunk "IEND" []

/-- What is made and written here. -/
def imaging : Imaging where
  refusal? times := if 0x8000000000000000 ≤ times then some .range else none
  formatRefusal? p :=
    if p.extension = ".png" then none
    else some (.value ("unknown file extension: " ++ p.extension))
  imageRefusal? _ _ := none
  counts _ h := if_pos h
  png _ h := ⟨if_pos h, fun _ => rfl⟩

end ChipEight.Png
