import OpenSound.Error

/-!
# Reading and writing bytes

A reader takes bytes from the front of what is left and says what it found; the bytes left after it are given
also when it fails. A writer appends to a buffer, and the buffer is given also when it fails. Every value is
aligned to four bytes, counted from its own start.
-/

namespace OpenSound.Wire

/-- Takes a value from the front of some bytes, and gives the bytes that it left. -/
abbrev Reader (ε α : Type) := List UInt8 → Except ε α × List UInt8

/-- Appends to a buffer, and gives the buffer as it is afterwards. -/
abbrev Writer := List UInt8 → Except Error Unit × List UInt8

/-- The next multiple of four. -/
def paddedLength (n : Nat) : Nat := (n + 3) / 4 * 4

/-- The next multiple of four of a 64-bit length, where adding three does not overflow. -/
def paddedLength64? (n : UInt64) : Option UInt64 :=
  if n.toNat + 3 < UInt64.size then some (UInt64.ofNat (paddedLength n.toNat)) else none

/-- The zeros that fill a number of written bytes up to a multiple of four. -/
def padding (written : Nat) : List UInt8 := List.replicate (paddedLength written - written) 0

/-- Fills a buffer up to a multiple of four. -/
def pad (buffer : List UInt8) : List UInt8 := buffer ++ padding buffer.length

/-- The last bytes of a number, the most significant first. -/
def bigEndian : Nat → Nat → List UInt8
  | 0, _ => []
  | width + 1, n => bigEndian width (n / 256) ++ [UInt8.ofNat n]

/-- The number with these bytes, the most significant first. -/
def ofBigEndian (bytes : List UInt8) : Nat := bytes.foldl (fun n b => n * 256 + b.toNat) 0

/-- Reads a number of a fixed width. Nothing is taken where too few bytes are left. -/
def readNumber (width : Nat) : Reader DataFault Nat := fun bytes =>
  if (bytes.take width).length < width then (.error (.endOfData width bytes.length), bytes)
  else (.ok (ofBigEndian (bytes.take width)), bytes.drop width)

namespace Writer

/-- Appends bytes that cannot fail to be written. -/
def put (bytes : List UInt8) : Writer := fun buffer => (.ok (), buffer ++ bytes)

/-- Fails without a change. -/
def fail (e : Error) : Writer := fun buffer => (.error e, buffer)

/-- One writer after another; the second does not run where the first fails. -/
def andThen (first second : Writer) : Writer := fun buffer =>
  match first buffer with
  | (.ok (), buffer) => second buffer
  | (.error e, buffer) => (.error e, buffer)

/-- Writers one after another. -/
def all : List Writer → Writer
  | [] => put []
  | w :: ws => w.andThen (all ws)

/-- What a writer gives on an empty buffer. -/
def bytes (w : Writer) : Except Error (List UInt8) :=
  match w [] with
  | (.ok (), buffer) => .ok buffer
  | (.error e, _) => .error e

end Writer

end OpenSound.Wire
