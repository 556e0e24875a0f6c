import Bytelink.Text.Basic

/-!
# UTF-8

Encoding, and one decoder with two readings of its result. The decoder consumes bytes one at a time.
Inside a character of several bytes it remembers how many are missing and which range the next one
must come from; a byte outside that range ends the character as invalid and is read again as the
first byte of the next one. So every longest run of bytes that could still begin a character counts
as one invalid piece. `decode?` refuses a text with an invalid piece, `decodeLossy` writes U+FFFD
for each.
-/
namespace Bytelink.Utf8

def encode (t : Text) : Bytes := t.flatMap String.utf8EncodeChar

/-- A character of several bytes that has begun: how many bytes are missing, the range of the next
one, and the number read so far. -/
structure Begun where
  missing : Nat
  low : UInt8
  high : UInt8
  value : Nat
  deriving DecidableEq, Repr

/-- What has been decoded, newest first, with `none` for an invalid piece. -/
structure Decoder where
  begun : Option Begun
  pieces : List (Option Char)
  deriving DecidableEq, Repr

def Decoder.start : Decoder := ⟨none, []⟩

/-- A byte that begins a character of several bytes, by the table of well-formed sequences: it fixes
the number of bytes to come and the range of the first of them. -/
def begin? (b : UInt8) : Option Begun :=
  let value := b.toNat
  if 0xC2 ≤ value ∧ value ≤ 0xDF then some ⟨1, 0x80, 0xBF, value % 0x20⟩
  else if 0xE0 ≤ value ∧ value ≤ 0xEF then
    some ⟨2, if value = 0xE0 then 0xA0 else 0x80, if value = 0xED then 0x9F else 0xBF,
      value % 0x10⟩
  else if 0xF0 ≤ value ∧ value ≤ 0xF4 then
    some ⟨3, if value = 0xF0 then 0x90 else 0x80, if value = 0xF4 then 0x8F else 0xBF,
      value % 0x08⟩
  else none

/-- Reads a byte where a new character begins. -/
def Decoder.first (pieces : List (Option Char)) (b : UInt8) : Decoder :=
  if b < 0x80 then ⟨none, some (Char.ofNat b.toNat) :: pieces⟩
  else match begin? b with
    | some begun => ⟨some begun, pieces⟩
    | none => ⟨none, none :: pieces⟩

def Decoder.feed (d : Decoder) (b : UInt8) : Decoder :=
  match d.begun with
  | none => first d.pieces b
  | some begun =>
      if begun.low ≤ b ∧ b ≤ begun.high then
        let value := begun.value * 0x40 + b.toNat % 0x40
        if begun.missing ≤ 1 then ⟨none, some (Char.ofNat value) :: d.pieces⟩
        else ⟨some ⟨begun.missing - 1, 0x80, 0xBF, value⟩, d.pieces⟩
      else first (none :: d.pieces) b

/-- The decoded pieces in reading order; a character that never ended is invalid. -/
def Decoder.finish (d : Decoder) : List (Option Char) :=
  (match d.begun with
    | none => d.pieces
    | some _ => none :: d.pieces).reverse

def pieces (bytes : Bytes) : List (Option Char) :=
  (bytes.foldl Decoder.feed Decoder.start).finish

/-- The mark that stands for bytes that are not UTF-8. -/
def replacement : Char := '\uFFFD'

def decodeLossy (bytes : Bytes) : Text := (pieces bytes).map (·.getD replacement)

/-- The text that `bytes` encode, if they are well-formed throughout. -/
def decode? (bytes : Bytes) : Option Text :=
  let decoded := pieces bytes
  if decoded.all Option.isSome then some (decoded.map (·.getD replacement)) else none

end Bytelink.Utf8
