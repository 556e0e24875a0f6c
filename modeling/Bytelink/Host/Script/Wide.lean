import Bytelink.Text.Narrow

/-!
# Bytes seen as characters of several bytes

A narrow text becomes wide when the bytes that encode a character are taken together. A byte that is
part of no character is kept: it stands for itself as one of the last code points, which no text
uses.
-/
namespace Bytelink.Script.Wide

/-- The code point of the byte zero. -/
def byteBase : Nat := 0x10FF00

def ofByte (c : Char) : Char := Char.ofNat (byteBase + c.toNat % 256)

def isByte (c : Char) : Bool := byteBase ≤ c.toNat

def narrow (c : Char) : Text :=
  if isByte c then [Char.ofNat (c.toNat - byteBase)] else Narrow.ofText [c]

def toNarrow (t : Text) : Text := if t.all (· ≤ '\x7f') then t else t.flatMap narrow

/-- How many bytes a character has that begins with a byte. -/
def sizeOf (first : Char) : Nat :=
  match Utf8.begin? (UInt8.ofNat first.toNat) with
  | some begun => begun.missing + 1
  | none => 1

def first (t : Text) (c : Char) : Char × Nat :=
  if c ≤ '\x7f' then (c, 1)
  else
    let bytes := t.take (sizeOf c)
    match Utf8.decode? (Narrow.toBytes bytes) with
    | some [wide] => (wide, bytes.length)
    | _ => (ofByte c, 1)

/-- Takes the bytes of each character together, past so many bytes. -/
def ofNarrowFrom : Nat → Text → Text
  | _, [] => []
  | skipped + 1, _ :: rest => ofNarrowFrom skipped rest
  | 0, c :: rest =>
      let (wide, size) := first (c :: rest) c
      wide :: ofNarrowFrom (size - 1) rest

def ofNarrow (t : Text) : Text :=
  if t.all (· ≤ '\x7f') then t else ofNarrowFrom 0 t

/-- A narrow text as the surroundings see it: its characters are wide if that is wanted. -/
def seen (isWide : Bool) (t : Text) : Text := if isWide then ofNarrow t else t

/-- The narrow text that is seen in such a way. -/
def unseen (isWide : Bool) (t : Text) : Text := if isWide then toNarrow t else t

end Bytelink.Script.Wide
