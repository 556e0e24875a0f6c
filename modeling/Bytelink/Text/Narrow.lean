import Bytelink.Text.Utf8

/-!
# Bytes as characters

A program that does not know what its bytes mean handles each of them as the character of the same
number. A text of such characters is narrow. Nothing is lost on the way: `toBytes (ofBytes b)` is
`b`.
-/
namespace Bytelink.Narrow

def ofBytes (bytes : Bytes) : Text := bytes.map fun b => Char.ofNat b.toNat

def toBytes (t : Text) : Bytes := t.map fun c => UInt8.ofNat c.toNat

theorem toNat_ofNat_uInt8 (b : UInt8) : (Char.ofNat b.toNat).toNat = b.toNat := by
  have h : b.toNat.isValidChar := Or.inl (by have := b.toNat_lt; omega)
  unfold Char.ofNat
  rw [dif_pos h]
  rfl

theorem toBytes_ofBytes (bytes : Bytes) : toBytes (ofBytes bytes) = bytes := by
  induction bytes with
  | nil => rfl
  | cons b rest ih =>
    simp only [ofBytes, toBytes, List.map_cons, List.map_map] at ih ⊢
    rw [ih, toNat_ofNat_uInt8]
    simp

def ofText (t : Text) : Text := ofBytes (Utf8.encode t)

def toText (t : Text) : Text := Utf8.decodeLossy (toBytes t)

end Bytelink.Narrow
