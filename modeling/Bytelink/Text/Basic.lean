/-!
# Texts and bytes

A text is the list of its characters, so that scans are recursions on the data and their laws are
list laws. A string literal stands for its characters wherever a text is expected.
-/
namespace Bytelink

/-- Characters in reading order. -/
abbrev Text := List Char

/-- Raw bytes in order. -/
abbrev Bytes := List UInt8

instance : Coe String Text := ⟨String.toList⟩

namespace Text

/-- The pieces of a text between the occurrences of `mark`: always one more than there are marks. -/
def splitOn (mark : Char) : Text → List Text
  | [] => [[]]
  | c :: rest =>
      if c = mark then [] :: splitOn mark rest
      else match splitOn mark rest with
        | [] => [[c]]
        | piece :: pieces => (c :: piece) :: pieces

theorem splitOn_ne_nil (mark : Char) (t : Text) : splitOn mark t ≠ [] := by
  cases t with
  | nil => simp [splitOn]
  | cons c rest =>
    by_cases h : c = mark
    · simp [splitOn, h]
    · simp only [splitOn, h, if_false]
      split <;> simp

/-- `pieces` written one after another with `between` at each seam. -/
def join (between : Text) : List Text → Text
  | [] => []
  | [piece] => piece
  | piece :: pieces => piece ++ between ++ join between pieces

def replaceChar (old : Char) (new : Text) (t : Text) : Text :=
  t.flatMap fun c => if c = old then new else [c]

/-- `t` filled up with spaces on the right to at least `width` characters. -/
def padRight (width : Nat) (t : Text) : Text :=
  t ++ List.replicate (width - t.length) ' '

/-- The order of texts by their first difference, which is also the order of their UTF-8 bytes. -/
def le : Text → Text → Bool
  | [], _ => true
  | _ :: _, [] => false
  | a :: s, b :: t => if a = b then le s t else a < b

end Text
end Bytelink
