import Bytelink.Text.Basic

/-!
# White space

`isBlank` is the Unicode property `White_Space`, listed in `blankRanges`. Trimming removes blank
characters at both ends and nothing else: a trimmed text neither begins nor ends with one.
-/
namespace Bytelink.Text

/-- First and last code point of each run of characters with the property `White_Space`. -/
def blankRanges : List (Nat × Nat) :=
  [(0x9, 0xD), (0x20, 0x20), (0x85, 0x85), (0xA0, 0xA0), (0x1680, 0x1680), (0x2000, 0x200A),
    (0x2028, 0x2029), (0x202F, 0x202F), (0x205F, 0x205F), (0x3000, 0x3000)]

/-- Membership of a character in a list of code point ranges, ends included. -/
def inRanges (ranges : List (Nat × Nat)) (c : Char) : Bool :=
  ranges.any fun r => r.1 ≤ c.toNat && c.toNat ≤ r.2

def isBlank (c : Char) : Bool := inRanges blankRanges c

theorem isBlank_of_isWhitespace (c : Char) (h : c.isWhitespace = true) : isBlank c = true := by
  simp only [Char.isWhitespace, Bool.or_eq_true, decide_eq_true_eq] at h
  rcases h with ((rfl | rfl) | rfl) | rfl <;> decide

def trimStart (t : Text) : Text := t.dropWhile isBlank

def trimEnd (t : Text) : Text := (t.reverse.dropWhile isBlank).reverse

def trim (t : Text) : Text := trimEnd (trimStart t)

/-- Cuts a text at its first blank character, which belongs to neither part. -/
def splitAtBlank : Text → Option (Text × Text)
  | [] => none
  | c :: rest =>
      if isBlank c then some ([], rest)
      else (splitAtBlank rest).map fun parts => (c :: parts.1, parts.2)

end Bytelink.Text
