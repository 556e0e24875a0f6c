import Bytelink.Data.Fault
import Bytelink.Text.Search

/-!
# String constants

A string constant is a double quote, a sequence of units and a double quote. A unit is an ASCII
character other than a backslash, a backslash with one of seven letters or marks, or a backslash
with a run of octal digits; each unit is one byte. The digits of a numeric escape are taken as far
as decimal digits go, so a digit never starts the unit after it. A quote inside the constant needs
no backslash: only the first and the last character delimit it.
-/
namespace Bytelink.Constant

def charByte (c : Char) : Except Fault UInt8 :=
  if c.toNat < 0x80 then .ok (UInt8.ofNat c.toNat) else .error (.nonAsciiCharacter c)

/-- The byte of a backslash followed by one letter or mark. -/
def escapeByte? : Char → Option UInt8
  | 'b' => some 0x08
  | 'f' => some 0x0C
  | 'n' => some 0x0A
  | 'r' => some 0x0D
  | 't' => some 0x09
  | '"' => some 0x22
  | '\\' => some 0x5C
  | _ => none

/-- The byte of a numeric escape. A run with a digit that is not octal, or whose value needs more
than 32 bits, is no octal number at all. -/
def octalByte (digits : Text) : Except Fault UInt8 :=
  let value := Text.valueIn 8 digits
  if digits.all Text.isOctalDigit && value < UInt32.size then
    if value < 0x100 then .ok (UInt8.ofNat value) else .error (.byteOutOfRange value)
  else .error (.invalidOctalEscape digits)

/-- Reads the unit that begins with `c`: its byte and what stands after it. -/
def readUnit (c : Char) (rest : Text) : Except Fault (UInt8 × Text) :=
  if c = '\\' then
    match rest with
    | [] => .error .unterminatedEscape
    | escape :: rest =>
        if escape = 'x' then .error .unsupportedEscape
        else if Text.isDigit escape then
          (octalByte (escape :: rest.takeWhile Text.isDigit)).map
            (·, rest.dropWhile Text.isDigit)
        else match escapeByte? escape with
          | some byte => .ok (byte, rest)
          | none => .error (.unrecognizedEscape escape)
  else (charByte c).map (·, rest)

theorem length_dropWhile_le {α : Type} (p : α → Bool) (l : List α) :
    (l.dropWhile p).length ≤ l.length :=
  (List.dropWhile_sublist p).length_le

theorem readUnit_length_le {c : Char} {rest after : Text} {byte : UInt8}
    (h : readUnit c rest = .ok (byte, after)) : after.length ≤ rest.length := by
  unfold readUnit at h
  split at h
  · split at h
    · cases h
    · rename_i escape tail
      split at h
      · cases h
      · split at h
        · cases ho : octalByte (escape :: tail.takeWhile Text.isDigit) with
          | error e => simp [ho, Except.map] at h
          | ok b =>
            simp only [ho, Except.map, Except.ok.injEq, Prod.mk.injEq] at h
            rw [← h.2]
            exact Nat.le_succ_of_le (length_dropWhile_le _ _)
        · split at h
          · cases h
            simp
          · cases h
  · cases hc : charByte c with
    | error e => simp [hc, Except.map] at h
    | ok b =>
      simp only [hc, Except.map, Except.ok.injEq, Prod.mk.injEq] at h
      exact Nat.le_of_eq (congrArg List.length h.2.symm)

def decodeContent : Text → Except Fault Bytes
  | [] => .ok []
  | c :: rest =>
      match h : readUnit c rest with
      | .error fault => .error fault
      | .ok (byte, after) =>
          have := readUnit_length_le h
          match decodeContent after with
          | .error fault => .error fault
          | .ok bytes => .ok (byte :: bytes)
termination_by t => t.length

/-- What stands between the first and the last character, if both are double quotes. -/
def content? (operand : Text) : Option Text :=
  (Text.stripStart ['"'] operand).bind (Text.stripEnd ['"'])

def decode (operand : Text) : Except Fault Bytes :=
  match content? operand with
  | some content => decodeContent content
  | none => .error (.malformedConstant operand)

end Bytelink.Constant
