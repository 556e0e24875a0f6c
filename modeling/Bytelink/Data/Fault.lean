import Bytelink.Text.Numeral

/-!
# Faults in static data

A `Fault` says what is wrong with one line of a data listing; a `DataError` adds where the line
stands. Each has one message.
-/
namespace Bytelink

/-- The largest size that the segment header can state. -/
def Segment.sizeLimit : Nat := 4294967295

/-- What is wrong with a line of static data. -/
inductive Fault
  | directiveWithoutSymbol
  | malformedLabel (line : Text)
  | malformedDirective (line : Text)
  | unimplementedDirective (name : Text)
  | malformedConstant (operand : Text)
  | unterminatedEscape
  | unsupportedEscape
  | unrecognizedEscape (escape : Char)
  | invalidOctalEscape (digits : Text)
  | byteOutOfRange (value : Nat)
  | nonAsciiCharacter (char : Char)
  | segmentOverflow
  deriving DecidableEq, Repr

def Fault.message : Fault → Text
  | directiveWithoutSymbol => "directive without symbol"
  | malformedLabel line => "malformed label line '" ++ line ++ "'"
  | malformedDirective line => "cannot parse directive '" ++ line ++ "'"
  | unimplementedDirective name => "unimplemented directive '." ++ name ++ "'"
  | malformedConstant operand =>
      "malformed constant " ++ operand ++ ", expected it to be enclosed in double quotes"
  | unterminatedEscape => "unterminated escape at end of constant"
  | unsupportedEscape => "unsupported escape '\\x'"
  | unrecognizedEscape escape => "unrecognized escape '\\" ++ [escape] ++ "'"
  | invalidOctalEscape digits => "invalid octal escape '\\" ++ digits ++ "'"
  | byteOutOfRange value =>
      "octal escape value " ++ Text.decimal value ++ " does not fit in a byte"
  | nonAsciiCharacter char => "non-ASCII character '" ++ [char] ++ "' in constant"
  | segmentOverflow => "data segment exceeds " ++ Text.decimal Segment.sizeLimit ++ " bytes"

/-- A fault together with the listing and the line, counted from 1, where it was found. -/
structure DataError where
  origin : Text
  line : Nat
  fault : Fault
  deriving DecidableEq, Repr

def DataError.message (e : DataError) : Text :=
  e.origin ++ ":" ++ Text.decimal e.line ++ ": " ++ e.fault.message

end Bytelink
