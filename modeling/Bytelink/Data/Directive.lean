import Bytelink.Data.Constant
import Bytelink.Text.Blank

/-!
# Data directives

A directive line is a period, a name, white space and an operand. A `Registry` says which decoder
reads the operand of which name; a name registered again is read by its newest decoder.
-/
namespace Bytelink

/-- Turns the operand of a directive into bytes. -/
abbrev Decoder := Text → Except Fault Bytes

/-- Decoders by directive name, newest first. -/
structure Registry where
  decoders : List (Text × Decoder)

namespace Registry

/-- The registry that rejects every directive. -/
def empty : Registry := ⟨[]⟩

def insert (r : Registry) (name : Text) (decoder : Decoder) : Registry :=
  ⟨(name, decoder) :: r.decoders⟩

/-- String constants, under the name `ascii`. -/
def standard : Registry := empty.insert "ascii" Constant.decode

def get? (r : Registry) (name : Text) : Option Decoder := r.decoders.lookup name

def supports (r : Registry) (name : Text) : Bool := (r.get? name).isSome

/-- Decodes a directive line. Indentation, the spacing between name and operand and a missing period
do not matter; a line without white space inside has no operand. -/
def decode (r : Registry) (line : Text) : Except Fault Bytes :=
  let trimmed := Text.trim line
  let body := match trimmed with
    | '.' :: rest => rest
    | _ => trimmed
  match Text.splitAtBlank body with
  | none => .error (.malformedDirective trimmed)
  | some (name, operand) =>
      match r.get? name with
      | none => .error (.unimplementedDirective name)
      | some decoder => decoder (Text.trim operand)

end Registry
end Bytelink
