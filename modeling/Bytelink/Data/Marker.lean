import Bytelink.Data.Segment
import Bytelink.Text.Search

/-!
# References to symbols

Instruction text refers to a symbol by the marker `symref`, the symbol's name and `end`.
`Segment.substitute` replaces every marker of a declared symbol by the instruction that pushes its
address. It reads the text once from left to right and never looks at what it has written. Where
several names fit one marker the longest wins, and of two declarations of one name the first.
-/
namespace Bytelink

def markerOpen : Text := ['s', 'y', 'm', 'r', 'e', 'f']

def markerClose : Text := ['e', 'n', 'd']

/-- The largest number that fits the immediate operand of `sipush`. -/
def immediateLimit : Nat := 32767

/-- The instruction that pushes `value`: an immediate operand where it fits, else an entry of the
constant pool. -/
def pushConstant (value : Nat) : Text :=
  (if value ≤ immediateLimit then ("sipush " : Text) else ("ldc " : Text)) ++ Text.decimal value

/-- What stands after a marker of the symbol `name`, given the text after `symref`. -/
def afterMarker? (name rest : Text) : Option Text :=
  (Text.stripStart name rest).bind (Text.stripStart markerClose)

/-- The entry with the longer name; of two names of one length, the earlier entry. -/
def longer (best : Option Placed) (entry : Placed) : Option Placed :=
  match best with
  | some current =>
      if entry.symbol.name.length ≤ current.symbol.name.length then some current else some entry
  | none => some entry

namespace Segment

/-- The symbol that a marker refers to, given the text after `symref`. -/
def resolve? (s : Segment) (rest : Text) : Option Placed :=
  (s.layout.filter fun entry => (afterMarker? entry.symbol.name rest).isSome).foldl longer none

/-- Every marker of a declared symbol replaced by the instruction that pushes its address. -/
def substitute (s : Segment) (body : Text) : Text :=
  match h : Text.cut markerOpen body with
  | none => body
  | some (before, after) =>
      have : after.length < body.length := Text.cut_length_lt (by decide) h
      match s.resolve? after with
      | some entry =>
          before ++ pushConstant entry.address ++
            s.substitute (after.drop (entry.symbol.name.length + markerClose.length))
      | none => before ++ markerOpen ++ s.substitute after
termination_by body.length
decreasing_by
  · simp only [List.length_drop]
    omega
  · exact this

end Segment
end Bytelink
