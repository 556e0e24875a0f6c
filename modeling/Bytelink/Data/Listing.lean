import Bytelink.Data.Directive
import Bytelink.Data.Segment
import Bytelink.Text.Lines

/-!
# Data listings

A listing declares symbols line by line. A line that begins with a period is a directive, whose
bytes go to the symbol declared last in the same listing; any other line that is not blank declares
a symbol, named by the text before its first colon. `Segment.append` reads one listing into a
segment. It takes all of it or, when a line is faulty, nothing.
-/
namespace Bytelink

def labelName? (line : Text) : Option Text :=
  if ':' ∈ line then
    let name := Text.trim (line.takeWhile (· != ':'))
    if name.isEmpty then none else some name
  else none

/-- A listing read in part: its symbols, newest first, and the size of the whole segment if it ended
here. -/
structure Listing where
  symbols : List Symbol
  total : UInt32
  deriving DecidableEq, Repr

namespace Listing

def addPayload (l : Listing) (payload : Bytes) : Except Fault Listing :=
  match l.symbols with
  | [] => .error .directiveWithoutSymbol
  | newest :: earlier =>
      if l.total.toNat + payload.length ≤ Segment.sizeLimit then
        .ok ⟨⟨newest.name, newest.payload ++ payload⟩ :: earlier,
          l.total + UInt32.ofNat payload.length⟩
      else .error .segmentOverflow

def readLine (registry : Registry) (l : Listing) (raw : Text) : Except Fault Listing :=
  match Text.trim raw with
  | [] => .ok l
  | '.' :: rest =>
      if l.symbols.isEmpty then .error .directiveWithoutSymbol
      else match registry.decode ('.' :: rest) with
        | .error fault => .error fault
        | .ok payload => l.addPayload payload
  | line =>
      match labelName? line with
      | none => .error (.malformedLabel line)
      | some name => .ok ⟨⟨name, []⟩ :: l.symbols, l.total⟩

/-- Reads lines in order, the first of them with the number `number`, up to the first faulty one. -/
def readLines (registry : Registry) (number : Nat) (l : Listing) :
    List Text → Except (Nat × Fault) Listing
  | [] => .ok l
  | raw :: rest =>
      match l.readLine registry raw with
      | .error fault => .error (number, fault)
      | .ok l => readLines registry (number + 1) l rest

end Listing

def Segment.append (s : Segment) (registry : Registry) (origin text : Text) :
    Except DataError Segment :=
  match Listing.readLines registry 1 ⟨[], s.totalSize⟩ (Text.lines text) with
  | .error (line, fault) => .error ⟨origin, line, fault⟩
  | .ok listing => .ok ⟨s.symbols ++ listing.symbols.reverse, listing.total⟩

end Bytelink
