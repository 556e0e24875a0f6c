import Bytelink.Data.Segment

/-!
# Writing a segment to a sink

A sink takes a limited number of bytes per write and in all, and any write may be shorter than it
has to be, as long as it takes something. `writeAll` offers what is left again and again until
everything is taken or a write of something takes nothing; an empty run of bytes is not offered at
all. A segment is written payload by payload and flushed at the end.
-/
namespace Bytelink

/-- What a full sink answers to a write: nothing taken, or a failure. -/
inductive WhenFull
  | takesNothing
  | fails
  deriving DecidableEq, Repr

/-- A destination for bytes and what it has taken so far. A limit that is absent does not bind.
`shortfalls` says of the next writes by how much each falls short of what it could take, and
`flushes` how much had been taken at each flush, the latest one first. -/
structure Sink where
  perWrite : Option Nat
  capacity : Option Nat
  whenFull : WhenFull
  flushFails : Bool
  taken : Bytes
  shortfalls : List Nat := []
  flushes : List Nat := []
  deriving DecidableEq, Repr

/-- Why a segment did not arrive. -/
inductive WriteError
  | stalled
  | full
  | flush
  deriving DecidableEq, Repr

def WriteError.message : WriteError → Text
  | stalled => "failed to write whole buffer"
  | full => "sink full"
  | flush => "flush failed"

namespace Sink

/-- How much of an offer of `offered` bytes there is room for. -/
def room (sink : Sink) (offered : Nat) : Nat :=
  match sink.capacity with
  | some capacity => min offered (capacity - sink.taken.length)
  | none => offered

/-- How many bytes of an offer of `offered` the next write takes. Where it can take something, it
falls short by less than that. -/
def accepts (sink : Sink) (offered : Nat) : Nat :=
  let most := match sink.perWrite with
    | some chunk => min chunk (sink.room offered)
    | none => sink.room offered
  most - min (sink.shortfalls.headD 0) (most - 1)

/-- The failure of an offer of which nothing is taken. -/
def refusal (sink : Sink) : WriteError :=
  match sink.whenFull with
  | .takesNothing => .stalled
  | .fails => .full

/-- Offers `bytes` until they are taken. Stops at the first offer of which nothing is taken. -/
def writeAll (sink : Sink) (bytes : Bytes) : Except WriteError Unit × Sink :=
  if h : bytes = [] then (.ok (), sink)
  else
    let count := sink.accepts bytes.length
    if hc : count = 0 then (.error sink.refusal, sink)
    else
      have : bytes.length - count < bytes.length := by
        have := List.length_pos_iff.2 h
        omega
      let next := { sink with
        taken := sink.taken ++ bytes.take count, shortfalls := sink.shortfalls.tail }
      next.writeAll (bytes.drop count)
termination_by bytes.length
decreasing_by simpa using this

/-- Writes several runs of bytes in order, up to the first that fails. -/
def writeEach (sink : Sink) : List Bytes → Except WriteError Unit × Sink
  | [] => (.ok (), sink)
  | bytes :: rest =>
      match sink.writeAll bytes with
      | (.ok (), sink) => writeEach sink rest
      | failed => failed

def flush (sink : Sink) : Except WriteError Unit × Sink :=
  (if sink.flushFails then .error .flush else .ok (),
    { sink with flushes := sink.taken.length :: sink.flushes })

end Sink

/-- Writes the persisted segment and flushes the sink once everything has been taken. -/
def Segment.writeTo (s : Segment) (sink : Sink) : Except WriteError Unit × Sink :=
  match sink.writeEach (bigEndian s.totalSize :: s.layout.map (·.symbol.payload)) with
  | (.ok (), sink) => sink.flush
  | failed => failed

end Bytelink
