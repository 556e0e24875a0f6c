import Bytelink.Host.SystemError
import Bytelink.Text.Basic

/-!
# Reading what a program writes

The two outputs of a program are streams, and each has a reader of its own that takes chunk after
chunk from it, of any length up to a limit, until it comes to the end. What the readers take goes to
one place, the `Capture`. A reader appends a chunk in one step, but between taking a chunk and
appending it the other reader may get ahead of it.
-/
namespace Bytelink

/-- Output read so far, in chunks, the newest first. -/
structure Capture where
  chunks : List Bytes
  deriving DecidableEq, Repr

namespace Capture

def empty : Capture := ⟨[]⟩

/-- Appends a chunk in one step, whichever stream it came from. -/
def add (c : Capture) (chunk : Bytes) : Capture := ⟨chunk :: c.chunks⟩

def bytes (c : Capture) : Bytes := c.chunks.reverse.flatten

end Capture

/-- How many bytes a reader takes at a time at most. -/
def chunkLimit : Nat := 8192

/-- How many bytes a read brings if so many are left. -/
structure ChunkSize where
  count : Nat
  pos : 0 < count
  le_limit : count ≤ chunkLimit
  deriving DecidableEq, Repr

/-- As many bytes as a reader can take at a time. -/
def ChunkSize.most : ChunkSize := ⟨chunkLimit, by decide, Nat.le_refl _⟩

inductive ReadResult
  | bytes (size : ChunkSize)
  /-- Nothing was read, and the reader tries again. -/
  | interrupted
  | failed (reason : SystemError)
  deriving DecidableEq, Repr

inductive Reader.Phase
  | reading
  | appending (chunk : Bytes)
  /-- It has come to the end of its stream. -/
  | ended
  /-- It has given up. -/
  | failed (reason : SystemError)
  deriving DecidableEq, Repr

structure Reader where
  unread : Bytes
  phase : Reader.Phase
  deriving DecidableEq, Repr

namespace Reader

def start (stream : Bytes) : Reader := ⟨stream, .reading⟩

/-- A read that brings nothing has come to the end of the stream. -/
def read (r : Reader) (result : ReadResult) : Reader :=
  match r.phase, result with
  | .reading, .bytes size =>
      match r.unread.take size.count with
      | [] => { r with phase := .ended }
      | chunk => ⟨r.unread.drop size.count, .appending chunk⟩
  | .reading, .failed reason => { r with phase := .failed reason }
  | _, _ => r

def append (r : Reader) (captured : Capture) : Reader × Capture :=
  match r.phase with
  | .appending chunk => ({ r with phase := .reading }, captured.add chunk)
  | _ => (r, captured)

def hasStopped (r : Reader) : Bool :=
  match r.phase with
  | .ended => true
  | .failed _ => true
  | _ => false

end Reader

/-- An output of a program. -/
inductive Outlet
  | standard
  | errors
  deriving DecidableEq, Repr

/-- The readers of both outputs of a program, and what they have captured. -/
structure Intake where
  standard : Reader
  errors : Reader
  captured : Capture
  deriving DecidableEq, Repr

namespace Intake

/-- The readers at the beginning of these two streams. -/
def start (standard errors : Bytes) : Intake := ⟨.start standard, .start errors, .empty⟩

def reader (s : Intake) : Outlet → Reader
  | .standard => s.standard
  | .errors => s.errors

def withReader (s : Intake) (outlet : Outlet) (reader : Reader) : Intake :=
  match outlet with
  | .standard => { s with standard := reader }
  | .errors => { s with errors := reader }

def read (s : Intake) (outlet : Outlet) (result : ReadResult) : Intake :=
  s.withReader outlet ((s.reader outlet).read result)

def append (s : Intake) (outlet : Outlet) : Intake :=
  let (reader, captured) := (s.reader outlet).append s.captured
  { s.withReader outlet reader with captured := captured }

def hasStopped (s : Intake) : Bool := s.standard.hasStopped && s.errors.hasStopped

/-- Lets one reader take chunks, each as long as can be, and so many at most. -/
def drain (outlet : Outlet) : Nat → Intake → Intake
  | 0, s => s
  | fuel + 1, s =>
      if (s.reader outlet).unread.isEmpty then s
      else drain outlet fuel ((s.read outlet (.bytes .most)).append outlet)

def write (s : Intake) (outlet : Outlet) (bytes : Bytes) : Intake :=
  let r := s.reader outlet
  drain outlet bytes.length (s.withReader outlet { r with unread := r.unread ++ bytes })

end Intake
end Bytelink
