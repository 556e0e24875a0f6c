import Bytelink.Text.Basic

/-!
# Pipes

Bytes on their way from writers to readers. They come out in the order in which they went in, and no
more than `capacity` of them wait at a time.
-/
namespace Bytelink

/-- Waiting bytes: those in front, and what was written after them, the newest chunk first. -/
structure Pipe where
  front : Bytes
  back : List Bytes
  size : Nat
  deriving DecidableEq, Repr

namespace Pipe

/-- How many bytes may wait. -/
def capacity : Nat := 65536

def empty : Pipe := ⟨[], [], 0⟩

/-- So many bytes are written together or not at all. -/
def page : Nat := 4096

/-- All waiting bytes in order. -/
def bytes (p : Pipe) : Bytes := p.front ++ p.back.reverse.flatten

def room (p : Pipe) : Nat := capacity - p.size

/-- Whether some of so many bytes can be written now. -/
def admits (p : Pipe) (count : Nat) : Bool := min count page ≤ p.room

def isEmpty (p : Pipe) : Bool := p.size == 0

def push (p : Pipe) (chunk : Bytes) : Pipe :=
  { p with back := chunk :: p.back, size := p.size + chunk.length }

def settled (p : Pipe) : Pipe := if p.back.isEmpty then p else ⟨p.bytes, [], p.size⟩

/-- Takes out at most `count` bytes. -/
def take (p : Pipe) (count : Nat) : Bytes × Pipe :=
  let p := if (p.front.drop count).isEmpty then p.settled else p
  (p.front.take count, ⟨p.front.drop count, p.back, p.size - min count p.size⟩)

theorem bytes_push (p : Pipe) (chunk : Bytes) : (p.push chunk).bytes = p.bytes ++ chunk := by
  simp [push, bytes, List.append_assoc]

theorem bytes_settled (p : Pipe) : p.settled.bytes = p.bytes := by
  unfold settled
  split
  · rfl
  · simp [bytes]

theorem back_settled (p : Pipe) : p.settled.back = [] := by
  unfold settled
  split
  · rename_i h
    exact List.isEmpty_iff.1 h
  · rfl

theorem bytes_take (p : Pipe) (count : Nat) :
    (p.take count).1 ++ (p.take count).2.bytes = p.bytes := by
  unfold take
  split
  · rw [← bytes_settled p]
    simp [bytes, back_settled]
  · simp [bytes, ← List.append_assoc]

end Pipe
end Bytelink
