import Bytelink.Data.Fault

/-!
# The static data segment

All units of a program share one segment: the payloads of the declared symbols, one after another in
the order of declaration. `layout` is the one place where offsets are computed. The persisted form
is a big-endian size followed by the payloads; `writeTo` sends it to a sink that may take little at
a time or run full.
-/
namespace Bytelink

/-- A named run of static bytes. -/
structure Symbol where
  name : Text
  payload : Bytes
  deriving DecidableEq, Repr

/-- The payload length as a word. A segment keeps its total size within a word, which makes this
exact for every symbol in it. -/
def Symbol.size (s : Symbol) : UInt32 := UInt32.ofNat s.payload.length

/-- A symbol together with its offset inside the segment. -/
structure Placed where
  symbol : Symbol
  offset : UInt32
  deriving DecidableEq, Repr

/-- The address at which the first byte of the segment stands at run time. -/
def baseAddress : Nat := 4096

/-- The run-time address of a symbol's first byte. -/
def Placed.address (p : Placed) : Nat := baseAddress + p.offset.toNat

/-- Addition that stays at the largest word instead of wrapping round. -/
def saturatingAdd (a b : UInt32) : UInt32 :=
  if a.toNat + b.toNat < UInt32.size then a + b else 0xFFFFFFFF

/-- Symbols in the order of declaration, with the size of all payloads together. -/
structure Segment where
  symbols : List Symbol
  totalSize : UInt32
  deriving DecidableEq, Repr

namespace Segment

def empty : Segment := ⟨[], 0⟩

def size (s : Segment) : Nat := s.symbols.length

def isEmpty (s : Segment) : Bool := s.symbols.isEmpty

/-- Places symbols one after another from `next` on. -/
def layoutFrom : UInt32 → List Symbol → List Placed
  | _, [] => []
  | next, s :: rest => ⟨s, next⟩ :: layoutFrom (saturatingAdd next s.size) rest

/-- The symbols with their offsets, in the order of declaration. -/
def layout (s : Segment) : List Placed := layoutFrom 0 s.symbols

def offsetOf? (s : Segment) (name : Text) : Option UInt32 :=
  (s.layout.find? (·.symbol.name == name)).map (·.offset)

/-- The four bytes of a word, the most significant first. -/
def bigEndian (word : UInt32) : Bytes :=
  [(word >>> 24).toUInt8, (word >>> 16).toUInt8, (word >>> 8).toUInt8, word.toUInt8]

def toBytes (s : Segment) : Bytes :=
  bigEndian s.totalSize ++ s.layout.flatMap (·.symbol.payload)

end Segment
end Bytelink
