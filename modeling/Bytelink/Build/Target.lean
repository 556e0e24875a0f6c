import Bytelink.Host.Path
import Bytelink.Text.Blank

/-!
# Target classes

A target is the full name of a class: segments between slashes, none of them empty, without white
space, backslashes and periods. These rules make the class file a path below the output directory
that no other target shares.
-/
namespace Bytelink

/-- Characters that a class name cannot hold. -/
def isForbidden (c : Char) : Bool := Text.isBlank c || c == '\\' || c == '.'

structure Target.IsValid (name : Text) : Prop where
  ne_nil : name ≠ []
  allowed : ∀ c ∈ name, isForbidden c = false
  segments_ne_nil : ∀ segment ∈ Text.splitOn '/' name, segment ≠ []

structure Target where
  name : Text
  valid : Target.IsValid name

instance : DecidableEq Target := fun a b =>
  decidable_of_iff (a.name = b.name)
    ⟨fun h => by cases a; cases b; cases h; rfl, fun h => by rw [h]⟩

inductive ConfigError
  | emptyTarget
  | emptySegment (name : Text)
  | invalidCharacter (name : Text) (invalid : Char)
  | zeroJobs
  | notADirectory (path : Path)
  deriving DecidableEq, Repr

namespace Target

/-- Accepts a class name, or says what is wrong with it: an empty name first, then the first
forbidden character, then an empty segment. -/
def parse (name : Text) : Except ConfigError Target :=
  if h : name = [] then .error .emptyTarget
  else match hc : name.find? isForbidden with
    | some c => .error (.invalidCharacter name c)
    | none =>
        if hs : [] ∈ Text.splitOn '/' name then .error (.emptySegment name)
        else .ok ⟨name, h, fun c hm => by simpa using List.find?_eq_none.1 hc c hm,
          fun s hm he => hs (he ▸ hm)⟩

def segments (t : Target) : List Text := Text.splitOn '/' t.name

/-- The class name without its package. -/
def simpleName (t : Target) : Text := t.segments.getLast?.getD []

/-- The segments before the class name, as one name. -/
def package? (t : Target) : Option Text :=
  if t.segments.length > 1 then some (Text.join ['/'] t.segments.dropLast) else none

def classFile (t : Target) (directory : Path) : Path :=
  (t.segments.dropLast ++ [t.simpleName ++ ".class"]).foldl (fun p s => p.join ⟨s⟩) directory

end Target
end Bytelink
