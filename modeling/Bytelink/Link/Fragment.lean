import Bytelink.Data.Listing

/-!
# Compiled units

A fragment is what the compiler leaves of one source: instruction text and, if the source declares
static data, a data listing. `Segment.ofFragments` collects the listings of all fragments.
-/
namespace Bytelink

/-- One compiled unit. The origin only serves messages. -/
structure Fragment where
  origin : Text
  body : Text
  listing : Option Text
  deriving DecidableEq, Repr

namespace Fragment

/-- A unit without static data. -/
def ofBody (origin body : Text) : Fragment := ⟨origin, body, none⟩

/-- The unit with `listing` as its static data, whatever it had before. -/
def withListing (f : Fragment) (listing : Text) : Fragment := { f with listing := some listing }

end Fragment

namespace Segment

/-- Adds the listings of fragments in order, up to the first faulty one. -/
def appendFragments (s : Segment) (registry : Registry) :
    List Fragment → Except DataError Segment
  | [] => .ok s
  | f :: rest =>
      match f.listing with
      | none => s.appendFragments registry rest
      | some text =>
          match s.append registry f.origin text with
          | .error e => .error e
          | .ok s => s.appendFragments registry rest

def ofFragments (registry : Registry) (fragments : List Fragment) : Except DataError Segment :=
  empty.appendFragments registry fragments

end Segment
end Bytelink
