import Bytelink.Data.Marker
import Bytelink.Link.Fragment
import Bytelink.Link.Template

/-!
# Linked programs

Linking has two passes that must not be fused, because a fragment may refer to a symbol of a later
one. The first collects the whole segment; the second writes the template and then each fragment's
body with its markers replaced. At the end the class gets its name throughout: fragments call each
other through the placeholder class.
-/
namespace Bytelink

/-- Assembler source in which every reference is resolved. -/
structure Program where
  text : Text
  deriving DecidableEq, Repr

/-- The text of a program before the class has its name. -/
def unnamedText (template : Template) (fragments : List Fragment) (segment : Segment) : Text :=
  template.text ++ fragments.flatMap fun f => segment.substitute f.body

/-- The second pass, against a complete segment. -/
def link (template : Template) (className : Text) (fragments : List Fragment)
    (segment : Segment) : Program :=
  ⟨nameClass className (unnamedText template fragments segment)⟩

/-- Both passes. -/
def linkFragments (template : Template) (className : Text) (fragments : List Fragment) :
    Except DataError (Segment × Program) :=
  match Segment.ofFragments .standard fragments with
  | .error e => .error e
  | .ok segment => .ok (segment, link template className fragments segment)

end Bytelink
