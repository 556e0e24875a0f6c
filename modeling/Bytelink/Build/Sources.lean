import Bytelink.Build.Tool
import Bytelink.Text.Search

/-!
# Source discovery

The sources of a directory are its regular files, links followed, whose names end in `.c`, in the
order of their names. Directories below it are not searched, and the order in which the directory
lists its entries does not matter.
-/
namespace Bytelink

namespace Sources

def isSourceName (name : Text) : Bool := (Text.stripEnd ['.', 'c'] name).isSome

/-- Of several names in a directory, those of regular files. -/
def keepFiles (directory : Path) : List Text → Plan (List Text)
  | [] => pure []
  | name :: rest => do
      let isFile ← Plan.isFile (directory.join ⟨name⟩)
      let kept ← keepFiles directory rest
      pure (if isFile then name :: kept else kept)

def discover (directory : Path) : Plan (Except SystemError (List Path)) := do
  match ← Plan.entryNames directory with
  | .error e => pure (.error e)
  | .ok names =>
      let files ← keepFiles directory (names.filter isSourceName)
      pure (.ok ((files.mergeSort Text.le).map fun name => directory.join ⟨name⟩))

end Sources
end Bytelink
