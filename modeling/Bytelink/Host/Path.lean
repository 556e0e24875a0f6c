import Bytelink.Host.SystemError

/-!
# Paths

A path is a text and is kept as it was given: two spellings of one file are two paths. Its
components are what stands between slashes, where empty pieces and inner periods do not count.
Joining is on texts; `absolute` is the only operation that tidies a path, and it leaves parent
components alone.
-/
namespace Bytelink

structure Path where
  text : Text
  deriving DecidableEq, Repr

/-- One step of a path. -/
inductive Component
  | root
  | current
  | parent
  | name (text : Text)
  deriving DecidableEq, Repr

/-- The step that a piece between slashes stands for; empty pieces and single periods are none. -/
def Component.ofPiece? : Text → Option Component
  | [] => none
  | ['.'] => none
  | ['.', '.'] => some .parent
  | piece => some (.name piece)

/-- The spelling of a step below a directory. -/
def Component.text? : Component → Option Text
  | .root => none
  | .current => none
  | .parent => some ['.', '.']
  | .name text => some text

namespace Path

def isAbsolute (p : Path) : Bool := p.text.head? == some '/'

def endsInSlash (p : Path) : Bool := p.text.getLast? == some '/'

/-- The steps of a path. A leading slash is a step, and so is a leading period. -/
def components (p : Path) : List Component :=
  match Text.splitOn '/' p.text with
  | [] => []
  | first :: rest =>
      let below := rest.filterMap Component.ofPiece?
      if first.isEmpty then if rest.isEmpty then [] else .root :: below
      else if first = ['.'] then .current :: below
      else (Component.ofPiece? first).toList ++ below

def fileName? (p : Path) : Option Text :=
  match p.components.getLast? with
  | some (.name text) => some text
  | _ => none

/-- `q` seen from `p`: an absolute path stands for itself, any other is written behind a slash. -/
def join (p q : Path) : Path :=
  if q.isAbsolute then q
  else if p.text.isEmpty || p.endsInSlash then ⟨p.text ++ q.text⟩
  else ⟨p.text ++ '/' :: q.text⟩

/-- The text of a path before the first name: the directory it starts from when it is relative, and
otherwise one slash, or two when the path begins with exactly two. -/
def start (directory p : Path) : Path :=
  if p.isAbsolute then
    if (['/', '/'] : Text).isPrefixOf p.text && !(['/', '/', '/'] : Text).isPrefixOf p.text then
      ⟨['/', '/']⟩
    else ⟨['/']⟩
  else directory

/-- The path from the root, for a path that is relative to `directory`. A slash at the end stays. -/
def absolute (p directory : Path) : Except SystemError Path :=
  if p.text.isEmpty then .error .emptyPath
  else
    let full := (p.components.filterMap Component.text?).foldl (fun q t => q.join ⟨t⟩)
      (start directory p)
    .ok (if p.endsInSlash then full.join ⟨[]⟩ else full)

end Path

/-- A file name divided at its last period; a period at the front divides nothing. -/
def splitExtension (name : Text) : Text × Option Text :=
  if name = ['.', '.'] then (name, none)
  else
    let reversed := name.reverse
    let stem := ((reversed.dropWhile (· != '.')).drop 1).reverse
    if '.' ∈ name ∧ stem ≠ [] then (stem, some (reversed.takeWhile (· != '.')).reverse)
    else (name, none)

/-- A file name with another extension. A name without one gains it, and a name that stands for a
directory keeps its spelling, as does one that stands for a directory once its extension is gone. -/
def withExtension (name extension : Text) : Text :=
  let named (stem : Text) : Text :=
    if extension.isEmpty then stem else stem ++ '.' :: extension
  match splitExtension name with
  | (stem, some _) => if stem = ['.'] then ['.', '.'] else named stem
  | (name, none) =>
      if name = [] ∨ name = ['.'] ∨ name = ['.', '.'] then name else named name

/-- The name of the file derived from a source: the source's own name with another extension, and
nothing when the source has no file name. -/
def intermediateName (source : Path) (extension : Text) : Text :=
  match source.fileName? with
  | some name => withExtension name extension
  | none => []

end Bytelink
