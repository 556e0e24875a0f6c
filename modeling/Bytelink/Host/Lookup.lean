import Bytelink.Host.Path
import Bytelink.Host.Volume
import Bytelink.Text.Utf8

/-!
# Looking up paths

A path is followed from a directory, piece by piece. Symbolic links are followed, at most
`linkLimit` of them; whether that goes for a link at the end depends on what the path is looked up
for. What is to be made or removed has its last name looked up by those who make or remove it.
-/
namespace Bytelink

/-- What a path is looked up for. -/
inductive Aim
  /-- What stands there, links followed. -/
  | target
  /-- What stands there, be it a link; a slash behind the link leads on. -/
  | entry
  /-- A name in a directory, whatever it stands for. -/
  | name
  /-- A file that is opened or made. -/
  | opening
  deriving DecidableEq, Repr

/-- The last piece of a path. -/
inductive Last
  | name (text : Text)
  | here
  | above
  | root
  deriving DecidableEq, Repr

/-- Where a path leads: the directory in which its last name stands, or which it means itself. -/
structure Goal where
  directory : NodeId
  last : Last
  /-- Whether there is a slash behind the last name. -/
  hasSlash : Bool
  deriving DecidableEq, Repr

namespace Volume

/-- How many symbolic links one path may lead through. -/
def linkLimit : Nat := 40

/-- The longest file name, in bytes. -/
def nameLimit : Nat := 255

/-- The longest path that can be looked up, in bytes. -/
def pathLimit : Nat := 4095

def pieces (path : Text) : List Text := (Text.splitOn '/' path).filter (!·.isEmpty)

/-- Follows the pieces of a path from a directory; `hasSlash` says whether a slash stands behind the
last of them. Piece by piece the path gets shorter, and a link, which may make it longer, uses up
one of the links that are left. -/
def walk (v : Volume) (aim : Aim) (links : Nat) (here : NodeId) (hasSlash : Bool) :
    List Text → Except SystemError Goal
  | [] => .ok ⟨here, .root, hasSlash⟩
  | piece :: rest =>
      if !(v.node here).grants .search then .error .permissionDenied
      else if piece = ['.'] then
        if rest.isEmpty then .ok ⟨here, .here, hasSlash⟩
        else v.walk aim links here hasSlash rest
      else if piece = ['.', '.'] then
        if rest.isEmpty then .ok ⟨v.above here, .above, hasSlash⟩
        else v.walk aim links (v.above here) hasSlash rest
      else if nameLimit < (Utf8.encode piece).length then .error .nameTooLong
      else if rest.isEmpty && (aim == .name || aim == .opening && hasSlash) then
        .ok ⟨here, .name piece, hasSlash⟩
      else match v.child? here piece with
        | none => if rest.isEmpty then .ok ⟨here, .name piece, hasSlash⟩ else .error .notFound
        | some next => match (v.node next).content with
          | .directory _ _ =>
              if rest.isEmpty then .ok ⟨here, .name piece, hasSlash⟩
              else v.walk aim links next hasSlash rest
          | .link target =>
              if rest.isEmpty && aim == .entry && !hasSlash then
                .ok ⟨here, .name piece, hasSlash⟩
              else match links with
                | 0 => .error .tooManyLinks
                | links + 1 =>
                    let start := if target.head? = some '/' then root else here
                    let endsInSlash := target.getLast? = some '/'
                    v.walk aim links start (hasSlash || rest.isEmpty && endsInSlash)
                      (pieces target ++ rest)
          | _ => if rest.isEmpty then .ok ⟨here, .name piece, hasSlash⟩ else .error .notADirectory
termination_by pieces => (links, pieces.length)

def goal (v : Volume) (aim : Aim) (directory : NodeId) (path : Path) : Except SystemError Goal :=
  if path.text.isEmpty then .error .notFound
  else if '\x00' ∈ path.text then
    .error (.described "file name contained an unexpected NUL byte")
  else if pathLimit < (Utf8.encode path.text).length then .error .nameTooLong
  else
    v.walk aim linkLimit (if path.isAbsolute then root else directory) path.endsInSlash
      (pieces path.text)

/-- The node at the end of a path. -/
def nodeAt (v : Volume) (goal : Goal) : Except SystemError NodeId :=
  match goal.last with
  | .name name => match v.child? goal.directory name with
    | none => .error .notFound
    | some n =>
        if goal.hasSlash && !(v.node n).isDirectory then .error .notADirectory else .ok n
  | _ => .ok goal.directory

def findFor (v : Volume) (aim : Aim) (directory : NodeId) (path : Path) :
    Except SystemError NodeId := do
  v.nodeAt (← v.goal aim directory path)

/-- The node that a path leads to, links followed. -/
def find (v : Volume) (directory : NodeId) (path : Path) : Except SystemError NodeId :=
  v.findFor .target directory path

/-- The node that a path leads to; a link at the end is not followed. -/
def findEntry (v : Volume) (directory : NodeId) (path : Path) : Except SystemError NodeId :=
  v.findFor .entry directory path

/-- Whether there is something at the end of a path of which a condition holds. -/
def anyAt (v : Volume) (directory : NodeId) (path : Path) (isMeant : Inode → Bool) : Bool :=
  match v.find directory path with
  | .ok n => isMeant (v.node n)
  | .error _ => false

def isDirectory (v : Volume) (directory : NodeId) (path : Path) : Bool :=
  v.anyAt directory path Inode.isDirectory

def isFile (v : Volume) (directory : NodeId) (path : Path) : Bool :=
  v.anyAt directory path Inode.isFile

def entryNames (v : Volume) (directory : NodeId) (path : Path) :
    Except SystemError (List Text) := do
  let n ← v.find directory path
  let node := v.node n
  if !node.isDirectory then throw .notADirectory
  else if !node.grants .read then throw .permissionDenied
  else pure ((v.entries n).map (·.1))

end Volume
end Bytelink
