import Bytelink.Host.Lookup

/-!
# Changing a volume

Making, removing and moving what stands under a path. Each change either is made as a whole or fails
and leaves the volume alone. A name can only be made or taken away in a directory that the user may
write to.
-/
namespace Bytelink

namespace Volume

/-- Whether the user may change the names in a directory. -/
def mayWrite (v : Volume) (directory : NodeId) : Except SystemError Unit :=
  let d := v.node directory
  if !d.grants .write || !d.grants .search then .error .permissionDenied else .ok ()

/-- Whether the user may make names in a directory, which has to have a name itself. -/
def mayChange (v : Volume) (directory : NodeId) : Except SystemError Unit :=
  if v.isRemoved directory then .error .notFound else v.mayWrite directory

/-- Whether the user may take away a name that stands for a node. In a directory whose names are
guarded only one's own can be taken away. -/
def mayDrop (v : Volume) (directory n : NodeId) : Except SystemError Unit := do
  v.mayWrite directory
  let d := v.node directory
  if d.mode / 512 % 2 = 1 ∧ !d.isOwn ∧ !(v.node n).isOwn then throw .notPermitted

/-- The place of a name that is to be made; it must not be there yet. Only a directory may have a
slash behind its name. -/
def newPlace (v : Volume) (isForDirectory : Bool) (here : NodeId) (path : Path) :
    Except SystemError (NodeId × Text) := do
  let goal ← v.goal .name here path
  match goal.last with
  | .name name =>
      if v.isRemoved goal.directory then throw .notFound
      else if (v.child? goal.directory name).isSome then throw .alreadyExists
      else if goal.hasSlash && !isForDirectory then throw .notFound
      else
        v.mayChange goal.directory
        pure (goal.directory, name)
  | _ => throw .alreadyExists

def makeDirectory (v : Volume) (here : NodeId) (path : Path) (mode : Nat) :
    Except SystemError Volume := do
  let (directory, name) ← v.newPlace true here path
  pure (v.putDirectory directory name mode).2

/-- Makes something that is not a directory. -/
def make (v : Volume) (here : NodeId) (path : Path) (content : Content) (mode : Nat) :
    Except SystemError Volume := do
  let (directory, name) ← v.newPlace false here path
  pure (v.put directory name content mode).2

/-- Makes a symbolic link. -/
def makeLink (v : Volume) (here : NodeId) (path : Path) (target : Text) :
    Except SystemError Volume :=
  if target.isEmpty then .error .notFound
  else if pathLimit < (Utf8.encode target).length then .error .nameTooLong
  else v.make here path (.link target) 0o777

/-- Gives what stands under a path one more name. -/
def addLink (v : Volume) (aim : Aim) (here : NodeId) (source path : Path) :
    Except SystemError Volume := do
  let n ← v.findFor aim here source
  let (directory, name) ← v.newPlace false here path
  if (v.node n).isDirectory then throw .notPermitted
  else if !(v.node n).isOwn then throw .notPermitted
  else pure (v.addName directory name n)

def removeFile (v : Volume) (here : NodeId) (path : Path) : Except SystemError Volume := do
  let goal ← v.goal .name here path
  match goal.last with
  | .name name => match v.child? goal.directory name with
    | none => throw .notFound
    | some n =>
        if goal.hasSlash then
          throw (if (v.node n).isDirectory then .isADirectory else .notADirectory)
        else
          v.mayDrop goal.directory n
          if (v.node n).isDirectory then throw .isADirectory
          else pure (v.dropName goal.directory name)
  | _ => throw .isADirectory

def removeDirectory (v : Volume) (here : NodeId) (path : Path) : Except SystemError Volume := do
  let goal ← v.goal .name here path
  match goal.last with
  | .name name => match v.child? goal.directory name with
    | none => throw .notFound
    | some n =>
        v.mayDrop goal.directory n
        if !(v.node n).isDirectory then throw .notADirectory
        else if !(v.entries n).isEmpty then throw .notEmpty
        else pure (v.dropName goal.directory name)
  | .here => throw .invalidArgument
  | .above => throw .notEmpty
  | .root => throw .busy

/-- Gives a name to what has another name so far; what stood under the name before is gone. -/
def move (v : Volume) (here : NodeId) (source target : Path) : Except SystemError Volume := do
  let old ← v.goal .name here source
  let new ← v.goal .name here target
  match old.last, new.last with
  | .name oldName, .name newName => match v.child? old.directory oldName with
    | none => throw .notFound
    | some n =>
        let isDirectory := (v.node n).isDirectory
        if !isDirectory && (old.hasSlash || new.hasSlash) then throw .notADirectory
        else if isDirectory && v.holds n new.directory then throw .invalidArgument
        else
          let present? := v.child? new.directory newName
          if present? = some n then pure v
          else
            v.mayDrop old.directory n
            match present? with
            | none => v.mayChange new.directory
            | some present =>
                v.mayDrop new.directory present
                if isDirectory && !(v.node present).isDirectory then throw .notADirectory
                else if !isDirectory && (v.node present).isDirectory then throw .isADirectory
                else if !(v.entries present).isEmpty then throw .notEmpty
            if isDirectory && old.directory != new.directory && !(v.node n).grants .write then
              throw .permissionDenied
            let v := (v.dropName old.directory oldName).setName new.directory newName n
            pure (if isDirectory then v.update n fun node => match node.content with
              | .directory _ entries => { node with content := .directory new.directory entries }
              | _ => node
            else v)
  | _, _ => throw .busy

def changeMode (v : Volume) (here : NodeId) (path : Path) (f : Inode → Nat) :
    Except SystemError Volume := do
  let n ← v.find here path
  if (v.node n).isOwn then pure (v.setMode n (f (v.node n))) else throw .notPermitted

def withoutSlashes (path : Path) : Path :=
  let bare := (path.text.reverse.dropWhile (· == '/')).reverse
  if bare.isEmpty then path else ⟨bare⟩

/-- The path of the directory above, as far as the path itself names it. -/
def parentPath (path : Path) : Option Path :=
  let bare := (withoutSlashes path).text
  match (bare.reverse.dropWhile (· != '/')).reverse with
  | [] => if bare.isEmpty then none else some ⟨[]⟩
  | above => if above = bare then none else some (withoutSlashes ⟨above⟩)

/-- Makes a directory and, where they are missing, at most `depth` directories above it. Those that
were made stay, even if the last step fails. -/
def makeDirectoriesUp (v : Volume) (here : NodeId) (mode : Nat) :
    Nat → Path → Volume × Except SystemError Unit
  | 0, _ => (v, .error .notFound)
  | depth + 1, path =>
      let settle (v : Volume) (e : SystemError) : Volume × Except SystemError Unit :=
        (v, if v.isDirectory here path then .ok () else .error e)
      if path.text.isEmpty then (v, .ok ())
      else match v.makeDirectory here path mode with
        | .ok v => (v, .ok ())
        | .error e =>
            if e = .notFound then
              match parentPath path with
              | none => (v, .error e)
              | some parent =>
                  match v.makeDirectoriesUp here mode depth parent with
                  | (v, .error e) => (v, .error e)
                  | (v, .ok ()) => match v.makeDirectory here path mode with
                    | .ok v => (v, .ok ())
                    | .error e => settle v e
            else settle v e

/-- Makes a directory and the missing directories above it. -/
def makeDirectories (v : Volume) (here : NodeId) (path : Path) (mode : Nat) :
    Volume × Except SystemError Unit :=
  v.makeDirectoriesUp here mode (path.text.length + 1) path

/-- Takes everything below a directory away. -/
def clear (v : Volume) (directory : NodeId) : Volume :=
  (directory :: (v.below id directory).map (·.2)).foldl (fun v n => v.rename n fun _ => []) v

end Volume
end Bytelink
