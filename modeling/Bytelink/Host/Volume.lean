import Bytelink.Host.SystemError
import Bytelink.Text.Basic

/-!
# Volumes

A file system as a value: nodes by number, and directories that give names to nodes. A node may have
several names, or none any more, and whoever knows its number still gets to it. A directory knows
the directory above it, so the path of a directory can be told from its number. Every node says what
its owner and what everybody else may do with it.
-/
namespace Bytelink

abbrev NodeId := Nat

inductive Content
  /-- The directory above, and the names in the order of their making. -/
  | directory (above : NodeId) (entries : List (Text × NodeId))
  | file (bytes : Array UInt8)
  | link (target : Text)
  /-- A pipe with a name. -/
  | queue
  /-- A file that repeats these bytes to a reader for ever. It swallows what is written unless it is
  always full. -/
  | device (cycle : Bytes) (isFull : Bool)
  deriving DecidableEq, Repr

structure Inode where
  content : Content
  /-- Three groups of three bits, for the owner, the group and everybody else, and above them three
  bits that have no effect here. -/
  mode : Nat
  /-- Whether the node belongs to the user as whom everything runs. -/
  isOwn : Bool
  /-- When the content was changed last. -/
  modified : Int
  deriving DecidableEq, Repr

instance : Inhabited Inode := ⟨⟨.file #[], 0, false, 0⟩⟩

/-- What may be done with a node; searching a directory and running a file are one. -/
inductive Right
  | read
  | write
  | search
  deriving DecidableEq, Repr

namespace Inode

/-- What stands for a node that is not there: nobody may do anything with it. -/
def missing : Inode := ⟨.device [] true, 0, false, 0⟩

/-- Whether the user has a right. -/
def grants (n : Inode) (right : Right) : Bool :=
  let group := if n.isOwn then n.mode / 64 else n.mode
  match right with
  | .read => group / 4 % 2 == 1
  | .write => group / 2 % 2 == 1
  | .search => group % 2 == 1

def isDirectory (n : Inode) : Bool := n.content matches .directory _ _

def isFile (n : Inode) : Bool := n.content matches .file _

def isQueue (n : Inode) : Bool := n.content matches .queue

def isDevice (n : Inode) : Bool := n.content matches .device _ _

def isLink (n : Inode) : Bool := n.content matches .link _

/-- Whether the user may work in a directory, or why not. -/
def entrance (n : Inode) : Except SystemError Unit :=
  if !n.isDirectory then .error .notADirectory
  else if !n.grants .search then .error .permissionDenied
  else .ok ()

/-- Whether anybody may run the file. -/
def isExecutable (n : Inode) : Bool :=
  n.isFile && (n.mode % 2 == 1 || n.mode / 8 % 2 == 1 || n.mode / 64 % 2 == 1)

def bytes (n : Inode) : Array UInt8 :=
  match n.content with
  | .file bytes => bytes
  | _ => #[]

end Inode

structure Volume where
  nodes : Array Inode
  /-- The time that changes are marked with. -/
  time : Nat
  deriving DecidableEq, Repr

namespace Volume

/-- The number of the topmost directory. -/
def root : NodeId := 0

/-- A volume with nothing but a directory of somebody else. -/
def empty : Volume := ⟨#[⟨.directory root [], 0o755, false, 0⟩], 0⟩

def node (v : Volume) (n : NodeId) : Inode := v.nodes.getD n .missing

def update (v : Volume) (n : NodeId) (f : Inode → Inode) : Volume :=
  { v with nodes := v.nodes.modify n f }

def add (v : Volume) (n : Inode) : NodeId × Volume :=
  (v.nodes.size, { v with nodes := v.nodes.push n })

/-- The names in a directory. -/
def entries (v : Volume) (directory : NodeId) : List (Text × NodeId) :=
  match (v.node directory).content with
  | .directory _ entries => entries
  | _ => []

def above (v : Volume) (directory : NodeId) : NodeId :=
  match (v.node directory).content with
  | .directory above _ => above
  | _ => directory

def child? (v : Volume) (directory : NodeId) (name : Text) : Option NodeId :=
  (v.entries directory).lookup name

def name? (v : Volume) (directory : NodeId) : Option Text :=
  ((v.entries (v.above directory)).find? (·.2 == directory)).map (·.1)

def isRemoved (v : Volume) (directory : NodeId) : Bool :=
  directory != root && (v.name? directory).isNone

/-- The names that lead from the top to a directory. -/
def steps? (v : Volume) (directory : NodeId) : Option (List Text) :=
  go v.nodes.size directory []
where
  go : Nat → NodeId → List Text → Option (List Text)
    | fuel, n, below =>
        if n = root then some below
        else match fuel, v.name? n with
          | fuel + 1, some name => go fuel (v.above n) (name :: below)
          | _, _ => none

def path? (v : Volume) (directory : NodeId) : Option Text :=
  (v.steps? directory).map fun steps =>
    if steps.isEmpty then ['/'] else steps.flatMap ('/' :: ·)

/-- Whether a directory is another, or above it. -/
def holds (v : Volume) (outer inner : NodeId) : Bool := go v.nodes.size inner
where
  go : Nat → NodeId → Bool
    | 0, n => n == outer
    | fuel + 1, n => n == outer || (n != root && go fuel (v.above n))

/-- Changes the names in a directory. -/
def rename (v : Volume) (directory : NodeId)
    (f : List (Text × NodeId) → List (Text × NodeId)) : Volume :=
  let time := v.time
  v.update directory fun n => match n.content with
    | .directory above entries =>
        { n with content := .directory above (f entries), modified := time }
    | _ => n

def addName (v : Volume) (directory : NodeId) (name : Text) (n : NodeId) : Volume :=
  v.rename directory (· ++ [(name, n)])

/-- Takes a name away. -/
def dropName (v : Volume) (directory : NodeId) (name : Text) : Volume :=
  v.rename directory (·.filter (·.1 ≠ name))

/-- Makes a name stand for another node. -/
def setName (v : Volume) (directory : NodeId) (name : Text) (n : NodeId) : Volume :=
  if (v.child? directory name).isSome then
    v.rename directory (·.map fun e => if e.1 = name then (name, n) else e)
  else v.addName directory name n

/-- How many names a node has. -/
def nameCount (v : Volume) (n : NodeId) : Nat :=
  v.nodes.foldl (fun count d => match d.content with
    | .directory _ entries => count + entries.countP (·.2 == n)
    | _ => count) 0

/-- Makes a node of one's own in a directory. -/
def put (v : Volume) (directory : NodeId) (name : Text) (content : Content) (mode : Nat) :
    NodeId × Volume :=
  let (n, v) := v.add ⟨content, mode, true, v.time⟩
  (n, v.addName directory name n)

/-- Makes an empty directory. -/
def putDirectory (v : Volume) (directory : NodeId) (name : Text) (mode : Nat) : NodeId × Volume :=
  v.put directory name (.directory directory []) mode

def setMode (v : Volume) (n : NodeId) (mode : Nat) : Volume :=
  v.update n fun node => { node with mode := mode }

def setModified (v : Volume) (n : NodeId) (time : Int) : Volume :=
  v.update n fun node => { node with modified := time }

def setBytes (v : Volume) (n : NodeId) (f : Array UInt8 → Array UInt8) : Volume :=
  let time := v.time
  v.update n fun node => match node with
    | ⟨.file bytes, mode, isOwn, _⟩ => ⟨.file (f bytes), mode, isOwn, time⟩
    | node => node

/-- Everything below a directory with the names that lead there, a directory before what it
holds, and names in a given order. -/
def below (v : Volume) (order : List (Text × NodeId) → List (Text × NodeId)) (directory : NodeId) :
    List (List Text × NodeId) :=
  go v.nodes.size [] directory
where
  go : Nat → List Text → NodeId → List (List Text × NodeId)
    | 0, _, _ => []
    | fuel + 1, steps, n => (order (v.entries n)).flatMap fun e =>
        (steps ++ [e.1], e.2) :: go fuel (steps ++ [e.1]) e.2

end Volume
end Bytelink
