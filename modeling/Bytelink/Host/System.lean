import Bytelink.Host.Capture
import Bytelink.Host.Change
import Bytelink.Host.ExitStatus
import Bytelink.Host.Pipe

/-!
# The state of an operating system

Files, open files, pipes and the table of processes, as one value with a clock. A process refers to
an open file by a descriptor; several descriptors, also of several processes, may lead to the same
one and then share its position. An open file or pipe that no descriptor leads to any more is gone:
a reader of a pipe learns from this that nothing more will come, and a writer that nobody reads. A
pipe with a name comes into being when it is opened; who opens one end waits for the other.
-/
namespace Bytelink

/-- What an open file is open on. -/
inductive Endpoint
  /-- The output that is gathered for whoever started a program. -/
  | console (number : Nat) (outlet : Outlet)
  | device (cycle : Bytes) (isFull : Bool)
  | file (node : NodeId)
  | directory (node : NodeId)
  | reader (pipe : Nat)
  | writer (pipe : Nat)
  /-- Both ends of a pipe. -/
  | both (pipe : Nat)
  deriving DecidableEq, Repr

structure Opening where
  endpoint : Endpoint
  position : Nat
  /-- Whether every write goes to the end of the file. -/
  appends : Bool
  isReadable : Bool
  isWritable : Bool
  deriving DecidableEq, Repr

structure Descriptor where
  opening : Nat
  /-- Whether a program that takes the place of the process goes without it. -/
  closesOnExec : Bool
  deriving DecidableEq, Repr

inductive Condition
  | running
  | stopped
  | ended (status : ExitStatus)
  deriving DecidableEq, Repr

/-- An entry of the process table. -/
structure Member where
  parent : Nat
  descriptors : List (Nat × Descriptor)
  condition : Condition
  /-- Signals that the process handles itself, and those that it ignores. -/
  caught : List Nat
  ignored : List Nat
  /-- Signals that have arrived and are not yet handled, in the order of their arrival. -/
  arrived : List Nat
  deriving DecidableEq, Repr

/-- An open pipe that has a name, and how often each end has been opened. -/
structure Queue where
  node : NodeId
  pipe : Nat
  readings : Nat
  writings : Nat
  deriving DecidableEq, Repr

structure System where
  volume : Volume
  /-- Nanoseconds since the beginning. -/
  clock : Nat
  openings : List (Nat × Opening)
  pipes : List (Nat × Pipe)
  queues : List Queue
  members : List (Nat × Member)
  intakes : List (Nat × Intake)
  nextOpening : Nat
  nextPipe : Nat
  nextMember : Nat
  deriving DecidableEq, Repr

/-- How a file is to be opened. Except for reading and overwriting, a file that is not there is
made. -/
inductive Access
  | reading
  | writing
  /-- Like `writing`, and meant even where a file that is there should be kept. -/
  | replacing
  /-- Like `writing`, for a file that has to be there. -/
  | overwriting
  /-- For writing into what is there. -/
  | updating
  /-- For writing a file that must not be there. -/
  | making
  | appending
  | both
  deriving DecidableEq, Repr

namespace Access

def reads (a : Access) : Bool := a == .reading || a == .both

def writes (a : Access) : Bool := a != .reading

def creates (a : Access) : Bool := a != .reading && a != .overwriting

def empties (a : Access) : Bool := a == .writing || a == .replacing || a == .overwriting

def opening (a : Access) (e : Endpoint) : Opening :=
  ⟨e, 0, a == .appending, a.reads, a.writes⟩

end Access

/-- How far a read or a write comes at once. -/
inductive Transfer
  | done (bytes : Bytes)
  | waiting
  /-- Nobody will ever read what is written. -/
  | broken
  | failed (reason : SystemError)
  deriving DecidableEq, Repr

namespace System

/-- The number of the first process. -/
def firstMember : Nat := 4711

def new (volume : Volume) : System where
  volume := volume
  clock := 0
  openings := []
  pipes := []
  queues := []
  members := []
  intakes := []
  nextOpening := 0
  nextPipe := 0
  nextMember := firstMember

/-- The steps in which files learn what time it is, in nanoseconds. -/
def tick : Nat := 4000000

/-- Sets the clock forward. -/
def atTime (s : System) (time : Nat) : System :=
  let clock := max s.clock time
  { s with clock := clock, volume := { s.volume with time := clock / tick * tick } }

def member? (s : System) (pid : Nat) : Option Member := s.members.lookup pid

def updateMember (s : System) (pid : Nat) (f : Member → Member) : System :=
  { s with members := s.members.map fun m => if m.1 = pid then (pid, f m.2) else m }

def descriptors (s : System) (pid : Nat) : List (Nat × Descriptor) :=
  match s.member? pid with
  | some m => m.descriptors
  | none => []

def descriptor? (s : System) (pid number : Nat) : Option Descriptor :=
  (s.descriptors pid).lookup number

def opening? (s : System) (pid number : Nat) : Option Opening := do
  let d ← s.descriptor? pid number
  s.openings.lookup d.opening

/-- What a descriptor leads to. -/
def endpoint? (s : System) (pid number : Nat) : Option Endpoint :=
  (s.opening? pid number).map fun o => o.endpoint

/-- Gives up open files, and the pipes that nothing else is open on. -/
def discard (s : System) (gone : List Nat) : System :=
  let openings := s.openings.filter fun o => !gone.contains o.1
  let isUsed (pipe : Nat) : Bool := openings.any fun o =>
    o.2.endpoint = .reader pipe || o.2.endpoint = .writer pipe || o.2.endpoint = .both pipe
  { s with
    openings := openings
    pipes := s.pipes.filter fun p => isUsed p.1
    queues := s.queues.filter fun q => isUsed q.pipe }

/-- Gives up those of some open files to which no descriptor leads. The youngest processes are asked
first: what one of them lets go is mostly still open in its parent. -/
def release (s : System) (openings : List Nat) : System :=
  let members := s.members.reverse
  let gone := openings.filter fun number =>
    members.all fun m => m.2.descriptors.all fun d => d.2.opening != number
  if gone.isEmpty then s else s.discard gone

/-- Gives a process other descriptors. -/
def withDescriptors (s : System) (pid : Nat) (descriptors : List (Nat × Descriptor)) : System :=
  let before := (s.descriptors pid).map (·.2.opening)
  let kept := descriptors.map (·.2.opening)
  (s.updateMember pid fun m => { m with descriptors := descriptors }).release
    (before.filter fun number => !kept.contains number)

/-- Makes descriptors lead to open files. -/
def placeAll (s : System) (pid : Nat) (placed : List (Nat × Descriptor)) : System :=
  s.withDescriptors pid
    (placed ++ (s.descriptors pid).filter fun d => placed.all (·.1 ≠ d.1))

def place (s : System) (pid number : Nat) (descriptor : Descriptor) : System :=
  s.placeAll pid [(number, descriptor)]

def close (s : System) (pid number : Nat) : System :=
  s.withDescriptors pid ((s.descriptors pid).filter (·.1 ≠ number))

def freeDescriptor (s : System) (pid least : Nat) : Nat :=
  let used := (s.descriptors pid).map (·.1)
  ((List.range (used.length + 1)).map (least + ·)).find? (!used.contains ·) |>.getD least

def addOpening (s : System) (o : Opening) : Nat × System :=
  (s.nextOpening,
    { s with openings := (s.nextOpening, o) :: s.openings, nextOpening := s.nextOpening + 1 })

def updateOpening (s : System) (number : Nat) (f : Opening → Opening) : System :=
  { s with openings := s.openings.map fun o => if o.1 = number then (number, f o.2) else o }

/-- A new pipe, open at both ends: the numbers of the end to read from and of the end to write
to. -/
def openPipe (s : System) (content : Bytes) : Nat × Nat × System :=
  let pipe := s.nextPipe
  let s := { s with
    pipes := (pipe, Pipe.empty.push content) :: s.pipes, nextPipe := pipe + 1 }
  let (reader, s) := s.addOpening ⟨.reader pipe, 0, false, true, false⟩
  let (writer, s) := s.addOpening ⟨.writer pipe, 0, false, false, true⟩
  (reader, writer, s)

def descriptorPath? (path : Path) : Option Nat :=
  match String.ofList path.text with
  | "/dev/stdin" => some 0
  | "/dev/stdout" => some 1
  | "/dev/stderr" => some 2
  | _ =>
      let digits := path.text.drop "/dev/fd/".length
      if ("/dev/fd/" : Text).isPrefixOf path.text then Text.natural? digits else none

def hasWriter (s : System) (pipe : Nat) : Bool :=
  s.openings.any fun o => o.2.endpoint = .writer pipe || o.2.endpoint = .both pipe

def hasReader (s : System) (pipe : Nat) : Bool :=
  s.openings.any fun o => o.2.endpoint = .reader pipe || o.2.endpoint = .both pipe

def isBusy (s : System) (n : NodeId) : Bool :=
  s.openings.any fun o => o.2.isWritable && o.2.endpoint = .file n

/-- What the opener of one end of a pipe with a name waits for: the other end is open, or has been
opened since. -/
structure Meeting where
  pipe : Nat
  isReader : Bool
  /-- How often the other end had been opened before. -/
  seen : Nat
  deriving DecidableEq, Repr

def isMet (s : System) (m : Meeting) : Bool :=
  let hasOther := if m.isReader then s.hasWriter m.pipe else s.hasReader m.pipe
  hasOther || (s.queues.find? (·.pipe == m.pipe)).all fun q =>
    (if m.isReader then q.writings else q.readings) != m.seen

/-- A file that has been opened, and what the opener still has to wait for. -/
structure Opened where
  opening : Nat
  meeting? : Option Meeting

/-- The pipe behind a node, which comes into being when it is first opened. -/
def queueAt (s : System) (n : NodeId) : Queue × System :=
  match s.queues.find? (·.node == n) with
  | some q => (q, s)
  | none =>
      let q : Queue := ⟨n, s.nextPipe, 0, 0⟩
      (q, { s with
        pipes := (s.nextPipe, .empty) :: s.pipes, queues := q :: s.queues
        nextPipe := s.nextPipe + 1 })

def openQueue (s : System) (n : NodeId) (access : Access) : Opened × System :=
  let (q, s) := s.queueAt n
  let endpoint : Endpoint := if access = .both then .both q.pipe
    else if access = .reading then .reader q.pipe else .writer q.pipe
  let (opening, s) := s.addOpening (access.opening endpoint)
  let counted (q : Queue) : Queue := { q with
    readings := q.readings + (if access.reads then 1 else 0)
    writings := q.writings + (if access.writes then 1 else 0) }
  let s := { s with queues := s.queues.map fun p => if p.pipe = q.pipe then counted p else p }
  let meeting? := match access with
    | .both => none
    | .reading => some ⟨q.pipe, true, q.writings⟩
    | _ => some ⟨q.pipe, false, q.readings⟩
  (⟨opening, meeting?⟩, s)

def openNode (s : System) (n : NodeId) (access : Access) : Except SystemError (Opened × System) :=
  let node := s.volume.node n
  let plain (r : Nat × System) : Opened × System := (⟨r.1, none⟩, r.2)
  let isRefused :=
    (access.reads && !node.grants .read) || (access.writes && !node.grants .write)
  match node.content with
  | .directory _ _ =>
      if access.writes then .error .isADirectory
      else if isRefused then .error .permissionDenied
      else .ok (plain (s.addOpening (access.opening (.directory n))))
  | content =>
      if isRefused then .error .permissionDenied
      else match content with
        | .queue => .ok (s.openQueue n access)
        | .device cycle isFull => .ok (plain (s.addOpening (access.opening (.device cycle isFull))))
        | .link _ => .error .tooManyLinks
        | _ =>
            let s := if access.empties then { s with volume := s.volume.setBytes n fun _ => #[] }
              else s
            .ok (plain (s.addOpening (access.opening (.file n))))

/-- Opens once more what a descriptor leads to. -/
def openAgain (s : System) (o : Opening) (access : Access) :
    Except SystemError (Opened × System) :=
  let plain (e : Endpoint) : Except SystemError (Opened × System) :=
    let (opening, s) := s.addOpening (access.opening e)
    .ok (⟨opening, none⟩, s)
  let ofPipe (pipe : Nat) : Endpoint := if access = .both then .both pipe
    else if access = .reading then .reader pipe else .writer pipe
  match o.endpoint with
  | .file n => s.openNode n access
  | .directory n => s.openNode n access
  | .reader pipe => plain (ofPipe pipe)
  | .writer pipe => plain (ofPipe pipe)
  | .both pipe => plain (ofPipe pipe)
  | e => plain e

/-- Opens a file for a process, which works in a directory; new files do not grant what the mask
names. -/
def openFile (s : System) (pid : Nat) (directory : NodeId) (mask : Nat) (path : Path)
    (access : Access) : Except SystemError (Opened × System) :=
  match descriptorPath? path with
  | some number => match s.opening? pid number with
    | some o => s.openAgain o access
    | none => .error .notFound
  | none =>
      if access.creates then do
        let aim := if access = .making then Aim.name else .opening
        let goal ← s.volume.goal aim directory path
        match goal.last with
        | .name name =>
            if goal.hasSlash then throw .isADirectory
            match s.volume.child? goal.directory name with
            | some n => if access = .making then throw .alreadyExists else s.openNode n access
            | none =>
                s.volume.mayChange goal.directory
                let (n, volume) :=
                  s.volume.put goal.directory name (.file #[]) (0o666 &&& (0o777 - mask))
                let s := { s with volume := volume }
                let (opening, s) := s.addOpening (access.opening (.file n))
                pure (⟨opening, none⟩, s)
        | _ => throw (if access = .making then .alreadyExists else .isADirectory)
      else do s.openNode (← s.volume.find directory path) access

/-- The bytes of a file. What never ends takes more memory than there is. -/
def fileContent (s : System) (directory : NodeId) (path : Path) : Except SystemError Bytes := do
  let n ← s.volume.find directory path
  let node := s.volume.node n
  if !node.grants .read then throw .permissionDenied
  else match node.content with
    | .file bytes => pure bytes.toList
    | .directory _ _ => throw .isADirectory
    | .device [] _ => pure []
    | .device _ _ => throw (.numbered 12)
    | _ => pure []

/-- Replaces the content of a file, which is made if it is not there. -/
def writeFile (s : System) (directory : NodeId) (mask : Nat) (path : Path) (bytes : Bytes) :
    Except SystemError Unit × System :=
  match s.openFile 0 directory mask path .writing with
  | .error e => (.error e, s)
  | .ok (opened, after) =>
      let endpoint? : Option Endpoint :=
        (after.openings.lookup opened.opening).map fun o => o.endpoint
      let after := after.release [opened.opening]
      match endpoint? with
      | some (.file n) =>
          (.ok (), { after with volume := after.volume.setBytes n fun _ => bytes.toArray })
      | some (.device _ true) => (if bytes.isEmpty then .ok () else .error .noSpace, after)
      | _ => (.ok (), after)

/-- The first `count` bytes of a cycle repeated for ever. -/
def repeated (cycle : Bytes) (count : Nat) : Bytes :=
  match cycle with
  | [] => []
  | [b] => List.replicate count b
  | cycle => (List.replicate (count / cycle.length + 1) cycle).flatten.take count

def pipe (s : System) (number : Nat) : Pipe := (s.pipes.lookup number).getD .empty

def setPipe (s : System) (number : Nat) (p : Pipe) : System :=
  { s with pipes := s.pipes.map fun q => if q.1 = number then (number, p) else q }

/-- How much of what is there is to be read at once. -/
inductive Portion
  | bytes (count : Nat)
  /-- Up to and with the end of a line. -/
  | line
  deriving DecidableEq, Repr

def lineSize : Bytes → Nat → Nat
  | [], size => size
  | b :: rest, size => if b = 0x0A then size + 1 else lineSize rest (size + 1)

def Portion.size (available : Bytes) : Portion → Nat
  | bytes count => count
  | line => lineSize available 0

/-- The place behind the next line end in a file. -/
def lineStop (content : Array UInt8) (start : Nat) : Nat :=
  if h : start < content.size then
    if content[start] = 0x0A then start + 1 else lineStop content (start + 1)
  else content.size
termination_by content.size - start

/-- Where a portion of a file ends. -/
def Portion.stop (content : Array UInt8) (start : Nat) : Portion → Nat
  | bytes count => min content.size (start + count)
  | line => lineStop content start

/-- Reads a portion of what is there; nothing at the end of the file. -/
def readPortion (s : System) (pid number : Nat) (portion : Portion) : Transfer × System :=
  match s.descriptor? pid number, s.opening? pid number with
  | some d, some o =>
      let ofPipe (number : Nat) : Transfer × System :=
        let p := s.pipe number
        if p.isEmpty then
          (if s.hasWriter number then .waiting else .done [], s)
        else
          let p := p.settled
          let (bytes, p) := p.take (portion.size p.front)
          (.done bytes, s.setPipe number p)
      if !o.isReadable then (.failed .badDescriptor, s)
      else match o.endpoint with
        | .console _ _ => (.failed .badDescriptor, s)
        | .writer _ => (.failed .badDescriptor, s)
        | .directory _ => (.failed .isADirectory, s)
        | .device cycle _ => match portion with
          | .bytes count => (.done (repeated cycle count), s)
          | .line => (.done (repeated cycle 1), s)
        | .file n =>
            let content := (s.volume.node n).bytes
            let stop := portion.stop content o.position
            (.done (content.extract o.position stop).toList,
              s.updateOpening d.opening fun o => { o with position := max o.position stop })
        | .reader number => ofPipe number
        | .both number => ofPipe number
  | _, _ => (.failed .badDescriptor, s)

/-- Reads at most `count` bytes; none at the end of the file. -/
def read (s : System) (pid number count : Nat) : Transfer × System :=
  s.readPortion pid number (.bytes count)

/-- The bytes of a file after some have been written at a position. -/
def splice (position : Nat) (bytes : Bytes) (content : Array UInt8) : Array UInt8 :=
  let size := content.size
  if position = size then bytes.foldl Array.push content
  else if size < position then
    bytes.foldl Array.push (content ++ Array.replicate (position - size) 0)
  else
    let rest := content.extract (position + bytes.length) size
    bytes.foldl Array.push (content.extract 0 position) ++ rest

/-- Writes as many bytes as there is room for and returns those that are left. -/
def write (s : System) (pid number : Nat) (bytes : Bytes) : Transfer × System :=
  match s.descriptor? pid number, s.opening? pid number with
  | some d, some o =>
      let ofPipe (number : Nat) : Transfer × System :=
        let p := s.pipe number
        if !s.hasReader number then (.broken, s)
        else if !p.admits bytes.length then (.waiting, s)
        else (.done (bytes.drop p.room), s.setPipe number (p.push (bytes.take p.room)))
      if !o.isWritable then (.failed .badDescriptor, s)
      else match o.endpoint with
        | .console number outlet =>
            (.done [], { s with intakes := s.intakes.map fun c =>
              if c.1 = number then (number, c.2.write outlet bytes) else c })
        | .device _ isFull => (if isFull then .failed .noSpace else .done [], s)
        | .file n =>
            let position := if o.appends then (s.volume.node n).bytes.size else o.position
            let s := s.updateOpening d.opening fun o =>
              { o with position := position + bytes.length }
            (.done [], { s with volume := s.volume.setBytes n (splice position bytes) })
        | .writer number => ofPipe number
        | .both number => ofPipe number
        | _ => (.failed .badDescriptor, s)
  | _, _ => (.failed .badDescriptor, s)

/-- Gives an open file another size: what is behind it is cut off, what is missing is zero. -/
def resize (s : System) (pid number : Nat) (f : Nat → Nat) : System :=
  let resized (bytes : Array UInt8) : Array UInt8 :=
    let size := f bytes.size
    bytes.extract 0 size ++ Array.replicate (size - bytes.size) 0
  match s.endpoint? pid number with
  | some (.file n) => { s with volume := s.volume.setBytes n resized }
  | _ => s

def seek (s : System) (pid number : Nat) (f : Nat → Nat) : System :=
  match s.descriptor? pid number, s.opening? pid number with
  | some d, some o => match o.endpoint with
    | .file _ => s.updateOpening d.opening fun o => { o with position := f o.position }
    | _ => s
  | _, _ => s

/-- Takes back the reading of some bytes, where that is possible. -/
def rewind (s : System) (pid number count : Nat) : System := s.seek pid number (· - count)

/-- Whether a read would not have to wait. -/
def canRead (s : System) (pid number : Nat) : Bool :=
  match s.endpoint? pid number with
  | some (.reader pipe) => !(s.pipe pipe).isEmpty || !s.hasWriter pipe
  | some (.both pipe) => !(s.pipe pipe).isEmpty
  | _ => true

/-- Whether a write, of any size, would not have to wait. -/
def canWrite (s : System) (pid number : Nat) : Bool :=
  match s.endpoint? pid number with
  | some (.writer pipe) => (s.pipe pipe).admits Pipe.page || !s.hasReader pipe
  | some (.both pipe) => (s.pipe pipe).admits Pipe.page
  | _ => true

/-- A new process with the descriptors of its parent. -/
def enter (s : System) (parent : Nat) (descriptors : List (Nat × Descriptor))
    (ignored : List Nat) : Nat × System :=
  let m : Member := ⟨parent, descriptors, .running, [], ignored, []⟩
  (s.nextMember,
    { s with members := s.members ++ [(s.nextMember, m)], nextMember := s.nextMember + 1 })

/-- A copy of a process as a child of it. -/
def fork (s : System) (pid : Nat) : Nat × System :=
  s.enter pid (s.descriptors pid) (((s.member? pid).map (·.ignored)).getD [])

def condition? (s : System) (pid : Nat) : Option Condition := (s.member? pid).map (·.condition)

def isRunning (s : System) (pid : Nat) : Bool := s.condition? pid == some .running

def ending? (s : System) (pid : Nat) : Option ExitStatus :=
  match s.condition? pid with
  | some (.ended status) => some status
  | _ => none

def hasEnded (s : System) (pid : Nat) : Bool := (s.ending? pid).isSome

/-- Ends a process, whose descriptors are closed. -/
def finish (s : System) (pid : Nat) (status : ExitStatus) : System :=
  if s.hasEnded pid then s
  else (s.updateMember pid fun m => { m with condition := .ended status }).withDescriptors pid []

/-- Takes a process out of the table. -/
def forget (s : System) (pid : Nat) : System :=
  { s with members := s.members.filter (·.1 ≠ pid) }

/-- Signals that do nothing to a process that does not ask for them. -/
def ignoredSignals : List Nat := [17, 18, 23, 28]

/-- Signals that stop a process without ending it. -/
def stoppingSignals : List Nat := [19, 20, 21, 22]

/-- Sends a signal to a process, and says whether there is one. -/
def signal (s : System) (pid number : Nat) : Bool × System :=
  match s.member? pid with
  | none => (false, s)
  | some m =>
      let continued := if number = 18 ∧ m.condition = .stopped then
          s.updateMember pid fun m => { m with condition := .running }
        else s
      let after :=
        if number = 0 || s.hasEnded pid then s
        else if number = 9 then s.finish pid (.signalled 9 false)
        else if number = 19 then s.updateMember pid fun m => { m with condition := .stopped }
        else if m.ignored.contains number then continued
        else if m.caught.contains number then
          continued.updateMember pid fun m => { m with arrived := m.arrived ++ [number] }
        else if ignoredSignals.contains number then continued
        else if stoppingSignals.contains number then
          s.updateMember pid fun m => { m with condition := .stopped }
        else s.finish pid (.signalled number false)
      (true, after)

/-- Whether any process can still write to an output that is gathered. -/
def isGathering (s : System) (number : Nat) : Bool :=
  s.openings.any fun o =>
    o.2.endpoint = .console number .standard || o.2.endpoint = .console number .errors

end System
end Bytelink
