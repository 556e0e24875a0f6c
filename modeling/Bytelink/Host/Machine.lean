import Bytelink.Build.Attendance
import Bytelink.Host.Script.Evaluation

/-!
# A simulated machine

Surroundings for a plan that are values throughout: a system with its files, clock and processes,
and what is still to run on it. A program that has been started is looked at every ten milliseconds
if it is under watch. One that is killed leaves the processes it has started running. An alarm sets
a cancel token a fixed time after a file has come into being.
-/
namespace Bytelink

open Script (Image Shell Variable)

/-- A program that has been started. -/
structure Launched where
  run : Run
  pid : Nat
  watch : Watch
  token? : Option Token
  /-- When it was started, in nanoseconds. -/
  started : Nat
  /-- The number of the output that is gathered from it. -/
  console : Nat
  deriving DecidableEq, Repr

structure Machine where
  schedule : Schedule
  directory : NodeId
  /-- What programs find in their surroundings. -/
  bindings : List (Text × Variable)
  programs : List Launched
  launched : Nat
  /-- What has been reported, the newest first. -/
  records : List Record

namespace Machine

/-- The time between two looks at a program. -/
def lookInterval : Nat := 10000000

/-- The time from the start of a program to the first look at it. -/
def firstLook : Nat := 100000

/-- How long it takes to start a program. -/
def launchTime : Nat := 500000

/-- The rights that new files do not get. -/
def usualMask : Nat := 0o022

/-- A volume as somebody else has set it up: directories, the programs in their place, and
devices. -/
def baseVolume : Volume :=
  let own (n : Inode) : Inode := { n with isOwn := false }
  let put (content : Content) (mode : Nat) (v : Volume) (directory : NodeId) (name : String) :
      NodeId × Volume :=
    let (n, v) := v.put directory name content mode
    (n, v.update n own)
  let directory (v : Volume) (above : NodeId) (name : String) : NodeId × Volume :=
    put (.directory above []) 0o755 v above name
  let v := ["etc", "home", "lib", "opt", "proc", "run", "sys", "var"].foldl
    (fun v name => (directory v Volume.root name).2) Volume.empty
  let (_, v) := put (.directory Volume.root []) 0o1777 v Volume.root "tmp"
  let (_, v) := put (.directory Volume.root []) 0o700 v Volume.root "root"
  let (usr, v) := directory v Volume.root "usr"
  let (programs, v) := directory v usr "bin"
  let (site, v) := directory v usr "local"
  let (_, v) := directory v site "bin"
  let (_, v) := directory v usr "sbin"
  let (_, v) := put (.link "usr/bin") 0o777 v Volume.root "bin"
  let (_, v) := put (.link "usr/sbin") 0o777 v Volume.root "sbin"
  let v := Script.Programs.names.foldl (fun v name =>
    (put (.file (Script.nativeContent name)) 0o755 v programs (String.ofList name)).2) v
  let (dev, v) := directory v Volume.root "dev"
  let noise : Bytes := (List.range 1009).map fun n => UInt8.ofNat (n * n % 1009)
  let devices : List (String × Bytes × Bool) :=
    [("null", [], false), ("zero", [0], false), ("full", [0], true), ("random", noise, false),
      ("urandom", noise, false), ("stdin", [], false), ("stdout", [], false),
      ("stderr", [], false)]
  devices.foldl (fun v (name, cycle, isFull) =>
    (put (.device cycle isFull) 0o666 v dev name).2) v

/-- The surroundings of every program. -/
def usualVariables : List (Text × Variable) :=
  let own (name value : Text) : Text × Variable := (name, ⟨some value, true, false⟩)
  [own "PATH" Script.defaultPath, own "HOME" "/root", own "LANG" "C.UTF-8"]

/-- When the user comes to the machine, in nanoseconds. -/
def arrival : Nat := 1000000000

/-- A machine on which nothing runs. The user has a directory of their own, as deep as a path says,
and works in it. -/
def new (path : Path) : Machine :=
  let s := (System.new baseVolume).atTime arrival
  let below (found : NodeId × Volume) (name : Text) : NodeId × Volume :=
    match found.2.child? found.1 name with
    | some n => (n, found.2)
    | none => found.2.putDirectory found.1 name 0o755
  let (directory, volume) := (Volume.pieces path.text).foldl below (Volume.root, s.volume)
  { schedule := ⟨{ s with volume := volume }, .none, []⟩
    directory := directory
    bindings := usualVariables
    programs := []
    launched := 0
    records := [] }

def system (m : Machine) : System := m.schedule.system

def volume (m : Machine) : Volume := m.system.volume

def tokens (m : Machine) : Tokens := m.schedule.tokens

def changeSystem (m : Machine) (change : System → System) : Machine :=
  { m with schedule := { m.schedule with system := change m.schedule.system } }

/-- Puts another volume in place of the one that is there. -/
def withVolume (m : Machine) (volume : Volume) : Machine :=
  m.changeSystem fun s => { s with volume := volume }

/-- Lets everything run until a condition holds, the deadline is reached or nothing can go on. -/
def runUntil (m : Machine) (isDone : System → Bool) (deadline? : Option Nat) : Machine :=
  { m with schedule := m.schedule.run isDone deadline? Schedule.runLength }

/-- What asking after a program comes to. -/
def glance (m : Machine) (p : Launched) : Glance :=
  match m.system.ending? p.pid with
  | some status => .exited status
  | none => .running

/-- Does what is to be done after a look at a program. Time passes with the next look. -/
def handle (p : Launched) (m : Machine) : Handling → Machine
  | .kill => m.changeSystem fun s => (s.signal p.pid 9).2
  | .reap => m.changeSystem (·.forget p.pid)
  | .pause => m

/-- How often a program is looked at at most. -/
def lookLimit : Nat := 100000

def watchProgram (p : Launched) : Nat → Nat → Machine → Option Verdict × Machine
  | 0, _, m => (none, m)
  | fuel + 1, number, m =>
      let time := p.started + firstLook + number * lookInterval
      let m := m.runUntil (fun _ => false) (some time)
      let look : Observation := {
        glance := m.glance p
        tokenSet := p.token?.any m.tokens.isCancelled
        elapsed := ⟨time - p.started⟩ }
      let (handled, verdict?) := p.watch.poll look
      let m := handled.foldl (handle p) m
      match verdict? with
      | some verdict => (some verdict, m)
      | none => watchProgram p fuel (number + 1) m

def waitProgram (p : Launched) (m : Machine) : Option Verdict × Machine :=
  let m := m.runUntil (·.hasEnded p.pid) none
  ((m.glance p).verdict?, m)

/-- What has been gathered from a program. -/
def output (m : Machine) (p : Launched) : Bytes :=
  match m.system.intakes.lookup p.console with
  | some intake => intake.captured.bytes
  | none => []

def withoutProgram (m : Machine) (p : Launched) : Machine :=
  { m.changeSystem (·.forget p.pid) with
    programs := m.programs.filter fun q => q.run ≠ p.run }

/-- Waits for a program. After an exit its output is read to the end, be it from processes that it
has started. -/
def await (m : Machine) (run : Run) : Ending × Machine :=
  match m.programs.find? (·.run = run) with
  | none => (.lost (.numbered 10), m)
  | some p =>
      let (verdict?, m) :=
        if p.watch.isBlocking then m.waitProgram p else m.watchProgram p lookLimit 0
      match verdict? with
      | some verdict =>
          let m := if verdict.awaitsReaders then m.runUntil (!·.isGathering p.console) none else m
          (verdict.ending (m.output p), m.withoutProgram p)
      | none => (.lost (.numbered 10), m)

/-- What is run when a program is called in a directory. A name without a slash is looked for in the
usual places. -/
def image (m : Machine) (directory : NodeId) (program : Text) (arguments : List Text) :
    Except SystemError Image :=
  let name := Narrow.ofText program
  if name.isEmpty then .error .notFound
  else
    let path := match m.bindings.lookup ("PATH" : Text) with
      | some v => v.value?.getD []
      | none => Script.defaultPath
    let environment := m.bindings.map fun v => v.1 ++ '=' :: v.2.value?.getD []
    Image.fitting .other m.system directory environment (name :: arguments.map Narrow.ofText)
      (Script.searchPaths path name)

/-- Starts what is to be run in a process of its own, whose output is gathered. -/
def enter (m : Machine) (directory : NodeId) (image : Image) : Nat × Nat × Machine :=
  let s := m.system
  let console := s.intakes.length
  let s := { s.atTime (s.clock + launchTime) with
    intakes := (console, .start [] []) :: s.intakes }
  let (input, s) := s.addOpening ⟨.device [] false, 0, false, true, false⟩
  let (output, s) := s.addOpening ⟨.console console .standard, 0, false, false, true⟩
  let (errors, s) := s.addOpening ⟨.console console .errors, 0, false, false, true⟩
  let descriptors := [(0, ⟨input, false⟩), (1, ⟨output, false⟩), (2, ⟨errors, false⟩)]
  let (pid, s) := s.enter 0 descriptors []
  let shell := Shell.start pid directory usualMask (image.arguments.headD []) m.bindings
  let process := Script.Routine.process (Script.runProgram Script.evaluationFuel image) shell
  let schedule := { m.schedule with system := s }.add ⟨pid, s.clock, process⟩
  (pid, console, { m with schedule := schedule })

/-- Starts a program, unless its token is set. -/
def launch (m : Machine) (c : Command) : Except Refusal Run × Machine :=
  if c.cancel?.any m.tokens.isCancelled then (.error .cancelled, m)
  else
    let words := c.program.text :: c.arguments ++ (c.directory?.map Path.text).toList
    let holdsNul := words.any (·.contains '\x00')
    let target := if holdsNul then
        Except.error (.described "nul byte found in provided data")
      else do
        let directory ← match c.directory? with
          | none => pure m.directory
          | some path => do
              let n ← m.volume.find m.directory path
              (m.volume.node n).entrance
              pure n
        pure (directory, ← m.image directory c.program.text c.arguments)
    match target with
    | .error e => (.error (.impossible e), m)
    | .ok (directory, image) =>
        let run : Run := ⟨m.launched⟩
        let (pid, console, after) := m.enter directory image
        let program : Launched := {
          run := run
          pid := pid
          watch := c.watch
          token? := c.cancel?
          started := after.system.clock
          console := console }
        (.ok run, { after with
          programs := after.programs ++ [program], launched := m.launched + 1 })

def placeOfLeast (numbers : List Nat) : Nat :=
  match numbers.min? with
  | some least => (numbers.findIdx? (· = least)).getD 0
  | none => 0

/-- The worker that moves next: the first that is about to start something, and otherwise the one
whose program is waited for the shortest. -/
def chooseWorker (m : Machine) (workers : List (Option Run)) : Nat :=
  match workers.findIdx? Option.isNone with
  | some place => place
  | none => placeOfLeast (workers.filterMap id |>.map fun run => (m.await run).2.system.clock)

def answer : (r : Request) → Machine → r.Reply × Machine
  | .isDirectory path, m => (m.volume.isDirectory m.directory path, m)
  | .isFile path, m => (m.volume.isFile m.directory path, m)
  | .currentDirectory, m => match m.volume.path? m.directory with
      | some path => (.ok ⟨path⟩, m)
      | none => (.error .notFound, m)
  | .entryNames path, m => (m.volume.entryNames m.directory path, m)
  | .fileContent path, m => (m.system.fileContent m.directory path, m)
  | .writeFile path content, m =>
      let (result, s) := m.system.writeFile m.directory usualMask path content
      (result, m.changeSystem fun _ => s)
  | .removeFile path, m => match m.volume.removeFile m.directory path with
      | .ok volume => (.ok (), m.withVolume volume)
      | .error e => (.error e, m)
  | .makeDirectories path, m =>
      let (volume, result) := m.volume.makeDirectories m.directory path (0o777 - usualMask)
      (result, m.withVolume volume)
  | .launch command, m => m.launch command
  | .await run, m => m.await run
  | .turn workers, m => (m.chooseWorker workers, m)
  | .isCancelled token, m => (m.tokens.isCancelled token, m)
  | .report record, m => ((), { m with records := record :: m.records })

/-- The machine as the surroundings of a plan. -/
def host : Host Machine := ⟨answer⟩

end Machine
end Bytelink
