import Bytelink.Host.Machine

/-!
# Preparing and inspecting a machine

Files are put into the volume of a machine from outside, and the volume is looked at, without a
program running. A listing goes through a directory depth first and in the order of names.
-/
namespace Bytelink

namespace Machine

def putDirectory (m : Machine) (path : Path) : Machine :=
  m.withVolume (m.volume.makeDirectories m.directory path (0o777 - usualMask)).1

/-- Makes the directories above a path. -/
def makeParents (m : Machine) (path : Path) : Machine :=
  match Volume.parentPath path with
  | some parent => m.putDirectory parent
  | none => m

/-- Gives a file its content and says whether it is a program. If it is not there it is made. -/
def putFile (m : Machine) (path : Path) (content : Bytes) (isExecutable : Bool) : Machine :=
  let m := m.makeParents path
  let v := m.volume
  let mode := if isExecutable then 0o755 else 0o644
  match v.find m.directory path with
  | .ok n => m.withVolume ((v.setBytes n fun _ => content.toArray).setMode n mode)
  | .error _ => match v.goal .opening m.directory path with
    | .ok ⟨directory, .name name, _⟩ =>
        m.withVolume (v.put directory name (.file content.toArray) mode).2
    | _ => m

/-- Makes a symbolic link in place of whatever stands there. -/
def putLink (m : Machine) (path : Path) (target : Text) : Machine :=
  let m := m.makeParents path
  match m.volume.goal .name m.directory path with
  | .ok ⟨directory, .name name, _⟩ =>
      let (n, v) := m.volume.add ⟨.link target, 0o777, true, m.volume.time⟩
      m.withVolume (v.setName directory name n)
  | _ => m

/-- Removes whatever a path names, with all that is below, and says whether there was anything. -/
def remove (m : Machine) (path : Path) : Bool × Machine :=
  match m.volume.goal .name m.directory path with
  | .ok ⟨directory, .name name, _⟩ => match m.volume.child? directory name with
    | some n => (true, m.withVolume ((m.volume.dropName directory name).clear n))
    | none => (false, m)
  | .ok ⟨directory, _, _⟩ => (true, m.withVolume (m.volume.clear directory))
  | .error _ => (false, m)

/-- Everything below a directory, depth first and in the order of names, a directory before what it
holds. -/
def listing (m : Machine) (path : Path) : List (List Text × Inode) :=
  match m.volume.find m.directory path with
  | .ok n =>
      let inOrder (entries : List (Text × NodeId)) : List (Text × NodeId) :=
        entries.mergeSort fun a b => Text.le a.1 b.1
      (m.volume.below inOrder n).map fun e => (e.1, m.volume.node e.2)
  | .error _ => []

/-- A task that sets a token some time after a file has come into being. -/
def alarm (directory : NodeId) (file : Path) (delay : Duration) (token : Token) : Process :=
  .block (fun s => s.volume.anyAt directory file fun _ => true)
    (.pause delay.nanos (.trigger token .ended))

/-- A token of its own that is set once a file has come into being and the delay has passed. -/
def withAlarm (m : Machine) (file : Path) (delay : Duration) : Token × Machine :=
  let (token, tokens) := m.tokens.fresh
  let task : Task := ⟨Schedule.nobody, m.system.clock, alarm m.directory file delay token⟩
  (token, { m with schedule := { m.schedule with tokens := tokens }.add task })

def withToken (m : Machine) (isSet : Bool) : Token × Machine :=
  let (token, tokens) := m.tokens.fresh
  (token, { m with schedule :=
    { m.schedule with tokens := if isSet then tokens.cancel token else tokens } })

/-- The machine with nothing waited for, nothing reported and no alarm. Processes that still run go
on. -/
def settled (m : Machine) : Machine :=
  { m with
    programs := []
    records := []
    schedule := { m.schedule with
      tasks := m.schedule.tasks.filter fun t => t.pid ≠ Schedule.nobody } }

end Machine
end Bytelink
