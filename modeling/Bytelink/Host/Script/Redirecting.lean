import Bytelink.Host.Script.Expansion

/-!
# Redirections

Where the descriptors of a command lead. What a descriptor led to before is kept under a high number
that no program gets to see, and put back when the command is over.
-/
namespace Bytelink.Script

/-- A redirection after its word has been expanded. -/
inductive Target
  | file (access : Access) (path : Text)
  | copy (source : Nat)
  | nowhere
  | text (content : Text)
  deriving DecidableEq, Repr

/-- A descriptor that leads elsewhere for a time, and the number under which what it led to before
is kept, if it led anywhere. -/
structure Diversion where
  descriptor : Nat
  kept? : Option Nat
  deriving DecidableEq, Repr

/-- What the shell calls an error of a file that it should open. -/
def openingReason (access : Access) (e : SystemError) : Text :=
  match e with
  | .numbered 2 => missing
  | .numbered 20 => missing
  | e => reason e
where
  missing : Text := match access with
    | .reading => "No such file"
    | _ => "Directory nonexistent"

namespace Routine

/-- The least number under which descriptors are kept. -/
def keptFrom : Nat := 10

/-- Makes a descriptor lead to a target. What has been changed comes with the reason why that was
impossible, if it was. Who opens one end of a pipe waits for the other. A file that has to be new
may be there if it is none of the plain ones. -/
def divert (keeps : Bool) (descriptor : Nat) (target : Target) :
    Routine (List Diversion × Option Text) := do
  let s ← get
  let keep (system : System) : List (Nat × Descriptor) × List Diversion :=
    if !keeps then ([], [])
    else match system.descriptor? s.pid descriptor with
      | none => ([], [⟨descriptor, none⟩])
      | some d =>
          let number := system.freeDescriptor s.pid keptFrom
          ([(number, ⟨d.opening, true⟩)], [⟨descriptor, some number⟩])
  let lead (system : System) (opening : Nat) : System × List Diversion × Option Text :=
    let (placed, kept) := keep system
    (system.placeAll s.pid ((descriptor, ⟨opening, false⟩) :: placed), kept, none)
  let shut (system : System) (message? : Option Text) : System × List Diversion × Option Text :=
    let (placed, kept) := keep system
    ((system.placeAll s.pid placed).close s.pid descriptor, kept, message?)
  match target with
  | .file access path =>
      let needsNew := s.isSet 'C' && access == .writing
      let isThere ← inVolume fun v directory =>
        needsNew && v.anyAt directory (pathOf path) fun _ => true
      let isPlain ← inVolume fun v directory => v.isFile directory (pathOf path)
      let result ← if isThere && isPlain then pure (.error .alreadyExists)
        else openFileFrom keptFrom path (if isThere then .overwriting else access)
      match result with
      | .ok number => act fun system => match system.descriptor? s.pid number with
          | some d =>
              let (system, kept) := lead system d.opening
              (system.close s.pid number, kept)
          | none => (system, [], none)
      | .error e =>
          let opens := access == .reading || access == .both || (isThere && !isPlain)
          let verb : Text := if opens then "open " else "create "
          let reason := openingReason (if isThere then .reading else access) e
          pure ([], some ("cannot " ++ verb ++ path ++ ": " ++ reason))
  | .copy source =>
      act fun system =>
        if source = descriptor then (system, [], none)
        else match system.descriptor? s.pid source with
          | some d => lead system d.opening
          | none =>
              let message := Text.decimal source ++ ": " ++ reason .badDescriptor
              if keeps then shut system (some message) else (system, [], some message)
  | .nowhere => act fun system => shut system none
  | .text content =>
      act fun system =>
        let (reader, writer, system) := system.openPipe (Narrow.toBytes content)
        let (system, kept) := lead system reader
        (system.release [writer], kept)

/-- Puts descriptors back, the last that was changed first. -/
def restore (diversions : List Diversion) : Routine Unit := do
  let pid := (← get).pid
  change fun system => diversions.foldl (fun system d => match d.kept? with
    | none => system.close pid d.descriptor
    | some number => match system.descriptor? pid number with
      | none => system.close pid d.descriptor
      | some kept => (system.place pid d.descriptor ⟨kept.opening, false⟩).close pid number) system

/-- Carries out redirections in order. If one is impossible that is told; those before it hold. What
a descriptor led to is kept once. What has been changed comes with whether all went well, the last
change first. -/
def divertAll (keeps : Bool) :
    List (Nat × Target) → List Diversion → Routine (List Diversion × Bool)
  | [], done => pure (done, true)
  | (descriptor, target) :: rest, done => do
      let isNew := done.all (·.descriptor != descriptor)
      let (more, message?) ← divert (keeps && isNew) descriptor target
      match message? with
      | none => divertAll keeps rest (more ++ done)
      | some message =>
          warn message
          pure (more ++ done, false)

variable (capture : Node → Routine Text)

def target : Redirection → Routine (Nat × Target)
  | .file descriptor access w => do
      return (descriptor, .file access (← expandText capture w))
  | .text descriptor document => do
      let content := ((← get).documents.lookup document).getD []
      return (descriptor, .text (← expandDocument capture content))
  | .duplicate descriptor w => do
      match ← expandText capture w with
      | ['-'] => pure (descriptor, .nowhere)
      | [digit] =>
          if digit.isDigit then pure (descriptor, .copy (Text.digitValue digit))
          else fail badNumber
      | _ => fail badNumber
where
  badNumber : Text := "Syntax error: Bad fd number"

end Routine
end Bytelink.Script
