import Bytelink.Host.Script.Stream

/-!
# Modes of files

A mode is stated as an octal number or by clauses that change it, such as `g+w` or `a=rX`. A clause
that names nobody is meant for everybody, but leaves out the rights that new files do not get.
-/
namespace Bytelink.Script

/-- What a change takes its bits from. -/
inductive ModeSource
  | bits (value : Nat)
  /-- The rights that one group has already. -/
  | copy (group : Nat)
  /-- Some bits, and the right to search or run if anybody has it. -/
  | bitsIfRun (value : Nat)
  deriving DecidableEq, Repr

structure ModeStep where
  operator : Char
  /-- The bits that it is about; none if nobody was named. -/
  affected : Nat
  /-- The bits above those of directories that are named outright. -/
  mentioned : Nat
  source : ModeSource
  deriving DecidableEq, Repr

namespace Mode

/-- All bits of a mode. -/
def all : Nat := 0o7777

/-- The bits that a directory keeps unless they are named. -/
def kept : Nat := 0o6000

/-- The bits of a set that are not in another. -/
def without (a b : Nat) : Nat := a &&& (all - b % 0o10000)

def isOperator (c : Char) : Bool := c == '+' || c == '-' || c == '='

def whoBits : Text → Nat
  | [] => 0
  | 'u' :: rest => 0o4700 ||| whoBits rest
  | 'g' :: rest => 0o2070 ||| whoBits rest
  | 'o' :: rest => 0o1007 ||| whoBits rest
  | _ :: rest => all ||| whoBits rest

def rightBits : Text → Nat
  | [] => 0
  | 'r' :: rest => 0o444 ||| rightBits rest
  | 'w' :: rest => 0o222 ||| rightBits rest
  | 'x' :: rest => 0o111 ||| rightBits rest
  | 's' :: rest => 0o6000 ||| rightBits rest
  | 't' :: rest => 0o1000 ||| rightBits rest
  | _ :: rest => rightBits rest

/-- The steps of one clause behind those that it names. -/
def stepsOf? (affected : Nat) : Nat → Text → Option (List ModeStep)
  | 0, _ => none
  | fuel + 1, t => match t with
    | [] => some []
    | operator :: rest =>
        if !isOperator operator then none
        else
          let digits := rest.takeWhile Text.isOctalDigit
          let letters := rest.takeWhile (['r', 'w', 'x', 'X', 's', 't'] : Text).contains
          let value := rightBits letters
          match rest with
          | c :: behind =>
              if !digits.isEmpty then
                let value := Text.valueIn 8 digits
                let behind := rest.drop digits.length
                if affected ≠ 0 || all < value || !behind.isEmpty then none
                else some [⟨operator, all, all, .bits value⟩]
              else if c = 'u' || c = 'g' || c = 'o' then
                let group := if c = 'u' then 64 else if c = 'g' then 8 else 1
                (stepsOf? affected fuel behind).map
                  (⟨operator, affected, 0, .copy group⟩ :: ·)
              else
                let source : ModeSource := if letters.contains 'X' then .bitsIfRun value
                  else .bits value
                let mentioned := if affected = 0 then value else affected &&& value
                (stepsOf? affected fuel (rest.drop letters.length)).map
                  (⟨operator, affected, mentioned, source⟩ :: ·)
          | [] => some [⟨operator, affected, 0, .bits 0⟩]

def read? (t : Text) : Option (List ModeStep) :=
  if !t.isEmpty && t.all Text.isOctalDigit then
    let value := Text.valueIn 8 t
    if all < value then none
    else
      let mentioned := if t.length < 5 then (value &&& kept) ||| 0o1777 else all
      some [⟨'=', all, mentioned, .bits value⟩]
  else
    (Text.splitOn ',' t).foldlM (fun steps clause =>
      let who := clause.takeWhile (['u', 'g', 'o', 'a'] : Text).contains
      let behind := clause.drop who.length
      if behind.isEmpty then none
      else (stepsOf? (whoBits who) (behind.length + 1) behind).map (steps ++ ·)) []

def applyStep (isDirectory : Bool) (mask before : Nat) (step : ModeStep) : Nat :=
  let left := if isDirectory then without kept step.mentioned else 0
  let runs : Nat := if isDirectory || before &&& 0o111 ≠ 0 then 0o111 else 0
  let value := match step.source with
    | .bits value => value
    | .copy group => before / group % 8 * 0o111
    | .bitsIfRun value => value ||| runs
  let meant := if step.affected = 0 then without all mask else step.affected
  let value := without (value &&& meant) left
  match step.operator with
  | '+' => before ||| value
  | '-' => without before value
  | _ =>
      let preserved := (if step.affected = 0 then 0 else without all step.affected) ||| left
      (before &&& preserved) ||| value

def apply (isDirectory : Bool) (mask before : Nat) (steps : List ModeStep) : Nat :=
  steps.foldl (applyStep isDirectory mask) before

def rights (mode : Nat) : Text :=
  let group (bits : Nat) (isSet : Bool) (low high : Char) : Text :=
    [if bits / 4 % 2 = 1 then 'r' else '-', if bits / 2 % 2 = 1 then 'w' else '-',
      if isSet then (if bits % 2 = 1 then low else high)
      else if bits % 2 = 1 then 'x' else '-']
  group (mode / 64) (mode / 2048 % 2 == 1) 's' 'S' ++
    group (mode / 8) (mode / 1024 % 2 == 1) 's' 'S' ++
    group mode (mode / 512 % 2 == 1) 't' 'T'

def kindLetter (n : Inode) : Char :=
  match n.content with
  | .directory _ _ => 'd'
  | .file _ => '-'
  | .link _ => 'l'
  | .queue => 'p'
  | .device _ _ => 'c'

def octal (width mode : Nat) : Text :=
  let digits := Nat.toDigits 8 mode
  List.replicate (width - digits.length) '0' ++ digits

end Mode

namespace Files

open Routine

def changeMode (isVerbose tellsChanges isQuiet isSurprising : Bool) (steps : List ModeStep)
    (path : Text) : Routine Nat := do
  let refuse (t : Text) (e : SystemError) : Routine Nat := do
    if !isQuiet then report (t ++ ": " ++ reason e)
    pure 1
  match ← find path, ← findEntry path with
  | .error e, .ok (_, entry) =>
      if entry.isLink && e = .notFound then
        if !isQuiet then report ("cannot operate on dangling symlink " ++ (← quoted path))
        pure 1
      else refuse ("cannot access " ++ (← quoted path)) e
  | .error e, _ => refuse ("cannot access " ++ (← quoted path)) e
  | .ok (_, node), _ =>
      let mask := (← get).mask
      let wanted := Mode.apply node.isDirectory mask node.mode steps
      match ← attempt fun v here => v.changeMode here (pathOf path) fun _ => wanted with
      | .error e => refuse ("changing permissions of " ++ (← quoted path)) e
      | .ok () =>
          let form (mode : Nat) : Text := Mode.octal 4 mode ++ " (" ++ Mode.rights mode ++ ")"
          if isVerbose || tellsChanges && wanted != node.mode then
            let change : Text := if wanted = node.mode then " retained as " ++ form wanted
              else " changed from " ++ form node.mode ++ " to " ++ form wanted
            say ("mode of " ++ (← quoted path) ++ change ++ ['\n'])
          let naive := Mode.apply node.isDirectory 0 node.mode steps
          if isSurprising && Mode.without wanted naive ≠ 0 then
            report ((← quotedIfNeeded path) ++ ": new permissions are " ++ Mode.rights wanted ++
              ", not " ++ Mode.rights naive)
            pure 1
          else pure 0

def changeModesBelow (change : Text → Routine Nat) : Nat → Text → Routine Nat
  | 0, _ => pure 0
  | fuel + 1, path => do
      let status ← change path
      match ← findEntry path with
      | .ok (_, node) =>
          if !node.isDirectory then pure status
          else match ← inVolume fun v here => v.entryNames here (pathOf path) with
            | .error e =>
                settle ("cannot read directory " ++ (← quoted path)) (.error e)
            | .ok names =>
                let seam : Text := if path.getLast? = some '/' then [] else ['/']
                let below ← forEach names fun name => do
                  let inner := path ++ seam ++ Narrow.ofText name
                  match ← findEntry inner with
                  | .ok (_, child) =>
                      if child.isLink then pure 0 else changeModesBelow change fuel inner
                  | .error _ => change inner
                pure (max status below)
      | .error _ => pure status

def chmod : Command := fun arguments => do
  let isMode (t : Text) : Bool := match t with
    | '-' :: c :: _ => (['r', 'w', 'x', 'X', 's', 't', 'u', 'g', 'o', 'a', ','] : Text).contains c
        || Text.isOctalDigit c
    | _ => false
  let plain := arguments.takeWhile (· ≠ ['-', '-'])
  let (modes, others) := plain.partition isMode
  let others := others ++ arguments.drop plain.length
  let known : Known := .ofText "Rcfv\x01:" [("changes", 'c'), ("recursive", 'R'),
    ("quiet", 'f'), ("silent", 'f'), ("verbose", 'v'), ("reference", '\x01')]
  withOptions known others
    fun given operands => do
      let reference? := argument? given '\x01'
      let (mode?, files) : Option Text × List Text :=
        if reference?.isSome then (none, operands)
        else if modes.isEmpty then (operands.head?, operands.drop 1)
        else (some (Text.join [','] modes), operands)
      match files, mode?, reference? with
      | [], none, none => refuseMissing
      | [], some mode, _ =>
          if modes.isEmpty then
            report ("missing operand after " ++ (← marked mode))
            refuseUsage 1
          else refuseMissing
      | [], none, some _ => refuseMissing
      | _, _, _ =>
          let steps? ← match reference? with
            | none => pure (mode?.bind Mode.read?)
            | some path => match ← find path with
              | .ok (_, node) => pure (some [⟨'=', Mode.all, Mode.all, .bits node.mode⟩])
              | .error e => do
                  report ("failed to get attributes of " ++ (← quoted path) ++ ": " ++ reason e)
                  return 1
          match steps? with
          | none =>
              report ("invalid mode: " ++ (← marked (mode?.getD [])))
              refuseUsage 1
          | some steps =>
              let change := changeMode (isGiven given 'v') (isGiven given 'c') (isGiven given 'f')
                (!modes.isEmpty) steps
              forEach files fun path =>
                if isGiven given 'R' then changeModesBelow change 2000 path else change path

end Files
end Bytelink.Script
