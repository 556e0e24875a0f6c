import Bytelink.Host.Script.Files
import Bytelink.Host.Script.Pattern
import Bytelink.Host.Script.Starting
import Bytelink.Text.Casing

/-!
# Walking through directories

The program that visits everything below some places, asks of each whether a condition holds, and
does something with those for which it does; and the program that runs another one on the items of
its input.
-/
namespace Bytelink.Script.Walking

open Routine Starting

/-- A condition on what is visited. Actions are conditions too; most of them hold. -/
inductive Query
  | always (holds : Bool)
  | name (pattern : Text) (ignoresCase isWhole : Bool)
  | kind (letters : Text)
  | empty
  | executable
  | print (ending : Char)
  | delete
  | prune
  | quit
  /-- Runs a program on the path. -/
  | run (command : List Text)
  /-- Runs a program on many paths at once, under a number by which they are gathered. -/
  | gather (number : Nat) (command : List Text)
  | not (q : Query)
  | both (a b : Query)
  | either (a b : Query)
  /-- The second one counts. -/
  | after (a b : Query)

/-- Whether a condition does anything. -/
def Query.acts : Query → Bool
  | .print _ => true
  | .delete => true
  | .run _ => true
  | .gather _ _ => true
  | .quit => false
  | .not q => q.acts
  | .both a b => a.acts || b.acts
  | .either a b => a.acts || b.acts
  | .after a b => a.acts || b.acts
  | _ => false

/-- Whether a condition deletes, so that what is inside comes first. -/
def Query.deletes : Query → Bool
  | .delete => true
  | .not q => q.deletes
  | .both a b => a.deletes || b.deletes
  | .either a b => a.deletes || b.deletes
  | .after a b => a.deletes || b.deletes
  | _ => false

/-- What is asked, with the bounds of the walk. -/
structure Bounds where
  least : Nat
  most? : Option Nat
  isInnerFirst : Bool
  follows : Bool

/-- The words that are left, the bounds found so far and the number of gatherings. -/
structure Rest where
  words : List Text
  bounds : Bounds
  gatherings : Nat

abbrev Reading := StateT Rest (Except Complaint)

/-- A word the way messages about expressions show it. -/
def shown (t : Text) : Text := '\x60' :: t ++ ['\'']

def missing (predicate : Text) : Complaint := [.plain ("missing argument to " ++ shown predicate)]

def argument (predicate : Text) : Reading Text := do
  let s ← get
  match s.words with
  | w :: rest =>
      set { s with words := rest }
      pure w
  | [] => throw (missing predicate)

def numberOf (predicate : Text) : Reading Nat := do
  let t ← argument predicate
  match Text.natural? t with
  | some n => pure n
  | none => throw [.plain ("Expected a positive decimal integer argument to " ++ predicate ++
      ", but got "), .word t]

/-- The words of a command up to its end; whether it takes many paths at once. -/
def command (predicate : Text) : Reading (List Text × Bool) := do
  let s ← get
  let rec go (before : List Text) : List Text → Option (List Text × Bool × List Text)
    | [';'] :: rest => some (before.reverse, false, rest)
    | ['+'] :: rest =>
        if before.head? = some ['\x7b', '\x7d'] then some (before.reverse.dropLast, true, rest)
        else go (['+'] :: before) rest
    | w :: rest => go (w :: before) rest
    | [] => none
  match go [] s.words with
  | some ([], _, _) =>
      throw [.plain ("invalid argument " ++ shown [';'] ++ " to " ++ shown predicate)]
  | some (words, isMany, rest) =>
      set { s with words := rest }
      pure (words, isMany)
  | none => throw (missing predicate)

/-- Makes sure that an expression comes behind an operator. -/
def expect (operator : Text) : Reading Unit := do
  if (← get).words.isEmpty then
    throw [.plain "expected an expression after ", .name operator]

def tooDeep : Complaint := [.plain "expression too deep"]

def changeBounds (change : Bounds → Bounds) : Reading Query := do
  modify fun s => { s with bounds := change s.bounds }
  pure (.always true)

mutual

/-- Alternatives, and lists of which the last counts. Fuel bounds the number of words. -/
def alternatives : Nat → Reading Query
  | 0 => throw tooDeep
  | fuel + 1 => do
      let first ← conjunction fuel
      let s ← get
      match s.words with
      | w :: rest =>
          if isOneOf ["-o", "-or"] w then
            set { s with words := rest }
            expect w
            return .either first (← alternatives fuel)
          else if w = [','] then
            set { s with words := rest }
            return .after first (← alternatives fuel)
          else pure first
      | [] => pure first

def conjunction : Nat → Reading Query
  | 0 => throw tooDeep
  | fuel + 1 => do
      let first ← single fuel
      let s ← get
      match s.words with
      | w :: rest =>
          if isOneOf ["-a", "-and"] w then
            set { s with words := rest }
            expect w
            return .both first (← conjunction fuel)
          else if isOneOf ["-o", "-or", ",", ")"] w then pure first
          else return .both first (← conjunction fuel)
      | [] => pure first

def single : Nat → Reading Query
  | 0 => throw tooDeep
  | fuel + 1 => do
      let w ← argument "("
      match String.ofList w with
      | "!" | "-not" =>
          expect w
          return .not (← single fuel)
      | "-o" | "-or" | "-a" | "-and" | "," =>
          throw [.plain ("invalid expression; you have used a binary operator '" ++ w ++
            "' with nothing before it.")]
      | "(" =>
          if (← get).words.head? = some [')'] then
            throw [.plain "invalid expression; empty parentheses are not allowed."]
          let q ← alternatives fuel
          let s ← get
          match s.words with
          | [')'] :: rest =>
              set { s with words := rest }
              pure q
          | _ => throw [.plain ("invalid expression; I was expecting to find a ')' somewhere " ++
              "but did not see one.")]
      | "-name" => return .name (← argument w) false false
      | "-iname" => return .name (← argument w) true false
      | "-path" | "-wholename" => return .name (← argument w) false true
      | "-ipath" => return .name (← argument w) true true
      | "-type" =>
          let letters := (← argument w).filter (· != ',')
          match letters.find? fun c => !("bcdpflsD".toList).contains c with
          | some c => throw [.plain ("Unknown argument to -type: " ++ [c])]
          | none => pure (.kind letters)
      | "-maxdepth" =>
          let n ← numberOf w
          changeBounds fun b => { b with most? := some n }
      | "-mindepth" =>
          let n ← numberOf w
          changeBounds fun b => { b with least := n }
      | "-depth" => changeBounds fun b => { b with isInnerFirst := true }
      | "-follow" => changeBounds fun b => { b with follows := true }
      | "-empty" => pure .empty
      | "-executable" => pure .executable
      | "-true" => pure (.always true)
      | "-false" => pure (.always false)
      | "-print" => pure (.print '\n')
      | "-print0" => pure (.print '\x00')
      | "-delete" => pure .delete
      | "-prune" => pure .prune
      | "-quit" => pure .quit
      | "-exec" =>
          let (words, isMany) ← command w
          if isMany then
            let number := (← get).gatherings
            modify fun s => { s with gatherings := number + 1 }
            pure (.gather number words)
          else pure (.run words)
      | _ =>
          if w.head? = some '-' then throw [.plain ("unknown predicate " ++ shown w)]
          else throw [.plain ("paths must precede expression: " ++ shown w)]

end

/-- What has happened so far. -/
structure Progress where
  status : Nat
  isPruned : Bool
  isOver : Bool
  gathered : List (Nat × Text)

def succeeds (become : Become) (arguments : List Text) : Routine Bool := do
  let status ← runApart (becomeOrTell become arguments)
  pure (status == .exited 0)

def filled (mark value word : Text) : Text := Text.replaceAll mark value word

structure Visited where
  path : Text
  number : NodeId
  node : Inode

def Visited.letter (v : Visited) : Char :=
  match v.node.content with
  | .directory _ _ => 'd'
  | .link _ => 'l'
  | .device _ _ => 'c'
  | .queue => 'p'
  | .file _ => 'f'

/-- Whether a condition holds, after it has done what it does. -/
def ask (become : Become) (v : Visited) : Query → Progress → Routine (Bool × Progress)
  | .always holds, p => pure (holds, p)
  | .name wanted ignoresCase isWhole, p => do
      let isWide := (← get).isUnicode
      let lower (c : Char) : Char := if isWide then Text.inLowerCase c else c.toLower
      let form (t : Text) : Text :=
        let chars := Wide.seen isWide t
        if ignoresCase then chars.map lower else chars
      let t := if isWhole then v.path else Files.lastStep v.path
      pure ((Pattern.ofText (form wanted)).covers (form t), p)
  | .kind letters, p => pure (letters.contains v.letter, p)
  | .empty, p => do
      match v.node.content with
      | .directory _ _ =>
          pure ((← inVolume fun volume _ => (volume.entries v.number).isEmpty), p)
      | .file bytes => pure (bytes.isEmpty, p)
      | _ => pure (false, p)
  | .executable, p => pure (v.node.grants .search, p)
  | .print ending, p => do
      say (v.path ++ [ending])
      pure (true, p)
  | .delete, p => do
      if v.path = ['.'] then pure (true, p)
      else
        let result ← attempt fun volume here =>
          if v.node.isDirectory then volume.removeDirectory here (pathOf v.path)
          else volume.removeFile here (pathOf v.path)
        match result with
        | .ok () => pure (true, p)
        | .error e =>
            report ("cannot delete " ++ (← marked v.path) ++ ": " ++ reason e)
            pure (false, { p with status := 1 })
  | .prune, p => pure (true, { p with isPruned := true })
  | .quit, p => pure (true, { p with isOver := true })
  | .run words, p => do
      let isFine ← succeeds become (words.map (filled ['\x7b', '\x7d'] v.path))
      pure (isFine, p)
  | .gather number _, p => pure (true, { p with gathered := (number, v.path) :: p.gathered })
  | .not q, p => do
      let (holds, p) ← ask become v q p
      pure (!holds, p)
  | .both a b, p => do
      let (holds, p) ← ask become v a p
      if holds && !p.isOver then ask become v b p else pure (holds, p)
  | .either a b, p => do
      let (holds, p) ← ask become v a p
      if holds || p.isOver then pure (holds, p) else ask become v b p
  | .after a b, p => do
      let (_, p) ← ask become v a p
      ask become v b p

/-- Visits a place and what is below it. -/
def visit (become : Become) (bounds : Bounds) (q : Query) :
    Nat → Nat → Visited → Progress → Routine Progress
  | 0, _, _, p => pure p
  | fuel + 1, depth, v, p => do
      let here (p : Progress) : Routine Progress := do
        if depth < bounds.least || p.isOver then pure p
        else return (← ask become v q p).2
      let inside (p : Progress) : Routine Progress := do
        if !v.node.isDirectory || p.isOver || bounds.most?.any (· ≤ depth) then pure p
        else
          match ← Files.names v.path with
          | .error e =>
              report ((← marked v.path) ++ ": " ++ reason e)
              pure { p with status := 1 }
          | .ok names =>
              let mut p := p
              for name in names do
                let path := Files.inside v.path name
                match ← (if bounds.follows then Routine.find path else findEntry path) with
                | .ok (number, node) =>
                    if !p.isOver then
                      p ← visit become bounds q fuel (depth + 1) ⟨path, number, node⟩
                        { p with isPruned := false }
                | .error _ => pure ()
              pure p
      if bounds.isInnerFirst then here (← inside p)
      else
        let p ← here { p with isPruned := false }
        if p.isPruned then pure p else inside p

/-- The commands that run on many paths at once. -/
def Query.gatherings : Query → List (Nat × List Text)
  | .gather number words => [(number, words)]
  | .not q => q.gatherings
  | .both a b => a.gatherings ++ b.gatherings
  | .either a b => a.gatherings ++ b.gatherings
  | .after a b => a.gatherings ++ b.gatherings
  | _ => []

def find (become : Become) : Command := fun arguments => do
  let follows := arguments.head? = some ['-', 'L']
  let arguments := arguments.dropWhile fun t => isOneOf ["-L", "-H", "-P"] t
  let isPath (t : Text) : Bool := !(t.head? = some '-' && 1 < t.length) && !isOneOf ["(", "!"] t
  let places := arguments.takeWhile isPath
  let words := arguments.drop places.length
  let bounds : Bounds := ⟨0, none, false, follows⟩
  let read := (if words.isEmpty then pure (.always true)
    else alternatives (10 * words.length + 10)).run ⟨words, bounds, 0⟩
  match read with
  | .error problem =>
      reportPhrases problem
      pure 1
  | .ok (q, s) =>
      if !s.words.isEmpty then
        report "you have too many ')'"
        pure 1
      else
        let whole := if q.acts then q else .both q (.print '\n')
        let bounds := { s.bounds with isInnerFirst := s.bounds.isInnerFirst || q.deletes }
        let mut p : Progress := ⟨0, false, false, []⟩
        for place in (if places.isEmpty then [['.']] else places) do
          if !p.isOver then
            match ← (if bounds.follows then Routine.find place else findEntry place) with
            | .ok (number, node) =>
                p ← visit become bounds whole Files.depthLimit 0 ⟨place, number, node⟩ p
            | .error e =>
                report ((← marked place) ++ ": " ++ reason e)
                p := { p with status := 1 }
        for (number, words) in whole.gatherings do
          let paths := (p.gathered.filter (·.1 = number)).map (·.2)
          if !paths.isEmpty then
            if !(← succeeds become (words ++ paths.reverse)) then p := { p with status := 1 }
        pure p.status

/-- How items are told apart. -/
inductive Splitting
  | blanks
  | lines
  | mark (c : Char)
  deriving DecidableEq, Repr

def unmatched (q : Char) : Text :=
  let sort : Text := if q = '"' then "double" else "single"
  "unmatched " ++ sort ++
    " quote; by default quotes are special to xargs unless you use the -0 option"

/-- The items of a text between blanks. Quotes and backslashes protect what stands in them. If a
quote has no counterpart, the items in front of it come with a message. -/
def items (isByLine : Bool) : Option Char → Option Text → Text → List Text × Option Text
  | some q, _, [] => ([], some (unmatched q))
  | none, current?, [] => ((current?.map List.reverse).toList, none)
  | some q, current?, c :: rest =>
      if c = q then items isByLine none current? rest
      else if c = '\n' then ([], some (unmatched q))
      else items isByLine (some q) (some (c :: current?.getD [])) rest
  | none, current?, '\\' :: c :: rest =>
      items isByLine none (some (c :: current?.getD [])) rest
  | none, current?, c :: rest =>
      let isGap := c = '\n' || !isByLine && (c = ' ' || c = '\t')
      if isGap then
        let (found, message?) := items isByLine none none rest
        ((current?.map List.reverse).toList ++ found, message?)
      else if isByLine && current?.isNone && (c = ' ' || c = '\t') then
        items isByLine none none rest
      else if c = '\'' || c = '"' then items isByLine (some c) (some (current?.getD [])) rest
      else items isByLine none (some (c :: current?.getD [])) rest

/-- Lists of at most so many items, and of at most so many characters together. -/
def batches (most : Nat) : Nat → Nat → List Text → List Text → List (List Text)
  | _, _, [], [] => []
  | _, _, current, [] => [current.reverse]
  | count, size, current, t :: rest =>
      let size' := size + t.length + 1
      if !current.isEmpty && (most ≤ count || 100000 < size') then
        current.reverse :: batches most 1 (t.length + 1) [t] rest
      else batches most (count + 1) size' (t :: current) rest

/-- Runs a program once; yields its status and whether to go on. -/
def runOnce (become : Become) (tells : Bool) (arguments : List Text) : Routine (Nat × Bool) := do
  let name := arguments.headD []
  if tells then complain (Text.join [' '] arguments)
  let paths ← pathsOf name
  let directory := (← get).directory
  match ← look fun system =>
      Image.first .other system directory arguments .notFound paths with
  | .error e =>
      report (name ++ ": " ++ reason e)
      pure (if isAbsence e then 127 else 126, false)
  | .ok _ =>
      flush
      let child ← spawn do
        match ← openFile "/dev/null" .reading with
        | .ok descriptor =>
            let pid := (← get).pid
            change fun system => match system.descriptor? pid descriptor with
              | some d => (system.place pid 0 ⟨d.opening, false⟩).close pid descriptor
              | none => system
        | .error _ => pure ()
        let _ ← become paths arguments
        finish (.exited 127)
      match (← awaitMembers false [child]).getD (.exited 0) with
      | .exited 0 => pure (0, true)
      | .exited 255 =>
          report (name ++ ": exited with status 255; aborting")
          pure (124, false)
      | .exited _ => pure (123, true)
      | .signalled n _ =>
          report (name ++ ": terminated by signal " ++ Text.decimal n)
          pure (125, false)
      | _ => pure (0, true)

def xargs (become : Become) : Command := fun arguments => do
  let known : Known := .ofText "0n:I:i::rtd:L:l::P:a:pxs:E:" [("null", '0'), ("max-args", 'n'),
    ("replace", 'i'), ("no-run-if-empty", 'r'), ("verbose", 't'), ("delimiter", 'd'),
    ("max-lines", 'l'), ("max-procs", 'P'), ("arg-file", 'a'), ("exit", 'x'), ("max-chars", 's')]
  match known.read true arguments with
  | .error fault =>
      report fault.message
      refuseUsage 1
  | .ok (given, operands) =>
      let command := if operands.isEmpty then ["echo".toList] else operands
      let mark? := (argument? given 'I').or
        (if isGiven given 'i' then some ((argument? given 'i').getD ['\x7b', '\x7d']) else none)
      let splitting : Splitting :=
        if isGiven given '0' then .mark '\x00'
        else match argument? given 'd' with
          | some ['\\', 'n'] => .mark '\n'
          | some ['\\', 't'] => .mark '\t'
          | some ['\\', '0'] => .mark '\x00'
          | some (c :: _) => .mark c
          | _ => if mark?.isSome || isGiven given 'L' then .lines else .blanks
      let delimiter := (argument? given 'd').getD []
      let isLong := delimiter.head? ≠ some '\\' && 1 < delimiter.length
      let (status, content) ← if isLong then pure (1, [])
        else loadFiles ((argument? given 'a').toList)
      if isLong then
        report ("Invalid input delimiter specification " ++ delimiter ++ ": the delimiter must be " ++
          "either a single character or an escape sequence starting with \\.")
        pure 1
      else if status != 0 then pure 1
      else
        let (found, message?) : List Text × Option Text := match splitting with
          | .mark c =>
              let parts := Text.splitOn c content
              (if parts.getLast? = some [] then parts.dropLast else parts, none)
          | .lines => items true none none content
          | .blanks => items false none none content
        let most := ((argument? given 'n').or (argument? given 'L')).bind Text.natural?
        let commands :=
          match mark? with
          | some mark => found.map fun item => command.map (filled mark item)
          | none =>
              let lists := batches (most.getD 1000000) 0 0 [] found
              let isIdle := isGiven given 'r' || message?.isSome
              (if lists.isEmpty && !isIdle then [[]] else lists).map (command ++ ·)
        let mut status := 0
        let mut isGoing := true
        for (arguments, place) in commands.zipIdx do
          if isGoing then
            if place + 1 = commands.length then
              for message in message? do report message
            let (result, goesOn) ← runOnce become (isGiven given 't') arguments
            if result != 0 then status := result
            isGoing := goesOn
        if commands.isEmpty then
          for message in message? do report message
        pure (if message?.isSome then 1 else status)

end Bytelink.Script.Walking
