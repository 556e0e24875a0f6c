import Bytelink.Host.Script.Characters
import Bytelink.Host.Script.Columns
import Bytelink.Host.Script.Condition
import Bytelink.Host.Script.Copying
import Bytelink.Host.Script.Counting
import Bytelink.Host.Script.Dumping
import Bytelink.Host.Script.Editing
import Bytelink.Host.Script.Ends
import Bytelink.Host.Script.Filters
import Bytelink.Host.Script.Naming
import Bytelink.Host.Script.Placing
import Bytelink.Host.Script.Preprocessing
import Bytelink.Host.Script.Printing
import Bytelink.Host.Script.Reckoning
import Bytelink.Host.Script.Searching
import Bytelink.Host.Script.Sequence
import Bytelink.Host.Script.Signals
import Bytelink.Host.Script.Sorting
import Bytelink.Host.Script.Surroundings
import Bytelink.Host.Script.Walking

/-!
# Programs of the machine

The programs that stand in the usual directories of a machine. How a program takes the place of a
process is left open here.
-/
namespace Bytelink.Script.Programs

open Routine Starting

/-- The number of nanoseconds in a time such as `0.5m`; none stands for ever. -/
def duration? (t : Text) : Option (Option Nat) :=
  match Binary.leading? t with
  | none => none
  | some ⟨value, _, rest⟩ =>
      let unit? : Option Nat := match rest with
        | [] => some 1
        | ['s'] => some 1
        | ['m'] => some 60
        | ['h'] => some 3600
        | ['d'] => some 86400
        | _ => none
      unit?.bind fun unit => match value with
        | .notANumber _ => none
        | .infinite isNegative => if isNegative then none else some none
        | .finite isNegative mantissa exponent =>
            if isNegative && mantissa != 0 then none
            else if 64 < exponent then some none
            else
              let (n, d) := Binary.scaled (mantissa * unit) exponent 9
              some (some ((n + d - 1) / d))

def sleep : Command := fun arguments =>
  withOptions (.ofText "" []) arguments fun _ operands => do
    if operands.isEmpty then refuseMissing
    else
      let times := operands.map fun t => (t, duration? t)
      let wrong := times.filter (·.2.isNone)
      if !wrong.isEmpty then
        for (t, _) in wrong do report ("invalid time interval " ++ (← marked t))
        refuseUsage 1
      else
        let spans := times.filterMap (·.2)
        if spans.contains none then block fun _ => false
        pause ((spans.filterMap id).foldl (· + ·) 0)
        pure 0

/-- Runs a program for a limited time. -/
def timeout (become : Become) : Command := fun arguments => do
  let known : Known := .ofText "k:s:v\x01\x02" [("kill-after", 'k'), ("signal", 's'),
    ("verbose", 'v'), ("preserve-status", '\x01'), ("foreground", '\x02')]
  match known.read true arguments with
  | .error fault =>
      report fault.message
      refuseUsage 125
  | .ok (given, limit :: name :: rest) =>
      let signal? := match argument? given 's' with
        | none => some 15
        | some t => signalNumber? 0 (if ("SIG" : Text).isPrefixOf (t.map Char.toUpper)
            then t.drop 3 else t)
      match duration? limit, signal? with
      | none, _ =>
          report ("invalid time interval " ++ (← marked limit))
          refuseUsage 125
      | _, none =>
          report ((← marked ((argument? given 's').getD [])) ++ ": invalid signal")
          refuseUsage 125
      | some limit?, some signal => run given limit? signal (name :: rest)
  | .ok _ => refuseUsage 125
where
  run (given : List Given) (limit? : Option Nat) (signal : Nat) (command : List Text) :
      Routine Nat := do
    flush
    let child ← spawn do
      let status ← becomeOrTell become command
      finish (.exited status)
    let start ← look (·.clock)
    let deadline? := limit?.bind fun n => if n = 0 then none else some (start + n)
    let isOver ← waitUntil child deadline?
    if isOver then
      match ← awaitMembers false [child] with
      | some (.signalled n _) => pure (128 + n)
      | some status => pure (statusOf status)
      | none => pure 0
    else
      change fun system => (system.signal child signal).2
      let isKilled ← match (argument? given 'k').bind duration? with
        | some (some later) => do
            let now ← look (·.clock)
            let isGone ← waitUntil child (some (now + later))
            if !isGone then change fun system => (system.signal child 9).2
            pure !isGone
        | _ => pure false
      match ← awaitMembers false [child] with
      | some status =>
          if isGiven given '\x01' then pure (statusOf status)
          else pure (if isKilled || signal = 9 then 137 else 124)
      | none => pure 124
  waitUntil (child : Nat) (deadline? : Option Nat) : Routine Bool :=
    goRound (fun _ => do
      let isOver ← look (·.hasEnded child)
      if isOver then pure (.inr true)
      else
        match deadline? with
        | none =>
            block (·.hasEnded child)
            pure (.inl ())
        | some deadline =>
            let now ← look (·.clock)
            if deadline ≤ now then pure (.inr false)
            else
              pause (min 1000000 (deadline - now))
              pure (.inl ())) false rounds ()

/-- Runs a program with other variables, or lists the variables. -/
def env (become : Become) : Command := fun arguments => do
  let known : Known := .ofText "iu:0C:vS:" [("ignore-environment", 'i'), ("unset", 'u'),
    ("null", '0'), ("chdir", 'C'), ("debug", 'v'), ("split-string", 'S')]
  match known.read true arguments with
  | .error fault =>
      report fault.message
      refuseUsage 125
  | .ok (given, operands) =>
      let (clears, operands) := match operands with
        | ['-'] :: rest => (true, rest)
        | rest => (isGiven given 'i', rest)
      let words := (argument? given 'S').map fun t => (Text.splitOn ' ' t).filter (!·.isEmpty)
      let operands := words.getD [] ++ operands
      if clears then modify fun s => { s with bindings := [] }
      let unset := given.filterMap fun g => if g.1 = 'u' then g.2 else none
      for name in unset do modify fun s => s.removeVariable name
      let misnamed? := unset.find? fun name => name.isEmpty || name.contains '='
      let settings := operands.takeWhile (·.contains '=')
      let command := operands.drop settings.length
      for setting in settings do
        match Text.cut ['='] setting with
        | some (name, value) => modify fun s => s.setVariable name ⟨some value, true, false⟩
        | none => pure ()
      let isEntered ← match misnamed?, argument? given 'C' with
        | some name, _ =>
            report ("cannot unset " ++ (← marked name) ++ ": " ++ reason .invalidArgument)
            pure false
        | none, none => pure true
        | none, some path =>
            match (← find path).bind fun found => found.2.entrance.map fun _ => found.1 with
            | .ok n => do
                modify fun s => { s with directory := n }
                pure true
            | .error e => do
                report ("cannot change directory to " ++ (← quoted path) ++ ": " ++ reason e)
                pure false
      if !isEntered then pure 125
      else if command.isEmpty then
        let mark : Text := if isGiven given '0' then ['\x00'] else ['\n']
        for (name, v) in (← get).bindings do
          say (name ++ '=' :: v.value?.getD [] ++ mark)
        pure 0
      else
        let status ← becomeOrTell become command
        if status = 127 && (command.headD []).contains ' ' then
          report "use -[v]S to pass options in shebang lines"
        pure status

def printenv : Command := fun arguments =>
  withOptions (.ofText "0" [("null", '0')]) arguments fun given operands => do
    let mark : Text := if isGiven given '0' then ['\x00'] else ['\n']
    if operands.isEmpty then
      for (name, v) in (← get).bindings do
        say (name ++ '=' :: v.value?.getD [] ++ mark)
      pure 0
    else forEach operands fun name => do
      match (← get).value? name with
      | some value =>
          say (value ++ mark)
          pure 0
      | none => pure 1

/-- Runs a program that does not mind if its starter goes away. -/
def nohup (become : Become) : Command := fun arguments => do
  if arguments.isEmpty then
    report "missing operand"
    refuseUsage 125
  else
    let pid := (← get).pid
    change fun system => system.updateMember pid fun m => { m with ignored := 1 :: m.ignored }
    becomeOrTell become arguments

/-- Whether a text is a number with which a program can be made to yield to others. -/
def isAdjustment (t : Text) : Bool :=
  let digits := match t.dropWhile Text.isBlank with
    | '-' :: digits => digits
    | '+' :: digits => digits
    | digits => digits
  (Text.natural? digits).isSome

def nice (become : Become) : Command := fun arguments => do
  let isCount : Text → Bool
    | '-' :: '-' :: c :: _ => c.isDigit
    | '-' :: '+' :: c :: _ => c.isDigit
    | '-' :: c :: _ => c.isDigit
    | _ => false
  let counts := arguments.takeWhile isCount
  match (Known.ofText "n:" [("adjustment", 'n')]).read true (arguments.dropWhile isCount) with
  | .error fault =>
      report fault.message
      refuseUsage 125
  | .ok (given, command) =>
      let adjustment? := (argument? given 'n').or (counts.getLast?.map (·.drop 1))
      match adjustment?.filter (!isAdjustment ·), command with
      | some wrong, _ =>
          report ("invalid adjustment " ++ (← marked wrong))
          pure 125
      | none, [] =>
          if adjustment?.isSome then
            report "a command must be given with an adjustment"
            refuseUsage 125
          else
            say "0\n"
            pure 0
      | none, command => becomeOrTell become command

def pwd : Command := fun arguments =>
  withOptions (.ofText "LP" [("logical", 'L'), ("physical", 'P')]) arguments fun _ _ => do
    match ← inVolume fun v directory => v.path? directory with
    | some path =>
        say (Narrow.ofText path ++ ['\n'])
        pure 0
    | none =>
        report "couldn't find directory entry in '..' with matching i-node"
        pure 1

/-- Tells which terminal the input is; there is none. -/
def tty : Command := fun _ => do
  say "not a tty\n"
  pure 1

/-- Tells the name of the system. -/
def uname : Command := fun arguments =>
  withOptions (.ofText "s" [("kernel-name", 's')]) arguments fun _ operands => do
    match operands with
    | [] =>
        say "Linux\n"
        pure 0
    | extra :: _ =>
        report ("extra operand " ++ (← marked extra))
        refuseUsage 1

/-- Tells where programs are. -/
def which : Command := fun arguments => do
  let (given, names) := match (Known.ofText "as" []).read true arguments with
    | .ok result => result
    | .error _ => ([], [])
  forEach names fun name => do
    let paths ← pathsOf name
    let found ← paths.filterM fun path => do
      match ← find path with
      | .ok (_, node) => pure (node.isFile && node.grants .search)
      | .error _ => pure false
    for path in (if isGiven given 'a' then found else found.take 1) do
      say (path ++ ['\n'])
    pure (if found.isEmpty then 1 else 0)

/-- The programs by name. -/
def all (become : Become) : List (String × Command) :=
  [("true", fun _ => pure 0), ("false", fun _ => pure 1), ("echo", echo), ("printf", printf),
    ("test", Condition.test false), ("[", Condition.test true), ("pwd", pwd),
    ("kill", Signals.kill), ("sleep", sleep), ("timeout", timeout become), ("env", env become),
    ("printenv", printenv), ("nohup", nohup become), ("nice", nice become), ("which", which),
    ("mkdir", Files.mkdir), ("touch", Files.touch), ("rm", Files.rm), ("rmdir", Files.rmdir),
    ("cp", Files.cp), ("mv", Files.mv), ("ln", Files.ln), ("chmod", Files.chmod),
    ("ls", Files.ls), ("basename", Files.basename), ("dirname", Files.dirname),
    ("readlink", Files.readlink), ("realpath", Files.realpath), ("mktemp", Files.mktemp),
    ("mkfifo", Files.mkfifo), ("unlink", Files.unlink), ("link", Files.link),
    ("stat", Files.stat),
    ("cat", Filters.cat), ("tee", Filters.tee), ("yes", Filters.yes), ("head", Ends.head),
    ("tail", Ends.tail), ("tr", Characters.tr), ("wc", Counting.wc), ("cut", Columns.cut),
    ("paste", Columns.paste), ("fold", Filters.fold), ("tac", Filters.tac), ("rev", Filters.rev),
    ("nl", Filters.nl), ("seq", Sequence.seq), ("sort", Sorting.sort), ("uniq", Sorting.uniq),
    ("comm", Sorting.comm), ("cmp", Sorting.cmp), ("grep", Searching.grep),
    ("sed", Editing.sed (outputOf become)), ("cc", Preprocessing.compile),
    ("gcc", Preprocessing.compile), ("expr", Reckoning.expr),
    ("od", Dumping.od), ("dd", Copying.dd), ("truncate", Copying.truncate),
    ("find", Walking.find become), ("xargs", Walking.xargs become), ("tty", tty),
    ("sync", fun _ => pure 0), ("uname", uname)]

/-- The status of a program that could not write its output. -/
def faultyStatus (program : Text) (e : SystemError) : Nat :=
  match String.ofList program with
  | "sort" => 2
  | "grep" => 2
  | "ls" => 2
  | "printenv" => 2
  | "expr" => 3
  | "tty" => 3
  | "env" => 125
  | "nice" => 125
  | "rev" => if e = .badDescriptor then 0 else 1
  | _ => 1

/-- What a program says that could not write its output, because of a fault that was seen early or
only at its end. -/
def faultyOutput (program : Text) (isEarly : Bool) (e : SystemError) : List Text :=
  let usual : Text := "write error: " ++ reason e
  match String.ofList program with
  | "sort" =>
      [(if isEarly then "write failed" else "fflush failed") ++ ": 'standard output': " ++ reason e,
        "write error"]
  | "find" =>
      ["'standard output': " ++ reason e, if e = .badDescriptor then usual else "write error"]
  | "head" => [if isEarly then "error writing 'standard output': " ++ reason e else usual]
  | "tail" => [if isEarly then "error writing 'standard output': " ++ reason e else usual]
  | "wc" => [if e = .badDescriptor then usual else "write error"]
  | "rev" => if e = .badDescriptor then [] else [if isEarly then "write error" else usual]
  | "tac" => [if isEarly then "write error" else usual]
  | _ => [usual]

/-- Programs that read scripts. -/
def shells : List String := ["sh", "dash", "bash"]

def names : List Text :=
  (shells ++ (all fun _ _ => pure .notFound).map (·.1)).map String.toList

end Bytelink.Script.Programs
