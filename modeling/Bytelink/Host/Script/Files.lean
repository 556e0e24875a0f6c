import Bytelink.Host.Script.Modes
import Bytelink.Text.Search

/-!
# Making and removing files

Programs that make directories, files and pipes, set their times and remove them. A failure is told
on the error channel, and the program goes on with its next operand.
-/
namespace Bytelink.Script.Files

open Routine

/-- A path without the slashes at its end; of slashes alone one stays. -/
def bare (t : Text) : Text :=
  match (t.reverse.dropWhile (· == '/')).reverse with
  | [] => t.take 1
  | t => t

def lastStep (t : Text) : Text :=
  match ((bare t).reverse.takeWhile (· != '/')).reverse with
  | [] => (bare t).take 1
  | step => step

/-- The path above the last step. -/
def above (t : Text) : Text :=
  match ((bare t).reverse.dropWhile (· != '/')).reverse with
  | [] => if t.head? = some '/' then ['/'] else ['.']
  | t => bare t

def inside (directory name : Text) : Text :=
  if directory.getLast? = some '/' then directory ++ name else directory ++ '/' :: name

def isDirectory (t : Text) : Routine Bool :=
  inVolume fun v here => v.isDirectory here (pathOf t)

/-- The names in a directory, in the order of their making. -/
def names (t : Text) : Routine (Except SystemError (List Text)) :=
  inVolume fun v here => (v.entryNames here (pathOf t)).map fun names => names.map Narrow.ofText

/-- How deep directories may stand in directories. -/
def depthLimit : Nat := 2000

/-- Asks a question on the error channel, and says whether the answer is yes. -/
def confirm (question : Text) : Routine Bool := do
  flush
  let _ ← write 2 (Narrow.toBytes ((← get).name ++ ": " ++ question))
  match ← Routine.readLine 0 with
  | .ok (first :: _) => pure (first == 0x79 || first == 0x59)
  | _ => pure false

/-- Makes a directory and the directories above it, step by step, and tells of each if asked to. -/
def makeSteps (tells : Bool) (mode : Nat) (t : Text) : Routine Nat :=
  go (if t.head? = some '/' then ['/'] else []) ((Text.splitOn '/' t).filter (!·.isEmpty))
where
  go (begun : Text) : List Text → Routine Nat
    | [] => pure 0
    | step :: rest => do
        let path := if begun.isEmpty then step else inside begun step
        let refuse (e : SystemError) : Routine Nat := do
          settle ("cannot create directory " ++ (← marked path)) (.error e)
        match ← find path with
        | .ok (_, node) =>
            if node.isDirectory then go path rest
            else refuse (if rest.isEmpty then .alreadyExists else .notADirectory)
        | .error _ =>
            let usual ← masked 0o777
            let stepMode := if rest.isEmpty then mode else usual ||| 0o300
            match ← attempt fun v here => v.makeDirectory here (pathOf path) stepMode with
            | .ok () => do
                if tells then
                  say ((← get).name ++ ": created directory " ++ (← quoted path) ++ ['\n'])
                go path rest
            | .error e => refuse e

/-- The mode of something new: the usual one without what new files do not get, or one that is
asked for. Tells if there is no such mode. -/
def newMode (given : List Given) (usual : Nat) : Routine (Option Nat) := do
  match argument? given 'm' with
  | none => some <$> masked usual
  | some t => match Mode.read? t with
    | some steps => return some (Mode.apply true (← get).mask usual steps)
    | none => do
        let written ← marked t
        report ("invalid mode" ++
          if (← get).name = ("mkfifo" : Text) then [] else ' ' :: written)
        pure none

def mkdir : Command := fun arguments =>
  withOptions (.ofText "pvm:Z" [("mode", 'm'), ("parents", 'p'), ("verbose", 'v')]) arguments
    fun given operands => do
      if operands.isEmpty then refuseMissing
      else
        let tells := isGiven given 'v'
        match ← newMode given 0o777 with
        | none => pure 1
        | some mode =>
            forEach operands fun operand => do
              if isGiven given 'p' then makeSteps tells mode operand
              else
                let result ← attempt fun v here => v.makeDirectory here (pathOf operand) mode
                if tells && result.toOption.isSome then
                  say ((← get).name ++ ": created directory " ++ (← quoted operand) ++ ['\n'])
                settle ("cannot create directory " ++ (← marked operand)) result

def mkfifo : Command := fun arguments =>
  withOptions (.ofText "m:Z" [("mode", 'm')]) arguments fun given operands => do
    if operands.isEmpty then refuseMissing
    else match ← newMode given 0o666 with
      | none => pure 1
      | some mode =>
          forEach operands fun operand => do
            let result ← attempt fun v here => v.make here (pathOf operand) .queue mode
            settle ("cannot create fifo " ++ (← quoted operand)) result

def dayNumber (year month day : Int) : Int :=
  let y := if month ≤ 2 then year - 1 else year
  let era := y.fdiv 400
  let ofEra := y - era * 400
  let ofYear := (153 * (month + (if 2 < month then -3 else 9)) + 2).fdiv 5 + day - 1
  era * 146097 + ofEra * 365 + ofEra.fdiv 4 - ofEra.fdiv 100 + ofYear - 719468

/-- The beginning of the clock, in seconds since the first day of 1970. -/
def clockStart : Int := 1750000000

def clockTime (year month day hour minute second : Int) : Int :=
  (dayNumber year month day * 86400 + hour * 3600 + minute * 60 + second - clockStart) * 1000000000

/-- A time such as `202401312359.59`. -/
def stamp? (t : Text) : Option Int :=
  let (main, seconds) := match Text.cut ['.'] t with
    | some (main, seconds) => (main, seconds)
    | none => (t, ['0', '0'])
  if !main.all Char.isDigit || !seconds.all Char.isDigit || seconds.length ≠ 2 then none
  else
    let pair (t : Text) : Int := Text.valueIn 10 (t.take 2)
    let with_ (year : Int) (t : Text) : Option Int :=
      some (clockTime year (pair t) (pair (t.drop 2)) (pair (t.drop 4)) (pair (t.drop 6))
        (pair seconds))
    match main.length with
    | 8 => with_ 2025 main
    | 10 =>
        let year := pair main
        with_ (if year < 69 then 2000 + year else 1900 + year) (main.drop 2)
    | 12 => with_ (Text.valueIn 10 (main.take 4)) (main.drop 4)
    | _ => none

def unitSeconds? (t : Text) : Option Int :=
  let t := if t.getLast? = some 's' then t.dropLast else t
  match String.ofList t with
  | "sec" => some 1
  | "second" => some 1
  | "min" => some 60
  | "minute" => some 60
  | "hour" => some 3600
  | "day" => some 86400
  | "week" => some 604800
  | "fortnight" => some 1209600
  | "month" => some 2592000
  | "year" => some 31536000
  | _ => none

/-- A time in words, such as `2024-01-31 23:59`, `@0` or `2 days ago`. -/
def spoken? (now : Int) (t : Text) : Option Int :=
  let words := (Text.splitOn ' ' t).filter (!·.isEmpty)
  let numbers (mark : Char) (t : Text) : Option (List Int) :=
    (Text.splitOn mark t).mapM fun n => (Text.natural? n).map Int.ofNat
  let shift (n unit : Text) (sign : Int) : Option Int := do
    let (sign, n) := match n with
      | '-' :: n => (-sign, n)
      | '+' :: n => (sign, n)
      | n => (sign, n)
    let count ← Text.natural? n
    let seconds ← unitSeconds? unit
    some (now + sign * count * seconds * 1000000000)
  match words with
  | [] => none
  | [['n', 'o', 'w']] => some now
  | ['@' :: digits] =>
      let (sign, digits) : Int × Text := match digits with
        | '-' :: digits => (-1, digits)
        | digits => (1, digits)
      (Text.natural? digits).map fun n => (sign * n - clockStart) * 1000000000
  | [word] =>
      if word = ("yesterday" : Text) then some (now - 86400000000000)
      else if word = ("tomorrow" : Text) then some (now + 86400000000000)
      else match numbers '-' word with
        | some [year, month, day] => some (clockTime year month day 0 0 0)
        | _ => none
  | [first, second] =>
      match numbers '-' first, numbers ':' second with
      | some [year, month, day], some [hour, minute] =>
          some (clockTime year month day hour minute 0)
      | some [year, month, day], some [hour, minute, second] =>
          some (clockTime year month day hour minute second)
      | _, _ => if first = ("last" : Text) then shift ['1'] second (-1)
          else if first = ("next" : Text) then shift ['1'] second 1
          else shift first second 1
  | [n, unit, ['a', 'g', 'o']] => shift n unit (-1)
  | _ => none

/-- Sets the time of a file, which is made if it is not there. -/
def touchOne (makes : Bool) (time? : Option Int) (path : Text) : Routine Nat := do
  let opened ← if makes then openFile path .updating else pure (.error .isADirectory)
  match opened with
  | .ok descriptor => close descriptor
  | .error _ => pure ()
  let result ← attempt fun v here => do
    let n ← v.find here (pathOf path)
    let node := v.node n
    let time := time?.getD (v.time : Int)
    if node.isOwn || time?.isNone && node.grants .write then
      pure (v.setModified n time)
    else throw (if time?.isNone then .permissionDenied else .notPermitted)
  match opened, result with
  | _, .ok () => pure 0
  | .error e, .error later =>
      if makes && e != .isADirectory then
        settle ("cannot touch " ++ (← quoted path)) (.error e)
      else if !makes && later = .notFound then pure 0
      else settle ("setting times of " ++ (← quoted path)) (.error later)
  | .ok _, .error later =>
      settle ("setting times of " ++ (← quoted path)) (.error later)

def touch : Command := fun arguments =>
  withOptions (.ofText "acmhd:r:t:f" [("time", 'T'), ("no-create", 'c'), ("date", 'd'),
      ("reference", 'r'), ("no-dereference", 'h')]) arguments fun given operands => do
    let now ← look fun system => (system.volume.time : Int)
    let time? : Except Text (Option Int) ← match argument? given 'r', argument? given 't',
        argument? given 'd' with
      | some path, _, _ => match ← find path with
        | .ok (_, node) => pure (.ok (some node.modified))
        | .error e =>
            pure (.error ("failed to get attributes of " ++ (← quoted path) ++ ": " ++ reason e))
      | none, some t, _ => match stamp? t with
        | some time => pure (.ok (some time))
        | none => pure (.error ("invalid date format " ++ (← marked t)))
      | none, none, some t => match spoken? now t with
        | some time => pure (.ok (some time))
        | none => pure (.error ("invalid date format " ++ (← marked t)))
      | none, none, none => pure (.ok none)
    match time? with
    | .error message =>
        report message
        pure 1
    | .ok time? =>
        if operands.isEmpty then
          report "missing file operand"
          refuseUsage 1
        else
          forEach (operands.filter (· ≠ ['-'])) (touchOne (!isGiven given 'c') time?)

structure Removing where
  isForced : Bool
  isDeep : Bool
  takesEmpty : Bool
  asks : Bool
  tells : Bool
  deriving DecidableEq, Repr

/-- What is removed, in words. -/
def kindName (n : Inode) : Text :=
  match n.content with
  | .directory _ _ => "directory"
  | .file bytes => if bytes.isEmpty then "regular empty file" else "regular file"
  | .link _ => "symbolic link"
  | .queue => "fifo"
  | .device _ _ => "character special file"

/-- Removes what stands under a path, a directory with all that is in it, the content first. -/
def removeDeep (c : Removing) : Nat → Text → Routine Nat
  | 0, _ => pure 1
  | fuel + 1, path => do
      let refuse (e : SystemError) : Routine Nat := do
        settle ("cannot remove " ++ (← quoted path)) (.error e)
      match ← findEntry path with
      | .error e => if c.isForced && (e = .notFound || e = .notADirectory) then pure 0 else refuse e
      | .ok (_, node) =>
          if !node.isDirectory then
            let isWanted ← if c.asks then
                confirm ("remove " ++ kindName node ++ " " ++ (← quoted path) ++ "? ")
              else pure true
            if !isWanted then return 0
            match ← attempt fun v here => v.removeFile here (pathOf path) with
            | .error e => refuse e
            | .ok () =>
                if c.tells then say ("removed " ++ (← quoted path) ++ ['\n'])
                pure 0
          else
            let take (otherwise : SystemError → SystemError) : Routine Nat := do
              let isWanted ← if c.asks then
                  confirm ("remove directory " ++ (← quoted path) ++ "? ")
                else pure true
              if !isWanted then return 0
              match ← attempt fun v here => v.removeDirectory here (pathOf path) with
              | .error e => refuse (otherwise e)
              | .ok () =>
                  if c.tells then say ("removed directory " ++ (← quoted path) ++ ['\n'])
                  pure 0
            if !c.isDeep then
              if c.takesEmpty then take id else refuse .isADirectory
            else
              match ← names path with
              | .error e => take fun _ => e
              | .ok below =>
                  let isEntered ← if c.asks && !below.isEmpty then
                      confirm ("descend into directory " ++ (← quoted path) ++ "? ")
                    else pure true
                  if !isEntered then pure 0
                  else
                    let status ← forEach below fun name =>
                      removeDeep { c with isForced := false } fuel (inside path name)
                    let left := ((← names path).toOption.getD []).length
                    if status ≠ 0 then pure status
                    else if c.asks && left ≠ 0 then pure 0
                    else take id

/-- Tells how to name an operand that looks like an option. -/
def hintOperands (arguments : List Text) : Routine Unit := do
  let present ← arguments.filterM fun t => do
    match t with
    | '-' :: _ :: _ => return (← findEntry t).toOption.isSome
    | _ => pure false
  match present with
  | [] => pure ()
  | t :: _ =>
      complain ("Try '" ++ (← get).name ++ " ./" ++ (← quotedIfNeeded t) ++
        "' to remove the file " ++ (← quoted t) ++ ['.'])

def rm : Command := fun arguments => do
  let known : Known := .ofText "fiIrRdv\x01\x02\x03" [("force", 'f'), ("interactive", 'i'),
    ("one-file-system", '\x01'), ("no-preserve-root", '\x02'), ("preserve-root", '\x03'),
    ("recursive", 'r'), ("dir", 'd'), ("verbose", 'v')]
  match known.read false arguments with
  | .error fault =>
      report fault.message
      hintOperands arguments
      refuseUsage 1
  | .ok (given, operands) => do
      let isForced := lastOf? given ['f', 'i', 'I'] == some 'f'
      let isDeep := isGiven given 'r' || isGiven given 'R'
      let c : Removing := ⟨isForced, isDeep, isGiven given 'd',
        lastOf? given ['f', 'i', 'I'] == some 'i', isGiven given 'v'⟩
      if operands.isEmpty && !isForced then refuseMissing
      else
        let asksOnce := lastOf? given ['f', 'i', 'I'] == some 'I' &&
          (isDeep || 3 < operands.length)
        let isWanted ← if asksOnce then
            confirm ("remove " ++ Text.decimal operands.length ++ " argument" ++
              (if operands.length = 1 then [] else ['s']) ++
              (if isDeep then " recursively? " else "? "))
          else pure true
        if !isWanted then pure 0
        else
          forEach operands fun operand => do
            let step := lastStep operand
            if isDeep && (step = ['.'] || step = ['.', '.']) then
              report ("refusing to remove '.' or '..' directory: skipping " ++
                (← quoted operand))
              pure 1
            else if isDeep && !operand.isEmpty && bare operand = ['/'] then
              report "it is dangerous to operate recursively on '/'"
              report "use --no-preserve-root to override this failsafe"
              pure 1
            else removeDeep c depthLimit operand

def removeEmpty (tells isLenient isAbove : Bool) (t : Text) : Routine Nat := do
  if tells then say ((← get).name ++ ": removing directory, " ++ (← quoted t) ++ ['\n'])
  match ← attempt fun v here => v.removeDirectory here (pathOf t) with
  | .ok () => pure 0
  | .error e =>
      if isLenient && e = .notEmpty then pure 0
      else
        let isLink := t.getLast? = some '/' &&
          (← findEntry (bare t)).toOption.any fun found => found.2.isLink
        let message : Text := if e = .notADirectory && isLink then "Symbolic link not followed"
          else reason e
        let kind : Text := if isAbove then "failed to remove directory " else "failed to remove "
        report (kind ++ (← quoted t) ++ ": " ++ message)
        pure 1

/-- The paths above a path that it names. -/
def parents : Nat → Text → List Text
  | 0, _ => []
  | fuel + 1, t =>
      if t.contains '/' && above t != ['/'] && !(t.head? = some '/' && above t = ['/']) then
        let up := above t
        if up = ['.'] && !(['.', '/'] : Text).isPrefixOf t then []
        else up :: parents fuel up
      else []

def rmdir : Command := fun arguments =>
  withOptions (.ofText "pv\x01" [("ignore-fail-on-non-empty", '\x01'), ("path", 'p'),
      ("parents", 'p'), ("verbose", 'v')]) arguments fun given operands => do
    if operands.isEmpty then refuseMissing
    else
      let tells := isGiven given 'v'
      let isLenient := isGiven given '\x01'
      forEach operands fun operand => do
        let mut status ← removeEmpty tells isLenient false operand
        if isGiven given 'p' then
          for path in parents (operand.length + 1) (bare operand) do
            if status = 0 then status := ← removeEmpty tells isLenient true path
        pure status

/-- Removes a single name. -/
def unlink : Command := fun arguments =>
  withOptions (.ofText "" []) arguments fun _ operands => do
    match operands with
    | [] => refuseMissing
    | [t] =>
        let result ← attempt fun v here => v.removeFile here (pathOf t)
        settle ("cannot unlink " ++ (← quoted t)) result
    | _ :: extra :: _ =>
        report ("extra operand " ++ (← marked extra))
        refuseUsage 1

end Bytelink.Script.Files
