import Bytelink.Host.Script.Filters

/-!
# Copying in blocks

The program that copies its input in blocks of a given size, from and to given places, and counts
the blocks; and the program that gives a file a certain size.
-/
namespace Bytelink.Script.Copying

open Routine

/-- A size: a number with a suffix that multiplies it, or a product of such. -/
def size? (t : Text) : Option Nat :=
  (Text.splitOn 'x' t).foldl (fun product? factor =>
    match product?, one? factor with
    | some product, some n => some (product * n)
    | _, _ => none) (some 1)
where
  one? (t : Text) : Option Nat :=
    let digits := t.takeWhile Char.isDigit
    let factor? : Option Nat := match String.ofList (t.drop digits.length) with
      | "" => some 1
      | "c" => some 1
      | "B" => some 1
      | "w" => some 2
      | "b" => some 512
      | "kB" | "KB" => some 1000
      | "k" | "K" | "KiB" => some 1024
      | "MB" => some 1000000
      | "M" | "MiB" => some 1048576
      | "GB" => some 1000000000
      | "G" | "GiB" => some 1073741824
      | _ => none
    if digits.isEmpty then none else factor?.map (Text.valueIn 10 digits * ·)

/-- What is to be copied and how. -/
structure Job where
  settings : List (Text × Text)

namespace Job

def known : List String :=
  ["if", "of", "bs", "ibs", "obs", "cbs", "count", "skip", "seek", "conv", "status", "iflag",
    "oflag"]

def text? (j : Job) (name : String) : Option Text := j.settings.lookup name.toList

def size (j : Job) (name : String) (otherwise : Nat) : Nat :=
  ((j.text? name).bind size?).getD otherwise

def has (j : Job) (name word : String) : Bool :=
  ((j.text? name).map (Text.splitOn ',')).any (·.contains word.toList)

def inputSize (j : Job) : Nat := j.size "bs" (j.size "ibs" 512)

def outputSize (j : Job) : Nat := j.size "bs" (j.size "obs" 512)

def isBlock (name : Text) : Bool := ["bs", "ibs", "obs", "cbs"].any (·.toList == name)

def isSize (name : Text) : Bool := isBlock name || ["count", "skip", "seek"].any (·.toList == name)

/-- Reads the settings, or tells of the first that is wrong. -/
def read : List Text → Except Complaint Job
  | [] => .ok ⟨[]⟩
  | t :: rest => do
      let name := t.takeWhile (· != '=')
      if name.length = t.length || !known.any (·.toList == name) then
        throw [.plain "unrecognized operand ", .name t]
      let value := t.drop (name.length + 1)
      if isSize name then
        match size? value with
        | none => throw [.plain "invalid number: ", .name value]
        | some n =>
            if n = 0 && isBlock name then
              throw [.plain "invalid number: ", .name value]
      let j ← read rest
      pure ⟨j.settings ++ [(name, value)]⟩

end Job

structure Blocks where
  full : Nat
  partials : Nat

def Blocks.count (b : Blocks) (isFull : Bool) : Blocks :=
  if isFull then { b with full := b.full + 1 } else { b with partials := b.partials + 1 }

def Blocks.shown (b : Blocks) : Text :=
  Text.decimal b.full ++ '+' :: Text.decimal b.partials ++ " records "

/-- How far the copying has come. -/
structure Progress where
  /-- How many blocks are still wanted, if that is limited. -/
  left? : Option Nat
  input : Blocks
  output : Blocks
  /-- How many bytes have been written, and what waits for a block to become full. -/
  written : Nat
  waiting : Bytes

/-- A block as the conversions want it. -/
def converted (j : Job) (bytes : Bytes) : Bytes :=
  let filled := if j.has "conv" "sync" then
      bytes ++ List.replicate (j.inputSize - bytes.length) 0
    else bytes
  if j.has "conv" "ucase" then Narrow.toBytes ((Narrow.ofBytes filled).map Char.toUpper)
  else if j.has "conv" "lcase" then Narrow.toBytes ((Narrow.ofBytes filled).map Char.toLower)
  else if j.has "conv" "swab" then swapped filled
  else filled
where
  /-- Every two bytes change places. -/
  swapped : Bytes → Bytes
    | a :: b :: rest => b :: a :: swapped rest
    | rest => rest

/-- Whether every block is written as it has been read. -/
def Job.isDirect (j : Job) : Bool :=
  (j.text? "bs").isSome && ["ucase", "lcase", "swab"].all (!j.has "conv" ·)

/-- Reads some bytes from a descriptor and forgets them; yields how many are missing. -/
def skipBytes (descriptor count : Nat) : Routine Nat :=
  goRound (fun left => do
    if left = 0 then pure (.inr 0)
    else
      match ← readSome descriptor (min left 65536) with
      | .ok [] => pure (.inr left)
      | .ok bytes => pure (.inl (left - bytes.length))
      | .error _ => pure (.inr left)) count rounds count

/-- Reads a block, in one piece or, if it has to be full, in several. -/
def readBlock (isWhole : Bool) (descriptor size : Nat) : Routine (Except SystemError Bytes) :=
  goRound (fun before => do
    match ← readSome descriptor (size - before.length) with
    | .error e => pure (.inr (if before.isEmpty then .error e else .ok before))
    | .ok bytes =>
        let block := before ++ bytes
        if bytes.isEmpty || !isWhole || size ≤ block.length then pure (.inr (.ok block))
        else pure (.inl block)) (.ok []) rounds []

/-- Writes a block of the output; a fault comes with what was being done. -/
def deliver (j : Job) (doing : Text) (output : Nat) (block : Bytes) (p : Progress) :
    Routine (Option Text × Progress) := do
  match ← write output block with
  | .ok () =>
      let size := if j.isDirect then j.inputSize else j.outputSize
      pure (none, { p with
        output := p.output.count (block.length = size), written := p.written + block.length })
  | .error e =>
      let place ← quoted ((j.text? "of").getD "standard output")
      pure (some (doing ++ place ++ ": " ++ reason e), p)

def deliverFull (j : Job) (output : Nat) (p : Progress) : Routine (Option Text × Progress) :=
  goRound (fun (p : Progress) => do
    if p.waiting.length < j.outputSize then pure (.inr (none, p))
    else
      let (block, waiting) := p.waiting.splitAt j.outputSize
      match ← deliver j "writing to " output block { p with waiting := waiting } with
      | (none, p) => pure (.inl p)
      | (fault, p) => pure (.inr (fault, { p with waiting := [] }))) (none, p) rounds p

/-- Copies blocks until there is no more. Yields whether all went well. -/
def copyBlocks (j : Job) (input output : Nat) (start : Progress) : Routine (Bool × Progress) := do
  let (isFine, p) ← goRound (fun (p : Progress) => do
    if p.left? = some 0 then pure (.inr (true, p))
    else
      match ← readBlock (j.has "iflag" "fullblock") input j.inputSize with
      | .error e =>
          report ("error reading " ++ (← quoted ((j.text? "if").getD "standard input")) ++ ": " ++
            reason e)
          pure (.inr (false, p))
      | .ok [] => pure (.inr (true, p))
      | .ok bytes =>
          let block := converted j bytes
          let p := { p with
            left? := p.left?.map (· - 1), input := p.input.count (bytes.length = j.inputSize) }
          let (fault?, p) ← if j.isDirect then deliver j "error writing " output block p
            else deliverFull j output { p with waiting := p.waiting ++ block }
          match fault? with
          | none => pure (.inl p)
          | some message =>
              report message
              pure (.inr (false, p))) (true, start) rounds start
  if p.waiting.isEmpty then pure (isFine, p)
  else
    match ← deliver j "error writing " output p.waiting p with
    | (none, p) => pure (isFine, p)
    | (some message, p) =>
        report message
        pure (false, p)

/-- A number of bytes in some unit, with one digit behind the point if it is small. -/
def inUnits (base : Nat) (units : List String) (n : Nat) : Text :=
  go units n 1
where
  go : List String → Nat → Nat → Text
    | [], n, _ => Text.decimal n
    | unit :: rest, n, scale =>
        let scale := scale * base
        let tenths := (10 * n + scale - 1) / scale
        if rest.isEmpty || tenths < 10 * base then
          (if tenths < 100 then Text.decimal (tenths / 10) ++ '.' :: Text.decimal (tenths % 10)
            else Text.decimal ((tenths + 9) / 10)) ++ ' ' :: unit.toList
        else go rest n scale

/-- The line about the bytes that were copied. -/
def summary (n : Nat) : Text :=
  let count := Text.decimal n
  let amount : Text :=
    if n = 1 then "1 byte copied"
    else if n < 1000 then count ++ " bytes copied"
    else
      let decimals := inUnits 1000 ["kB", "MB", "GB", "TB"] n
      let binaries : Text := if n < 1024 then []
        else ", " ++ inUnits 1024 ["KiB", "MiB", "GiB", "TiB"] n
      count ++ " bytes (" ++ decimals ++ binaries ++ ") copied"
  amount ++ ", 0.001 s, " ++ inUnits 1000 ["kB/s", "MB/s", "GB/s", "TB/s"] (1000 * n)

def openOutput (j : Job) : Routine (Except SystemError Nat) := do
  let start := j.size "seek" 0 * j.outputSize
  match j.text? "of" with
  | none => pure (.ok 1)
  | some path =>
      let keeps := j.has "conv" "notrunc"
      if start = 0 && !keeps then openFile path .writing
      else
        match ← openFile path .both with
        | .error e => pure (.error e)
        | .ok descriptor =>
            if !keeps then
              let pid := (← get).pid
              change (·.resize pid descriptor fun size => min size start)
            let missing ← skipBytes descriptor start
            let _ ← write descriptor (List.replicate missing 0)
            pure (.ok descriptor)

def dd : Command := fun arguments => do
  match Job.read (arguments.filter (· ≠ ['-', '-'])) with
  | .error problem =>
      reportPhrases problem
      if problem.head? = some (.plain "unrecognized operand ") then refuseUsage 1 else pure 1
  | .ok j =>
      let refused (path : Text) (e : SystemError) : Routine Nat := do
        report ("failed to open " ++ (← quoted path) ++ ": " ++ reason e)
        pure 1
      match ← (match j.text? "if" with
        | none => pure (Except.ok 0)
        | some path => openFile path .reading) with
      | .error e => refused ((j.text? "if").getD []) e
      | .ok input =>
          match ← openOutput j with
          | .error e => refused ((j.text? "of").getD []) e
          | .ok output =>
              let told := (j.text? "status").getD []
              let pid := (← get).pid
              let missing ← skipBytes input (j.size "skip" 0 * j.inputSize)
              let isDevice ← look fun system => match system.endpoint? pid input with
                | some (.device _ _) => true
                | _ => false
              if missing ≠ 0 && !isDevice && told ≠ ("none" : Text) then
                report ((← quotedIfNeeded ((j.text? "if").getD "standard input")) ++
                  ": cannot skip to specified offset")
              let count? := (j.text? "count").bind size?
              let (isFine, p) ← copyBlocks j input output ⟨count?, ⟨0, 0⟩, ⟨0, 0⟩, 0, []⟩
              let isClosed (number : Nat) : Routine Bool :=
                look fun system => (system.descriptor? pid number).isNone
              if ← isClosed input then
                report ("closing input file " ++
                  (← quoted ((j.text? "if").getD "standard input")) ++ ": " ++ reason .badDescriptor)
                pure 1
              else if ← isClosed output then
                report ("closing output file " ++
                  (← quoted ((j.text? "of").getD "standard output")) ++ ": " ++
                  reason .badDescriptor)
                pure 1
              else
                if told ≠ ("none" : Text) then
                  complain (p.input.shown ++ "in\n" ++ p.output.shown ++ "out" ++
                    (if told = ("noxfer" : Text) then [] else '\n' :: summary p.written))
                pure (if isFine then 0 else 1)

/-- Gives files a size: what is behind it is cut off, what is missing is filled with zeros. -/
def truncate : Command := fun arguments =>
  withOptions (.ofText "cos:r:" [("no-create", 'c'), ("size", 's'), ("reference", 'r')]) arguments
    fun given operands => do
      match argument? given 's' with
      | none =>
          reportPhrases [.plain "you must specify either ", .word "--size", .plain " or ",
            .word "--reference"]
          refuseUsage 1
      | some size =>
          let (sign, digits) := match size with
            | c :: rest => if ("+-<>".toList).contains c then (c, rest) else (' ', size)
            | [] => (' ', [])
          match size? digits with
          | none =>
              report ("Invalid number: " ++ (← marked size))
              pure 1
          | some n =>
              if operands.isEmpty then
                report "missing file operand"
                refuseUsage 1
              else forEach operands fun operand => do
                if isGiven given 'c' && !(← find operand).isOk then pure 0
                else
                  match ← openFile operand .updating with
                  | .error e =>
                      report ("cannot open " ++ (← quoted operand) ++ " for writing: " ++ reason e)
                      pure 1
                  | .ok descriptor =>
                      let pid := (← get).pid
                      change (·.resize pid descriptor fun size => match sign with
                        | '+' => size + n
                        | '-' => size - n
                        | '<' => min size n
                        | '>' => max size n
                        | _ => n)
                      close descriptor
                      pure 0

end Bytelink.Script.Copying
