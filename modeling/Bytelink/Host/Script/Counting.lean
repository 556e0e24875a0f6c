import Bytelink.Host.Script.Stream

/-!
# Counting

`wc` counts the lines, words, characters and bytes of files and finds their longest lines. A word is
a run of characters that can be seen; where the surroundings ask for it, the bytes of a character
are taken together.
-/
namespace Bytelink.Script.Counting

open Routine

structure Counts where
  lines : Nat
  words : Nat
  chars : Nat
  bytes : Nat
  longest : Nat
  deriving DecidableEq, Repr

namespace Counts

def zero : Counts := ⟨0, 0, 0, 0, 0⟩

def add (a b : Counts) : Counts :=
  ⟨a.lines + b.lines, a.words + b.words, a.chars + b.chars, a.bytes + b.bytes,
    max a.longest b.longest⟩

end Counts

/-- Counts under way: whether a word is open, and the width of the line so far. -/
structure Progress where
  counts : Counts
  isInWord : Bool
  width : Nat
  deriving DecidableEq, Repr

/-- Spaces between words, some of which do not let a line break. -/
def isSpace (c : Char) : Bool :=
  Text.isBlank c && c != '\x85' && c != '\u2028' && c != '\u2029' || c == '\u2060'

def columnsOf (c : Char) : Nat :=
  let wide : List (Nat × Nat) :=
    [(0x1100, 0x115F), (0x2E80, 0x303E), (0x3041, 0x33FF), (0x3400, 0x4DBF), (0x4E00, 0x9FFF),
      (0xA000, 0xA4CF), (0xA960, 0xA97C), (0xAC00, 0xD7A3), (0xF900, 0xFAFF), (0xFE30, 0xFE6F),
      (0xFF01, 0xFF60), (0xFFE0, 0xFFE6), (0x1F300, 0x1F64F), (0x1F680, 0x1F6FF),
      (0x1F900, 0x1F9FF), (0x20000, 0x3FFFD)]
  if c ≤ '~' then 1
  else if Text.inRanges Text.extendingRanges c then 0
  else if Text.inRanges wide c then 2 else 1

/-- Counts a character; one that stands for a single byte without a meaning is none. -/
def Progress.add (s : Progress) (c : Char) : Progress :=
  let k := s.counts
  let isChar := !Wide.isByte c
  let ended (width : Nat) : Progress :=
    { counts := { k with
        lines := if c = '\n' then k.lines + 1 else k.lines
        words := if s.isInWord then k.words + 1 else k.words
        chars := k.chars + 1
        longest := max k.longest s.width }
      isInWord := false
      width := width }
  match c with
  | '\n' => ended 0
  | '\x0d' => ended 0
  | '\x0c' => ended 0
  | '\t' => ended ((s.width / 8 + 1) * 8)
  | ' ' => ended (s.width + 1)
  | '\x0b' => ended s.width
  | c =>
      if !isChar then s
      else if !Quoting.isShown c && !isSpace c then
        { s with counts := { k with chars := k.chars + 1 } }
      else if isSpace c then ended (s.width + columnsOf c)
      else { counts := { k with chars := k.chars + 1 }
             isInWord := true
             width := s.width + columnsOf c }

/-- The counts when nothing more comes. -/
def Progress.finished (s : Progress) : Counts :=
  { s.counts with
    words := if s.isInWord then s.counts.words + 1 else s.counts.words
    longest := max s.counts.longest s.width }

def splitComplete (t : Text) : Text × Text :=
  let isLater (c : Char) : Bool := '\x80' ≤ c && c < '\xc0'
  let back := (t.reverse.take 3).takeWhile isLater
  match t.reverse.drop back.length with
  | c :: _ =>
      if '\xc0' ≤ c && back.length + 1 < Wide.sizeOf c then
        (t.take (t.length - back.length - 1), c :: back.reverse)
      else (t, [])
  | [] => (t, [])

def countAll (isUnicode : Bool) (descriptor : Nat) : Routine (Counts × Option SystemError) :=
  goRound (fun (s, left, size) => do
    let ended (left : Text) : Counts :=
      let counts := (left.foldl (fun (s : Progress) c => s.add (Wide.ofByte c)) s).finished
      { counts with chars := if isUnicode then counts.chars else size, bytes := size }
    match ← readSome descriptor chunkSize with
    | .ok [] => pure (.inr (ended left, none))
    | .ok bytes =>
        let t := left ++ Narrow.ofBytes bytes
        let (t, left) := if isUnicode then splitComplete t else (t, [])
        let t := if isUnicode then Wide.ofNarrow t
          else t.map fun c => if c ≤ '\x7f' then c else Wide.ofByte c
        pure (.inl (t.foldl Progress.add s, left, size + bytes.length))
    | .error e => pure (.inr (ended left, some e)))
    (.zero, none) rounds (⟨.zero, false, 0⟩, ([] : Text), 0)

def sizeOf? (operand : Text) : Routine (Option (Option Nat)) := do
  let pid := (← get).pid
  if operand = ['-'] then
    look fun system => match system.endpoint? pid 0 with
      | some (.file n) => some (some (system.volume.node n).bytes.size)
      | some _ => some none
      | none => none
  else
    match ← find operand with
    | .ok (_, node) => pure (some (if node.isFile then some node.bytes.size else none))
    | .error _ => pure none

/-- How wide the columns are: wide enough for the sizes of all ordinary files together. -/
def columnWidth (columns : Nat) (operands : List Text) : Routine Nat := do
  if operands.length ≤ 1 && columns = 1 then pure 1
  else
    let sizes ← (if operands.isEmpty then [['-']] else operands).mapM sizeOf?
    let known := sizes.filterMap id
    let total := (known.map (·.getD 0)).foldl (· + ·) 0
    let least := if known.any Option.isNone then 7 else 1
    pure (max least (Text.decimal total).length)

/-- When the sums of all files are shown. -/
inductive Total
  | whenSeveral
  | always
  | alone
  | never
  deriving DecidableEq, Repr

def known : Known :=
  .ofText "clLmw\x01:\x02:" [("bytes", 'c'), ("chars", 'm'), ("lines", 'l'), ("words", 'w'),
    ("files0-from", '\x01'), ("max-line-length", 'L'), ("total", '\x02')]

def countFiles (letters : List Char) (isNamed : Bool) (total : Total) (operands : List Text) :
    Routine Nat := do
  let columns (k : Counts) : List Nat :=
    [('l', k.lines), ('w', k.words), ('m', k.chars), ('c', k.bytes), ('L', k.longest)].filterMap
      fun c => if letters.contains c.1 then some c.2 else none
  let width ← if total = .alone then pure 1 else columnWidth letters.eraseDups.length operands
  let show_ (k : Counts) (name : Text) : Routine Unit :=
    say (Text.join [' '] ((columns k).map fun n => padLeft width (Text.decimal n)) ++
      (if name.isEmpty then [] else ' ' :: name) ++ ['\n'])
  let isUnicode := (← get).isUnicode
  let mut status := 0
  let mut sum := Counts.zero
  for operand in operands do
    if operand.isEmpty then
      report "invalid zero-length file name"
      status := 1
    else
      let name ← quotedIfNeeded (if operand = ['-'] then "standard input" else operand)
      match ← openInput operand with
      | .error e =>
          report (name ++ ": " ++ reason e)
          status := 1
      | .ok descriptor =>
          let (counts, e?) ← countAll isUnicode descriptor
          closeInput descriptor
          match e? with
          | some e =>
              report (name ++ ": " ++ reason e)
              status := 1
          | none => pure ()
          sum := sum.add counts
          if total != .alone then show_ counts (if isNamed then operand else [])
  let isShown : Bool := match total with
    | .whenSeveral => 1 < operands.length
    | .always => true
    | .alone => true
    | .never => false
  if isShown then show_ sum (if total = .alone then [] else "total")
  endInput ['-'] operands status

def wc : Command := fun arguments =>
  withOptions known arguments fun given operands => do
    let letters := (given.map (·.1)).filter (['c', 'l', 'L', 'm', 'w'] : Text).contains
    let letters := if letters.isEmpty then ['l', 'w', 'c'] else letters
    let total : Except Complaint Total := match argument? given '\x02' with
      | none => .ok .whenSeveral
      | some t => chosen "--total" [("auto", Total.whenSeveral), ("always", .always),
          ("only", .alone), ("never", .never)] t
    match total, argument? given '\x01' with
    | .error problem, _ =>
        reportPhrases problem
        refuseUsage 1
    | .ok total, none =>
        countFiles letters (!operands.isEmpty) total
          (if operands.isEmpty then [['-']] else operands)
    | .ok total, some list =>
        match operands with
        | extra :: _ =>
            report ("extra operand " ++ (← quoted extra) ++
              "\nfile operands cannot be combined with --files0-from")
            refuseUsage 1
        | [] => match ← load list with
          | .error e =>
              report ("cannot open " ++ (← quoted list) ++ " for reading: " ++ reason e)
              pure 1
          | .ok bytes =>
              let names := Text.splitOn '\x00' (Narrow.ofBytes bytes)
              countFiles letters true total
                (if names.getLast? = some [] then names.dropLast else names)

end Bytelink.Script.Counting
