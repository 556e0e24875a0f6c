import Bytelink.Host.Script.Stream

/-!
# Columns

`cut` keeps chosen positions or fields of each line, and `paste` sets the lines of several files
next to each other.
-/
namespace Bytelink.Script.Columns

open Routine

/-- Which positions are wanted, from 1 on: pairs of first and last. -/
abbrev Ranges := List (Nat × Option Nat)

namespace Ranges

def admits (r : Ranges) (n : Nat) : Bool :=
  r.any fun (low, high?) => low ≤ n && high?.all (n ≤ ·)

/-- The same positions in order, where ranges that overlap are one. -/
def normal (r : Ranges) : Ranges :=
  ((r.mergeSort fun a b => a.1 ≤ b.1).foldl add []).reverse
where
  add : Ranges → Nat × Option Nat → Ranges
    | (low, high?) :: done, (next, last?) =>
        if high?.all (next ≤ ·) then
          (low, do return max (← high?) (← last?)) :: done
        else (next, last?) :: (low, high?) :: done
    | [], range => [range]

/-- The gaps between ranges in order, given the first position that is left. -/
def gaps (start : Nat) : Ranges → Ranges
  | [] => [(start, none)]
  | (low, high?) :: rest =>
      (if start < low then [(start, some (low - 1))] else []) ++
        (match high? with
          | some high => gaps (high + 1) rest
          | none => [])

end Ranges

/-- Reads a list of positions, or tells what is wrong with it. -/
def ranges (isField : Bool) (t : Text) : Except Complaint Ranges :=
  let kind : Text := if isField then "field value" else "byte/character position"
  let zero : Text := if isField then "fields are numbered from 1"
    else "byte/character positions are numbered from 1"
  let number (digits : Text) : Except Complaint Nat := match Text.natural? digits with
    | some 0 => .error [.plain zero]
    | some n => .ok n
    | none => .error [.plain ("invalid " ++ kind ++ " "), .word digits]
  (Text.splitOn ',' t).mapM fun part => do
    match Text.splitOn '-' part with
    | [[]] => Except.error [.plain zero]
    | [only] =>
        let n ← number only
        pure (n, some n)
    | [[], []] => Except.error [.plain "invalid range with no endpoint: -"]
    | [[], high] => return (1, some (← number high))
    | [low, []] => return (← number low, none)
    | [low, high] =>
        let low ← number low
        let high ← number high
        if high < low then Except.error [.plain "invalid decreasing range"]
        else pure (low, some high)
    | _ => Except.error [.plain ("invalid " ++
        (if isField then "field range" else "byte or character range" : Text))]

/-- A line cut down to the wanted fields; one without a mark is shown whole if at all. -/
def cutFields (r : Ranges) (mark : Char) (between : Text) (onlyMarked : Bool) (line : Text) :
    Option Text :=
  match Text.splitOn mark line with
  | [_] => if onlyMarked then none else some line
  | fields => some (Text.join between
      ((fields.zipIdx.filter fun f => r.admits (f.2 + 1)).map (·.1)))

def cutPositions (r : Ranges) (between : Text) (line : Text) : Text :=
  Text.join between ((r.map fun (low, high?) =>
    (match high? with
      | some high => line.take high
      | none => line).drop (low - 1)).filter (· ≠ []))

def cut : Command := fun arguments =>
  withOptions (.ofText "b:c:d:f:nsz\x01:\x02" [("bytes", 'b'), ("characters", 'c'),
      ("delimiter", 'd'), ("fields", 'f'), ("only-delimited", 's'), ("output-delimiter", '\x01'),
      ("complement", '\x02')])
    arguments fun given operands => do
      let lists := given.filter fun g => g.1 = 'b' || g.1 = 'c' || g.1 = 'f'
      let refuse (t : Text) : Routine Nat := do
        report t
        refuseUsage 1
      match lists with
      | [] => refuse "you must specify a list of bytes, characters, or fields"
      | [(kind, list?)] =>
          let mark := (argument? given 'd').getD ['\t']
          if 1 < mark.length then refuse "the delimiter must be a single character"
          else if kind ≠ 'f' && isGiven given 'd' then
            refuse "an input delimiter may be specified only when operating on fields"
          else if kind ≠ 'f' && isGiven given 's' then
            refuse ("suppressing non-delimited lines makes sense\n\tonly when operating on fields")
          else match ranges (kind == 'f') (list?.getD []) with
            | .error problem => refuse (← phrased problem)
            | .ok r =>
                let r := if isGiven given '\x02' then r.normal.gaps 1 else r.normal
                let isZero := isGiven given 'z'
                let separator := mark.headD '\x00'
                let between? := (argument? given '\x01').map fun t =>
                  if t.isEmpty then ['\x00'] else t
                let step (line : Text) : Option Text :=
                  if kind = 'f' then
                    cutFields r separator (between?.getD [separator]) (isGiven given 's') line
                  else some (cutPositions r (between?.getD []) line)
                let f : Filter Unit :=
                  { step := fun _ line _ => ((), ((step (swapped isZero line)).map
                      (· ++ [if isZero then '\x00' else '\n'])).toList)
                    isDone := fun _ => false
                    prepare := fun s t => (s, swapped isZero t) }
                endInput ['-'] operands (← feedFiles f operands ()).1
      | _ => refuse "only one list may be specified"

/-- The separators between columns, with their escapes resolved; an empty one is none. -/
def pasteMarks : Nat → Text → List Text
  | 0, _ => []
  | _ + 1, [] => []
  | fuel + 1, '\\' :: c :: rest =>
      (match c with
        | 'n' => ['\n']
        | 't' => ['\t']
        | '0' => []
        | c => [c]) :: pasteMarks fuel rest
  | fuel + 1, c :: rest => [c] :: pasteMarks fuel rest

/-- Lines next to each other; the columns that have ended stay empty. -/
def sideBySide (marks : Array Text) : Nat → List (List Text) → List Text
  | 0, _ => []
  | fuel + 1, columns =>
      if columns.all List.isEmpty then []
      else
        let cells := columns.map (·.headD [])
        let line := (cells.zipIdx.map fun (cell, place) =>
          if place = 0 then cell
          else ((marks[(place - 1) % marks.size]?).getD []) ++ cell).flatten
        line :: sideBySide marks fuel (columns.map (·.drop 1))

def oneLine (marks : Array Text) (lines : List Text) : Text :=
  (lines.zipIdx.map fun (line, place) =>
    if place = 0 then line
    else ((marks[(place - 1) % marks.size]?).getD []) ++ line).flatten

def dealOut (count : Nat) (lines : List Text) (column : Nat) : List Text :=
  (lines.zipIdx.filter fun l => l.2 % count == column).map (·.1)

/-- The lines of an input that is open; one that cannot be read is told of and has none. -/
def linesOf (operand : Text) (descriptor : Nat) : Routine (Nat × List Text) := do
  let result ← readAll descriptor
  closeInput descriptor
  match result with
  | .ok bytes => pure (0, (wholeLines (Narrow.ofBytes bytes)).1)
  | .error e =>
      reportFile operand e
      pure (1, [])

/-- Sets the lines of several files next to each other, or the files one below the other with each
in one line. Where the input is named several times its lines are dealt out. -/
def paste : Command := fun arguments =>
  withOptions (.ofText "d:sz" [("delimiters", 'd'), ("serial", 's')]) arguments
    fun given operands => do
      let text := (argument? given 'd').getD ['\t']
      let marks := (pasteMarks (text.length + 1) text).toArray
      let marks := if marks.isEmpty then #[[]] else marks
      let operands := if operands.isEmpty then [['-']] else operands
      if isGiven given 's' then forEach operands fun operand => do
        match ← openInput operand with
        | .error e =>
            reportFile operand e
            pure 1
        | .ok descriptor =>
            let (status, lines) ← linesOf operand descriptor
            say (joinLines [oneLine marks lines])
            pure status
      else
        let mut inputs : List (Text × Nat) := []
        let mut isMissing := false
        for operand in operands do
          if !isMissing then
            match ← openInput operand with
            | .ok descriptor => inputs := inputs ++ [(operand, descriptor)]
            | .error e =>
                reportFile operand e
                isMissing := true
        if isMissing then pure 1
        else
          let mut status := 0
          let mut columns : List (Nat × List Text) := []
          for (operand, descriptor) in inputs do
            let (failed, lines) ← if descriptor = 0 && columns.any (·.1 = 0) then pure (0, [])
              else linesOf operand descriptor
            status := max status failed
            columns := columns ++ [(descriptor, lines)]
          let shared := (columns.lookup 0).getD []
          let places := (columns.zipIdx.filter fun c => c.1.1 = 0).map (·.2)
          let contents := columns.zipIdx.map fun ((descriptor, lines), place) =>
            if descriptor = 0 then
              dealOut places.length shared ((places.findIdx? (· == place)).getD 0)
            else lines
          let height := contents.foldl (fun n column => max n column.length) 0
          say (joinLines (sideBySide marks (height + 1) contents))
          endInput ['-'] operands status

end Bytelink.Script.Columns
