import Bytelink.Build.Sources
import Bytelink.Host.Script.Filters
import Bytelink.Text.Rounded

/-!
# Sorting and comparing lines

`sort` puts lines in order by keys, which are parts of a line, `uniq` leaves out repetitions, and
`comm` and `cmp` compare two files.
-/
namespace Bytelink.Script.Sorting

open Routine

/-- How two keys are compared. -/
structure Ordering where
  isNumeric : Bool
  isGeneral : Bool
  isHuman : Bool
  isVersion : Bool
  isMonth : Bool
  ignoresCase : Bool
  isDictionary : Bool
  onlyPrintable : Bool
  isReversed : Bool
  deriving DecidableEq, Repr

def Ordering.ofLetters (letters : Text) : Ordering :=
  let has := letters.contains
  ⟨has 'n', has 'g', has 'h', has 'V', has 'M', has 'f', has 'd', has 'i', has 'r'⟩

/-- A part of a line: it begins at a character of a field and ends at one. -/
structure Key where
  firstField : Nat
  firstChar : Nat
  lastField? : Option Nat
  lastChar : Nat
  skipsStart : Bool
  skipsEnd : Bool
  /-- The letters that say how it is compared. -/
  letters : Text

def Key.order (k : Key) : Ordering := .ofLetters k.letters

def isBlank (c : Char) : Bool := c == ' ' || c == '\t' || c == '\n'

/-- What follows the first fields of a line. -/
def afterFields (mark? : Option Char) : Nat → Text → Text
  | 0, t => t
  | n + 1, t => match mark? with
    | some mark => afterFields mark? n ((t.dropWhile (· != mark)).drop 1)
    | none => afterFields mark? n ((t.dropWhile isBlank).dropWhile (!isBlank ·))

/-- How many characters of a line stand in front of the end of a key. -/
def Key.limit (k : Key) (mark? : Option Char) (line : Text) : Nat :=
  match k.lastField? with
  | none => line.length
  | some field =>
      let whole := k.lastChar = 0
      let rest := afterFields mark? (if whole then field + 1 else field) line
      let used := line.length - rest.length
      if whole then
        match mark? with
        | some mark =>
            if (line.take used).getLast? = some mark && field + 1 ≤ line.count mark then used - 1
            else used
        | none => used
      else
        let blanks := if k.skipsEnd then (rest.takeWhile isBlank).length else 0
        min line.length (used + blanks + k.lastChar)

def Key.part (k : Key) (mark? : Option Char) (line : Text) : Text :=
  let rest := afterFields mark? k.firstField line
  let rest := if k.skipsStart then rest.dropWhile isBlank else rest
  let start := min line.length (line.length - rest.length + k.firstChar)
  (line.take (max start (k.limit mark? line))).drop start

/-- A number at the front of a text as whole part and fraction, the latter without zeros at its
end. -/
def leadingDecimal (t : Text) : Bool × Nat × Text × Text :=
  let t := t.dropWhile isBlank
  let (isNegative, t) := match t with
    | '-' :: t => (true, t)
    | t => (false, t)
  let whole := t.takeWhile Text.isDigit
  let rest := t.drop whole.length
  let fraction := match rest with
    | '.' :: behind => behind.takeWhile Text.isDigit
    | _ => []
  let rest := match rest with
    | '.' :: behind => behind.drop fraction.length
    | rest => rest
  (isNegative, Text.valueIn 10 whole, (fraction.reverse.dropWhile (· == '0')).reverse, rest)

def compareTexts (a b : Text) : Int := if a = b then 0 else if Text.le a b then -1 else 1

def compareNats (a b : Nat) : Int := if a < b then -1 else if b < a then 1 else 0

def compareNumbers (a b : Text) : Int :=
  let (negativeA, wholeA, fractionA, _) := leadingDecimal a
  let (negativeB, wholeB, fractionB, _) := leadingDecimal b
  let isZero (whole : Nat) (fraction : Text) : Bool := whole == 0 && fraction.isEmpty
  let signA := negativeA && !isZero wholeA fractionA
  let signB := negativeB && !isZero wholeB fractionB
  let size := if wholeA = wholeB then compareTexts fractionA fractionB
    else compareNats wholeA wholeB
  if signA != signB then if signA then -1 else 1
  else if signA then -size
  else size

/-- The rank of the unit behind a number. A number that is zero has none. -/
def unitRank (t : Text) : Int :=
  let (isNegative, whole, fraction, rest) := leadingDecimal t
  if whole = 0 && fraction.isEmpty then 0
  else
    let units : Text := ['K', 'M', 'G', 'T', 'P', 'E', 'Z', 'Y', 'R', 'Q']
    let rank : Nat := match rest.head? with
      | some c => if c = 'k' then 1 else ((units.findIdx? (· == c)).map (· + 1)).getD 0
      | none => 0
    if isNegative then -rank else rank

def monthRank (t : Text) : Nat :=
  let name := ((t.dropWhile isBlank).take 3).map Char.toUpper
  let months : List String :=
    ["JAN", "FEB", "MAR", "APR", "MAY", "JUN", "JUL", "AUG", "SEP", "OCT", "NOV", "DEC"]
  ((months.findIdx? (·.toList == name)).map (· + 1)).getD 0

/-- The place of the front of a text in the order of versions; its end has one too. -/
def versionRank : Text → Int
  | [] => -1
  | c :: _ =>
      if c.isDigit then 0
      else if c.isAlpha then c.toNat
      else if c = '~' then -2
      else c.toNat + 256

/-- Compares texts in which runs of digits stand for numbers. Fuel bounds the number of
characters. -/
def compareParts : Nat → Text → Text → Int
  | 0, _, _ => 0
  | fuel + 1, a, b =>
      let isWord (t : Text) : Bool := t.head?.any (!Char.isDigit ·)
      if a.isEmpty && b.isEmpty then 0
      else if isWord a || isWord b then
        let result := versionRank a - versionRank b
        if result ≠ 0 then result else compareParts fuel (a.drop 1) (b.drop 1)
      else
        let digitsA := a.takeWhile Char.isDigit
        let digitsB := b.takeWhile Char.isDigit
        let result := compareNats (Text.valueIn 10 digitsA) (Text.valueIn 10 digitsB)
        if result ≠ 0 then result
        else compareParts fuel (a.drop digitsA.length) (b.drop digitsB.length)

/-- A text without its endings, each of which is a dot and a word; but not without all of it. -/
def withoutEndings (t : Text) : Text :=
  (t.take 1) ++ ((ends (t.length + 1) (t.drop 1)).getD (t.drop 1))
where
  isInside (c : Char) : Bool := c.isAlphanum || c == '~'
  /-- What is in front of the endings, if there are any. -/
  ends : Nat → Text → Option Text
    | 0, _ => none
    | _ + 1, [] => some []
    | fuel + 1, c :: rest =>
        if allEndings (rest.length + 2) (c :: rest) then some []
        else (ends fuel rest).map (c :: ·)
  /-- Whether a text consists of endings. -/
  allEndings : Nat → Text → Bool
    | 0, _ => false
    | _ + 1, [] => true
    | fuel + 1, '.' :: c :: rest => (c.isAlpha || c == '~') && allEndings fuel (rest.dropWhile isInside)
    | _, _ => false

/-- Compares versions: names that begin with a dot come first, and endings count only where all else
is equal. -/
def compareVersions (a b : Text) : Int :=
  let rank (t : Text) : Nat := match t with
    | [] => 0
    | ['.'] => 1
    | ['.', '.'] => 2
    | '.' :: _ => 3
    | _ => 4
  if rank a ≠ rank b then compareNats (rank a) (rank b)
  else
    let fuel := a.length + b.length + 1
    let result := compareParts fuel (withoutEndings a) (withoutEndings b)
    if result ≠ 0 then result else compareParts fuel a b

/-- Compares numbers in floating point; what is none comes first. -/
def compareGeneral (a b : Text) : Int :=
  match Binary.leading? a, Binary.leading? b with
  | none, none => 0
  | none, some _ => -1
  | some _, none => 1
  | some x, some y => match Binary.compare x.value y.value with
    | .lt => -1
    | .eq => 0
    | .gt => 1

/-- What is seen of a text that is not compared as a number. -/
def Ordering.seen (o : Ordering) (t : Text) : Text :=
  let t := if o.isDictionary then t.filter fun c => c.isAlphanum || isBlank c else t
  let t := if o.onlyPrintable then t.filter fun c => ' ' ≤ c && c ≤ '~' else t
  if o.ignoresCase then t.map Char.toUpper else t

def Ordering.compare (o : Ordering) (a b : Text) : Int :=
  let result :=
    if o.isNumeric then compareNumbers a b
    else if o.isGeneral then compareGeneral a b
    else if o.isHuman then
      let rank := unitRank a - unitRank b
      if rank = 0 then compareNumbers a b else rank
    else if o.isMonth then compareNats (monthRank a) (monthRank b)
    else if o.isVersion then compareVersions (o.seen a) (o.seen b)
    else compareTexts (o.seen a) (o.seen b)
  if o.isReversed then -result else result

/-- A position in a key: a field, perhaps a character in it, and letters of options. -/
def keyPosition (isEnd : Bool) (whole t : Text) : Except Complaint (Nat × Nat × Text) := do
  let digits := t.takeWhile Text.isDigit
  if digits.isEmpty then
    throw [.plain ("invalid number " ++ (if isEnd then "after ','" else "at field start" : Text) ++
      ": invalid count at start of "), .word t]
  let rest := t.drop digits.length
  let field := Text.valueIn 10 digits
  if field = 0 then
    throw [.plain "field number is zero: invalid field specification ", .word whole]
  let (char, rest) ← match rest with
    | '.' :: behind =>
        let digits := behind.takeWhile Text.isDigit
        if digits.isEmpty then
          throw [.plain "invalid number after '.': invalid count at start of ", .word behind]
        let char := Text.valueIn 10 digits
        if char = 0 && !isEnd then
          throw [.plain "character offset is zero: invalid field specification ", .word whole]
        pure (char, behind.drop digits.length)
    | rest => pure (if isEnd then 0 else 1, rest)
  match rest.find? fun c => !(['b', 'd', 'f', 'g', 'h', 'i', 'M', 'n', 'R', 'r', 'V'] :
      Text).contains c with
  | some _ =>
      throw [.plain "stray character in field spec: invalid field specification ", .word whole]
  | none => pure (field, char, rest)

def readKey (common : Text) (t : Text) : Except Complaint Key := do
  let start := t.takeWhile (· != ',')
  let (field, char, letters) ← keyPosition false t start
  let stop? ← if t.length = start.length then pure none
    else some <$> keyPosition true t (t.drop (start.length + 1))
  let endLetters := match stop? with
    | some (_, _, letters) => letters
    | none => []
  let own := letters ++ endLetters
  let used := if own.isEmpty then common else own
  pure {
    firstField := field - 1
    firstChar := char - 1
    lastField? := stop?.map (·.1 - 1)
    lastChar := (stop?.map (·.2.1)).getD 0
    skipsStart := (if own.isEmpty then common else letters).contains 'b'
    skipsEnd := (if own.isEmpty then common else endLetters).contains 'b'
    letters := used }

/-- How lines are put in order. -/
structure Plan where
  keys : List Key
  mark? : Option Char
  isReversed : Bool
  /-- Whether lines with equal keys count as equal. -/
  isStable : Bool

def Plan.compareKeys (p : Plan) (a b : Text) : Int :=
  p.keys.foldl (fun result k =>
    if result ≠ 0 then result else k.order.compare (k.part p.mark? a) (k.part p.mark? b)) 0

def Plan.compare (p : Plan) (a b : Text) : Int :=
  let result := p.compareKeys a b
  if result ≠ 0 || (p.isStable && !p.keys.isEmpty) then result
  else
    let result := compareTexts a b
    if p.isReversed then -result else result

def Plan.isOrdered (p : Plan) (a b : Text) : Bool := p.compare a b ≤ 0

/-- Lines in order, of equal ones only the first. -/
def withoutRepeats (p : Plan) : List Text → List Text → List Text
  | done, [] => done.reverse
  | [], line :: rest => withoutRepeats p [line] rest
  | last :: done, line :: rest =>
      if p.compare last line = 0 then withoutRepeats p (last :: done) rest
      else withoutRepeats p (line :: last :: done) rest

/-- The first line that is out of order, with its number. -/
def disorder? (p : Plan) (isStrict : Bool) : Nat → List Text → Option (Nat × Text)
  | n, a :: b :: rest =>
      let result := p.compare a b
      if 0 < result || (isStrict && result = 0) then some (n + 1, b)
      else disorder? p isStrict (n + 1) (b :: rest)
  | _, _ => none

/-- The letters of ways to compare that exclude each other, if some of them do. -/
def conflict? (letters : Text) : Option Text :=
  let has := letters.contains
  let count := (["n", "g", "h", "M", "VRdi"].filter fun (kind : String) =>
    kind.toList.any has).length
  if count < 2 then none
  else some ((['d', 'f', 'g', 'h', 'i', 'M', 'n', 'R', 'V'] : Text).filter fun c =>
    has c && !(c = 'i' && has 'd'))

def wayOf? (word : Text) : Option Char :=
  [("general-numeric", 'g'), ("human-numeric", 'h'), ("month", 'M'), ("numeric", 'n'),
    ("random", 'R'), ("version", 'V')].findSome? fun (name, letter) =>
      if name.toList = word then some letter else none

def known : Known :=
  .ofText "bcCdfghik:mMno:rRsS:t:T:uVz\x01:" [("ignore-leading-blanks", 'b'), ("check", 'c'),
    ("dictionary-order", 'd'), ("ignore-case", 'f'), ("key", 'k'), ("merge", 'm'),
    ("month-sort", 'M'), ("ignore-nonprinting", 'i'), ("numeric-sort", 'n'), ("output", 'o'),
    ("reverse", 'r'), ("random-sort", 'R'), ("stable", 's'), ("field-separator", 't'),
    ("buffer-size", 'S'), ("temporary-directory", 'T'), ("unique", 'u'), ("version-sort", 'V'),
    ("human-numeric-sort", 'h'), ("general-numeric-sort", 'g'), ("zero-terminated", 'z'),
    ("sort", '\x01')]

/-- What there is to do besides putting lines in order. -/
structure Job where
  plan : Plan
  /-- The letter under which the order is only to be checked. -/
  check? : Option Char
  merges : Bool
  isUnique : Bool
  mark : Char
  target? : Option Text

/-- The lines of all inputs in order. Inputs that are to be merged are taken to be in order
already. -/
def Job.ordered (j : Job) (lists : List (List Text)) : List Text :=
  let lines := if j.merges then lists.foldl (fun a b => List.merge a b j.plan.isOrdered) []
    else lists.flatten.mergeSort j.plan.isOrdered
  if j.isUnique then withoutRepeats j.plan [] lines else lines

def refuse (t : Text) : Routine Nat := do
  report t
  pure 2

def refuseConflict (letters : Text) : Routine Nat :=
  refuse ("options '-" ++ letters ++ "' are incompatible")

/-- Tells of the first line of an input that is out of order. -/
def check (j : Job) (letter : Char) (operands : List Text) : Routine Nat := do
  let operand := operands.headD ['-']
  match operands.drop 1, j.target? with
  | extra :: _, _ =>
      refuse ("extra operand " ++ (← quoted extra) ++ " not allowed with -" ++ [letter])
  | [], some _ => refuseConflict [letter, 'o']
  | [], none =>
      match ← openInput operand with
      | .error e => refuse ("open failed: " ++ (← quotedIfNeeded operand) ++ ": " ++ reason e)
      | .ok descriptor =>
          match ← readAll descriptor with
          | .error e => refuse ("read failed: " ++ (← quotedIfNeeded operand) ++ ": " ++ reason e)
          | .ok bytes =>
              match disorder? j.plan j.isUnique 1 (wholePieces j.mark (Narrow.ofBytes bytes)) with
              | none => pure 0
              | some (n, line) =>
                  if letter = 'c' then
                    report (operand ++ ':' :: Text.decimal n ++ ": disorder: " ++ line)
                  pure 1

/-- The lines of every input, or what is wrong with one of them; all are looked at before the first
is read. -/
def inputs (mark : Char) (operands : List Text) : Routine (Except Text (List (List Text))) := do
  for operand in operands do
    if operand ≠ ['-'] then
      let fault? : Option SystemError := match ← find operand with
        | .ok (_, node) => if node.grants .read then none else some .permissionDenied
        | .error e => some e
      match fault? with
      | none => pure ()
      | some e =>
          return .error ("cannot read: " ++ (← quotedIfNeeded operand) ++ ": " ++ reason e)
  let mut found : List (List Text) := []
  for operand in operands do
    match ← openInput operand with
    | .error e =>
        return .error ("cannot read: " ++ (← quotedIfNeeded operand) ++ ": " ++ reason e)
    | .ok descriptor =>
        let result ← readAll descriptor
        closeInput descriptor
        match result with
        | .error e =>
            let failed : Text := if e = .badDescriptor then "stat failed: " else "read failed: "
            return .error (failed ++ (← quotedIfNeeded operand) ++ ": " ++ reason e)
        | .ok bytes => found := found ++ [wholePieces mark (Narrow.ofBytes bytes)]
  pure (.ok found)

/-- Writes the lines of all inputs in order. -/
def putInOrder (j : Job) (operands : List Text) : Routine Nat := do
  match ← inputs j.mark operands with
  | .error problem => refuse problem
  | .ok lists =>
      let output := joinPieces j.mark (j.ordered lists)
      match j.target? with
      | none =>
          say output
          pure 0
      | some target =>
          match ← openFile target .writing with
          | .ok descriptor =>
              let _ ← write descriptor (Narrow.toBytes output)
              close descriptor
              pure 0
          | .error e => refuse ("open failed: " ++ (← quotedIfNeeded target) ++ ": " ++ reason e)

def sort : Command := fun arguments => do
  match known.read false arguments with
  | .error fault =>
      report fault.message
      refuseUsage 2
  | .ok (given, operands) =>
      let ways := given.filterMap fun g => if g.1 = '\x01' then g.2.bind wayOf? else some g.1
      let common := ways.filter
        (['b', 'd', 'f', 'g', 'h', 'i', 'M', 'n', 'r', 'R', 'V'] : Text).contains
      let isUnique := isGiven given 'u'
      let mark := argument? given 't'
      let mark := if mark = some ['\\', '0'] then some ['\x00'] else mark
      if mark = some [] then refuse "empty tab"
      else if mark.any (1 < ·.length) then
        refuse ("multi-character tab " ++ (← marked (mark.getD [])))
      else if isGiven given 'c' && isGiven given 'C' then refuseConflict ['c', 'C']
      else
        let keyTexts := given.filterMap fun g => if g.1 = 'k' then g.2 else none
        match keyTexts.mapM (readKey common) with
        | .error problem => refuse (← phrased problem)
        | .ok keys =>
            let ordering := common.filter (!(['b', 'r'] : Text).contains ·)
            match if keys.isEmpty then conflict? common
              else keys.findSome? fun k => conflict? k.letters with
            | some letters => refuseConflict letters
            | none =>
                let keys := if keys.isEmpty && !common.isEmpty then
                    let letters : Text :=
                      if ordering.isEmpty && !common.contains 'b' then ['r'] else common
                    [⟨0, 0, none, 0, common.contains 'b', false, letters⟩]
                  else keys
                let job : Job := {
                  plan := ⟨keys, mark.bind List.head?, isGiven given 'r',
                    isGiven given 's' || isUnique⟩
                  check? := if isGiven given 'c' then some 'c'
                    else if isGiven given 'C' then some 'C' else none
                  merges := isGiven given 'm'
                  isUnique := isUnique
                  mark := if isGiven given 'z' then '\x00' else '\n'
                  target? := argument? given 'o' }
                match job.check? with
                | some letter => check job letter operands
                | none => putInOrder job (if operands.isEmpty then [['-']] else operands)

/-- Groups of lines that follow each other and are equal in what counts. -/
def groupsOf (isSame : Text → Text → Bool) : List (List Text) → List Text → List (List Text)
  | done, [] => (done.map List.reverse).reverse
  | [], line :: rest => groupsOf isSame [[line]] rest
  | group :: done, line :: rest =>
      if group.getLast?.any (isSame · line) then groupsOf isSame ((line :: group) :: done) rest
      else groupsOf isSame ([line] :: group :: done) rest

/-- Which lines are shown: those that stand alone, the first or last of several, and all others. -/
structure Choice where
  single : Bool
  one : Bool
  others : Bool

/-- The lines of a group that are shown, each with how often it occurs. -/
def Choice.shown (c : Choice) (group : List Text) : List (Nat × Text) :=
  let admits := if group.length = 1 then c.single else c.one
  if c.others then
    (if 1 < group.length then group.dropLast.map (1, ·) else []) ++
      (if admits then (group.drop (group.length - 1)).map (1, ·) else [])
  else if admits then (group.take 1).map (group.length, ·)
  else []

def countedPart (fields chars : Nat) (most? : Option Nat) (line : Text) : Text :=
  let line := (List.range fields).foldl (fun (t : Text) _ =>
    (t.dropWhile isBlank).dropWhile (!isBlank ·)) line
  let line := line.drop chars
  match most? with
  | some n => line.take n
  | none => line

def uniq : Command := fun arguments =>
  withOptions (.ofText "cdDf:is:uw:z" [("count", 'c'), ("repeated", 'd'), ("ignore-case", 'i'),
      ("all-repeated", 'D'), ("skip-fields", 'f'), ("skip-chars", 's'), ("unique", 'u'),
      ("check-chars", 'w'), ("zero-terminated", 'z')]) arguments
    fun given operands => do
      let misstated? := given.find? fun g =>
        (['f', 's', 'w'] : Text).contains g.1 && (g.2.bind Text.natural?).isNone
      match misstated?, operands.drop 2 with
      | some (letter, value?), _ =>
          let problem : Text := match letter with
            | 'f' => "invalid number of fields to skip"
            | 's' => "invalid number of bytes to skip"
            | _ => "invalid number of bytes to compare"
          report (value?.getD [] ++ ": " ++ problem)
          pure 1
      | none, extra :: _ =>
          report ("extra operand " ++ (← marked extra))
          refuseUsage 1
      | none, [] =>
          if isGiven given 'c' && isGiven given 'D' then
            report "printing all duplicated lines and repeat counts is meaningless"
            refuseUsage 1
          else
            let number (letter : Char) : Option Nat := (argument? given letter).bind Text.natural?
            let part (line : Text) : Text :=
              let part := countedPart ((number 'f').getD 0) ((number 's').getD 0) (number 'w') line
              if isGiven given 'i' then part.map Char.toUpper else part
            let mark := if isGiven given 'z' then '\x00' else '\n'
            let choice : Choice :=
              ⟨!isGiven given 'd' && !isGiven given 'D', !isGiven given 'u', isGiven given 'D'⟩
            match ← load (operands.headD ['-']) with
            | .error e =>
                let operand := operands.headD ['-']
                if operand = ['-'] || e = .isADirectory then
                  report ("error reading " ++ (← quoted operand) ++ ": " ++ reason e)
                else reportFile operand e
                pure 1
            | .ok bytes =>
                let groups := groupsOf (fun a b => part a == part b) []
                  (wholePieces mark (Narrow.ofBytes bytes))
                let output := (groups.flatMap choice.shown).flatMap fun (count, line) =>
                  (if isGiven given 'c' then padLeft 7 (Text.decimal count) ++ [' '] else []) ++
                    line ++ [mark]
                match operands.drop 1 with
                | [] =>
                    say output
                    pure 0
                | target :: _ =>
                    match ← openFile target .writing with
                    | .ok descriptor =>
                        let _ ← write descriptor (Narrow.toBytes output)
                        close descriptor
                        pure 0
                    | .error e =>
                        reportFile target e
                        pure 1

/-- What is shown of two lists: a line with its column, which is one for the first list, two for the
second and three for both; or that a list is not sorted. -/
inductive Merged
  | line (column : Nat) (t : Text)
  | disorder (list : Nat)
  deriving DecidableEq, Repr

/-- The lines of two lists, taken for sorted. That a list is not shows when two of its lines follow
each other in the wrong order, of which the last two are looked at twice; `known` are the lists of
which this has been seen, and the lines before come first. Fuel bounds the number of lines. -/
def merged (isUnpaired : Bool) (known : List Nat) (before : Option Text × Option Text) :
    Nat → List Text → List Text → List Merged
  | 0, _, _ => []
  | fuel + 1, s, t =>
      let step (takesFirst takesSecond : Bool) (m : Merged) : List Merged :=
        let isUnpaired := isUnpaired || takesFirst != takesSecond
        let wrong (list : Nat) (isTaken : Bool) (before? : Option Text) (lines : List Text) :
            List Nat :=
          if !isTaken || !isUnpaired || known.contains list then []
          else match before?, lines with
            | _, a :: b :: _ => if Text.le a b then [] else [list]
            | some a, [b] => if Text.le a b then [] else [list]
            | _, _ => []
        let more := wrong 1 takesFirst before.1 s ++ wrong 2 takesSecond before.2 t
        let latest : Option Text × Option Text :=
          (if takesFirst then s.head? else before.1, if takesSecond then t.head? else before.2)
        m :: more.map .disorder ++ merged isUnpaired (more ++ known) latest fuel
          (if takesFirst then s.drop 1 else s) (if takesSecond then t.drop 1 else t)
      match s, t with
      | [], [] => []
      | a :: _, [] => step true false (.line 1 a)
      | [], b :: _ => step false true (.line 2 b)
      | a :: _, b :: _ =>
          if a = b then step true true (.line 3 a)
          else if Text.le a b then step true false (.line 1 a)
          else step false true (.line 2 b)

def comm : Command := fun arguments =>
  withOptions (.ofText "123z\x01\x02" [("check-order", '\x01'), ("nocheck-order", '\x02')]) arguments
    fun given operands => do
      match operands with
      | [] => refuseMissing
      | [only] =>
          report ("missing operand after " ++ (← marked only))
          refuseUsage 1
      | _ :: _ :: extra :: _ =>
          report ("extra operand " ++ (← marked extra))
          refuseUsage 1
      | [first, second] =>
          match ← load first, ← load second with
          | .error e, _ =>
              reportFile first e
              pure 1
          | _, .error e =>
              reportFile second e
              pure 1
          | .ok a, .ok b =>
              let a := (wholeLines (Narrow.ofBytes a)).1
              let b := (wholeLines (Narrow.ofBytes b)).1
              let isShown (column : Nat) : Bool := !isGiven given (Char.ofNat (48 + column))
              let known := if isGiven given '\x02' then [1, 2] else []
              let isChecked := isGiven given '\x01'
              let mut isSorted := true
              let mut isOver := false
              for m in merged isChecked known (none, none) (a.length + b.length + 1) a b do
                if !isOver then
                  match m with
                  | .line column line =>
                      if isShown column then
                        let earlier := (List.range (column - 1)).filter fun n => isShown (n + 1)
                        say (List.replicate earlier.length '\t' ++ line ++ ['\n'])
                  | .disorder list =>
                      report ("file " ++ Text.decimal list ++ " is not in sorted order")
                      isSorted := false
                      isOver := isChecked
              if !isSorted && !isChecked then report "input is not in sorted order"
              pure (if isSorted then 0 else 1)

/-- The place of the first difference: how many bytes and line ends are in front of it. -/
def firstDifference : Nat → Nat → Text → Text → Option (Nat × Nat)
  | bytes, lines, a :: s, b :: t =>
      if a = b then firstDifference (bytes + 1) (if a = '\n' then lines + 1 else lines) s t
      else some (bytes, lines)
  | _, _, _, _ => none

/-- Points to the help of the program under its name, and fails. -/
def refuseNamed : Routine Nat := do
  report ("Try '" ++ (← get).name ++ " --help' for more information.")
  pure 2

/-- Every difference: the place, and both bytes. -/
def differences : Nat → Text → Text → List (Nat × Char × Char)
  | place, a :: s, b :: t =>
      if a = b then differences (place + 1) s t
      else (place, a, b) :: differences (place + 1) s t
  | _, _, _ => []

def cmp : Command := fun arguments => do
  match (Known.ofText "bi:lsn:" [("print-bytes", 'b'), ("ignore-initial", 'i'), ("quiet", 's'),
      ("silent", 's'), ("verbose", 'l'), ("bytes", 'n')]).read false arguments with
  | .error fault =>
      report fault.message
      refuseNamed
  | .ok (given, operands) =>
      match operands with
      | [] =>
          report ("missing operand after " ++ (← quoted (← get).name))
          refuseNamed
      | first :: rest =>
          let second := rest.headD ['-']
          let skips := match argument? given 'i' with
            | some t => Text.splitOn ':' t
            | none => (rest.drop 1).take 2
          match skips.find? (Text.natural? · |>.isNone) with
          | some wrong =>
              report ("invalid --ignore-initial value " ++ (← quoted wrong))
              refuseNamed
          | none =>
              if 3 < rest.length then
                report ("extra operand " ++ (← quoted ((rest.drop 3).headD [])))
                return ← refuseNamed
              let skip := skips.filterMap Text.natural?
              let ofFirst := skip.headD 0
              let ofSecond := if (argument? given 'i').isSome then skip.getLastD 0
                else (skip.drop 1).headD 0
              match ← load first, ← load second with
              | .error e, _ =>
                  reportFile first e
                  pure 2
              | _, .error e =>
                  reportFile second e
                  pure 2
              | .ok a, .ok b =>
                  let most? := (argument? given 'n').bind Text.natural?
                  let part (bytes : Bytes) (skipped : Nat) : Text :=
                    let t := (Narrow.ofBytes bytes).drop skipped
                    (most?.map t.take).getD t
                  compare given first second (part a ofFirst) (part b ofSecond)
where
  compare (given : List Given) (first second a b : Text) : Routine Nat := do
    let isShort := a.length ≠ b.length
    let (shorter, t) := if a.length < b.length then (first, a) else (second, b)
    let tellEnd (showsLine : Bool) : Routine Unit :=
      if t.isEmpty then report ("EOF on " ++ shorter ++ " which is empty")
      else
        let line : Text := if !showsLine then []
          else (if t.getLast? = some '\n' then ", line " else ", in line " : Text) ++
            Text.decimal (t.count '\n' + (if t.getLast? = some '\n' then 0 else 1))
        report ("EOF on " ++ shorter ++ " after byte " ++ Text.decimal t.length ++ line)
    if a = b then pure 0
    else if isGiven given 's' then pure 1
    else if isGiven given 'l' then
      let width := (Text.decimal (max a.length b.length)).length
      let octal (c : Char) : Text := padLeft 3 (Nat.toDigits 8 c.toNat)
      for (place, x, y) in differences 1 a b do
        say (padLeft width (Text.decimal place) ++ ' ' :: octal x ++ ' ' :: octal y ++ ['\n'])
      if isShort then tellEnd false
      pure 1
    else
      match firstDifference 0 0 a b with
      | some (bytes, lines) =>
          let unit : Text := if (← get).isUnicode then "byte " else "char "
          say (first ++ [' '] ++ second ++ " differ: " ++ unit ++ Text.decimal (bytes + 1) ++
            ", line " ++ Text.decimal (lines + 1) ++ ['\n'])
          pure 1
      | none =>
          tellEnd true
          pure 1

end Bytelink.Script.Sorting
