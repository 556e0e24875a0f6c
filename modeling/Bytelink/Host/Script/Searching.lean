import Bytelink.Host.Script.Files
import Bytelink.Host.Script.Regex

/-!
# Searching for lines

`grep` shows the lines of its input that match one of several patterns, or that do not, with lines
around them if that is wanted.
-/
namespace Bytelink.Script.Searching

open Routine

structure Search where
  patterns : List Regex
  /-- Whether characters are wide. -/
  isWide : Bool
  ignoresCase : Bool
  wholeWords : Bool
  wholeLines : Bool
  isInverted : Bool
  most? : Option Nat
  before : Nat
  after : Nat
  /-- What stands between lines that are not next to each other, if anything. -/
  gap? : Option Text
  onlyMatches : Bool
  showsNumber : Bool
  showsOffset : Bool
  /-- Whether lines are not shown at all but counted. -/
  isSilent : Bool
  /-- Whether all input is taken for text, and whether other input is passed over. -/
  isText : Bool
  skipsBinary : Bool
  /-- Whether lines end with zero bytes, and whether names do. -/
  hasZeros : Bool
  endsNames : Bool

/-- What a line ends with. -/
def Search.mark (q : Search) : Char := if q.hasZeros then '\x00' else '\n'

/-- A name with what stands behind it, unless names end with zero bytes. -/
def Search.named (q : Search) (name : Text) (mark : Char) : Text :=
  name ++ [if q.endsNames then '\x00' else mark]

/-- Which matches count: all, those that are whole words, or those that are whole lines. -/
def Search.allows (q : Search) (s : Regex.Subject) (start stop : Nat) : Bool :=
  if q.wholeLines then start = 0 && stop = s.chars.size
  else if q.wholeWords then !s.isWordBefore start && !s.isWordAt stop
  else true

/-- The first match from a place on, the longest of those that begin there. -/
def Search.find? (q : Search) (s : Regex.Subject) (start : Nat) : Option Regex.Match :=
  let found := q.patterns.filterMap fun r => Regex.searchWhere s r (q.allows s) start
  found.foldl (fun best? m => match best? with
    | none => some m
    | some best =>
        if m.start < best.start || (m.start = best.start && best.stop < m.stop) then some m
        else best?) none

/-- The matches of a line that are not empty. Fuel bounds their number. -/
def Search.matches (q : Search) (s : Regex.Subject) : Nat → Nat → List Regex.Match
  | 0, _ => []
  | fuel + 1, start =>
      match q.find? s start with
      | none => []
      | some m =>
          if m.stop = m.start then Search.matches q s fuel (m.stop + 1)
          else m :: Search.matches q s fuel m.stop

/-- A search under way in one file. -/
structure Progress where
  number : Nat
  offset : Nat
  found : Nat
  /-- Lines that may still be wanted in front of a match, the newest first. -/
  recent : List (Nat × Nat × Text)
  /-- How many lines behind a match are still wanted. -/
  following : Nat
  /-- The number of the latest line that has been shown. -/
  shown? : Option Nat
  /-- How many matches had been found when it turned out that the input is no text. -/
  textMatches? : Option Nat
  /-- Whether something was not shown because it is no text. -/
  isHidden : Bool
  /-- Whether any line has been shown, of this file or one before. -/
  hasShown : Bool

def Progress.start (hasShown : Bool) : Progress := ⟨0, 0, 0, [], 0, none, none, false, hasShown⟩

def Progress.matchesBinary (p : Progress) : Bool :=
  p.isHidden || p.textMatches?.any (· < p.found)

/-- What stands in front of a line. -/
def Search.front (q : Search) (name? : Option Text) (mark : Char) (number offset : Nat) : Text :=
  (match name? with
    | some name => q.named name mark
    | none => []) ++
    (if q.showsNumber then Text.decimal number ++ [mark] else []) ++
    (if q.showsOffset then Text.decimal offset ++ [mark] else [])

def Search.isDone (q : Search) (p : Progress) : Bool :=
  (q.most?.any (· ≤ p.found) && p.following = 0) ||
    (p.textMatches?.any fun before => q.skipsBinary || (!q.isSilent && before < p.found))

/-- Whether a text can be shown: there are no bytes in it that are part of no character. -/
def Search.canShow (q : Search) (t : Text) : Bool :=
  q.isText || !q.isWide || !(Wide.ofNarrow t).any Wide.isByte

/-- The parts of a line that match, up to one that cannot be shown, each with its place. -/
def Search.parts (q : Search) (s : Regex.Subject) (chars : Text) : List (Nat × Text) :=
  (q.matches s (chars.length + 2) 0).map fun m =>
    ((Wide.unseen q.isWide (chars.take m.start)).length,
      Wide.unseen q.isWide ((chars.take m.stop).drop m.start))

/-- Looks at a line. -/
def Search.step (q : Search) (name? : Option Text) (p : Progress) (line : Text) (_ : Bool) :
    Progress × List Text :=
  let line := swapped q.hasZeros line
  let chars := Wide.seen q.isWide line
  let s : Regex.Subject := ⟨chars.toArray, q.isWide, q.ignoresCase, false⟩
  let number := p.number + 1
  let next : Progress := { p with number := number, offset := p.offset + line.length + 1 }
  let isLimited := q.most?.any (· ≤ p.found)
  let isSelected := !isLimited && ((q.find? s 0).isSome != q.isInverted)
  let isSilent := q.isSilent || p.textMatches?.isSome
  let whole (mark : Char) (n offset : Nat) (t : Text) : Text :=
    q.front name? mark n offset ++ t ++ [q.mark]
  if isSelected then
    if isSilent then ({ next with found := p.found + 1 }, [])
    else
      let earlier := p.recent.reverse
      let firstShown := match earlier with
        | (n, _) :: _ => n
        | [] => number
      let gap : List Text :=
        if p.hasShown && p.shown?.all (· + 1 < firstShown) then
          (q.gap?.map (· ++ ['\n'])).toList
        else []
      let context := earlier.filter fun (_, _, t) => q.canShow t
      let parts := if q.isInverted then [] else q.parts s chars
      let shownParts := parts.takeWhile fun (_, t) => q.canShow t
      let lines :=
        if q.onlyMatches then
          shownParts.map fun (place, t) => whole ':' number (p.offset + place) t
        else
          context.map (fun (n, offset, t) => whole '-' n offset t) ++
            (if q.canShow line then [whole ':' number p.offset line] else [])
      let isHidden := if q.onlyMatches then shownParts.length < parts.length
        else context.length < earlier.length || !q.canShow line
      ({ next with
          found := p.found + 1, recent := [], following := q.after, shown? := some number
          isHidden := p.isHidden || isHidden
          hasShown := true },
        gap ++ lines)
  else if 0 < p.following && !isSilent then
    if q.onlyMatches then ({ next with following := p.following - 1, shown? := some number }, [])
    else if q.canShow line then
      ({ next with following := p.following - 1, shown? := some number },
        [whole '-' number p.offset line])
    else ({ next with following := 0, shown? := some number, isHidden := true }, [])
  else
    ({ next with recent := ((number, p.offset, line) :: p.recent).take q.before }, [])

/-- Notes whether the input is no text, which zero bytes show. They count as line ends then. -/
def Search.prepare (q : Search) (p : Progress) (t : Text) : Progress × Text :=
  if q.hasZeros then (p, swapped true t)
  else if q.isText || !(p.textMatches?.isSome || t.contains '\x00') then (p, t)
  else if q.skipsBinary then ({ p with found := 0, textMatches? := some 0 }, [])
  else
    ({ p with textMatches? := p.textMatches?.or (some p.found) },
      t.map fun c => if c = '\x00' then '\n' else c)

def Search.filter (q : Search) (name? : Option Text) : Filter Progress :=
  ⟨q.step name?, q.isDone, q.prepare⟩

def refuse : Routine Nat := do
  complain ("Usage: " ++ (← get).name ++ " [OPTION]... PATTERNS [FILE]...")
  refuseUsage 2

/-- Ordinary files below a directory, each with its path. Links are followed if `follows` says so,
and directories that cannot be read are told of. Fuel bounds the depth. -/
def filesBelow (follows : Bool) : Nat → Text → Routine (List Text)
  | 0, _ => pure []
  | fuel + 1, path => do
      match ← Files.names path with
      | .error e =>
          report (path ++ ": " ++ reason e)
          pure []
      | .ok names =>
          let mut found : List Text := []
          for name in names do
            let inner := Files.inside path name
            match ← (if follows then Routine.find inner else findEntry inner) with
            | .ok (_, node) =>
                if node.isDirectory then found := found ++ (← filesBelow follows fuel inner)
                else if node.isFile then found := found ++ [inner]
            | .error _ => pure ()
          pure found

/-- How the results of a file are told. -/
inductive Telling
  | lines
  | count
  | names
  | namesWithout
  | quiet
  deriving DecidableEq, Repr

/-- What is known of the files that have been searched. -/
structure Outcome where
  isFound : Bool
  isFailed : Bool
  /-- Whether any line has been shown. -/
  hasShown : Bool

def searchFile (q : Search) (telling : Telling) (showsName isTacit : Bool) (label : Text)
    (o : Outcome) (operand : Text) : Routine Outcome := do
  let name := if operand = ['-'] then label else operand
  let shown? := if showsName then some name else none
  match ← openInput operand with
  | .error e =>
      if !isTacit then report (operand ++ ": " ++ reason e)
      pure { o with isFailed := true }
  | .ok descriptor =>
      let (result, p) ← feed (q.filter shown?) descriptor (.start o.hasShown)
      closeInput descriptor
      let isFound := 0 < p.found
      let isFailed ← match result with
        | .ok () => pure false
        | .error e =>
            if !isTacit then report (name ++ ": " ++ reason e)
            pure true
      match telling with
      | .lines =>
          if p.matchesBinary && !isTacit then report (name ++ ": binary file matches")
      | .count =>
          say ((match shown? with
            | some name => q.named name ':'
            | none => []) ++ Text.decimal p.found ++ ['\n'])
      | .names => if isFound then say (q.named name '\n')
      | .namesWithout => if !isFound then say (q.named name '\n')
      | .quiet => pure ()
      pure ⟨o.isFound || isFound, o.isFailed || isFailed, p.hasShown⟩

/-- A pattern in which every character stands for itself. -/
def literal (t : Text) : Regex :=
  t.foldr (fun c r => if r = .nothing then Regex.fixed c else .both (Regex.fixed c) r) .nothing

/-- The letters and words of the options. -/
def known : Known :=
  .ofText "abcd:D:e:f:hilm:noqrsvwxyzA:B:C:EFGHILPRTuUZ\x01::\x02:\x03:\x04:\x05\x06" [
    ("binary-files", '\x02'), ("extended-regexp", 'E'), ("fixed-strings", 'F'),
    ("basic-regexp", 'G'), ("perl-regexp", 'P'), ("regexp", 'e'), ("label", '\x03'),
    ("group-separator", '\x04'), ("no-group-separator", '\x05'), ("line-buffered", '\x06'),
    ("file", 'f'), ("ignore-case", 'i'), ("word-regexp", 'w'), ("line-regexp", 'x'),
    ("no-messages", 's'), ("invert-match", 'v'), ("max-count", 'm'), ("byte-offset", 'b'),
    ("line-number", 'n'), ("with-filename", 'H'), ("no-filename", 'h'), ("only-matching", 'o'),
    ("quiet", 'q'), ("silent", 'q'), ("text", 'a'), ("recursive", 'r'),
    ("dereference-recursive", 'R'), ("files-without-match", 'L'), ("files-with-matches", 'l'),
    ("count", 'c'), ("after-context", 'A'), ("before-context", 'B'), ("context", 'C'),
    ("color", '\x01'), ("colour", '\x01'), ("null", 'Z'), ("null-data", 'z')]

/-- Rewrites a dash with digits as an option for context. -/
def withContext (arguments : List Text) : List Text :=
  arguments.map fun
    | '-' :: c :: rest =>
        if c.isDigit && rest.all Char.isDigit then '-' :: 'C' :: c :: rest else '-' :: c :: rest
    | t => t

def grep : Command := fun arguments => do
  match known.read false (withContext arguments) with
  | .error fault =>
      report fault.message
      refuse
  | .ok (given, operands) =>
      let patternFiles := given.filterMap fun g => if g.1 = 'f' then g.2 else none
      let patternTexts := given.filterMap fun g => if g.1 = 'e' then g.2 else none
      let isNamed := !patternFiles.isEmpty || !patternTexts.isEmpty
      if !isNamed && operands.isEmpty then refuse
      else
        let texts := if isNamed then patternTexts else operands.take 1
        let operands := if isNamed then operands else operands.drop 1
        let mut patterns := texts.flatMap (Text.splitOn '\n')
        let mut missing := false
        for file in patternFiles do
          match ← load file with
          | .ok bytes => patterns := patterns ++ (wholeLines (Narrow.ofBytes bytes)).1
          | .error e =>
              report (file ++ ": " ++ reason e)
              missing := true
        let isWide := (← get).isUnicode
        if missing then pure 2
        else run isWide given operands (patterns.map (Wide.seen isWide))
where
  number (given : List Given) (letter : Char) : Option (Option Nat) :=
    (argument? given letter).map Text.natural?
  run (isWide : Bool) (given : List Given) (operands patterns : List Text) : Routine Nat := do
    let chosen? := lastOf? given ['E', 'F', 'G', 'P']
    let isFixed := chosen? == some 'F'
    let dialect : Regex.Dialect := ⟨chosen? == some 'E' || chosen? == some 'P', true⟩
    let contexts := [number given 'A', number given 'B', number given 'C']
    if number given 'm' = some none then
      report "invalid max count"
      pure 2
    else if contexts.contains (some none) then
      let wrong := (given.filter fun g =>
        (['A', 'B', 'C'] : Text).contains g.1 && (g.2.bind Text.natural?).isNone).head?
      report ((wrong.bind (·.2)).getD [] ++ ": invalid context length argument")
      pure 2
    else
      let misspelt := patterns.find? fun t =>
        !isFixed && t.head? = some '[' && (t.drop 1).head? = some ':' && t.getLast? = some ']' &&
          t.reverse[1]? = some ':'
      if misspelt.isSome then
        report "character class syntax is [[:space:]], not [:space:]"
        pure 2
      else if isFixed then search isWide given operands (patterns.map literal)
      else
        match patterns.mapM (Regex.read dialect) with
        | .error fault =>
            report fault.message
            pure 2
        | .ok compiled =>
            for warning in compiled.flatMap (·.warnings) do report ("warning: " ++ warning)
            search isWide given operands (compiled.map (·.regex))
  search (isWide : Bool) (given : List Given) (operands : List Text) (patterns : List Regex) :
      Routine Nat := do
    let contextOf (letter : Char) : Option Nat :=
      ((number given letter).bind id).or ((number given 'C').bind id)
    let manner? := argument? given '\x02'
    let isDeep := isGiven given 'r' || isGiven given 'R'
    let telling : Telling :=
      if isGiven given 'q' then .quiet
      else match lastOf? given ['l', 'L'] with
        | some 'l' => .names
        | some _ => .namesWithout
        | none => if isGiven given 'c' then .count else .lines
    let most? := (number given 'm').bind id
    let most? := if telling = .quiet || telling = .names || telling = .namesWithout then some 1
      else most?
    let q : Search := {
      patterns := patterns
      isWide := isWide
      ignoresCase := isGiven given 'i' || isGiven given 'y'
      wholeWords := isGiven given 'w'
      wholeLines := isGiven given 'x'
      isInverted := isGiven given 'v'
      most? := most?
      before := (contextOf 'B').getD 0
      after := (contextOf 'A').getD 0
      onlyMatches := isGiven given 'o'
      showsNumber := isGiven given 'n'
      showsOffset := isGiven given 'b'
      gap? := if contextOf 'A' = none && contextOf 'B' = none then none
        else match given.reverse.find? fun g => g.1 = '\x04' || g.1 = '\x05' with
          | some (_, gap?) => gap?
          | none => some ['-', '-']
      isSilent := telling != .lines
      isText := isGiven given 'a' || manner? = some "text".toList
      skipsBinary := isGiven given 'I' || manner? = some "without-match".toList
      hasZeros := isGiven given 'z'
      endsNames := isGiven given 'Z' }
    let targets ←
      if !isDeep then pure (if operands.isEmpty then [['-']] else operands)
      else do
        let mut found : List Text := []
        let follows := isGiven given 'R'
        if operands.isEmpty then
          found := (← filesBelow follows Files.depthLimit ['.']).map (·.drop 2)
        for operand in operands do
          if ← Files.isDirectory operand then
            found := found ++ (← filesBelow follows Files.depthLimit operand)
          else found := found ++ [operand]
        pure found
    let showsName := match lastOf? given ['h', 'H'] with
      | some c => c == 'H'
      | none => 1 < operands.length || isDeep
    let isTacit := isGiven given 's'
    let label := (argument? given '\x03').getD "(standard input)"
    let mut outcome : Outcome := ⟨false, false, false⟩
    let mut isOver := false
    for target in targets do
      if !isOver then
        outcome ← searchFile q telling showsName isTacit label outcome target
        isOver := telling == .quiet && outcome.isFound
    pure (if isOver then 0 else if outcome.isFailed then 2 else if outcome.isFound then 0 else 1)

end Bytelink.Script.Searching
