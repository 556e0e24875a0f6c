import Bytelink.Host.Script.Pattern
import Bytelink.Host.Script.Wide
import Bytelink.Text.Casing
import Bytelink.Text.Letter
import Bytelink.Text.Numeral
import Bytelink.Text.Printable
import Bytelink.Text.Search

/-!
# Regular expressions

Expressions in the basic and the extended notation. Of the matches that begin first the longest
counts, and where several ways lead to it, the one in which earlier parts take as much as they can.
Characters may be single bytes or the wide ones that bytes encode together; a byte that is part of
no character is matched by nothing but itself.
-/
namespace Bytelink.Script

inductive Regex
  | nothing
  | one (k : CharSet)
  | any
  | lineStart
  | lineEnd
  | wordStart
  | wordEnd
  | wordEdge
  | wordInside
  | group (number : Nat) (r : Regex)
  | again (number : Nat)
  | both (first second : Regex)
  | either (first second : Regex)
  | repeated (least : Nat) (most? : Option Nat) (r : Regex)
  deriving DecidableEq, Repr

inductive RegexFault
  | badExpression
  | openBracket
  | unknownClass
  | openGroup
  | noGroup
  | openInterval
  | badInterval
  | badReference
  | trailingBackslash
  | nothingToRepeat
  | badRange
  deriving DecidableEq, Repr

def RegexFault.message : RegexFault → Text
  | badExpression => "Invalid regular expression"
  | unknownClass => "Invalid character class name"
  | openBracket => "Unmatched [, [^, [:, [., or [="
  | openGroup => "Unmatched ( or \\("
  | noGroup => "Unmatched ) or \\)"
  | openInterval => "Unmatched \\\x7b"
  | badInterval => "Invalid content of \\\x7b\\\x7d"
  | badReference => "Invalid back reference"
  | trailingBackslash => "Trailing backslash"
  | nothingToRepeat => "Invalid preceding regular expression"
  | badRange => "Invalid range end"

namespace Regex

/-- A dialect: which characters are operators, and whether an operator where none can stand is let
pass, with a warning or as an ordinary character. -/
structure Dialect where
  isExtended : Bool
  isLenient : Bool
  deriving DecidableEq, Repr

/-- What is left of an expression, and how many groups have been opened and closed. -/
structure Source where
  rest : Text
  opened : Nat
  closed : List Nat
  /-- Whether what comes next stands at the front of a branch. -/
  atFront : Bool
  /-- What is doubtful about it, the newest first. -/
  warnings : List Text
  deriving DecidableEq, Repr

abbrev Reading := StateT Source (Except RegexFault)

def fixed (c : Char) : Regex := .one ⟨false, [.range c c]⟩

def wordSet (isNegated : Bool) : CharSet := ⟨isNegated, [.named "alnum", .range '_' '_']⟩

def spaceSet (isNegated : Bool) : CharSet := ⟨isNegated, [.named "space"]⟩

/-- What a backslash and a character mean in both notations. -/
def escape? : Char → Option Regex
  | 'w' => some (.one (wordSet false))
  | 'W' => some (.one (wordSet true))
  | 's' => some (.one (spaceSet false))
  | 'S' => some (.one (spaceSet true))
  | '<' => some .wordStart
  | '>' => some .wordEnd
  | 'b' => some .wordEdge
  | 'B' => some .wordInside
  | '\x60' => some .lineStart
  | '\'' => some .lineEnd
  | _ => none

/-- Operators of an expression. -/
inductive Mark
  | opening
  | closing
  | bar
  | star
  | plus
  | question
  | brace
  deriving DecidableEq, Repr

/-- The operator that a text begins with, and what follows it. -/
def mark? (isExtended : Bool) (t : Text) : Option (Mark × Text) :=
  let ofChar : Char → Option Mark
    | '(' => some .opening
    | ')' => some .closing
    | '|' => some .bar
    | '+' => some .plus
    | '?' => some .question
    | '\x7b' => some .brace
    | _ => none
  match t with
  | '*' :: rest => some (.star, rest)
  | '\\' :: c :: rest => if isExtended then none else (ofChar c).map (·, rest)
  | c :: rest => if isExtended then (ofChar c).map (·, rest) else none
  | [] => none

/-- The bounds of an interval after its opening brace, and what follows it. -/
def interval? (isExtended : Bool) (t : Text) : Except RegexFault (Nat × Option Nat × Text) :=
  let low := t.takeWhile Text.isDigit
  let t := t.drop low.length
  let (isRange, t) := match t with
    | ',' :: t => (true, t)
    | t => (false, t)
  let high := if isRange then t.takeWhile Text.isDigit else []
  let t := t.drop high.length
  let after? := if isExtended then Text.stripStart ['\x7d'] t
    else Text.stripStart ['\\', '\x7d'] t
  match after? with
  | none => .error (if t.isEmpty then .openInterval else .badInterval)
  | some rest =>
      let least := Text.valueIn 10 low
      let most? := if !isRange then some least
        else if high.isEmpty then none
        else some (Text.valueIn 10 high)
      if low.isEmpty && !isRange then .error .badInterval
      else if most?.any (· < least) || 32767 < least then .error .badInterval
      else .ok (least, most?, rest)

/-- The operators of repetition that follow an atom. In the basic notation an asterisk or interval
does not follow another operator unless that is let pass. -/
def repetitions (n : Dialect) (isFirst : Bool) : Nat → Regex → Reading Regex
  | 0, r => pure r
  | fuel + 1, r => do
      let s ← get
      let mayFollow := isFirst || n.isExtended || n.isLenient
      let go (rest : Text) (r : Regex) : Reading Regex := do
        set { s with rest := rest }
        repetitions n false fuel r
      match mark? n.isExtended s.rest with
      | some (.star, rest) =>
          if mayFollow then go rest (.repeated 0 none r) else throw .nothingToRepeat
      | some (.plus, rest) => go rest (.repeated 1 none r)
      | some (.question, rest) => go rest (.repeated 0 (some 1) r)
      | some (.brace, rest) =>
          match interval? n.isExtended rest with
          | .ok (least, most?, rest) =>
              if mayFollow then go rest (.repeated least most? r) else throw .nothingToRepeat
          | .error fault =>
              if n.isExtended && n.isLenient && fault = .openInterval then pure r else throw fault
      | _ => pure r

/-- Whether a dollar sign in front of this text stands at the end of a branch. -/
def endsBranch (isExtended : Bool) (t : Text) : Bool :=
  isExtended || t.isEmpty || (match mark? isExtended t with
    | some (.closing, _) => true
    | some (.bar, _) => true
    | _ => false)

/-- What a warning calls an operator. -/
def Mark.text : Mark → Text
  | .star => ['*']
  | .plus => ['+']
  | .question => ['?']
  | .brace => "\x7b...\x7d"
  | _ => []

mutual

/-- Branches with bars between them, up to the end or a closing parenthesis. -/
def branches (n : Dialect) : Nat → Nat → Reading Regex
  | 0, _ => pure .nothing
  | fuel + 1, depth => do
      modify fun s => { s with atFront := true }
      let first ← branch n fuel depth .nothing
      let s ← get
      match mark? n.isExtended s.rest with
      | some (.bar, rest) =>
          set { s with rest := rest }
          return .either first (← branches n fuel depth)
      | _ => pure first

/-- Atoms one after another. -/
def branch (n : Dialect) : Nat → Nat → Regex → Reading Regex
  | 0, _, done => pure done
  | fuel + 1, depth, done => do
      let s ← get
      let also (r : Regex) : Regex := if done = .nothing then r else .both done r
      let take (r : Regex) (rest : Text) : Reading Regex := do
        set { s with rest := rest, atFront := false }
        branch n fuel depth (also (← repetitions n true fuel r))
      -- What matches a place and no characters is not repeated.
      let pin (r : Regex) (rest : Text) : Reading Regex :=
        if n.isLenient && !s.atFront then take r rest
        else do
          set { s with rest := rest, atFront := true }
          branch n fuel depth (also r)
      match s.rest, mark? n.isExtended s.rest with
      | [], _ => pure done
      | _, some (.bar, _) => pure done
      | c :: text, some (.closing, _) =>
          if depth ≠ 0 then pure done
          else if n.isExtended && n.isLenient then take (fixed c) text
          else throw .noGroup
      | _, some (.opening, rest) =>
          let number := s.opened + 1
          set { s with rest := rest, opened := number, atFront := true }
          let inside ← branches n fuel (depth + 1)
          let s ← get
          match mark? n.isExtended s.rest with
          | some (.closing, rest) =>
              set { s with rest := rest, closed := number :: s.closed, atFront := false }
              let r ← repetitions n true fuel (.group number inside)
              branch n fuel depth (also r)
          | _ => throw .openGroup
      | c :: text, some (sign, rest) =>
          if n.isExtended && s.atFront then
            if !n.isLenient then throw .nothingToRepeat
            else
              let rest := match sign with
                | .brace => match interval? true rest with
                  | .ok (_, _, rest) => rest
                  | .error _ => rest
                | _ => rest
              set { s with
                rest := rest, warnings := (sign.text ++ " at start of expression") :: s.warnings }
              branch n fuel depth done
          else if n.isExtended || sign = .star then take (fixed c) text
          else if sign = .brace && !n.isLenient then throw .nothingToRepeat
          else take (fixed (text.headD c)) (text.drop 1)
      | '^' :: rest, none =>
          if n.isExtended || s.atFront then pin .lineStart rest else take (fixed '^') rest
      | '$' :: rest, none =>
          if endsBranch n.isExtended rest then pin .lineEnd rest else take (fixed '$') rest
      | '.' :: rest, none => take .any rest
      | '[' :: rest, none =>
          match readSet? ['^'] (rest.map (·, true)) with
          | some (k, after) =>
              if k.members.any isReversed then throw .badRange
              else if hasUnknownClass (rest.take (rest.length - after.length)) then
                throw .unknownClass
              else take (.one k) (after.map (·.1))
          | none => throw (if rest.isEmpty || rest = ['^'] then .badExpression else .openBracket)
      | ['\\'], none => throw .trailingBackslash
      | '\\' :: c :: rest, none =>
          match escape? c with
          | some r => if isSingle r then take r rest else pin r rest
          | none =>
              if c.isDigit && c != '0' then
                let number := Text.digitValue c
                if s.closed.contains number then take (.again number) rest
                else throw .badReference
              else take (fixed c) rest
      | c :: rest, none => take (fixed c) rest
where
  /-- Whether an expression takes up a character. -/
  isSingle : Regex → Bool
    | .one _ => true
    | _ => false
  isReversed : SetMember → Bool
    | .range low high => high < low
    | .named _ => false
  /-- Whether a set names a class that there is not. -/
  hasUnknownClass : Text → Bool
    | '[' :: ':' :: rest =>
        let name := rest.takeWhile Char.isAlpha
        (":]" : String).toList.isPrefixOf (rest.drop name.length) &&
          (classes.lookup (String.ofList name)).isNone
    | _ :: rest => hasUnknownClass rest
    | [] => false

end

/-- An expression that has been read. -/
structure Compiled where
  regex : Regex
  groups : Nat
  warnings : List Text

def read (n : Dialect) (t : Text) : Except RegexFault Compiled := do
  let (r, s) ← (branches n (4 * t.length + 8) 0).run ⟨t, 0, [], true, []⟩
  pure ⟨r, s.opened, s.warnings.reverse⟩

/-- A line under search. -/
structure Subject where
  chars : Array Char
  /-- Whether the characters are wide. -/
  isWide : Bool
  ignoresCase : Bool
  /-- Whether each line feed ends a line and begins another. -/
  hasLines : Bool

/-- Where the groups begin and end. -/
abbrev Groups := List (Nat × Nat × Nat)

/-- The longest match so far: its end and its groups. -/
abbrev Found := Option (Nat × Groups)

abbrev Continue := Nat → Groups → Found → Found

namespace Subject

/-- Whether no longer match is possible. -/
def isBest (s : Subject) (f : Found) : Bool := f.any (·.1 == s.chars.size)

def charAt? (s : Subject) (place : Nat) : Option Char := s.chars[place]?

/-- Whether a wide character beyond the basic ones belongs to a class. -/
def isInWideClass (name : String) (c : Char) : Bool :=
  let isVisible := keepsTogether c || !Text.inRanges Text.shapelessRanges c
  let isSpace := Text.isBlank c && !keepsTogether c && c != '\u0085'
  match name with
  | "alpha" => Text.isLetter c
  | "alnum" => Text.isLetter c
  | "lower" => Text.inUpperCase c != c
  | "upper" => Text.inLowerCase c != c
  | "space" => isSpace
  | "blank" => isSpace && c != '\u2028' && c != '\u2029'
  | "punct" => isVisible && !Text.isLetter c
  | "graph" => isVisible
  | "print" => isVisible
  | _ => false
where
  /-- Spaces that count as punctuation. -/
  keepsTogether (c : Char) : Bool := ['\u00a0', '\u2007', '\u202f'].contains c

def holds (s : Subject) (m : SetMember) (c : Char) : Bool :=
  match m with
  | .named name => if s.isWide && '\x7f' < c then isInWideClass name c else m.admits c
  | m => m.admits c

def admitsExactly (s : Subject) (k : CharSet) (c : Char) : Bool :=
  if Wide.isByte c then !k.isNegated && k.members.any (s.holds · c)
  else k.members.any (s.holds · c) != k.isNegated

def lower (s : Subject) (c : Char) : Char := if s.isWide then Text.inLowerCase c else c.toLower

def upper (s : Subject) (c : Char) : Char := if s.isWide then Text.inUpperCase c else c.toUpper

def isWordAt (s : Subject) (place : Nat) : Bool :=
  (s.charAt? place).any (s.admitsExactly (wordSet false))

def isWordBefore (s : Subject) (place : Nat) : Bool := place != 0 && s.isWordAt (place - 1)

def admits (s : Subject) (k : CharSet) (c : Char) : Bool :=
  if s.ignoresCase && !Wide.isByte c then
    let isIn (c : Char) : Bool := k.members.any (s.holds · c)
    (isIn c || isIn (s.lower c) || isIn (s.upper c)) != k.isNegated
  else s.admitsExactly k c

def isSame (s : Subject) (a b : Char) : Bool :=
  a == b || (s.ignoresCase && s.lower a == s.lower b)

def startsLine (s : Subject) (place : Nat) : Bool :=
  place == 0 || (s.hasLines && s.charAt? (place - 1) == some '\n')

def endsLine (s : Subject) (place : Nat) : Bool :=
  place == s.chars.size || (s.hasLines && s.charAt? place == some '\n')

def runEnd (s : Subject) (isIn : Char → Bool) : Nat → Nat → Nat
  | 0, place => place
  | limit + 1, place =>
      match s.charAt? place with
      | some c => if isIn c then runEnd s isIn limit (place + 1) else place
      | none => place

/-- Goes on from one of the places between two bounds, the last one first. -/
def fromLast (s : Subject) (go : Nat → Found → Found) (low : Nat) : Nat → Found → Found
  | 0, f => go low f
  | count + 1, f =>
      let f := go (low + count + 1) f
      if s.isBest f then f else fromLast s go low count f

/-- Repeats a step that has to come further each time. -/
def loop (s : Subject) (step : Nat → Groups → Continue → Found → Found) (least : Nat)
    (most? : Option Nat) (go : Continue) : Nat → Nat → Nat → Groups → Found → Found
  | 0, _, _, _, f => f
  | fuel + 1, count, place, groups, f =>
      let more :=
        if most?.any (· ≤ count) then f
        else step place groups (fun next groups f =>
          if next = place && least ≤ count then f
          else loop s step least most? go fuel (count + 1) next groups f) f
      if s.isBest more then more
      else if least ≤ count then go place groups more
      else more

end Subject

def single? (s : Subject) : Regex → Option (Char → Bool)
  | .one k => some (s.admits k)
  | .any => some fun c => !Wide.isByte c
  | _ => none

/-- Goes through the ways in which an expression matches from a place on. -/
def run (s : Subject) : Regex → Nat → Groups → Continue → Found → Found
  | .nothing, place, groups, go, f => go place groups f
  | .one k, place, groups, go, f =>
      if (s.charAt? place).any (s.admits k) then go (place + 1) groups f else f
  | .any, place, groups, go, f =>
      if (s.charAt? place).any (!Wide.isByte ·) then go (place + 1) groups f else f
  | .lineStart, place, groups, go, f => if s.startsLine place then go place groups f else f
  | .lineEnd, place, groups, go, f => if s.endsLine place then go place groups f else f
  | .wordStart, place, groups, go, f =>
      if !s.isWordBefore place && s.isWordAt place then go place groups f else f
  | .wordEnd, place, groups, go, f =>
      if s.isWordBefore place && !s.isWordAt place then go place groups f else f
  | .wordEdge, place, groups, go, f =>
      if s.isWordBefore place != s.isWordAt place then go place groups f else f
  | .wordInside, place, groups, go, f =>
      if s.isWordBefore place == s.isWordAt place then go place groups f else f
  | .group number r, place, groups, go, f =>
      run s r place groups (fun stop groups f => go stop ((number, place, stop) :: groups) f) f
  | .again number, place, groups, go, f =>
      match groups.lookup number with
      | none => f
      | some (start, stop) =>
          let isThere := (List.range (stop - start)).all fun n =>
            match s.charAt? (start + n), s.charAt? (place + n) with
            | some a, some b => s.isSame a b
            | _, _ => false
          if isThere then go (place + (stop - start)) groups f else f
  | .both first second, place, groups, go, f =>
      run s first place groups (fun place groups f => run s second place groups go f) f
  | .either first second, place, groups, go, f =>
      let f := run s first place groups go f
      if s.isBest f then f else run s second place groups go f
  | .repeated least most? r, place, groups, go, f =>
      match single? s r with
      | some isIn =>
          let limit := most?.getD s.chars.size
          let stop := s.runEnd isIn limit place
          if stop < place + least then f
          else
            let low := place + least
            s.fromLast (fun place f => go place groups f) low (stop - low) f
      | none =>
          s.loop (run s r) least most? go (s.chars.size - place + least + 2) 0 place groups f

/-- A match: where it begins and ends, and its groups. -/
structure Match where
  start : Nat
  stop : Nat
  groups : Groups
  deriving DecidableEq, Repr

/-- Keeps a match that is allowed, if it is longer than the one that has been found. -/
def keepLonger (isAllowed : Nat → Nat → Bool) (start : Nat) : Continue := fun stop groups f =>
  if !isAllowed start stop then f
  else match f with
    | some (best, _) => if best < stop then some (stop, groups) else f
    | none => some (stop, groups)

/-- The longest match that begins at a place, of those that are allowed. -/
def matchAt? (s : Subject) (r : Regex) (isAllowed : Nat → Nat → Bool) (start : Nat) :
    Option Match :=
  (run s r start [] (keepLonger isAllowed start) none).map fun (stop, groups) =>
    ⟨start, stop, groups⟩

/-- The first match that begins at a place or behind it; `count` bounds the places. -/
def find? (s : Subject) (r : Regex) (isAllowed : Nat → Nat → Bool) : Nat → Nat → Option Match
  | 0, _ => none
  | count + 1, start =>
      match matchAt? s r isAllowed start with
      | some m => some m
      | none => if start < s.chars.size then find? s r isAllowed count (start + 1) else none

/-- The first match at a place or behind it, of those that are allowed. -/
def searchWhere (s : Subject) (r : Regex) (isAllowed : Nat → Nat → Bool) (start : Nat) :
    Option Match :=
  if s.chars.size < start then none else find? s r isAllowed (s.chars.size - start + 1) start

def search (s : Subject) (r : Regex) (start : Nat) : Option Match :=
  searchWhere s r (fun _ _ => true) start

end Regex
end Bytelink.Script
