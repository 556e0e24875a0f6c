import Bytelink.Host.Script.Pattern
import Bytelink.Host.Script.Stream
import Bytelink.Text.Casing

/-!
# Characters for others

The program that leads its input through a translation of single characters: some are replaced, some
left out, and of some only one is kept where several follow each other.
-/
namespace Bytelink.Script.Characters

open Routine

inductive Element
  | one (c : Char)
  | range (low high : Char)
  | named (name : String)
  | equivalent (c : Char)
  | repeated (c : Char) (count : Nat)
  /-- The character fills up the set. -/
  | filling (c : Char)
  deriving DecidableEq, Repr

def allBytes : List Char := (List.range 256).map Char.ofNat

/-- The characters of a part, in order. -/
def Element.chars : Element → List Char
  | one c => [c]
  | range low high => (List.range (high.toNat + 1 - low.toNat)).map fun n =>
      Char.ofNat (low.toNat + n)
  | named name => match classes.lookup name with
      | some isIn => allBytes.filter isIn
      | none => []
  | equivalent c => [c]
  | repeated c count => List.replicate count c
  | filling _ => []

/-- A text with its escapes resolved; each character with whether it was escaped. What is doubtful
about it comes besides. -/
def resolved : Nat → Text → Marked × List Text
  | 0, _ => ([], [])
  | fuel + 1, t =>
      let also (c : Char) (isEscaped : Bool) (rest : Text) : Marked × List Text :=
        let (cs, warnings) := resolved fuel rest
        ((c, isEscaped) :: cs, warnings)
      match t with
      | [] => ([], [])
      | ['\\'] =>
          ([('\\', false)],
            ["warning: an unescaped backslash at end of string is not portable"])
      | '\\' :: c :: rest =>
          if Text.isOctalDigit c then
            let three := ((c :: rest).take 3).takeWhile Text.isOctalDigit
            let isTooLarge := 255 < Text.valueIn 8 three
            let digits := if isTooLarge then three.take 2 else three
            let (cs, warnings) := also (Char.ofNat (Text.valueIn 8 digits)) true
              ((c :: rest).drop digits.length)
            let warning : Text := "warning: the ambiguous octal escape \\" ++ three ++
              " is being\n\tinterpreted as the 2-byte sequence \\0" ++ digits ++ ", " ++
              three.drop 2
            (cs, if isTooLarge then warning :: warnings else warnings)
          else also (control c) true rest
      | c :: rest => also c false rest
where
  control : Char → Char
    | 'a' => '\x07'
    | 'b' => '\x08'
    | 'f' => '\x0c'
    | 'n' => '\n'
    | 'r' => '\x0d'
    | 't' => '\t'
    | 'v' => '\x0b'
    | c => c

/-- A character as messages about sets show it. -/
def visible (c : Char) : Text :=
  if ' ' ≤ c && c ≤ '~' then (if c = '\\' then ['\\', '\\'] else [c])
  else
    let digits := Nat.toDigits 8 c.toNat
    '\\' :: List.replicate (3 - digits.length) '0' ++ digits

/-- The characters up to a mark and a bracket, and what follows. -/
def upTo? (mark : Char) : Marked → Option (Text × Marked)
  | (c, isEscaped) :: (d, isNextEscaped) :: rest =>
      if c = mark && d = ']' && !isEscaped && !isNextEscaped then some ([], rest)
      else (upTo? mark ((d, isNextEscaped) :: rest)).map fun r => (c :: r.1, r.2)
  | _ => none

/-- The digits up to a bracket, and what follows. -/
def countText? : Marked → Option (Text × Marked)
  | (_, true) :: _ => none
  | (']', _) :: rest => some ([], rest)
  | (c, _) :: rest => (countText? rest).map fun r => (c :: r.1, r.2)
  | [] => none

/-- A repetition behind its opening bracket, and what follows. -/
def repetition? (t : Marked) : Except Complaint (Option (Element × Marked)) :=
  match t with
  | (c, _) :: ('*', false) :: rest =>
      match countText? rest with
      | none => .ok none
      | some (digits, after) =>
          let base := if digits.head? = some '0' then 8 else 10
          let isNumber := digits.all fun d => d.isDigit && (base = 10 || Text.isOctalDigit d)
          if !isNumber then
            .error [.plain "invalid repeat count ", .word (digits.flatMap visible),
              .plain " in [c*n] construct"]
          else
            let count := Text.valueIn base digits
            .ok (some (if count = 0 then .filling c else .repeated c count, after))
  | _ => .ok none

/-- A class or equivalence class behind its opening bracket and mark, and what follows. -/
def bracketed? (mark : Char) (t : Marked) : Except Complaint (Option (Element × Marked)) :=
  match upTo? mark t with
  | none => .ok none
  | some (name, after) =>
      let isRepetition : Bool := match t with
        | ('*', false) :: rest => (rest.dropWhile (·.1.isDigit)).head? = some (']', false)
        | _ => false
      if mark = ':' then
        if name.isEmpty then .error [.plain "missing character class name '[::]'"]
        else if (classes.lookup (String.ofList name)).isSome then
          .ok (some (.named (String.ofList name), after))
        else if isRepetition then .ok none
        else .error [.plain "invalid character class ", .word (name.flatMap visible)]
      else
        match name with
        | [] => .error [.plain "missing equivalence class character '[==]'"]
        | [c] => .ok (some (.equivalent c, after))
        | name =>
            if isRepetition then .ok none
            else .error [.plain (name.flatMap visible ++
              ": equivalence class operand must be a single character")]

/-- The parts of a set, or what is wrong with it. Fuel bounds their number. -/
def elements : Nat → Marked → Except Complaint (List Element)
  | 0, _ => .ok []
  | fuel + 1, t => do
      let found? ← match t with
        | ('[', false) :: (mark, false) :: rest => do
            if (mark = ':' || mark = '=') && !rest.isEmpty then
              match ← bracketed? mark rest with
              | some found => pure (some found)
              | none => repetition? ((mark, false) :: rest)
            else repetition? ((mark, false) :: rest)
        | ('[', false) :: rest => repetition? rest
        | _ => pure none
      match found?, t with
      | some (e, after), _ => return e :: (← elements fuel after)
      | none, (low, _) :: ('-', false) :: (high, _) :: after =>
          if high < low then
            throw [.plain ("range-endpoints of '" ++ visible low ++ '-' :: visible high ++
              "' are in reverse collating sequence order")]
          return .range low high :: (← elements fuel after)
      | none, (c, _) :: after => return .one c :: (← elements fuel after)
      | none, [] => pure []

/-- The case that a class stands for. -/
def Element.case? : Element → Option Text.Casing
  | named "upper" => some .upper
  | named "lower" => some .lower
  | _ => none

def isClass : Element → Bool
  | .named _ => true
  | _ => false

def lengthOf (es : List Element) : Nat := es.foldl (fun n e => n + e.chars.length) 0

def fillings (es : List Element) : Nat :=
  (es.filter fun
    | .filling _ => true
    | _ => false).length

/-- The pairs of characters of which the first becomes the second, up to the end of one set. Two
classes of case are taken as wholes; the second set must not have such a class where the first has
none. -/
def pairs : Nat → List (List Char × Option Text.Casing) → List (List Char × Option Text.Casing) →
    Option (List (Char × Char))
  | 0, _, _ => some []
  | fuel + 1, ([], _) :: s, t => pairs fuel s t
  | fuel + 1, s, ([], _) :: t => pairs fuel s t
  | fuel + 1, (a :: more, first?) :: s, (b :: others, second?) :: t =>
      match first?, second? with
      | some first, some second =>
          let changed : List (Char × Char) := match first, second with
            | .lower, .upper => (allBytes.filter Char.isLower).map fun c => (c, c.toUpper)
            | .upper, .lower => (allBytes.filter Char.isUpper).map fun c => (c, c.toLower)
            | _, _ => []
          (pairs fuel s t).map (changed ++ ·)
      | none, some _ => none
      | _, none =>
          (pairs fuel ((more, none) :: s) ((others, none) :: t)).map ((a, b) :: ·)
  | _ + 1, [], (_, some _) :: _ => none
  | _, _, _ => some []

/-- Leaves one of several equal characters of a set that follow each other. What comes out is the
last character and the text, newest first. -/
def squeeze (isIn : Char → Bool) : Option Char → Text → Text → Option Char × Text
  | last?, done, [] => (last?, done)
  | last?, done, c :: rest =>
      if last? = some c && isIn c then squeeze isIn last? done rest
      else squeeze isIn (some c) (c :: done) rest

/-- Leads the input through a translation of its characters. -/
def translate (isDeleted : Char → Bool) (image : Char → Char) (squeezed? : Option (Char → Bool)) :
    Routine Nat :=
  goRound (fun last? => do
    match ← readSome 0 chunkSize with
    | .ok [] => pure (.inr 0)
    | .ok bytes =>
        let t := ((Narrow.ofBytes bytes).filter (!isDeleted ·)).map image
        match squeezed? with
        | none =>
            say t
            pure (.inl none)
        | some isIn =>
            let (last?, done) := squeeze isIn last? [] t
            say done.reverse
            pure (.inl last?)
    | .error e =>
        report ("read error: " ++ reason e)
        pure (.inr 1)) 0 rounds (none : Option Char)

def tr : Command := fun arguments => do
  match (Known.ofText "cCdst" [("complement", 'c'), ("delete", 'd'), ("squeeze-repeats", 's'),
      ("truncate-set1", 't')]).read true arguments with
  | .error fault =>
      report fault.message
      refuseUsage 1
  | .ok (given, operands) =>
      let deletes := isGiven given 'd'
      let squeezes := isGiven given 's'
      let complements := isGiven given 'c' || isGiven given 'C'
      let least := if deletes == squeezes then 2 else 1
      let most := if deletes && !squeezes then 1 else 2
      let refuse (t : Text) (hint? : Option Text) : Routine Nat := do
        report t
        match hint? with
        | some hint => complain hint
        | none => pure ()
        refuseUsage 1
      let lastOperand := operands.getLastD []
      if operands.isEmpty then refuse "missing operand" none
      else if operands.length < least then
        refuse ("missing operand after " ++ (← marked lastOperand))
          (some (if squeezes then
              "Two strings must be given when both deleting and squeezing repeats."
            else "Two strings must be given when translating."))
      else if most < operands.length then
        refuse ("extra operand " ++ (← marked ((operands.drop most).headD [])))
          (if operands.length = 2 then
            some "Only one string may be given when deleting without squeezing repeats."
          else none)
      else
        let read (t : Text) : Routine (Except Complaint (List Element)) := do
          let (cs, warnings) := resolved (t.length + 1) t
          for warning in warnings do report warning
          pure (elements (cs.length + 1) cs)
        withValue (← read (operands.headD [])) fun first => do
          let second? ← match operands.drop 1 with
            | t :: _ => do pure ((← read t).map some)
            | [] => pure (.ok none)
          withValue second? fun second? => do
            let named := first.flatMap Element.chars
            let inFirst : List Char :=
              if complements then allBytes.filter (!named.contains ·) else named
            let length := inFirst.length
            if 0 < fillings first then
              withValue (.error [.plain "the [c*] repeat construct may not appear in string1"])
                (fun (_ : Unit) => pure 0)
            else
              match second? with
              | none =>
                  if deletes then translate inFirst.contains id none
                  else translate (fun _ => false) id (some inFirst.contains)
              | some second =>
                  if deletes then
                    if 0 < fillings second then
                      tell "the [c*] construct may appear in string2 only when translating"
                    else
                      translate inFirst.contains id (some (second.flatMap Element.chars).contains)
                  else
                    match target complements (isGiven given 't') first second length with
                    | .error message => tell message
                    | .ok second =>
                        let chars := second.flatMap Element.chars
                        let changed :=
                          if complements then inFirst.zip chars
                          else (aligned first second).getD []
                        let table := allBytes.map fun c => (changed.reverse.lookup c).getD c
                        let images := table.toArray
                        let image (c : Char) : Char := (images[c.toNat]?).getD c
                        translate (fun _ => false) image
                          (if squeezes then some chars.contains else none)
where
  tell (t : Text) : Routine Nat := do
    report t
    pure 1
  /-- The pairs of two sets, unless a class of case stands alone. -/
  aligned (first second : List Element) : Option (List (Char × Char)) :=
    let parts (es : List Element) : List (List Char × Option Text.Casing) :=
      es.map fun e => (e.chars, e.case?)
    pairs (2 * (lengthOf first + lengthOf second + first.length + second.length) + 2)
      (parts first) (parts second)
  /-- The second set, filled up to the length of the first, or what speaks against it. -/
  target (complements truncates : Bool) (first second : List Element) (length : Nat) :
      Except Text (List Element) := do
    let size := lengthOf second
    let several := fillings second
    let isFilled := several = 1 && size ≤ length
    let second := second.map fun
      | .filling c => .repeated c (if isFilled then length - size else 0)
      | e => e
    let size := lengthOf second
    let isEquivalence : Element → Bool
      | .equivalent _ => true
      | _ => false
    let refuse (t : Text) : Except Text Unit := throw t
    if 1 < several then refuse "only one [c*] repeat construct may appear in string2"
    if second.any isEquivalence then
      refuse "[=c=] expressions may not appear in string2 when translating"
    if second.any fun e => isClass e && e.case?.isNone then
      refuse ("when translating, the only character classes that may appear in\n" ++
        "string2 are 'upper' and 'lower'")
    if !complements && second.any (·.case?.isSome) && (aligned first second).isNone then
      refuse "misaligned [:upper:] and/or [:lower:] construct"
    let cases := if complements then 0 else (second.filter (·.case?.isSome)).length
    let isLonger := size - 25 * cases < length - 25 * cases
    let second ← if !isLonger || truncates then pure second
      else match second.getLast? with
        | none => throw ("when not truncating set1, string2 must be non-empty" : Text)
        | some (.named _) =>
            throw ("when translating with string1 longer than string2,\n" ++
              "the latter string must not end with a character class" : Text)
        | some last =>
            let c := match last with
              | .repeated c _ => c
              | last => last.chars.getLastD ' '
            pure (second ++ [.repeated c (length - size)])
    let chars := second.flatMap Element.chars
    if complements && first.any isClass &&
        !(chars.length = length && chars.all (· == chars.headD ' ')) then
      refuse ("when translating with complemented character classes,\n" ++
        "string2 must map all characters in the domain to one")
    pure second

end Bytelink.Script.Characters
