import Bytelink.Text.Basic

/-!
# Wildcard patterns

A pattern is a sequence of items: a fixed character, any character, any run of characters, or one of
a set. Characters that were quoted in the script stand for themselves.
-/
namespace Bytelink.Script

/-- Characters, each with whether it may have a meaning of its own. -/
abbrev Marked := List (Char × Bool)

/-- The named classes of ASCII characters. -/
def classes : List (String × (Char → Bool)) :=
  [("alnum", Char.isAlphanum), ("alpha", Char.isAlpha), ("digit", Char.isDigit),
    ("lower", Char.isLower), ("upper", Char.isUpper),
    ("space", fun c => c == ' ' || ('\t' ≤ c && c ≤ '\x0d')),
    ("blank", fun c => c == ' ' || c == '\t'),
    ("punct", isPunctuation),
    ("graph", fun c => '!' ≤ c && c ≤ '~'), ("print", fun c => ' ' ≤ c && c ≤ '~'),
    ("cntrl", fun c => c < ' ' || c == '\x7f'),
    ("xdigit", fun c => c.isDigit || ('a' ≤ c && c ≤ 'f') || ('A' ≤ c && c ≤ 'F'))]
where
  isPunctuation (c : Char) : Bool := '!' ≤ c && c ≤ '~' && !c.isAlphanum

inductive SetMember
  | range (low high : Char)
  | named (name : String)
  deriving DecidableEq, Repr

structure CharSet where
  isNegated : Bool
  members : List SetMember
  deriving DecidableEq, Repr

def SetMember.admits (m : SetMember) (c : Char) : Bool :=
  match m with
  | .range low high => low ≤ c && c ≤ high
  | .named name => ((classes.lookup name).getD fun _ => false) c

def CharSet.admits (k : CharSet) (c : Char) : Bool := k.members.any (·.admits c) != k.isNegated

/-- A class `[:name:]` after its opening bracket, with what follows it. -/
def namedClass? (t : Marked) : Option (SetMember × Marked) :=
  match t with
  | (':', true) :: rest =>
      let name := rest.takeWhile (·.1.isAlpha)
      match rest.drop name.length with
      | (':', _) :: (']', true) :: after =>
          let name := String.ofList (name.map (·.1))
          if (classes.lookup name).isSome then some (.named name, after) else none
      | _ => none
  | _ => none

/-- The members of a set up to its closing bracket, and what follows. A bracket at the very front is
a member. Fuel bounds the number of members. -/
def setMembers : Nat → Bool → Marked → Option (List SetMember × Marked)
  | 0, _, _ => none
  | _ + 1, _, [] => none
  | fuel + 1, isFirst, (c, active) :: rest =>
      if c = ']' && active && !isFirst then some ([], rest)
      else
        let also (m : SetMember) (rest : Marked) : Option (List SetMember × Marked) :=
          (setMembers fuel false rest).map fun r => (m :: r.1, r.2)
        match if c = '[' && active then namedClass? rest else none with
        | some (m, rest) => also m rest
        | none => match rest with
          | ('-', true) :: (high, activeHigh) :: after =>
              if high = ']' && activeHigh then also (.range c c) rest
              else also (.range c high) after
          | _ => also (.range c c) rest

/-- The set that begins after an opening bracket, with what follows it. Any of `marks` in front
negates the set. -/
def readSet? (marks : Text) (t : Marked) : Option (CharSet × Marked) :=
  let (isNegated, body) := match t with
    | (c, true) :: rest => if marks.contains c then (true, rest) else (false, t)
    | _ => (false, t)
  (setMembers (body.length + 1) true body).map fun r => (⟨isNegated, r.1⟩, r.2)

inductive PatternItem
  | fixed (c : Char)
  | any
  | run
  | oneOf (k : CharSet)
  deriving DecidableEq, Repr

abbrev Pattern := List PatternItem

/-- The pattern of marked characters; a backslash that may have a meaning takes it from the next
one. Fuel bounds the number of items. -/
def readPattern : Nat → Marked → Pattern
  | 0, _ => []
  | _ + 1, [] => []
  | fuel + 1, (c, active) :: rest =>
      if active && c == '*' then .run :: readPattern fuel rest
      else if active && c == '?' then .any :: readPattern fuel rest
      else if active && c == '[' then
        match readSet? ['!'] rest with
        | some (k, after) => .oneOf k :: readPattern fuel after
        | none => .fixed c :: readPattern fuel rest
      else if active && c == '\\' then
        match rest with
        | next :: rest => .fixed next.1 :: readPattern fuel rest
        | [] => [.fixed c]
      else .fixed c :: readPattern fuel rest

def Pattern.ofMarked (cs : Marked) : Pattern := readPattern cs.length cs

def Pattern.ofText (t : Text) : Pattern := Pattern.ofMarked (t.map (·, true))

def Pattern.covers : Pattern → Text → Bool
  | [], t => t.isEmpty
  | [.run], _ => true
  | .run :: items, t => (List.range (t.length + 1)).any fun n => covers items (t.drop n)
  | .fixed c :: items, t => match t with
    | d :: rest => c == d && covers items rest
    | [] => false
  | .any :: items, t => match t with
    | _ :: rest => covers items rest
    | [] => false
  | .oneOf k :: items, t => match t with
    | d :: rest => k.admits d && covers items rest
    | [] => false

/-- Whether a pattern holds a wildcard. -/
def Pattern.isActive (p : Pattern) : Bool :=
  p.any fun
    | .fixed _ => false
    | _ => true

/-- The text that a pattern without wildcards covers. -/
def Pattern.fixedText (p : Pattern) : Text :=
  p.filterMap fun
    | .fixed c => some c
    | _ => none

/-- The part of a text in front of the first null character. In a text that consists of several it
stands between them, and a pattern never reaches beyond it. -/
def reach (t : Text) : Text := t.takeWhile (· != '\x00')

/-- The text without the shortest or longest part at its front that a pattern covers. All is gone if
the pattern covers the first of several texts and the longest part is asked for. -/
def Pattern.dropStart (p : Pattern) (longest : Bool) (t : Text) : Text :=
  let first := reach t
  if longest && p.covers first then []
  else
    let lengths := List.range (first.length + 1)
    let candidates := if longest then lengths.reverse else lengths
    match candidates.find? fun n => p.covers (first.take n) with
    | some n => t.drop n
    | none => t

/-- The text without what begins with the shortest or longest part at its back that a pattern
covers. Of several texts the longest part is sought in the first. -/
def Pattern.dropEnd (p : Pattern) (longest : Bool) (t : Text) : Text :=
  let candidates := if longest then List.range ((reach t).length + 1)
    else (List.range (t.length + 1)).reverse
  match candidates.find? fun n => p.covers (reach (t.drop n)) with
  | some n => t.take n
  | none => t

end Bytelink.Script
