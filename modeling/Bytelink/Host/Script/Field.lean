import Bytelink.Host.Script.Pattern

/-!
# Fields

After expansion a word is a sequence of segments. Quoted ones stay as they are, the results of
expansions are cut at separators, and what was written plainly is not cut but may hold wildcards.
The fields that come out are the arguments of a command.
-/
namespace Bytelink.Script

inductive Segment
  | fixed (text : Text) (isQuoted : Bool)
  /-- Quotes around nothing, which make a field even of an empty word. -/
  | quotes
  /-- The result of an expansion, which separators cut; so does a null character in it. -/
  | loose (text : Text)
  /-- Texts each of which begins a field of its own, except the first. -/
  | items (texts : List Text)
  deriving DecidableEq, Repr

def Segment.textOf (segments : List Segment) : Text :=
  segments.flatMap fun
    | .fixed t _ => t
    | .quotes => []
    | .loose t => t
    | .items ts => Text.join [' '] ts

/-- The characters of segments, each with whether it may act as a wildcard. -/
def Segment.markedOf (segments : List Segment) : Marked :=
  segments.flatMap fun
    | .fixed t isQuoted => t.map (·, !isQuoted)
    | .quotes => []
    | .loose t => t.map (·, true)
    | .items ts => (Text.join [' '] ts).map (·, false)

def defaultSeparators : Text := [' ', '\t', '\n']

/-- Characters at which expansions are cut. -/
abbrev Separators := Text

namespace Separators

def contains (ifs : Separators) (c : Char) : Bool := c == '\x00' || ifs.elem c

/-- Whether a separator is one of those of which several count as one. -/
def isSpace (ifs : Separators) (c : Char) : Bool :=
  ifs.contains c && (c == '\x00' || defaultSeparators.elem c)

end Separators

/-- Fields that are complete, the newest first, and the one in progress, its characters newest
first. -/
structure Splitting where
  complete : List Marked
  current : Marked
  /-- Whether anything has been put into the field in progress, be it empty quotes. -/
  isBegun : Bool
  /-- Whether the latest expansion was a list of items. -/
  afterItems : Bool
  deriving DecidableEq, Repr

namespace Splitting

def start : Splitting := ⟨[], [], false, false⟩

def append (p : Splitting) (cs : Marked) : Splitting :=
  { p with current := cs.reverse ++ p.current, isBegun := p.isBegun || !cs.isEmpty }

/-- Completes the field in progress, even an empty one. -/
def close (p : Splitting) : Splitting :=
  { p with complete := p.current.reverse :: p.complete, current := [], isBegun := false }

/-- The rest of a text after a separator: more space, and one other separator if the first was
space. -/
def afterSeparator (ifs : Separators) (mayTakeOther : Bool) : Text → Text
  | [] => []
  | c :: rest =>
      if !ifs.contains c then c :: rest
      else if ifs.isSpace c then afterSeparator ifs mayTakeOther rest
      else if mayTakeOther then afterSeparator ifs false rest
      else c :: rest

/-- Cuts the result of an expansion. Space does not begin a field, except right after a list of
items. Fuel bounds the number of characters. -/
def cut (ifs : Separators) (keepsSpace : Bool) : Nat → Splitting → Text → Splitting
  | 0, p, _ => p
  | _ + 1, p, [] => p
  | fuel + 1, p, c :: rest =>
      if !ifs.contains c then cut ifs keepsSpace fuel (p.append [(c, true)]) rest
      else
        let isSpace := ifs.isSpace c && !keepsSpace
        if isSpace && !p.isBegun then cut ifs keepsSpace fuel p rest
        else cut ifs keepsSpace fuel p.close (afterSeparator ifs isSpace rest)

def add (ifs : Separators) (p : Splitting) : Segment → Splitting
  | .fixed t isQuoted => p.append (t.map (·, !isQuoted))
  | .quotes => { p with isBegun := true }
  | .loose t => { cut ifs p.afterItems (t.length + 1) p t with afterItems := false }
  | .items [] => p
  | .items (first :: rest) =>
      let appended (p : Splitting) (t : Text) : Splitting := p.append (t.map (·, false))
      let p := rest.foldl (fun p t => appended p.close t) (appended p first)
      { p with afterItems := true }

def fields (ifs : Separators) (segments : List Segment) : List Marked :=
  let p := segments.foldl (add ifs) start
  let p := if p.isBegun || p.afterItems then p.close else p
  p.complete.reverse

end Splitting

/-- The texts that a line is given out to, at most `count` of them, when its characters are marked
with whether they can separate. The last text takes all that is left, without the space at its end
and without a separator that only ends it. -/
def shareOut (ifs : Separators) : Nat → Marked → List Text
  | 0, _ => []
  | count + 1, line =>
      let isSeparator (c : Char × Bool) : Bool := c.2 && ifs.elem c.1
      let isSpace (c : Char × Bool) : Bool := isSeparator c && defaultSeparators.elem c.1
      let line := line.dropWhile isSpace
      if line.isEmpty then []
      else
        let first := line.takeWhile (!isSeparator ·)
        let separator := line.drop first.length
        let blank := separator.takeWhile isSpace
        let other := ((separator.drop blank.length).take 1).filter isSeparator
        let behind := separator.drop (blank.length + other.length)
        if count = 0 then
          if (behind.dropWhile isSpace).isEmpty then [first.map (·.1)]
          else [((line.reverse.dropWhile isSpace).reverse).map (·.1)]
        else first.map (·.1) :: shareOut ifs count behind

end Bytelink.Script
