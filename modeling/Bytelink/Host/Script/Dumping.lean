import Bytelink.Host.Script.Amount
import Bytelink.Host.Script.Arithmetic
import Bytelink.Host.Script.Filters

/-!
# Dumps

The program that shows the bytes of its input in lines of sixteen: as characters, or as numbers of
one, two, four or eight bytes in some notation, with the place of each line in front of it. Lines
that only repeat the one before are shown as an asterisk.
-/
namespace Bytelink.Script.Dumping

open Routine

/-- How a group of bytes is shown. -/
inductive Form
  | character
  | named
  | signed
  | unsigned
  | octal
  | hexadecimal
  deriving DecidableEq, Repr

/-- A way to show the bytes of a line. -/
structure Layout where
  form : Form
  /-- How many bytes make one field. -/
  size : Nat
  /-- Whether the printable characters follow at the end of the line. -/
  hasCharacters : Bool
  deriving DecidableEq, Repr

/-- How many characters a field takes. -/
def Layout.width (l : Layout) : Nat :=
  match l.form with
  | .character => 3
  | .named => 3
  | .signed => 1 + (Nat.toDigits 10 (Nat.pow 256 l.size / 2)).length
  | .unsigned => (Nat.toDigits 10 (Nat.pow 256 l.size - 1)).length
  | .octal => (8 * l.size + 2) / 3
  | .hexadecimal => 2 * l.size

/-- A number with the least significant byte first. -/
def littleEndian : List Char → Nat
  | [] => 0
  | c :: rest => c.toNat + 256 * littleEndian rest

/-- A byte as a character, an escape or an octal number. -/
def shownChar (c : Char) : Text :=
  match c with
  | '\x00' => ['\\', '0']
  | '\x07' => ['\\', 'a']
  | '\x08' => ['\\', 'b']
  | '\x0c' => ['\\', 'f']
  | '\n' => ['\\', 'n']
  | '\x0d' => ['\\', 'r']
  | '\t' => ['\\', 't']
  | '\x0b' => ['\\', 'v']
  | c =>
      if ' ' ≤ c && c ≤ '~' then [c]
      else
        let digits := Nat.toDigits 8 c.toNat
        List.replicate (3 - digits.length) '0' ++ digits

/-- A byte as a character or under its name; its highest bit does not count. -/
def namedChar (c : Char) : Text :=
  let names := ["nul", "soh", "stx", "etx", "eot", "enq", "ack", "bel", "bs", "ht", "nl", "vt",
    "ff", "cr", "so", "si", "dle", "dc1", "dc2", "dc3", "dc4", "nak", "syn", "etb", "can", "em",
    "sub", "esc", "fs", "gs", "rs", "us", "sp"]
  let code := c.toNat % 128
  if code = 127 then "del" else ((names[code]?).map String.toList).getD [Char.ofNat code]

/-- The text of a field. -/
def Layout.show (l : Layout) (group : List Char) : Text :=
  let n := littleEndian group
  let inBase (base : Nat) : Text :=
    let digits := Nat.toDigits base n
    List.replicate (l.width - digits.length) '0' ++ digits
  match l.form with
  | .character => shownChar (group.headD '\x00')
  | .named => namedChar (group.headD '\x00')
  | .signed =>
      let whole := Nat.pow 256 l.size
      if whole ≤ 2 * n then '-' :: Text.decimal (whole - n) else Text.decimal n
  | .unsigned => Text.decimal n
  | .octal => inBase 8
  | .hexadecimal => inBase 16

/-- A text in groups of the same size; the last one is filled up with zeros. -/
def groups (size : Nat) : Nat → List Char → List (List Char)
  | 0, _ => []
  | _, [] => []
  | fuel + 1, cs =>
      let group := cs.take size
      (group ++ List.replicate (size - group.length) '\x00') :: groups size fuel (cs.drop size)

/-- The place of a line. -/
inductive Address
  | hidden
  | inBase (base width : Nat)
  deriving DecidableEq, Repr

def Address.show : Address → Nat → Text
  | .hidden, _ => []
  | .inBase base width, n =>
      let digits := Nat.toDigits base n
      List.replicate (width - digits.length) '0' ++ digits

def Address.blank : Address → Text
  | .hidden => []
  | .inBase _ width => List.replicate width ' '

structure Dump where
  address : Address
  layouts : List Layout
  perLine : Nat
  showsRepeats : Bool

def Dump.span (d : Dump) : Nat :=
  d.layouts.foldl (fun most l => max most ((l.width + 1) * (d.perLine / l.size))) 0

def Dump.fields (d : Dump) (l : Layout) (bytes : List Char) : Text :=
  let count := d.perLine / l.size
  let spare := d.span - count * l.width
  let shown := (groups l.size (bytes.length + 1) bytes).zipIdx.map fun (group, place) =>
    let left := spare * (count - place) / count
    let next := spare * (count - place - 1) / count
    padLeft (left - next + l.width) (l.show group)
  let missing := count - (groups l.size (bytes.length + 1) bytes).length
  let characters := if !l.hasCharacters then []
    else List.replicate (missing * (l.width + spare / count)) ' ' ++
      ([' ', ' ', '>'] ++ bytes.map (fun c => if ' ' ≤ c && c ≤ '~' then c else '.') ++ ['<'])
  shown.flatten ++ characters

def Dump.lines (d : Dump) : Nat → Nat → Option (List Char) → Bool → Text → List Text
  | 0, _, _, _, _ => []
  | fuel + 1, place, before?, isStarred, t =>
      if t.isEmpty then []
      else
        let bytes := t.take d.perLine
        let rest := t.drop d.perLine
        if !d.showsRepeats && bytes.length = d.perLine && before? = some bytes then
          let more := d.lines fuel (place + bytes.length) before? true rest
          if isStarred then more else "*\n" :: more
        else
          let shown := d.layouts.zipIdx.map fun (l, number) =>
            (if number = 0 then d.address.show place else d.address.blank) ++
              d.fields l bytes ++ ['\n']
          shown ++ d.lines fuel (place + bytes.length) (some bytes) false rest

def readType : Nat → Text → Except Complaint (List Layout)
  | 0, _ => .ok []
  | _, [] => .ok []
  | fuel + 1, c :: rest => do
      let form? : Option Form := match c with
        | 'a' => some .named
        | 'c' => some .character
        | 'd' => some .signed
        | 'u' => some .unsigned
        | 'o' => some .octal
        | 'x' => some .hexadecimal
        | _ => none
      match form? with
      | none =>
          throw [.plain ("invalid character '" ++ [c] ++ "' in type string "), .word (c :: rest)]
      | some form =>
          let digits := rest.takeWhile Char.isDigit
          let behind := rest.drop digits.length
          let (size, behind) :=
            if form = .character || form = .named then (1, rest)
            else if !digits.isEmpty then (Text.valueIn 10 digits, behind)
            else match behind with
              | 'C' :: behind => (1, behind)
              | 'S' :: behind => (2, behind)
              | 'I' :: behind => (4, behind)
              | 'L' :: behind => (8, behind)
              | behind => (4, behind)
          if !([1, 2, 4, 8].contains size) then
            throw [.plain "invalid type string ", .word (c :: rest),
              .plain (";\nthis system doesn't provide a " ++ Text.decimal size ++
                "-byte integral type")]
          else
            let (isLast, behind) := match behind with
              | 'z' :: behind => (true, behind)
              | behind => (false, behind)
            pure (⟨form, size, isLast⟩ :: (← readType fuel behind))

/-- The layouts that the options ask for, in their order. -/
def layoutsOf (given : List Given) : Except Complaint (List Layout) := do
  let mut layouts := []
  for (letter, argument?) in given do
    match letter with
    | 't' =>
        let t := argument?.getD []
        layouts := layouts ++ (← readType (t.length + 1) t)
    | 'a' => layouts := layouts ++ [⟨.named, 1, false⟩]
    | 'b' => layouts := layouts ++ [⟨.octal, 1, false⟩]
    | 'c' => layouts := layouts ++ [⟨.character, 1, false⟩]
    | 'd' => layouts := layouts ++ [⟨.unsigned, 2, false⟩]
    | 'o' => layouts := layouts ++ [⟨.octal, 2, false⟩]
    | 's' => layouts := layouts ++ [⟨.signed, 2, false⟩]
    | 'x' => layouts := layouts ++ [⟨.hexadecimal, 2, false⟩]
    | 'i' => layouts := layouts ++ [⟨.signed, 4, false⟩]
    | 'l' => layouts := layouts ++ [⟨.signed, 8, false⟩]
    | _ => pure ()
  pure (if layouts.isEmpty then [⟨.octal, 2, false⟩] else layouts)

/-- The number that belongs to an option, in decimal, octal behind a zero or hexadecimal. -/
def countFor (letter : Char) (t : Text) : Except Complaint Nat :=
  let complaint (start stop : Text) : Complaint :=
    [.plain (start ++ '-' :: letter :: " argument '" ++ t ++ "'" ++ stop)]
  match Arithmetic.constant? t with
  | none => .error (complaint "invalid " [])
  | some (n, rest) =>
      match Amount.factor? "bkKmMGTPEZYRQ0" rest with
      | none => .error (complaint "invalid suffix in " [])
      | some factor =>
          if n * factor ≤ Amount.wordLimit then .ok (n * factor)
          else .error (complaint [] " too large")

/-- The way in which the places of lines are told. -/
def addressOf (t : Text) : Except Complaint Address :=
  match t with
  | 'n' :: _ => .ok .hidden
  | 'd' :: _ => .ok (.inBase 10 7)
  | 'o' :: _ => .ok (.inBase 8 7)
  | 'x' :: _ => .ok (.inBase 16 6)
  | t => .error [.plain ("invalid output address radix '" ++ t.take 1 ++
      "'; it must be one character from [doxn]")]

/-- Where the dump begins, how many bytes it shows at most, and how it shows them. -/
structure Task where
  skipped : Nat
  most? : Option Nat
  width? : Option Nat
  dump : Dump

/-- What the options ask for. -/
def taskOf (given : List Given) : Except Complaint Task := do
  let count (letter : Char) : Except Complaint (Option Nat) :=
    match argument? given letter with
    | some t => (countFor letter t).map some
    | none => .ok none
  let address ← match argument? given 'A' with
    | some t => addressOf t
    | none => .ok (.inBase 8 7)
  let skipped := (← count 'j').getD 0
  let most? ← count 'N'
  let layouts ← layoutsOf given
  let width? ← if isGiven given 'w' then (do return some ((← count 'w').getD 32)) else pure none
  let unit := layouts.foldl (fun n l => max n l.size) 1
  let perLine := match width? with
    | none => 16
    | some width => if width % unit = 0 then width else unit
  pure ⟨skipped, most?, width?, ⟨address, layouts, max 1 perLine, isGiven given 'v'⟩⟩

def od : Command := fun arguments =>
  let known : Known := .ofText "A:t:N:j:vw::abcdosxil" [("address-radix", 'A'), ("format", 't'),
    ("read-bytes", 'N'), ("skip-bytes", 'j'), ("output-duplicates", 'v'), ("width", 'w')]
  withOptions known arguments fun given operands =>
    withValue (taskOf given) fun task => do
      match task.width? with
      | some width =>
          if width ≠ task.dump.perLine then
            report ("warning: invalid width " ++ Text.decimal width ++ "; using " ++
              Text.decimal task.dump.perLine ++ " instead")
      | none => pure ()
      let (status, content) ← loadFiles operands
      let inputs := if operands.isEmpty then [['-']] else operands
      let isOpen ← inputs.anyM fun t => do
        return t = ['-'] || match ← find t with
          | .ok (_, node) => node.grants .read
          | .error _ => false
      let pid := (← get).pid
      let isDevice ← look fun system => match system.endpoint? pid 0 with
        | some (.device _ _) => operands.isEmpty
        | _ => false
      let isBeyond := content.length < task.skipped && !isDevice
      if isOpen && isBeyond then
        report "cannot skip past end of combined input"
        pure 1
      else
        let t := content.drop task.skipped
        let t := match task.most? with
          | some count => t.take count
          | none => t
        if isOpen then
          for line in task.dump.lines (t.length + 1) task.skipped none false t do say line
          let address := task.dump.address
          if address ≠ .hidden then say (address.show (task.skipped + t.length) ++ ['\n'])
        pure status

end Bytelink.Script.Dumping
