import Bytelink.Host.Script.Shell
import Bytelink.Host.Script.Wide
import Bytelink.Text.Printable

/-!
# Names in messages

Programs write names in messages between quotes, and characters that cannot be shown as numbers.
Which characters can be shown depends on the encoding that the surroundings ask for. There are three
ways: as a shell could read the name, the same but only where a shell would need it, and between the
quotes of the language.
-/
namespace Bytelink.Script

/-- Whether the surroundings ask for an encoding with all characters. -/
def Shell.isUnicode (s : Shell) : Bool :=
  let values := (["LC_ALL", "LC_CTYPE", "LANG"] : List Text).filterMap fun name =>
    (s.value? name).filter (!·.isEmpty)
  match values with
  | [] => false
  | value :: _ =>
      let encoding := ((value.dropWhile (· != '.')).filter Char.isAlphanum).map Char.toLower
      value.head? = some 'C' && encoding = ("utf8" : Text)

namespace Quoting

/-- Characters that mean something to a shell. -/
def isShellMark (c : Char) : Bool :=
  c < ' ' || c == '\x7f' ||
    ([' ', '!', '"', '$', '&', '(', ')', '*', ';', '<', '=', '>', '[', '^', '\x60', '|', '?',
      '\\', '\'', ':'] : Text).contains c

def isShown (c : Char) : Bool :=
  if c ≤ '~' then ' ' ≤ c
  else !Wide.isByte c && !Text.inRanges Text.shapelessRanges c

/-- The letter that stands for a control character behind a backslash. -/
def letter? (c : Char) : Option Char :=
  match c with
  | '\n' => some 'n'
  | '\t' => some 't'
  | '\x07' => some 'a'
  | '\x08' => some 'b'
  | '\x0b' => some 'v'
  | '\x0c' => some 'f'
  | '\x0d' => some 'r'
  | _ => none

/-- A character that cannot be shown. -/
def code (c : Char) : Text :=
  match letter? c with
  | some letter => ['\\', letter]
  | none => (Wide.narrow c).flatMap fun b =>
      let digits := Nat.toDigits 8 b.toNat
      '\\' :: List.replicate (3 - digits.length) '0' ++ digits

/-- A wide text between single quotes, or double ones if that spares escapes. -/
def shellForm (t : Text) : Text :=
  let isPlain (c : Char) : Bool :=
    c != '"' && c != '$' && c != '\\' && c != '\x60' && c != '!' && isShown c
  if t.contains '\'' && t.all isPlain then '"' :: t ++ ['"']
  else '\'' :: rest false t
where
  /-- The text from some point on; `isCoded` says that the character before is a number. -/
  rest (isCoded : Bool) : Text → Text
    | [] => ['\'']
    | c :: t =>
        if isShown c then
          (if isCoded then ['\'', '\''] else []) ++
            (if c = '\'' then ['\'', '\\', '\'', '\''] else [c]) ++ rest false t
        else (if isCoded then [] else ['\'', '$', '\'']) ++ code c ++ rest true t

/-- A wide text, between quotes only where a shell would need that. -/
def bareForm (t : Text) : Text :=
  let isBare := match t with
    | [] => false
    | [c] => c != '\x7b' && c != '\x7d' && c != '#' && c != '~'
    | c :: _ => c != '#' && c != '~'
  if isBare && t.all (fun c => !isShellMark c && isShown c) then t else shellForm t

/-- A wide text between two quotes. -/
def pairForm (opening closing : Char) (t : Text) : Text :=
  opening :: t.flatMap (fun c =>
    if c = '\\' || c = closing then ['\\', c] else if isShown c then [c] else code c) ++
      [closing]

end Quoting

/-- A part of a message. -/
inductive Phrase
  | plain (t : Text)
  /-- A name as a shell could read it. -/
  | name (t : Text)
  /-- A word between the quotes of the language. -/
  | word (t : Text)
  deriving DecidableEq, Repr

/-- A message with names and words in it. -/
abbrev Complaint := List Phrase

namespace Routine

def inForm (form : Bool → Text → Text) (t : Text) : Routine Text := do
  let isUnicode := (← get).isUnicode
  let wide := if isUnicode then Wide.ofNarrow t else t.map fun c => if c ≤ '~' then c
    else Wide.ofByte c
  pure (Wide.toNarrow (form isUnicode wide))

/-- A name as a shell could read it. -/
def quoted (t : Text) : Routine Text := inForm (fun _ => Quoting.shellForm) t

/-- A name as a shell could read it, without quotes where it needs none. -/
def quotedIfNeeded (t : Text) : Routine Text := inForm (fun _ => Quoting.bareForm) t

/-- A word between the quotes of the language. -/
def marked (t : Text) : Routine Text :=
  inForm (fun isUnicode => if isUnicode then Quoting.pairForm '‘' '’'
    else Quoting.pairForm '\'' '\'') t

/-- The text of a message. -/
def phrased (parts : Complaint) : Routine Text :=
  List.flatten <$> parts.mapM fun
    | .plain t => pure t
    | .name t => quoted t
    | .word t => marked t

end Routine
end Bytelink.Script
