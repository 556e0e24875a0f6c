import Bytelink.Text.Basic

/-!
# Lines

A line ends at a line feed; a carriage return right before the line feed belongs to the line end.
Text after the last line feed is a line of its own only when it is not empty.
-/
namespace Bytelink.Text

def dropReturn (t : Text) : Text :=
  if t.getLast? = some '\r' then t.dropLast else t

/-- The lines of a text whose current line has begun with the characters of `current`, newest
first. -/
def linesFrom (current : Text) : Text → List Text
  | [] => if current.isEmpty then [] else [current.reverse]
  | c :: rest =>
      if c = '\n' then dropReturn current.reverse :: linesFrom [] rest
      else linesFrom (c :: current) rest

def lines (t : Text) : List Text := linesFrom [] t

/-- The text that consists of the given lines, each with a line feed at its end. -/
def ofLines (ls : List String) : Text := ls.flatMap fun line => line.toList ++ ['\n']

end Bytelink.Text
