import Bytelink.Host.System

/-!
# Scripts

The shape of a tool script after reading: words are pieces that are expanded when they are used, and
a script is a tree of simple commands under the usual connectives. A substitution holds the script
whose output takes its place.
-/
namespace Bytelink.Script

mutual

/-- A part of a word. Quoted parts are neither split nor matched against file names. -/
inductive Piece
  | plain (text : Text)
  | quoted (text : Text)
  | parameter (isQuoted : Bool) (name : Text) (operation : Operation)
  | substitution (isQuoted : Bool) (script : Node)
  | arithmetic (isQuoted : Bool) (expression : List Piece)

/-- What happens to the value of a parameter; `colon` says that an empty value counts as
missing. -/
inductive Operation
  | value
  | length
  | orElse (colon : Bool) (word : List Piece)
  | assign (colon : Bool) (word : List Piece)
  | ifSet (colon : Bool) (word : List Piece)
  | demand (colon : Bool) (word : List Piece)
  | dropStart (longest : Bool) (pattern : List Piece)
  | dropEnd (longest : Bool) (pattern : List Piece)
  /-- An operation that does not exist, which is noticed when it is due. -/
  | unknown

/-- Where a descriptor of a command leads. -/
inductive Redirection
  | file (descriptor : Nat) (access : Access) (word : List Piece)
  | duplicate (descriptor : Nat) (word : List Piece)
  /-- The text document of a number. -/
  | text (descriptor : Nat) (document : Nat)

/-- A script or a part of one. Lines are those on which a command begins. -/
inductive Node
  | simple (line : Nat) (assignments : List (Text × List Piece)) (words : List (List Piece))
      (redirections : List Redirection)
  | pipeline (stages : List Node)
  | negated (node : Node)
  | both (first second : Node)
  | either (first second : Node)
  | sequence (nodes : List Node)
  | background (node : Node)
  | branch (condition yes : Node) (no? : Option Node)
  | loop (isUntil : Bool) (condition body : Node)
  | each (line : Nat) (name : Text) (items? : Option (List (List Piece))) (body : Node)
  | select (line : Nat) (subject : List Piece) (arms : List (List (List Piece) × Node))
  | redirected (line : Nat) (body : Node) (redirections : List Redirection)
  | subshell (line : Nat) (body : Node) (redirections : List Redirection)
  | define (line : Nat) (name : Text) (body : Node)

end

abbrev Word := List Piece

instance : Inhabited Node := ⟨.sequence []⟩

end Bytelink.Script
