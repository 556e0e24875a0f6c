import Bytelink.Build.Plan
import Bytelink.Text.Blank

/-!
# The log

Which records are shown is set by a list of directives, a level for all records or for the records
of one part of the program. The longest name that fits a record decides. A record is one line; the
further lines of its text are indented.
-/
namespace Bytelink.CommandLine

def levelName : Level → Text
  | .error => "ERROR"
  | .warn => "WARN"
  | .info => "INFO"
  | .debug => "DEBUG"
  | .trace => "TRACE"

/-- How far down the levels a record stands, beginning at one. -/
def levelRank : Level → Nat
  | .error => 1
  | .warn => 2
  | .info => 3
  | .debug => 4
  | .trace => 5

def reporterName : Reporter → Text
  | .pipeline => "cbuild::pipeline"
  | .tool => "cbuild::tool"
  | .segment => "static_link::global_data"
  | .linker => "static_link::linker"

/-- Shows the records down to a rank, of all parts or of those whose name begins as given. -/
structure Directive where
  name? : Option Text
  rank : Nat
  deriving DecidableEq, Repr

/-- The rank that a level names, in letters of either case; `off` shows nothing. -/
def rank? (t : Text) : Option Nat :=
  let names : List String := ["off", "error", "warn", "info", "debug", "trace"]
  names.findIdx? (·.toList == t.map Char.toLower)

/-- The rank that shows everything. -/
def fullRank : Nat := 5

/-- Reads one directive; one that cannot be read is left out. -/
def directive? (t : Text) : Option Directive :=
  match Text.splitOn '=' t with
  | [part] =>
      match rank? part with
      | some rank => some ⟨none, rank⟩
      | none => some ⟨some part, fullRank⟩
  | [name, level] =>
      let level := Text.trim level
      if level.isEmpty then some ⟨some name, fullRank⟩
      else (rank? level).map fun rank => ⟨some name, rank⟩
  | _ => none

def addDirective (ds : List Directive) (d : Directive) : List Directive :=
  if ds.any (·.name? = d.name?) then ds.map fun e => if e.name? = d.name? then d else e
  else ds ++ [d]

/-- The directives of a setting, separated by commas, the most specific first. Without any, only
errors are shown. -/
def directives (setting : Text) : List Directive :=
  let parts := ((Text.splitOn ',' (setting.takeWhile (· != '/'))).map Text.trim).filter
    (!·.isEmpty)
  match (parts.filterMap directive?).foldl addDirective [] with
  | [] => [⟨none, 1⟩]
  | ds => ds.mergeSort fun a b => (b.name?.getD []).length ≤ (a.name?.getD []).length

/-- Whether a record is shown: the first directive that fits its reporter decides. -/
def isShown (ds : List Directive) (r : Record) : Bool :=
  match ds.find? fun d => (d.name?.getD []).isPrefixOf (reporterName r.reporter) with
  | some d => levelRank r.level ≤ d.rank
  | none => false

def logLine (r : Record) : Text :=
  "[" ++ Text.padRight 5 (levelName r.level) ++ " " ++ reporterName r.reporter ++ "] "
    ++ Text.replaceChar '\n' "\n    " r.text ++ "\n"

end Bytelink.CommandLine
