import Bytelink.Host.Script.Listing

/-!
# Names of files

Programs that take paths apart, tell where they lead to, tell the properties of what is there, and
find names that are not taken.
-/
namespace Bytelink.Script.Files

open Routine

/-- The path of a directory that names lead to. -/
def pathText (steps : List Text) : Text :=
  if steps.isEmpty then ['/'] else Narrow.ofText (steps.flatMap ('/' :: ·))

/-- A name less a given ending, which must not be all of it. -/
def withoutEnding (ending name : Text) : Text :=
  if name = ending then name else (Text.stripEnd ending name).getD name

def basename : Command := fun arguments => do
  match (Known.ofText "as:z" [("multiple", 'a'), ("suffix", 's'), ("zero", 'z')]).read true
      arguments with
  | .error fault =>
      report fault.message
      refuseUsage 1
  | .ok (given, operands) =>
      let stop : Text := if isGiven given 'z' then ['\x00'] else ['\n']
      let show_ (ending? : Option Text) (t : Text) : Routine Nat := do
        let step := lastStep t
        say ((match ending? with
          | some ending => withoutEnding ending step
          | none => step) ++ stop)
        pure 0
      match operands with
      | [] => refuseMissing
      | operands =>
          if isGiven given 'a' || isGiven given 's' then
            forEach operands (show_ (argument? given 's'))
          else match operands with
            | [t] => show_ none t
            | [t, ending] => show_ (some ending) t
            | _ =>
                report ("extra operand " ++ (← marked ((operands.drop 2).headD [])))
                refuseUsage 1

/-- All but the last step of paths. -/
def dirname : Command := fun arguments =>
  withOptions (.ofText "z" [("zero", 'z')]) arguments fun given operands => do
    if operands.isEmpty then refuseMissing
    else
      let stop : Text := if isGiven given 'z' then ['\x00'] else ['\n']
      say (operands.flatMap fun t => above t ++ stop)
      pure 0

/-- The steps from the top to what a path leads to, of which the last may be missing. -/
def stepsOf (mayLackLast : Bool) (path : Path) (v : Volume) (here : NodeId) :
    Except SystemError (List Text) := do
  let goal ← v.goal .target here path
  match v.steps? goal.directory, goal.last with
  | none, _ => throw .notFound
  | some steps, .name name =>
      match v.child? goal.directory name with
      | some n =>
          if goal.hasSlash && !(v.node n).isDirectory then throw .notADirectory
          else pure (steps ++ [name])
      | none => if mayLackLast then pure (steps ++ [name]) else throw .notFound
  | some steps, _ => pure steps

def addStep (steps : List Text) (piece : Text) : List Text :=
  if piece.isEmpty || piece = ['.'] then steps
  else if piece = ['.', '.'] then steps.dropLast
  else steps ++ [piece]

/-- The steps to where a path would lead if all was there that is missing, given how many of its
pieces are tried first. -/
def stepsBeyond (pieces : List Text) (isAbsolute : Bool) (v : Volume) (here : NodeId) :
    Nat → List Text
  | 0 => pieces.foldl addStep (if isAbsolute then [] else (v.steps? here).getD [])
  | count + 1 =>
      let front := Text.join ['/'] (pieces.take (count + 1))
      let path : Path := ⟨if isAbsolute then '/' :: front else front⟩
      match stepsOf true path v here with
      | .ok steps => (pieces.drop (count + 1)).foldl addStep steps
      | .error _ => stepsBeyond pieces isAbsolute v here count

/-- The steps to what a path leads to; how much of it may be missing is given. -/
def canonical (mayLackLast mayLackAny : Bool) (t : Text) :
    Routine (Except SystemError (List Text)) :=
  inVolume fun v here =>
    let path := pathOf t
    if mayLackAny && !path.text.isEmpty then
      let pieces := Volume.pieces path.text
      .ok (stepsBeyond pieces path.isAbsolute v here pieces.length)
    else stepsOf mayLackLast path v here

def readlink : Command := fun arguments =>
  withOptions (.ofText "femnqsvz" [("canonicalize", 'f'), ("canonicalize-existing", 'e'),
      ("canonicalize-missing", 'm'), ("no-newline", 'n'), ("quiet", 'q'), ("silent", 's'),
      ("verbose", 'v'), ("zero", 'z')]) arguments
    fun given operands => do
      let stop : Text := if isGiven given 'z' then ['\x00']
        else if isGiven given 'n' && operands.length = 1 then [] else ['\n']
      let refuse (t : Text) (e : SystemError) : Routine Nat := do
        if lastOf? given ['q', 's', 'v'] == some 'v' then reportFile t e
        pure 1
      if operands.isEmpty then refuseMissing
      else
        forEach operands fun operand => do
          if isGiven given 'f' || isGiven given 'e' || isGiven given 'm' then
            match ← canonical (!isGiven given 'e') (isGiven given 'm') operand with
            | .ok steps =>
                say (pathText steps ++ stop)
                pure 0
            | .error e => refuse operand e
          else match ← findEntry operand with
            | .ok (_, node) => match node.content with
              | .link aim =>
                  say (Narrow.ofText aim ++ stop)
                  pure 0
              | _ => refuse operand .invalidArgument
            | .error e => refuse operand e

def realpath : Command := fun arguments =>
  withOptions (.ofText "emLPqsz\x01:\x02:" [("canonicalize-existing", 'e'),
      ("canonicalize-missing", 'm'), ("relative-to", '\x01'), ("relative-base", '\x02'),
      ("quiet", 'q'), ("strip", 's'), ("no-symlinks", 's'), ("zero", 'z'), ("logical", 'L'),
      ("physical", 'P')]) arguments fun given operands => do
    let stop : Text := if isGiven given 'z' then ['\x00'] else ['\n']
    if operands.isEmpty then refuseMissing
    else
      forEach operands fun operand => do
        match ← canonical (!isGiven given 'e') (isGiven given 'm') operand with
        | .ok steps =>
            say (pathText steps ++ stop)
            pure 0
        | .error e =>
            if !isGiven given 'q' then reportFile operand e
            pure 1

/-- The first path of a template that leads to nothing yet; the marks at its end are numbered. -/
def freePath (template : Text) : Routine Text :=
  inVolume fun v here =>
    let marks := (template.reverse.takeWhile (· == 'X')).length
    let paths := (List.range 1000).map fun n =>
      template.take (template.length - marks) ++ Text.decimalWide marks n
    (paths.find? fun t => (v.find here (pathOf t)).toOption.isNone).getD template

/-- Makes a file or directory that was not there before. -/
def mktemp : Command := fun arguments =>
  withOptions (.ofText "dp:qtuV" [("directory", 'd'), ("quiet", 'q'), ("dry-run", 'u'),
      ("suffix", 's'), ("tmpdir", 'p')])
    arguments fun given operands => do
      let name := operands.headD "tmp.XXXXXXXXXX"
      let usual := ((← get).value? "TMPDIR").getD "/tmp"
      let template :=
        if isGiven given 'p' || isGiven given 't' || operands.isEmpty then
          inside ((argument? given 'p').getD usual) name
        else name
      if 1 < operands.length then
        report "too many templates"
        refuseUsage 1
      else if !("XXX" : Text).isPrefixOf template.reverse then
        report ("too few X's in template " ++ (← marked template))
        pure 1
      else
        let path ← freePath template
        let result ← attempt fun v here =>
          if isGiven given 'u' then .ok v
          else if isGiven given 'd' then v.makeDirectory here (pathOf path) 0o700
          else v.make here (pathOf path) (.file #[]) 0o600
        match result with
        | .ok () =>
            say (path ++ ['\n'])
            pure 0
        | .error e =>
            let kind : Text := if isGiven given 'd' then "directory" else "file"
            settle ("failed to create " ++ kind ++ " via template " ++ (← marked template))
              (.error e)

/-- What a directive stands for. -/
def property (item : Listed) (size : Nat) (letter : Char) : Routine Text := do
  let n := item.node
  let user : Text := if n.isOwn then "user" else "root"
  let id : Text := if n.isOwn then "1000" else "0"
  let kindBits : Nat := match n.content with
    | .directory _ _ => 0o040000
    | .file _ => 0o100000
    | .link _ => 0o120000
    | .queue => 0o010000
    | .device _ _ => 0o020000
  match letter with
  | 'n' => pure item.name
  | 'N' => match n.content with
    | .link aim => return (← quoted item.name) ++ " -> " ++ (← quoted (Narrow.ofText aim))
    | _ => quoted item.name
  | 's' => pure (Text.decimal size)
  | 'a' => pure (Mode.octal 1 n.mode)
  | 'A' => pure (Mode.kindLetter n :: Mode.rights n.mode)
  | 'f' => pure (Text.hexadecimal (kindBits + n.mode))
  | 'F' => pure (kindName n)
  | 'h' => pure (Text.decimal item.links)
  | 'i' => pure (Text.decimal item.number)
  | 'U' => pure user
  | 'G' => pure user
  | 'u' => pure id
  | 'g' => pure id
  | 'b' => pure (Text.decimal (2 * Listing.blocks n))
  | 'B' => pure "512"
  | 'o' => pure "4096"
  | 'Y' => pure (Text.decimalInt (clockStart + n.modified.fdiv 1000000000))
  | '%' => pure ['%']
  | _ => pure ['?']

/-- A format with its directives replaced. -/
def propertyText (item : Listed) (size : Nat) (escapes : Bool) : Text → Routine Text
  | [] => pure []
  | ['%'] => pure ['%']
  | '%' :: letter :: rest => do
      return (← property item size letter) ++ (← propertyText item size escapes rest)
  | '\\' :: 'n' :: rest => do
      return (if escapes then ['\n'] else ['\\', 'n']) ++ (← propertyText item size escapes rest)
  | c :: rest => do return c :: (← propertyText item size escapes rest)

def stat : Command := fun arguments =>
  withOptions (.ofText "c:fLt\x01:" [("dereference", 'L'), ("file-system", 'f'), ("format", 'c'),
      ("printf", '\x01'), ("terse", 't')]) arguments fun given operands => do
    let format := (argument? given '\x01').getD ((argument? given 'c').getD "%n")
    let escapes := isGiven given '\x01'
    if operands.isEmpty then refuseMissing
    else
      forEach operands fun operand => do
        match ← listed? (isGiven given 'L') operand operand with
        | .error e => settle ("cannot statx " ++ (← quoted operand)) (.error e)
        | .ok item =>
            say ((← propertyText item (sizeOf item.node) escapes format) ++
              (if escapes then [] else ['\n']))
            pure 0

end Bytelink.Script.Files
