import Bytelink.Host.Script.Arithmetic
import Bytelink.Host.Script.Field

/-!
# Expansion

Turns the words of a script into texts: parameters give their values, substitutions their output and
arithmetic expressions their results. Where a word may become several arguments it is cut into
fields, and a field with wildcards stands for the paths that match it. What a substitution runs is
left open: `capture` stands for it.
-/
namespace Bytelink.Script

/-- What becomes of a word: arguments, or one text. -/
inductive Purpose
  | arguments
  | text
  deriving DecidableEq, Repr

inductive Value
  | missing
  | text (t : Text)
  | items (ts : List Text)
  deriving DecidableEq, Repr

namespace Shell

/-- The order in which the letters of options are listed. -/
def settingLetters : Text :=
  ['e', 'f', 'I', 'i', 'm', 'n', 's', 'x', 'v', 'V', 'E', 'C', 'a', 'b', 'u']

def parameter (s : Shell) (name : Text) : Value :=
  let ofOption : Option Text → Value
    | some t => .text t
    | none => .missing
  match name with
  | ['@'] => .items s.parameters
  | ['*'] => .items s.parameters
  | ['#'] => .text (Text.decimal s.parameters.length)
  | ['?'] => .text (Text.decimal s.status)
  | ['$'] => .text (Text.decimal s.origin)
  | ['!'] => ofOption (s.lastJob?.map Text.decimal)
  | ['-'] => .text (settingLetters.reverse.filter s.isSet)
  | _ =>
      if name.all Char.isDigit then
        match Text.valueIn 10 name with
        | 0 => .text s.name
        | n + 1 => ofOption s.parameters[n]?
      else ofOption (s.value? name)

def separators (s : Shell) : Separators := (s.value? "IFS").getD defaultSeparators

/-- What stands between parameters that are joined to one text. -/
def seam (s : Shell) : Text :=
  match s.value? "IFS" with
  | some ifs => ifs.take 1
  | none => [' ']

def joined (s : Shell) : Value → Text
  | .missing => []
  | .text t => t
  | .items ts => Text.join s.seam ts

/-- A value as one text, in which null characters stand between items that may become fields of
their own. -/
def strung (s : Shell) (purpose : Purpose) (isQuoted : Bool) (name : Text) : Value → Text
  | .items ts =>
      if purpose = .arguments && !isQuoted then
        Text.join (if (s.value? "IFS").isSome then ['\x00'] else [' ']) ts
      else if purpose = .arguments && name == ['@'] then Text.join ['\x00'] ts
      else s.joined (.items ts)
  | v => s.joined v

/-- A value where it stands in a word. -/
def segments (s : Shell) (purpose : Purpose) (isQuoted : Bool) (name : Text) (v : Value) :
    List Segment :=
  match v with
  | .missing => []
  | .text t => [if isQuoted then .fixed t true else .loose t]
  | .items ts =>
      if purpose = .arguments && isQuoted && name == ['@'] then [.items ts]
      else
        let t := s.strung purpose isQuoted name v
        [if isQuoted then .fixed t true else .loose t]

/-- A word in which a tilde at the front, up to the first slash, gives way to the home directory. In
an assignment each text after a colon has a front of its own. -/
def expandTilde (s : Shell) (isAssignment : Bool) (w : Word) : Word :=
  match w with
  | .plain t :: pieces =>
      let parts := if isAssignment then Text.splitOn ':' t else [t]
      let last := parts.length - 1
      let expanded := parts.zipIdx.map fun (part, place) =>
        let mark : Word := if place = 0 then [] else [.plain [':']]
        let ends := isAssignment && place < last || pieces.isEmpty
        match part with
        | '~' :: body =>
            let name := body.takeWhile (· != '/')
            let rest := body.drop name.length
            let home? := if name.isEmpty then s.value? "HOME"
              else if name = ("root" : Text) then some "/root"
              else none
            match home? with
            | some home =>
                if rest.head? = some '/' || rest.isEmpty && ends then
                  mark ++ [.quoted home, .plain rest]
                else mark ++ [.plain part]
            | none => mark ++ [.plain part]
        | _ => mark ++ [.plain part]
      expanded.flatten ++ pieces
  | w => w

end Shell

namespace Routine

def wordDepth : Nat := 1000

/-- The message about a parameter that has to have a value. -/
def demandFault {α : Type} (name : Text) (isNullToo : Bool) (message? : Option Text) :
    Routine α :=
  fail (name ++ ": " ++ match message? with
    | some message => message
    | none => if isNullToo then "parameter not set or null" else "parameter not set")

/-- Gives a variable a value unless it is protected. The number of the next argument with options
is known besides. -/
def assign (name value : Text) : Routine Unit := do
  let s ← get
  if s.isReadOnly name then fail (name ++ ": is read only")
  else if !isName name then fail (name ++ ": bad variable name")
  else if name = ("OPTIND" : Text) then
    match Arithmetic.natural? value with
    | some n => set { s.setValue name value with optionIndex := max 1 n, optionPlace := 0 }
    | none => fail ("Illegal number: " ++ value)
  else set (s.setValue name value)

variable (capture : Node → Routine Text)

mutual

/-- The segments of a word. In an operand the plain parts are cut like expansions. -/
def segments : Nat → Purpose → Bool → Word → Routine (List Segment)
  | 0, _, _, _ => pure []
  | fuel + 1, purpose, isOperand, w => do
      let parts ← w.mapM fun piece => do
        match piece with
        | .plain t => pure [if isOperand then Segment.loose t else .fixed t false]
        | .quoted [] => pure [.quotes]
        | .quoted t => pure [.fixed t true]
        | .parameter isQuoted name operation =>
            parameter fuel purpose isQuoted name operation
        | .substitution isQuoted script =>
            let t ← capture script
            pure [if isQuoted then .fixed t true else .loose t]
        | .arithmetic isQuoted pieces =>
            let expression := Segment.textOf (← segments fuel .text false pieces)
            let s ← get
            match Arithmetic.value s expression with
            | .ok (n, s) =>
                set s
                let t := Text.decimalInt n
                pure [if isQuoted then .fixed t true else .loose t]
            | .error fault => fail (fault.message expression)
      pure parts.flatten

def parameter : Nat → Purpose → Bool → Text → Operation → Routine (List Segment)
  | 0, _, _, _, _ => pure []
  | fuel + 1, purpose, isQuoted, name, operation => do
      let s ← get
      let value := s.parameter name
      let isEmpty := (s.joined value).isEmpty
      let shown := s.segments purpose isQuoted name value
      let operand (w : Word) : Routine (List Segment) := do
        segments fuel purpose (!isQuoted && purpose == .arguments) (s.expandTilde false w)
      let lacks (colon : Bool) : Bool := value == .missing || (colon && isEmpty)
      let checkSet : Routine Unit := do
        if value == .missing && s.isSet 'u' then demandFault name false none
      let dropped (drop : Pattern → Text → Text) (w : Word) : Routine (List Segment) := do
        checkSet
        if value = .missing then pure []
        else
          let pattern := Segment.markedOf (← segments fuel .text false (s.expandTilde false w))
          let t := drop (Pattern.ofMarked pattern) (s.strung purpose isQuoted name value)
          let isList := purpose == .arguments && name == ['@'] && !s.parameters.isEmpty
          pure [if !isQuoted then .loose t
            else if isList then .items (Text.splitOn '\x00' t)
            else .fixed t true]
      match operation with
      | .value =>
          checkSet
          pure shown
      | .length =>
          checkSet
          let t := Text.decimal (s.joined value).length
          pure [if isQuoted then .fixed t true else .loose t]
      | .orElse colon w => if lacks colon then operand w else pure shown
      | .ifSet colon w => if lacks colon then pure [] else operand w
      | .assign colon w =>
          if lacks colon then
            let t := Segment.textOf (← segments fuel .text false (s.expandTilde false w))
            assign name t
            let s ← get
            pure (s.segments purpose isQuoted name (s.parameter name))
          else pure shown
      | .demand colon w =>
          if lacks colon then
            if w.isEmpty then demandFault name colon none
            else
              let t := Segment.textOf (← segments fuel .text false (s.expandTilde false w))
              demandFault name colon (some t)
          else pure shown
      | .dropStart longest w => dropped (·.dropStart longest) w
      | .dropEnd longest w => dropped (·.dropEnd longest) w
      | .unknown => fail "Bad substitution"

end

def expandText (w : Word) : Routine Text := do
  let w := (← get).expandTilde false w
  return Segment.textOf (← segments capture wordDepth .text false w)

/-- The value that an assignment gives. -/
def expandAssigned (w : Word) : Routine Text := do
  let w := (← get).expandTilde true w
  return Segment.textOf (← segments capture wordDepth .text false w)

def expandDocument (w : Word) : Routine Text := do
  return Segment.textOf (← segments capture wordDepth .text false w)

def expandPattern (w : Word) : Routine Pattern := do
  let w := (← get).expandTilde false w
  return Pattern.ofMarked (Segment.markedOf (← segments capture wordDepth .text false w))

end Routine

/-- The pieces of a field between slashes. -/
def fieldSteps : Marked → List Marked
  | [] => [[]]
  | c :: rest =>
      if c.1 = '/' then [] :: fieldSteps rest
      else match fieldSteps rest with
        | step :: steps => (c :: step) :: steps
        | [] => [[c]]

def matchingPaths (v : Volume) (directory : NodeId) : Text → List Marked → List Text
  | begun, [] => [begun]
  | begun, step :: rest =>
      let pattern := Pattern.ofMarked step
      let seam : Text := if rest.isEmpty then [] else ['/']
      if !pattern.isActive then
        let path := begun ++ pattern.fixedText
        if rest.isEmpty then
          if (v.findEntry directory ⟨Narrow.toText path⟩).toOption.isSome then [path] else []
        else matchingPaths v directory (path ++ seam) rest
      else
        let here : Path := if begun.isEmpty then ⟨['.']⟩ else ⟨Narrow.toText begun⟩
        match v.entryNames directory here with
        | .ok names =>
            let startsHidden := match pattern with
              | .fixed '.' :: _ => true
              | _ => false
            let hidden : List Text := if startsHidden then [['.'], ['.', '.']] else []
            let names := ((hidden ++ names.map Narrow.ofText).filter fun n =>
              pattern.covers n && (startsHidden || n.head? != some '.'))
            (names.mergeSort Text.le).flatMap fun n =>
              matchingPaths v directory (begun ++ n ++ seam) rest
        | .error _ => []

def fieldArguments (v : Volume) (directory : NodeId) (field : Marked) : List Text :=
  let text := field.map (·.1)
  if (Pattern.ofMarked field).isActive then
    match matchingPaths v directory [] (fieldSteps field) with
    | [] => [text]
    | paths => paths
  else [text]

def Routine.expandArguments (capture : Node → Routine Text) (words : List Word) :
    Routine (List Text) := do
  let arguments ← words.mapM fun w => do
    let w := (← get).expandTilde false w
    let segments ← segments capture wordDepth .arguments false w
    let s ← get
    let fields := Splitting.fields s.separators segments
    if s.isSet 'f' || fields.all fun f => !(Pattern.ofMarked f).isActive then
      pure (fields.map fun f => f.map (·.1))
    else
      inVolume fun v directory => fields.flatMap (fieldArguments v directory)
  pure arguments.flatten

end Bytelink.Script
