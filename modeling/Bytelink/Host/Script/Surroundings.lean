import Bytelink.Host.Script.Files
import Bytelink.Host.Script.Parameters

/-!
# Surroundings of a script

The builtins that change or tell the directory, the mask of permissions and the limits of a script,
and the times it has taken.
-/
namespace Bytelink.Script.Surroundings

open Routine

/-- A path without steps that lead back or nowhere. -/
def normalized (t : Text) : Text :=
  let steps := (Text.splitOn '/' t).foldl (fun (done : List Text) step =>
    if step.isEmpty || step = ['.'] then done
    else if step = ['.', '.'] then done.drop 1
    else step :: done) []
  let path := if steps.isEmpty then ['/'] else steps.reverse.flatMap ('/' :: ·)
  match t with
  | '/' :: '/' :: '/' :: _ => path
  | '/' :: '/' :: _ => if steps.isEmpty then ['/', '/'] else '/' :: path
  | _ => path

/-- The path of the directory without links; the empty text, after a warning, if it has none. -/
def physicalPath : Routine Text := do
  match ← inVolume fun v directory => v.path? directory with
  | some path => pure (Narrow.ofText path)
  | none => do
      warn ("getcwd() failed: " ++ reason .notFound)
      pure []

def learnPath : Routine Unit := do
  let path ← physicalPath
  modify fun s => s.withPath path path

/-- Enters a directory, and says whether that was possible. -/
def enter (isPhysical : Bool) (t : Text) : Routine Bool := do
  let s ← get
  let path? : Option Text :=
    if isPhysical || s.path.isEmpty && t.head? != some '/' then none
    else some (normalized (if t.head? = some '/' then t else s.path ++ '/' :: t))
  match ← find (path?.getD t) with
  | .ok (n, node) =>
      if node.isDirectory && node.grants .search then
        modify fun s => { s with directory := n }.setVariable "OLDPWD" ⟨some s.path, true, false⟩
        match path? with
        | some path => modify fun s => s.withPath path []
        | none => learnPath
        pure true
      else pure false
  | .error _ => pure false

def cd : Command := fun arguments => do
  let (given, operands) ← takeLetters "LP" arguments
  let isPhysical := lastOf? given ['L', 'P'] == some 'P'
  let s ← get
  let goesBack := operands.head? == some ['-']
  let target := match operands with
    | [] => (s.value? "HOME").getD []
    | ['-'] :: _ => (s.value? "OLDPWD").getD s.path
    | t :: _ => t
  let isDirect := target.head? == some '/' || target.head? == some '.'
  let starts := match s.value? "CDPATH" with
    | some t => if isDirect then [[]] else Text.splitOn ':' t ++ [[]]
    | none => [[]]
  go isPhysical goesBack target starts
where
  tell (isTold : Bool) : Routine Nat := do
    if isTold then say ((← get).path ++ ['\n'])
    pure 0
  go (isPhysical goesBack : Bool) (target : Text) : List Text → Routine Nat
    | [] => fail ("can't cd to " ++ target)
    | start :: rest => do
        let target := if target.isEmpty then ['.'] else target
        let path := if start.isEmpty then target else start ++ '/' :: target
        if ← enter isPhysical path then tell (goesBack || !start.isEmpty)
        else go isPhysical goesBack target rest

def pwd : Command := fun arguments => do
  let (given, _) ← takeLetters "LP" arguments
  let s ← get
  if lastOf? given ['L', 'P'] == some 'P' then
    if s.physical.isEmpty then
      let path ← physicalPath
      modify fun s => s.withPath s.path path
    say ((← get).physical ++ ['\n'])
  else say (s.path ++ ['\n'])
  pure 0

def umask : Command := fun arguments => do
  let (given, operands) ← takeLetters "S" arguments
  let mask := (← get).mask
  match operands with
  | [] =>
      if isGiven given 'S' then say (symbolic mask ++ ['\n'])
      else say (octal mask ++ ['\n'])
      pure 0
  | t :: _ =>
      if !t.isEmpty && t.all Text.isOctalDigit then
        modify fun s => { s with mask := Text.valueIn 8 t % 512 }
        pure 0
      else if t.all Char.isDigit then fail ("Illegal number: " ++ t)
      else match changed mask (Text.splitOn ',' t) with
        | some mask => do
            modify fun s => { s with mask := mask }
            pure 0
        | none => fail ("Illegal mode: " ++ t)
where
  octal (mask : Nat) : Text :=
    let digits := Nat.toDigits 8 mask
    List.replicate (4 - digits.length) '0' ++ digits
  letters (bits : Nat) : Text :=
    (if bits / 4 % 2 = 0 then ['r'] else []) ++ (if bits / 2 % 2 = 0 then ['w'] else []) ++
      (if bits % 2 = 0 then ['x'] else [])
  symbolic (mask : Nat) : Text :=
    "u=" ++ letters (mask / 64 % 8) ++ ",g=" ++ letters (mask / 8 % 8) ++ ",o=" ++
      letters (mask % 8)
  /-- The mask after one clause such as `g-w`. -/
  clause (mask : Nat) (t : Text) : Option Nat :=
    let who := t.takeWhile fun c => c == 'u' || c == 'g' || c == 'o' || c == 'a'
    match t.drop who.length with
    | sign :: rights =>
        if !(sign == '=' || sign == '+' || sign == '-') ||
          !rights.all (fun c => c == 'r' || c == 'w' || c == 'x') then none
        else
          let bits := (if rights.contains 'r' then 4 else 0) +
            (if rights.contains 'w' then 2 else 0) + (if rights.contains 'x' then 1 else 0)
          let isMeant (c : Char) : Bool := who.isEmpty || who.contains 'a' || who.contains c
          let part (c : Char) (old : Nat) : Nat :=
            if !isMeant c then old
            else if sign = '=' then 7 - bits
            else if sign = '+' then old &&& (7 - bits)
            else old ||| bits
          some (64 * part 'u' (mask / 64 % 8) + 8 * part 'g' (mask / 8 % 8) + part 'o' (mask % 8))
    | [] => none
  changed (mask : Nat) (clauses : List Text) : Option Nat := clauses.foldlM clause mask

def times : Command := fun _ => do
  let line : Text := "0m0.000000s 0m0.000000s\n"
  say (line ++ line)
  pure 0

def ulimit : Command := fun arguments => do
  let (given, operands) ← takeLetters "HSatfdsmcnpvlwr" arguments
  if operands.isEmpty then
    let limit : Text := match lastOf? given ['c', 'n', 's'] with
      | some 'c' => "0"
      | some 'n' => "1024"
      | some 's' => "8192"
      | _ => "unlimited"
    say (limit ++ ['\n'])
  pure 0

end Bytelink.Script.Surroundings
