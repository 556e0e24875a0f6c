import Bytelink.Host.Script.Files
import Bytelink.Text.Numeral

/-!
# Listing files

The program that lists the names in directories, in the order of their names or by time or size,
with marks for their kinds or in a long form with their properties.
-/
namespace Bytelink.Script.Files

open Routine

inductive ListingOrder
  | name
  | time
  | size
  | ending
  | none
  deriving DecidableEq, Repr

structure Listing where
  showsHidden : Bool
  showsDots : Bool
  marksKinds : Bool
  marksDirectories : Bool
  isReversed : Bool
  isDeep : Bool
  isLong : Bool
  hasCommas : Bool
  showsNumbers : Bool
  followsLinks : Bool
  order : ListingOrder
  deriving DecidableEq, Repr

structure Listed where
  name : Text
  number : NodeId
  node : Inode
  links : Nat
  deriving DecidableEq, Repr

def nameEnding (t : Text) : Text :=
  if t.contains '.' then '.' :: (t.reverse.takeWhile (· != '.')).reverse else []

/-- How many bytes something has. -/
def sizeOf (n : Inode) : Nat :=
  match n.content with
  | .directory _ _ => 4096
  | .file bytes => bytes.size
  | .link target => (Utf8.encode target).length
  | _ => 0

namespace Listing

def precedes (l : Listing) (a b : Listed) : Bool :=
  let byName := Text.le a.name b.name
  match l.order with
  | .name => byName
  | .none => true
  | .time => if a.node.modified = b.node.modified then byName
      else b.node.modified < a.node.modified
  | .size => if sizeOf a.node = sizeOf b.node then byName else sizeOf b.node < sizeOf a.node
  | .ending => if nameEnding a.name = nameEnding b.name then byName
      else Text.le (nameEnding a.name) (nameEnding b.name)

def sort (l : Listing) (items : List Listed) : List Listed :=
  let sorted := if l.order = .none then items else items.mergeSort l.precedes
  if l.isReversed && l.order != .none then sorted.reverse else sorted

def mark (l : Listing) (n : Inode) : Text :=
  match n.content with
  | .directory _ _ => if l.marksKinds || l.marksDirectories then ['/'] else []
  | .link _ => if l.marksKinds then ['@'] else []
  | .queue => if l.marksKinds then ['|'] else []
  | .file _ => if l.marksKinds && n.isExecutable then ['*'] else []
  | _ => []

/-- The number of half kilobytes that something takes up, in whole pages. -/
def blocks (n : Inode) : Nat :=
  match n.content with
  | .directory _ _ => 4
  | .file bytes => (bytes.size + 4095) / 4096 * 4
  | _ => 0

def longLine (l : Listing) (linkWidth sizeWidth : Nat) (i : Listed) : Text :=
  let owner : Text := if i.node.isOwn then "user user" else "root root"
  let aim : Text := match i.node.content with
    | .link target => " -> " ++ Narrow.ofText target
    | _ => []
  Mode.kindLetter i.node :: Mode.rights i.node.mode ++ [' '] ++
    padLeft linkWidth (Text.decimal i.links) ++ [' '] ++ owner ++ [' '] ++
    padLeft sizeWidth (Text.decimal (sizeOf i.node)) ++ " Jan  1 00:00 " ++ i.name ++
    (if aim.isEmpty then l.mark i.node else aim)

def lines (l : Listing) (items : List Listed) : Text :=
  let number (i : Listed) : Text := if l.showsNumbers then Text.decimal i.number ++ [' '] else []
  let width (f : Listed → Nat) : Nat :=
    items.foldl (fun w i => max w (Text.decimal (f i)).length) 1
  if l.isLong then
    let linkWidth := width (·.links)
    let sizeWidth := width fun i => sizeOf i.node
    items.flatMap fun i => number i ++ l.longLine linkWidth sizeWidth i ++ ['\n']
  else
    let shown := items.map fun i => number i ++ i.name ++ l.mark i.node
    if l.hasCommas then
      if shown.isEmpty then [] else Text.join [',', ' '] shown ++ ['\n']
    else shown.flatMap (· ++ ['\n'])

end Listing

def listed? (follows : Bool) (path name : Text) : Routine (Except SystemError Listed) :=
  inVolume fun v here => do
    let entry ← v.findEntry here (pathOf path)
    let n := if follows then (v.find here (pathOf path)).toOption.getD entry else entry
    let node := v.node n
    let links := if node.isDirectory then
        2 + (v.entries n).countP fun e => (v.node e.2).isDirectory
      else v.nameCount n
    pure ⟨name, n, node, links⟩

def listDirectory (l : Listing) (isOperand : Bool) : Nat → Text → Routine Nat
  | 0, _ => pure 1
  | fuel + 1, path => do
      match ← names path with
      | .error e =>
          report ("cannot open directory " ++ (← quoted path) ++ ": " ++ reason e)
          pure (if isOperand then 2 else 1)
      | .ok all =>
          let dots : List Text := if l.showsDots then [['.'], ['.', '.']] else []
          let shown := dots ++ all.filter fun n => l.showsHidden || n.head? != some '.'
          let mut status := 0
          let mut items : List Listed := []
          let needsNode := l.isLong || l.isDeep || l.marksKinds || l.marksDirectories ||
            l.order = .time || l.order = .size
          for name in shown do
            let inner := inside path name
            match ← listed? l.followsLinks inner name with
            | .ok item => items := item :: items
            | .error e =>
                if needsNode then
                  report ("cannot access " ++ (← quoted inner) ++ ": " ++ reason e)
                  status := 1
                else items := ⟨name, 0, default, 1⟩ :: items
          let sorted := l.sort items.reverse
          if l.isLong then
            let total := sorted.foldl (fun n i => n + Listing.blocks i.node) 0
            say ("total " ++ Text.decimal total ++ ['\n'])
          say (l.lines sorted)
          if l.isDeep then
            for item in sorted do
              if item.node.isDirectory && !dots.contains item.name then
                let below := inside path item.name
                say ('\n' :: below ++ [':', '\n'])
                status := max status (← listDirectory l false fuel below)
          pure status

def ls : Command := fun arguments => do
  let known : Known := .ofText
    "aAbBcCdDfFgGhHiI:klLmnNopqQrRsStT:uUvw:xXZ1\x01::\x02" [
    ("all", 'a'), ("escape", 'b'), ("directory", 'd'), ("dired", 'D'), ("full-time", '\x02'),
    ("group-directories-first", '\x02'), ("human-readable", 'h'), ("inode", 'i'),
    ("no-group", 'G'), ("hide-control-chars", 'q'), ("reverse", 'r'), ("size", 's'),
    ("width", 'w'), ("almost-all", 'A'), ("ignore-backups", 'B'), ("classify", 'F'),
    ("file-type", 'p'), ("si", 'h'), ("ignore", 'I'), ("literal", 'N'), ("quote-name", 'Q'),
    ("recursive", 'R'), ("tabsize", 'T'), ("color", '\x01'), ("dereference", 'L')]
  match known.read false arguments with
  | .error fault =>
      report fault.message
      refuseUsage 2
  | .ok (given, operands) =>
      let hidden := lastOf? given ['a', 'A', 'f']
      let l : Listing := {
        showsHidden := hidden.isSome
        showsDots := hidden == some 'a' || hidden == some 'f'
        marksKinds := isGiven given 'F'
        marksDirectories := isGiven given 'p'
        isReversed := isGiven given 'r'
        isDeep := isGiven given 'R'
        isLong := (lastOf? given ['l', 'g', 'o', 'n', '1', 'C', 'm', 'x']).any fun c =>
          (['l', 'g', 'o', 'n'] : Text).contains c
        hasCommas := lastOf? given ['l', '1', 'C', 'm', 'x'] == some 'm'
        showsNumbers := isGiven given 'i'
        followsLinks := isGiven given 'L'
        order := match lastOf? given ['t', 'S', 'U', 'X', 'f', 'v'] with
          | some 't' => .time
          | some 'S' => .size
          | some 'U' => .none
          | some 'f' => .none
          | some 'X' => .ending
          | _ => .name }
      let mut status := 0
      let mut files : List Listed := []
      let mut directories : List Listed := []
      for operand in (if operands.isEmpty then [['.']] else operands) do
        let entersLinks := !(isGiven given 'd' || l.isLong || l.marksKinds)
        match ← listed? false operand operand with
        | .error e =>
            report ("cannot access " ++ (← quoted operand) ++ ": " ++ reason e)
            status := 2
        | .ok item =>
            let target? := (← find operand).toOption
            let isEntered := item.node.isDirectory || l.followsLinks ||
              isGiven given 'H' || entersLinks
            match target? with
            | some (n, node) =>
                if node.isDirectory && isEntered && !isGiven given 'd' then
                  directories := directories ++ [{ item with number := n, node := node }]
                else if l.followsLinks then
                  files := files ++ [{ item with number := n, node := node }]
                else files := files ++ [item]
            | none => files := files ++ [item]
      say (l.lines (l.sort files))
      let hasHeadings := l.isDeep || 1 < operands.length
      let mut isFirst := files.isEmpty
      for directory in l.sort directories do
        if hasHeadings then
          say ((if isFirst then [] else ['\n']) ++ directory.name ++ [':', '\n'])
        isFirst := false
        status := max status (← listDirectory l true depthLimit directory.name)
      pure status

end Bytelink.Script.Files
