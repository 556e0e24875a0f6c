import Bytelink.Host.Script.Files

/-!
# Putting files at a destination

Programs that copy, move and link files. If the last operand is a directory, each of the others goes
there under its own name. What stands at a destination already is written over where that is
possible.
-/
namespace Bytelink.Script.Files

open Routine

/-- What a program puts where: the operands with their destinations. -/
def destinations (given : List Given) (operands : List Text)
    (step : Text → Text → Routine Nat) : Routine Nat := do
  let into (directory : Text) (operands : List Text) : Routine Nat :=
    forEach operands fun operand => step operand (inside directory (lastStep operand))
  let refuse (t : Text) : Routine Nat := do
    report t
    refuseUsage 1
  match argument? given 't' with
  | some directory =>
      if operands.isEmpty then refuse "missing file operand"
      else
        let complaint : Text := "target directory " ++ (← quoted directory)
        match ← find directory with
        | .ok (_, node) =>
            if node.isDirectory then into directory operands
            else settle complaint (.error .notADirectory)
        | .error e => settle complaint (.error e)
  | none =>
      match operands with
      | [] => refuse "missing file operand"
      | [only] => refuse ("missing destination file operand after " ++ (← quoted only))
      | operands =>
          let target := operands.getLastD []
          let sources := operands.dropLast
          if isGiven given 'T' then
            match sources with
            | [source] => step source target
            | _ => refuse ("extra operand " ++ (← quoted ((operands.drop 2).headD [])))
          else if ← isDirectory target then into target sources
          else
            match sources with
            | [source] => step source target
            | _ =>
                let e := match ← find target with
                  | .ok _ => SystemError.notADirectory
                  | .error e => e
                settle ("target " ++ (← quoted target)) (.error e)

structure Copying where
  isDeep : Bool
  /-- Whether links are followed, those among the operands and all others. -/
  followsOperands : Bool
  followsAll : Bool
  keepsPresent : Bool
  isForced : Bool
  asks : Bool
  updates : Bool
  links : Bool
  linksSymbolically : Bool
  keepsAttributes : Bool
  makesBackup : Bool
  tells : Bool
  deriving DecidableEq, Repr

/-- What stands at a destination, if anything. -/
def present (follows : Bool) (t : Text) :
    Routine (Except SystemError (Option (NodeId × Inode))) := do
  match ← (if follows then find t else findEntry t) with
  | .ok found => pure (.ok (some found))
  | .error e => pure (if e = .notFound then .ok none else .error e)

/-- Leads all that one descriptor has to another; tells what went wrong. -/
def pour (source target : Text) (input output : Nat) : Routine Nat :=
  goRound (fun _ => do
    match ← readSome input chunkSize with
    | .error e =>
        report ("error reading " ++ (← quoted source) ++ ": " ++ reason e)
        pure (.inr 1)
    | .ok [] => pure (.inr 0)
    | .ok bytes =>
        match ← write output bytes with
        | .ok () => pure (.inl ())
        | .error e =>
            report ("error writing " ++ (← quoted target) ++ ": " ++ reason e)
            pure (.inr 1)) 1 rounds ()

/-- Opens the file that a copy goes to. One that is made has a given mode. -/
def openTarget (c : Copying) (target : Text) (isPresent : Bool) (mode : Nat) :
    Routine (Except Text Nat) := do
  let refuse (e : SystemError) : Routine (Except Text Nat) := do
    pure (.error ("cannot create regular file " ++ (← quoted target) ++ ": " ++ reason e))
  let make : Routine (Except Text Nat) := do
    match ← openFile target .making with
    | .ok descriptor => do
        let _ ← attempt fun v here => v.changeMode here (pathOf target) fun _ => mode
        pure (.ok descriptor)
    | .error e =>
        let isDangling := e = .alreadyExists &&
          (← findEntry target).toOption.any fun found => found.2.isLink
        if isDangling then
          pure (.error ("not writing through dangling symlink " ++ (← quoted target)))
        else if e = .isADirectory && target.getLast? = some '/' then refuse .notADirectory
        else refuse e
  if !isPresent then make
  else
    match ← openFile target .overwriting with
    | .ok descriptor => pure (.ok descriptor)
    | .error e =>
        if !c.isForced then refuse e
        else match ← attempt fun v here => v.removeFile here (pathOf target) with
          | .ok () => make
          | .error e => pure (.error ("cannot remove " ++ (← quoted target) ++ ": " ++ reason e))

def copyContent (c : Copying) (source target : Text) (node : Inode) (isPresent : Bool) :
    Routine Nat := do
  match ← openFile source .reading with
  | .error e => settle ("cannot open " ++ (← quoted source) ++ " for reading") (.error e)
  | .ok input =>
      let mode ← if c.keepsAttributes then pure node.mode else masked (node.mode &&& 0o777)
      match ← openTarget c target isPresent mode with
      | .error message =>
          report message
          close input
          pure 1
      | .ok output =>
          let status ← pour source target input output
          close input
          close output
          if c.keepsAttributes then
            let _ ← attempt fun v here => do
              let n ← v.find here (pathOf target)
              pure ((v.setMode n node.mode).setModified n node.modified)
          pure status

/-- Puts what stands at a destination under another name. -/
def backUp (target : Text) : Routine Unit := do
  let _ ← attempt fun v here => v.move here (pathOf target) (pathOf (target ++ ['~']))

/-- Copies an entry to a destination, a directory with all that is in it. -/
def copyEntry (c : Copying) : Nat → Bool → Text → Text → Routine Nat
  | 0, _, _, _ => pure 1
  | fuel + 1, isOperand, source, target => do
      let follows := c.followsAll || isOperand && c.followsOperands
      match ← (if follows then find source else findEntry source) with
      | .error e => settle ("cannot stat " ++ (← quoted source)) (.error e)
      | .ok (n, node) =>
          if node.isDirectory && !c.isDeep then
            report ("-r not specified; omitting directory " ++ (← quoted source))
            pure 1
          else
            let seesLinks := !follows && node.isLink || c.links || c.linksSymbolically
            match ← present (!seesLinks) target with
            | .error e => settle ("cannot stat " ++ (← quoted target)) (.error e)
            | .ok found? =>
                let present? := found?.map (·.2)
                if found?.any (·.1 == n) && !(c.links || c.linksSymbolically && node.isLink) &&
                    !node.isDirectory then
                  report ((← quoted source) ++ " and " ++ (← quoted target) ++
                    " are the same file")
                  pure 1
                else if !node.isDirectory && c.keepsPresent && found?.isSome then pure 0
                else if !node.isDirectory && c.updates &&
                    present?.any (node.modified ≤ ·.modified) then pure 0
                else if !node.isDirectory && present?.any (·.isDirectory) then
                  report ("cannot overwrite directory " ++ (← quoted target) ++
                    " with non-directory")
                  pure 1
                else if node.isDirectory && present?.any (!·.isDirectory) then
                  report ("cannot overwrite non-directory " ++ (← quoted target) ++
                    " with directory " ++ (← quoted source))
                  pure 1
                else if node.isDirectory then
                  copyDirectory fuel n node source target found?
                else
                  let isWanted ← if c.asks && found?.isSome then
                      confirm ("overwrite " ++ (← quoted target) ++ "? ")
                    else pure true
                  if !isWanted then pure 1 else copyFile source target node present?
where
  show_ (source target : Text) : Routine Unit := do
    if c.tells then say ((← quoted source) ++ " -> " ++ (← quoted target) ++ ['\n'])
  copyFile (source target : Text) (node : Inode) (present? : Option Inode) : Routine Nat := do
    let mut isPresent := present?.isSome
    if isPresent && c.makesBackup then
      backUp target
      isPresent := false
    let clear : Routine Unit := do
      if isPresent then
        let _ ← attempt fun v here => v.removeFile here (pathOf target)
    if c.links then
      if c.isForced then clear
      show_ source target
      let result ← attempt fun v here => v.addLink .entry here (pathOf source) (pathOf target)
      return ← settle ("cannot create hard link " ++ (← quoted target) ++ " to " ++
        (← quoted source)) result
    if c.linksSymbolically then
      if c.isForced then clear
      show_ source target
      if source.head? != some '/' && target.contains '/' && above target != ['.'] then
        report ((← quotedIfNeeded target) ++
          ": can make relative symbolic links only in current directory")
        return 1
      let result ← attempt fun v here => v.makeLink here (pathOf target) (Narrow.toText source)
      return ← settle ("cannot create symbolic link " ++ (← quoted target) ++ " to " ++
        (← quoted source)) result
    match node.content with
    | .link aim =>
        show_ source target
        clear
        let result ← attempt fun v here => v.makeLink here (pathOf target) aim
        settle ("cannot create symbolic link " ++ (← quoted target)) result
    | .queue =>
        if !c.isDeep then
          show_ source target
          copyContent c source target node isPresent
        else
          clear
          show_ source target
          let mode ← masked (node.mode &&& 0o777)
          let result ← attempt fun v here => v.make here (pathOf target) .queue mode
          settle ("cannot create fifo " ++ (← quoted target)) result
    | _ =>
        show_ source target
        copyContent c source target node isPresent
  copyChild (fuel : Nat) (source target name : Text) : Routine Nat :=
    copyEntry c fuel false (inside source name) (inside target name)
  copyDirectory (fuel : Nat) (n : NodeId) (node : Inode) (source target : Text)
      (found? : Option (NodeId × Inode)) : Routine Nat := do
    let refuseItself : Routine Nat := do
      report ("cannot copy a directory, " ++ (← quoted source) ++ ", into itself, " ++
        (← quoted target))
      pure 1
    let isInside ← inVolume fun v here => match found? with
      | some (place, _) => v.holds n place
      | none => match v.goal .name here (pathOf (bare target)) with
        | .ok goal => v.holds n goal.directory
        | .error _ => false
    if isInside then
      if found?.any (·.1 == n) then
        report ((← quoted source) ++ " and " ++ (← quoted target) ++ " are the same file")
        pure 1
      else refuseItself
    else
      let made ← if found?.isSome then pure (.ok ())
        else
          let mode ← masked (node.mode &&& 0o777)
          attempt fun v here => v.makeDirectory here (pathOf target) (mode ||| 0o700)
      match made with
      | .error e => settle ("cannot create directory " ++ (← quoted target)) (.error e)
      | .ok () =>
          if found?.isNone then show_ source target
          let status ← match ← names source with
            | .error e => settle ("cannot access " ++ (← quoted source)) (.error e)
            | .ok below => forEach below (copyChild fuel source target)
          if found?.isNone then
            let mode ← if c.keepsAttributes then pure node.mode else masked (node.mode &&& 0o777)
            let _ ← attempt fun v here => do
              let v ← v.changeMode here (pathOf target) fun _ => mode
              let place ← v.find here (pathOf target)
              pure (if c.keepsAttributes then v.setModified place node.modified else v)
          pure status

def cp : Command := fun arguments =>
  withOptions (.ofText "abdfHilLnprst:uvxPRS:TZ\x01" [("archive", 'a'),
      ("attributes-only", '\x01'), ("backup", 'b'), ("dereference", 'L'), ("force", 'f'),
      ("interactive", 'i'), ("link", 'l'), ("no-clobber", 'n'), ("no-dereference", 'P'),
      ("no-target-directory", 'T'), ("one-file-system", 'x'), ("preserve", 'p'),
      ("recursive", 'R'), ("symbolic-link", 's'), ("target-directory", 't'), ("update", 'u'),
      ("verbose", 'v')]) arguments fun given operands => do
    let isDeep := isGiven given 'r' || isGiven given 'R' || isGiven given 'a'
    let links := lastOf? given ['L', 'P', 'd', 'a', 'H']
    let keepsPresent := isGiven given 'n'
    if keepsPresent then
      report ("warning: behavior of -n is non-portable and may change in future; " ++
        "use --update=none instead")
    let c : Copying := {
      isDeep := isDeep
      followsOperands := match links with
        | none => !isDeep
        | some letter => letter == 'L' || letter == 'H'
      followsAll := match links with
        | none => !isDeep
        | some letter => letter == 'L'
      keepsPresent := keepsPresent
      isForced := isGiven given 'f'
      asks := lastOf? given ['i', 'n'] == some 'i'
      updates := isGiven given 'u'
      links := isGiven given 'l'
      linksSymbolically := isGiven given 's'
      keepsAttributes := isGiven given 'p' || isGiven given 'a'
      makesBackup := isGiven given 'b'
      tells := isGiven given 'v' }
    destinations given operands (copyEntry c depthLimit true)

structure Moving where
  keepsPresent : Bool
  asks : Bool
  updates : Bool
  makesBackup : Bool
  tells : Bool
  deriving DecidableEq, Repr

def moveEntry (c : Moving) (source target : Text) : Routine Nat := do
  match ← findEntry source with
  | .error e => settle ("cannot stat " ++ (← quoted source)) (.error e)
  | .ok (n, node) =>
      let refuse (e : SystemError) : Routine Nat := do
        settle ("cannot move " ++ (← quoted source) ++ " to " ++ (← quoted target)) (.error e)
      match ← present false (if node.isDirectory then bare target else target) with
      | .error e => settle ("cannot stat " ++ (← quoted target)) (.error e)
      | .ok found? =>
          let present? := found?.map (·.2)
          let isSame ← inVolume fun v here =>
            match v.goal .name here (pathOf (bare source)),
              v.goal .name here (pathOf (bare target)) with
            | .ok a, .ok b => a.directory == b.directory && a.last == b.last
            | _, _ => false
          if found?.any (·.1 == n) && (isSame || node.isDirectory) then
            report ((← quoted source) ++ " and " ++ (← quoted target) ++ " are the same file")
            pure 1
          else if c.keepsPresent && found?.isSome then
            report ("not replacing " ++ (← quoted target))
            pure 1
          else if c.updates && present?.any (node.modified ≤ ·.modified) then pure 0
          else if !node.isDirectory && present?.any (·.isDirectory) then
            report ("cannot overwrite directory " ++ (← quoted target) ++ " with non-directory")
            pure 1
          else if node.isDirectory && present?.any (!·.isDirectory) then
            report ("cannot overwrite non-directory " ++ (← quoted target) ++ " with directory " ++
              (← quoted source))
            pure 1
          else
            let isWanted ← if c.asks && found?.isSome then
                confirm ("overwrite " ++ (← quoted target) ++ "? ")
              else pure true
            if !isWanted then return 1
            if found?.isSome && c.makesBackup then backUp target
            let result ← attempt fun v here =>
              if found?.any (·.1 == n) then v.removeFile here (pathOf source)
              else v.move here (pathOf source) (pathOf target)
            match result with
            | .ok () =>
                if c.tells then
                  say ("renamed " ++ (← quoted source) ++ " -> " ++ (← quoted target) ++ ['\n'])
                pure 0
            | .error e =>
                if e = .invalidArgument then
                  report ("cannot move " ++ (← quoted source) ++
                    " to a subdirectory of itself, " ++ (← quoted target))
                  pure 1
                else if e = .notEmpty || e = .isADirectory || e = .alreadyExists then
                  settle ("cannot overwrite " ++ (← quoted target)) (.error e)
                else refuse e

def mv : Command := fun arguments =>
  withOptions (.ofText "bfint:uvS:TZ\x01" [("backup", 'b'), ("force", 'f'), ("interactive", 'i'),
      ("no-clobber", 'n'), ("no-target-directory", 'T'), ("strip-trailing-slashes", '\x01'),
      ("target-directory", 't'), ("update", 'u'), ("verbose", 'v')]) arguments
    fun given operands =>
      let way := lastOf? given ['f', 'i', 'n']
      destinations given operands (moveEntry ⟨way == some 'n', way == some 'i',
        isGiven given 'u', isGiven given 'b', isGiven given 'v'⟩)

structure Linking where
  isSymbolic : Bool
  isForced : Bool
  /-- Whether a link that is to get another name is followed. -/
  follows : Bool
  tells : Bool
  deriving DecidableEq, Repr

def makeLink (c : Linking) (aim path : Text) : Routine Nat := do
  let found ← if c.follows then find aim else findEntry aim
  match (if c.isSymbolic then none else some found) with
  | some (.error e) => settle ("failed to access " ++ (← quoted aim)) (.error e)
  | found? =>
      let node? := match found? with
        | some (.ok found) => some found
        | _ => none
      if node?.any (·.2.isDirectory) then
        report ((← quotedIfNeeded aim) ++ ": hard link not allowed for directory")
        pure 1
      else
        let present? := (← findEntry path).toOption
        if c.isForced && present?.any (fun p => node?.any (·.1 == p.1)) then
          report ((← quoted aim) ++ " and " ++ (← quoted path) ++ " are the same file")
          return 1
        if c.isForced && present?.any (!·.2.isDirectory) then
          let _ ← attempt fun v here => v.removeFile here (pathOf path)
        if c.isForced && present?.any (·.2.isDirectory) then
          report ((← quotedIfNeeded path) ++ ": cannot overwrite directory")
          return 1
        let result ← attempt fun v here =>
          if c.isSymbolic then v.makeLink here (pathOf path) (Narrow.toText aim)
          else v.addLink (if c.follows then .target else .entry) here (pathOf aim) (pathOf path)
        match result with
        | .ok () =>
            if c.tells then
              let arrow : Text := if c.isSymbolic then " -> " else " => "
              say ((← quoted path) ++ arrow ++ (← quoted aim) ++ ['\n'])
            pure 0
        | .error e =>
            let kind : Text := if c.isSymbolic then "symbolic link " else "hard link "
            let isWhole := if c.isSymbolic then e = .nameTooLong || aim.isEmpty
              else e != .alreadyExists && e != .noSpace
            let arrow : Text := if c.isSymbolic then " -> " else " => "
            let aimed ← quoted aim
            let behind : Text := if isWhole then arrow ++ aimed else []
            settle ("failed to create " ++ kind ++ (← quoted path) ++ behind) (.error e)

def ln : Command := fun arguments =>
  withOptions (.ofText "bdfFiLnPrst:vS:T" [("backup", 'b'), ("directory", 'F'),
      ("no-dereference", 'n'), ("no-target-directory", 'T'), ("force", 'f'),
      ("interactive", 'i'), ("suffix", 'S'), ("target-directory", 't'), ("logical", 'L'),
      ("physical", 'P'), ("relative", 'r'), ("symbolic", 's'), ("verbose", 'v')])
    arguments fun given operands => do
      let link := makeLink ⟨isGiven given 's', isGiven given 'f',
        lastOf? given ['L', 'P'] == some 'L', isGiven given 'v'⟩
      match operands, argument? given 't' with
      | [], _ =>
          report "missing file operand"
          refuseUsage 1
      | [aim], none => link aim (inside ['.'] (lastStep aim))
      | operands, some _ => destinations given operands link
      | operands, none =>
          let target := operands.getLastD []
          match operands.dropLast, isGiven given 'n', (← findEntry target).toOption with
          | [aim], true, some (_, node) =>
              if node.isLink then link aim target else destinations given operands link
          | _, _, _ => destinations given operands link

/-- Gives a file one more name. -/
def link : Command := fun arguments =>
  withOptions (.ofText "" []) arguments fun _ operands => do
    match operands with
    | [] => refuseMissing
    | [only] =>
        report ("missing operand after " ++ (← marked only))
        refuseUsage 1
    | [source, target] =>
        let result ← attempt fun v here => v.addLink .entry here (pathOf source) (pathOf target)
        settle ("cannot create link " ++ (← quoted target) ++ " to " ++ (← quoted source)) result
    | _ :: _ :: extra :: _ =>
        report ("extra operand " ++ (← marked extra))
        refuseUsage 1

end Bytelink.Script.Files
