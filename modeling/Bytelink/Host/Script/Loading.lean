import Bytelink.Host.Script.Shell

/-!
# Loading programs

What is run when a file is to take the place of a process: a program of the machine, or the
interpreter that the first line of the file names.
-/
namespace Bytelink.Script

/-- A program of the machine with its arguments, the first of which is its own name. -/
structure Image where
  program : Text
  arguments : List Text
  deriving DecidableEq, Repr

/-- How much of a file is looked at for the name of its interpreter. -/
def headSize : Nat := 256

def isGap (c : Char) : Bool := c == ' ' || c == '\t'

/-- The interpreter that a file names, with at most one argument. A line that does not end within
the part that is looked at counts as long as the name of the interpreter does end. -/
def interpreter? (content : Bytes) : Option (Text × List Text) :=
  let padded := content.take headSize ++ List.replicate (headSize - content.length) 0
  match Narrow.ofBytes padded with
  | '#' :: '!' :: behind =>
      let line := behind.takeWhile (· != '\n')
      let isWhole := line.length < behind.length
      let line := if isWhole then line else line.dropLast
      let line := (line.reverse.dropWhile isGap).reverse
      let name := line.dropWhile isGap
      let isEnd (c : Char) : Bool := isGap c || c == '\x00'
      let path := name.takeWhile (!isEnd ·)
      let rest := name.drop path.length
      if name.isEmpty || (!isWhole && rest.isEmpty && !behind.any isEnd) then none
      else
        let argument := match rest with
          | '\x00' :: _ => []
          | rest => (rest.dropWhile isGap).takeWhile (· != '\x00')
        some (path, if argument.isEmpty then [] else [argument])
  | _ => none

def interpreterLimit : Nat := 6

/-- What a file begins with that holds a program of the machine; its name follows. -/
def nativeMark : Text :=
  "\x7fELF\x02\x01\x01" ++ List.replicate 9 '\x00' ++ "\x03\x00>\x00\x01\x00\x00\x00program "

/-- The content of the file of a program of the machine. -/
def nativeContent (name : Text) : Array UInt8 := (Utf8.encode (nativeMark ++ name)).toArray

/-- The program of the machine that a file holds. -/
def native? (content : Bytes) : Option Text :=
  let t := Narrow.ofBytes (content.take headSize)
  if nativeMark.isPrefixOf t then some (t.drop nativeMark.length) else none

/-- What running a file means, or why it cannot be run. -/
def Image.ofFile (system : System) (directory : NodeId) :
    Nat → Text → List Text → Except SystemError Image
  | 0, _, _ => .error .tooManyLinks
  | fuel + 1, path, arguments => do
      let n ← system.volume.find directory ⟨Narrow.toText path⟩
      let node := system.volume.node n
      if !node.isFile || !node.grants .search then throw .permissionDenied
      else if system.isBusy n then throw .textBusy
      else
        let content := (node.bytes.extract 0 headSize).toList
        match native? content with
        | some name => pure ⟨name, arguments⟩
        | none =>
            match interpreter? content with
            | none => throw .notExecutable
            | some (interpreter, first) =>
                Image.ofFile system directory fuel interpreter
                  (interpreter :: first ++ path :: arguments.drop 1)

/-- The paths under which a program is looked for. -/
def searchPaths (path : Text) (name : Text) : List Text :=
  if name.contains '/' then [name]
  else (Text.splitOn ':' path).map fun directory =>
    if directory.isEmpty then name else directory ++ '/' :: name

/-- Whether an error says that there is nothing of that name. -/
def isAbsence (e : SystemError) : Bool :=
  e == .notFound || e == .notADirectory

/-- How much of a file is looked at to tell a script from other files. -/
def lineHeadSize : Nat := 128

/-- Whether a file looks like text: its first line, as far as it is looked at, has no characters
that control anything but where text goes. -/
def isTextual (content : Bytes) : Bool :=
  ((content.take lineHeadSize).takeWhile (· != 0x0A)).all fun b =>
    b != 0x7F && (0x20 ≤ b || b == 0x1B || 9 ≤ b && b ≤ 15)

/-- What a file means that is run like a script though it names no interpreter. A careful starter
looks whether it is text. -/
def Image.ofText (system : System) (directory : NodeId) (isCareful : Bool) (path : Text)
    (arguments : List Text) : Except SystemError Image := do
  let n ← system.volume.find directory ⟨Narrow.toText path⟩
  let node := system.volume.node n
  if isCareful && !node.grants .read then throw .permissionDenied
  else if isCareful && !isTextual (node.bytes.extract 0 lineHeadSize).toList then
    throw .notExecutable
  else pure ⟨"sh", "/bin/sh" :: path :: arguments.drop 1⟩

inductive Starter
  /-- The shell takes a file that names no interpreter for a script if it looks like text, and goes
  on looking after any failure. -/
  | shell
  /-- A program takes such a file for a script, and goes on looking where it was denied a file. -/
  | program
  /-- Others do not take such a file for a script. -/
  | other
  deriving DecidableEq, Repr

/-- The first of several files that can be run, or why there is none. A file that is there but
cannot be run is remembered. -/
def Image.first (starter : Starter) (system : System) (directory : NodeId)
    (arguments : List Text) : SystemError → List Text → Except SystemError Image
  | fault, [] => .error fault
  | fault, path :: rest =>
      let result : Except SystemError Image :=
        match Image.ofFile system directory interpreterLimit path arguments with
        | .error e =>
            if e = .notExecutable && starter != .other then
              Image.ofText system directory (starter == .shell) path arguments
            else .error e
        | result => result
      match result with
      | .ok image => .ok image
      | .error e =>
          if isAbsence e then
            let fault := if isAbsence fault then e else fault
            Image.first starter system directory arguments fault rest
          else if starter == .shell || e = .permissionDenied then
            Image.first starter system directory arguments e rest
          else .error e

/-- How long a single argument, and how long all of them may be, with the end marks and the places
of each. -/
def argumentLimit : Nat := 131072

def argumentsLimit : Nat := 2097152

/-- Whether arguments and surroundings are small enough for a program to be started with them. -/
def fits (strings : List Text) : Bool :=
  strings.all (·.length < argumentLimit) &&
    strings.foldl (fun size t => size + t.length + 9) 0 ≤ argumentsLimit

/-- What runs under one of several paths, unless it is given too much. -/
def Image.fitting (starter : Starter) (system : System) (directory : NodeId)
    (environment arguments : List Text) (paths : List Text) : Except SystemError Image := do
  let image ← Image.first starter system directory arguments .notFound paths
  if fits (arguments ++ environment) then pure image else throw .argumentsTooLong

/-- Where programs are looked for if nothing else is said. -/
def defaultPath : Text := "/usr/local/sbin:/usr/local/bin:/usr/sbin:/usr/bin:/sbin:/bin"

end Bytelink.Script
