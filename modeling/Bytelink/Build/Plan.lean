import Bytelink.Build.Failure

/-!
# Plans

A build is described, not performed: a `Plan` is a finite dialogue that asks its surroundings one
`Request` after another and goes on with each reply. What a reply may be is up to the `Host` that
answers. So one description serves a real machine, a simulated one, and any behaviour of tools, file
system, clock and scheduler that a law quantifies over.
-/
namespace Bytelink

/-- How urgent a log record is, the most urgent first. -/
inductive Level
  | error
  | warn
  | info
  | debug
  | trace
  deriving DecidableEq, Repr

/-- Which part of the program a log record comes from. -/
inductive Reporter
  | pipeline
  | tool
  | segment
  | linker
  deriving DecidableEq, Repr

structure Record where
  level : Level
  reporter : Reporter
  text : Text
  deriving DecidableEq, Repr

/-- One invocation of a program. -/
structure Command where
  program : Path
  arguments : List Text
  /-- Where the program runs, if not in the current directory. -/
  directory? : Option Path
  timeout? : Option Duration
  cancel? : Option Token
  deriving DecidableEq, Repr

def Command.line (c : Command) : Text := Text.join [' '] (c.program.text :: c.arguments)

/-- Names a program that has been started. -/
structure Run where
  number : Nat
  deriving DecidableEq, Repr

/-- Why a program was not started. -/
inductive Refusal
  | cancelled
  | impossible (reason : SystemError)
  deriving DecidableEq, Repr

/-- How a started program came to its end, with all that it had written by then. -/
inductive Ending
  | exited (status : ExitStatus) (output : Bytes)
  | timedOut (limit : Duration) (output : Bytes)
  | cancelled (output : Bytes)
  | lost (reason : SystemError)
  deriving DecidableEq, Repr

/-- What a plan can ask for. -/
inductive Request
  /-- Is this a directory, links followed? -/
  | isDirectory (path : Path)
  /-- Is this a regular file, links followed? -/
  | isFile (path : Path)
  /-- The path of the current directory, which may be gone. -/
  | currentDirectory
  /-- The names in a directory, in any order. -/
  | entryNames (directory : Path)
  | fileContent (path : Path)
  /-- Replaces the content of a file, which is made if it does not exist. -/
  | writeFile (path : Path) (content : Bytes)
  | removeFile (path : Path)
  /-- Makes a directory and the directories above it. -/
  | makeDirectories (path : Path)
  /-- Looks at the command's token and starts the program, in one step. -/
  | launch (command : Command)
  /-- Waits for a started program. -/
  | await (run : Run)
  /-- Which of these workers moves next? Each is about to start a program or waits for one. -/
  | turn (workers : List (Option Run))
  | isCancelled (token : Token)
  | report (record : Record)
  deriving DecidableEq, Repr

def Request.Reply : Request → Type
  | isDirectory _ => Bool
  | isFile _ => Bool
  | currentDirectory => Except SystemError Path
  | entryNames _ => Except SystemError (List Text)
  | fileContent _ => Except SystemError Bytes
  | writeFile _ _ => Except SystemError Unit
  | removeFile _ => Except SystemError Unit
  | makeDirectories _ => Except SystemError Unit
  | launch _ => Except Refusal Run
  | await _ => Ending
  | turn _ => Nat
  | isCancelled _ => Bool
  | report _ => Unit

/-- A finite dialogue that ends with a value. -/
inductive Plan (α : Type)
  | done (value : α)
  | ask (request : Request) (next : request.Reply → Plan α)

namespace Plan

variable {α β : Type}

/-- Goes on with a second plan where the first is done. -/
def bind : Plan α → (α → Plan β) → Plan β
  | done value, next => next value
  | ask request rest, next => ask request fun reply => (rest reply).bind next

instance : Monad Plan where
  pure := done
  bind := bind

def request (r : Request) : Plan r.Reply := ask r done

@[simp] theorem done_bind (value : α) (next : α → Plan β) : (done value).bind next = next value :=
  rfl

@[simp] theorem ask_bind (r : Request) (rest : r.Reply → Plan α) (next : α → Plan β) :
    (ask r rest).bind next = ask r fun reply => (rest reply).bind next := rfl

@[simp] theorem bind_done (p : Plan α) : p.bind done = p := by
  induction p with
  | done _ => rfl
  | ask r rest ih => simp only [ask_bind, ih]

theorem bind_assoc {γ : Type} (p : Plan α) (f : α → Plan β) (g : β → Plan γ) :
    (p.bind f).bind g = p.bind fun a => (f a).bind g := by
  induction p with
  | done _ => rfl
  | ask r rest ih => simp only [ask_bind, ih]

instance : LawfulMonad Plan := LawfulMonad.mk'
  Plan
  bind_done
  done_bind
  bind_assoc

end Plan

structure Host (σ : Type) where
  answer : (r : Request) → σ → r.Reply × σ

/-- Performs a plan: every request goes to the host, in order. -/
def Plan.run {σ α : Type} (host : Host σ) : Plan α → σ → α × σ
  | done value, s => (value, s)
  | ask r next, s =>
      let (reply, s) := host.answer r s
      (next reply).run host s

theorem Plan.run_bind {σ α β : Type} (host : Host σ) (p : Plan α) (f : α → Plan β) (s : σ) :
    (p.bind f).run host s = (f (p.run host s).1).run host (p.run host s).2 := by
  induction p generalizing s with
  | done _ => rfl
  | ask r next ih => exact ih _ _

end Bytelink
