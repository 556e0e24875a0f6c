import Bytelink.Text.Numeral

/-!
# How a program ended

The word that waiting for a program returns says whether it exited and with which code, which signal
ended or stopped it, or that it went on. `ExitStatus.ofWord` reads it.
-/
namespace Bytelink

inductive ExitStatus
  | exited (code : Nat)
  | signalled (signal : Nat) (coreDumped : Bool)
  | stopped (signal : Nat)
  | continued
  | unknown (word : UInt32)
  deriving DecidableEq, Repr

def signalNames : List String :=
  ["HUP", "INT", "QUIT", "ILL", "TRAP", "ABRT", "BUS", "FPE", "KILL", "USR1", "SEGV", "USR2",
    "PIPE", "ALRM", "TERM", "STKFLT", "CHLD", "CONT", "STOP", "TSTP", "TTIN", "TTOU", "URG",
    "XCPU", "XFSZ", "VTALRM", "PROF", "WINCH", "IO", "PWR", "SYS"]

/-- A signal's number, followed by its name in parentheses if it has one. -/
def signalText (signal : Nat) : Text :=
  let name : Text := match signal with
    | 0 => []
    | n + 1 => match signalNames[n]? with
      | some name => " (SIG" ++ name ++ ")"
      | none => []
  Text.decimal signal ++ name

namespace ExitStatus

/-- Reads a wait status: the low seven bits hold the signal, the next one says that memory was
dumped, and the code stands in the second byte. -/
def ofWord (word : UInt32) : ExitStatus :=
  let low := word.toNat % 0x80
  let second := word.toNat / 0x100 % 0x100
  if low = 0 then .exited second
  else if low < 0x7F then .signalled low (word.toNat / 0x80 % 2 = 1)
  else if word.toNat % 0x100 = 0x7F then .stopped second
  else if word = 0xFFFF then .continued
  else .unknown word

def isSuccess (s : ExitStatus) : Bool := s == .exited 0

def code? : ExitStatus → Option Nat
  | exited code => some code
  | _ => none

def text : ExitStatus → Text
  | exited code => "exit status: " ++ Text.decimal code
  | signalled signal coreDumped =>
      "signal: " ++ signalText signal ++ (if coreDumped then (" (core dumped)" : Text) else [])
  | stopped signal => "stopped (not terminated) by signal: " ++ signalText signal
  | continued => "continued (WIFCONTINUED)"
  | unknown word =>
      "unrecognised wait status: " ++ Text.decimalInt word.toInt32.toInt ++ " 0x"
        ++ Text.hexadecimal word.toNat

end ExitStatus
end Bytelink
