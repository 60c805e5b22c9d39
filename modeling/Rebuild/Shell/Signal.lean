import Rebuild.Shell.Scene

/-!
# Signals

A signal ends a process unless the shell in it has been told what to do, or the signal is one of those
that nobody minds.
-/

namespace Rebuild.Shell

namespace Signal

/-- The names of the signals in the order of their numbers. The first one stands for the end of a shell.
-/
def names : List String :=
  ["EXIT", "HUP", "INT", "QUIT", "ILL", "TRAP", "ABRT", "BUS", "FPE", "KILL", "USR1", "SEGV", "USR2",
    "PIPE", "ALRM", "TERM", "STKFLT", "CHLD", "CONT", "STOP", "TSTP", "TTIN", "TTOU", "URG", "XCPU",
    "XFSZ", "VTALRM", "PROF", "WINCH", "IO", "PWR", "SYS"]

/-- The greatest number of a signal. -/
def greatest : Nat := 64

/-- The number of a signal that is given by name or by number. -/
def ofText? (text : String) : Option Nat :=
  if text ≠ "" && text.all Char.isDigit then text.toNat?.filter (· ≤ greatest)
  else names.findIdx? (· = text.toUpper)

/-- The name of a signal. -/
def name (number : Nat) : String :=
  (names[number]?).getD ("RTMIN+" ++ toString (number - 34))

/-- What is said of a process that a signal ended. -/
def epitaph (number : Nat) : String :=
  match number with
  | 1 => "Hangup"
  | 2 => "Interrupt"
  | 3 => "Quit"
  | 4 => "Illegal instruction"
  | 5 => "Trace/breakpoint trap"
  | 6 => "Aborted"
  | 7 => "Bus error"
  | 8 => "Floating point exception"
  | 9 => "Killed"
  | 10 => "User defined signal 1"
  | 11 => "Segmentation fault"
  | 12 => "User defined signal 2"
  | 13 => "Broken pipe"
  | 14 => "Alarm clock"
  | 15 => "Terminated"
  | n => "Signal " ++ toString n

/-- Signals that do nothing to a process that was not told what to do. -/
def isHarmless (number : Nat) : Bool := [0, 17, 18, 23, 28].contains number

/-- Signals that no process can be told to mind. -/
def isForcible (number : Nat) : Bool := number = 9 || number = 19

end Signal

namespace Run

/-- Sends a signal to a process, and tells whether there is one. -/
def sendSignal (target : Pid) (number : Nat) : Run Bool := do
  match (← scene).processes.lookup target with
  | none => return false
  | some p =>
    match if Signal.isForcible number then none else p.traps.lookup number with
    | some "" => pure ()
    | some _ =>
      modifyScene fun s => { s with processes := s.processes.map fun (pid, p) =>
        (pid, if pid = target then { p with pending := p.pending ++ [number] } else p) }
    | none =>
      if Signal.isHarmless number then pure ()
      else if target = (← pid) then throw (.signal number)
      else modifyScene (·.finish target (.killed number))
    return true

/-- The traps that stay when a shell makes way for another program or for a copy of itself: those that
ignore a signal. -/
def keptTraps (traps : List (Nat × String)) : List (Nat × String) :=
  traps.filter (·.2 = "")

end Run

end Rebuild.Shell
