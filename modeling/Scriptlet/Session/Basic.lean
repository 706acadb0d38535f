import Scriptlet.Eval.Statement
import Scriptlet.Session.Script
import Scriptlet.Session.Input
import Scriptlet.Session.Backspace

/-! Sessions: lines that run one after the other on one machine. -/
namespace Scriptlet

/-- Texts as lines. -/
def unlines (ls : List String) : String := String.join (ls.map (· ++ "\n"))

/-- Runs a line as a program if nothing is wrong with it, and gives what is to be reported. There
is no result if a loop reached the limit. -/
def Machine.evaluateLine (limit : Nat) (m : Machine) (line : String) : Option (String × Machine) :=
  let script := Script.ofString line
  if script.isClean then
    (script.program.run limit m).map fun
      | (.ok (), m) => ("", m)
      | (.error e, m) => ("Runtime error: " ++ e.fault.message ++ "\n", m)
  else some (unlines script.diagnostics, m)

/-- How a session ended. -/
inductive SessionEnd where
  /-- By a word that ends it, or at the end of input. -/
  | finished
  /-- At a line that is not UTF-8. -/
  | unreadable
  /-- At a line with a backspace that would split a character. -/
  | split
deriving DecidableEq, Repr

/-- A session: its machine, and what it has reported. -/
structure Session where
  machine : Machine
  reports : String

namespace Session

/-- A session at its start. -/
def start : Session := ⟨.ofLines [], ""⟩

/-- The words that end a session. -/
def isLeaving (line : String) : Bool := line == "exit" || line == "quit"

/-- Runs one line. The program can read the lines that follow it. -/
def step (limit : Nat) (s : Session) (line : String) (following : List (Option String)) :
    Option Session :=
  let console := { s.machine.console with input := following.map Input.typed, reads := 0 }
  (({ s.machine with console } : Machine).evaluateLine limit line).map fun (report, machine) =>
    { machine, reports := s.reports ++ report }

/-- Runs lines until one of them ends the session. The first `skip` lines were read already by a
program. -/
def feed (limit : Nat) (s : Session) (skip : Nat) : List (Option String) → Option (SessionEnd × Session)
  | [] => some (.finished, s)
  | line :: lines =>
    match skip, line with
    | skip + 1, _ => feed limit s skip lines
    | 0, none => some (.unreadable, s)
    | 0, some line =>
      match applyBackspaces line with
      | none => some (.split, s)
      | some line =>
        let line := Text.trim line
        if line.isEmpty then feed limit s 0 lines
        else if isLeaving line then some (.finished, s)
        else match s.step limit line lines with
          | none => none
          | some s => feed limit s s.machine.console.reads lines

end Session

end Scriptlet
