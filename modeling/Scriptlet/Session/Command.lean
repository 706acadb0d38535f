import Scriptlet.Session.Basic
import Scriptlet.Token.Format
import Scriptlet.Parse.Format
import Scriptlet.Report.Draw

/-! Commands on a source text, as functions of the text and standard input. -/
namespace Scriptlet

/-- What a command leaves behind. -/
structure Outcome where
  exit : Nat
  stdout : String
  stderr : String
deriving DecidableEq, Repr

inductive Command where
  | tokenize (format : TokenFormat)
  | parse (format : ProgramFormat)
  | run
  | session

namespace Command

/-- The exit code of a text with errors. -/
def dataError : Nat := 65

/-- The exit code of a program that failed. -/
def softwareError : Nat := 70

/-- Lists the tokens of a text. -/
def tokenizeText (format : TokenFormat) (path source : String) : Outcome :=
  let (tokens, errors) := Scriptlet.tokenize source
  { exit := if errors.isEmpty then 0 else dataError
    stdout := unlines (tokens.map format.token)
    stderr := unlines (errors.map (format.error .terminal path source)) }

/-- Writes the program tree of a text, also if there are errors. -/
def parseText (format : ProgramFormat) (path source : String) : Outcome :=
  let script := Script.ofString source
  { exit := if script.isClean then 0 else dataError
    stdout := format.program script.program ++ "\n"
    stderr := unlines (script.lexErrors.map LexError.text ++
      script.parseErrors.map (format.error .terminal path source)) }

/-- Runs a text, or draws reports of its errors. -/
def runText (limit : Nat) (path source : String) (input : List UInt8) : Option Outcome :=
  let script := Script.ofString source
  if script.isClean then
    (script.program.run limit (.ofLines ((Input.lines input).map Input.typed))).map fun
      | (.ok (), m) => ⟨0, m.console.output, ""⟩
      | (.error e, m) =>
        ⟨softwareError, m.console.output,
          unlines ["Runtime error: " ++ e.fault.message, "[" ++ e.position.text ++ "]"]⟩
  else
    some ⟨dataError, "",
      String.join (script.lexErrors.map (TokenFormat.pretty.error .terminal path source) ++
        script.parseErrors.map (ProgramFormat.pretty.error .terminal path source))⟩

def greeting : String := "Myndra REPL. Type 'exit' or 'quit' to leave.\n"

/-- A session that reads its lines from standard input. -/
def runSession (limit : Nat) (input : List UInt8) : Option Outcome :=
  (Session.start.feed limit 0 (Input.lines input)).map fun (how, s) =>
    let stdout := greeting ++ s.machine.console.output
    match how with
    | .finished => ⟨0, stdout, s.reports⟩
    | .unreadable => ⟨1, stdout, s.reports ++ "Error: the input is not UTF-8\n"⟩
    | .split => ⟨101, stdout, s.reports ++ "Error: a backspace splits a character\n"⟩

/-- The outcome of a command. A session has no source text. There is no outcome if a loop reached
the limit. -/
def outcome (limit : Nat) (path source : String) (input : List UInt8) : Command → Option Outcome
  | tokenize format => some (tokenizeText format path source)
  | parse format => some (parseText format path source)
  | run => runText limit path source input
  | session => runSession limit input

end Command

end Scriptlet
