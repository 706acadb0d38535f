import Scriptlet.Session.Command

/-! The words of a command line. -/
namespace Scriptlet

def TokenFormat.named? : String → Option TokenFormat
  | "basic" => some .basic
  | "debug" => some .debug
  | "pretty" => some .pretty
  | _ => none

/-- A tree has no reports, so a listing of it is plain or a dump. -/
def ProgramFormat.named? : String → Option ProgramFormat
  | "sexpr" => some .sexpr
  | "debug" => some .debug
  | _ => none

/-- A command, and the file that it works on if it needs one. -/
structure Invocation where
  command : Command
  path : Option String

namespace Invocation

def usage : String :=
  "Usage: tokenize PATH [--format basic|debug|pretty] | parse PATH [--format sexpr|debug] | run PATH | repl\n"

/-- The format option, wherever it stands behind the command, and the other words. -/
def splitFormat : List String → Option String × List String
  | [] => (none, [])
  | "--format" :: f :: ws => (some f, ws)
  | w :: ws => let (f, rest) := splitFormat ws; (f, w :: rest)

/-- The invocation that the words ask for. -/
def ofWords? : List String → Option Invocation
  | "tokenize" :: ws =>
    match splitFormat ws with
    | (f, [path]) => do return ⟨.tokenize (← TokenFormat.named? (f.getD "basic")), some path⟩
    | _ => none
  | "parse" :: ws =>
    match splitFormat ws with
    | (f, [path]) => do return ⟨.parse (← ProgramFormat.named? (f.getD "sexpr")), some path⟩
    | _ => none
  | ["run", path] => some ⟨.run, some path⟩
  | ["repl"] => some ⟨.session, none⟩
  | _ => none

end Invocation

end Scriptlet
