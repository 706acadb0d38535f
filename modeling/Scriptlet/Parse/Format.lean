import Scriptlet.Parse.Parser
import Scriptlet.Tree.SExpr
import Scriptlet.Tree.Dump

/-! Programs and their errors in three formats. -/
namespace Scriptlet

inductive ProgramFormat where
  | sexpr | debug | pretty
deriving DecidableEq

namespace ProgramFormat

def program (f : ProgramFormat) (p : Program) : String :=
  match f with
  | debug => (Program.dump p).expanded 0
  | sexpr | pretty => Program.text p

/-- The text of an error. Reports are drawn in the pretty format only. -/
def error (draw : Drawing) (f : ProgramFormat) (path source : String) (e : ParseError) : String :=
  match f with
  | sexpr => e.text
  | debug => e.dump.inline
  | pretty => (e.report path source).render draw

end ProgramFormat

end Scriptlet
