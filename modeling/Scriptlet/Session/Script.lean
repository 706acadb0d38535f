import Scriptlet.Token.Lexer
import Scriptlet.Parse.Parser

/-! Program texts that were read, with all that is wrong with them. -/
namespace Scriptlet

structure Script where
  program : Program
  lexErrors : List LexError
  parseErrors : List ParseError

namespace Script

def ofString (source : String) : Script :=
  let (tokens, lexErrors) := tokenize source
  let (program, parseErrors) := parse tokens
  { program, lexErrors, parseErrors }

/-- The texts of all errors, lexical ones first. -/
def diagnostics (s : Script) : List String :=
  s.lexErrors.map LexError.text ++ s.parseErrors.map ParseError.text

/-- Whether nothing is wrong with the text. -/
def isClean (s : Script) : Bool := s.lexErrors.isEmpty && s.parseErrors.isEmpty

end Script

end Scriptlet
