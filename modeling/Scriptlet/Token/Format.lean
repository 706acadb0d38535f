import Scriptlet.Token.Lexer
import Scriptlet.Report.Basic

/-! Token lists in three formats: plain, with positions, and as dumps. -/
namespace Scriptlet

inductive TokenFormat where
  | basic | debug | pretty
deriving DecidableEq

/-- The text of a literal in a token list. Texts are escaped; a token without a literal shows
`null`. -/
def Token.literalText (t : Token) : String :=
  match t.literal with
  | none => "null"
  | some (.float x) => Decimal.text x
  | some (.string s) => if t.kind = .string then Text.escaped s else s
  | some v => v.text

/-- Kind, lexeme and literal. -/
def Token.basicText (t : Token) : String :=
  t.kind.name ++ " " ++ Text.escaped t.lexeme ++ " " ++ t.literalText

/-- The line right-aligned and the column left-aligned in four characters. -/
def Token.prettyText (t : Token) : String :=
  let line := toString t.position.line
  let column := toString t.position.column
  "".pushn ' ' (4 - line.length) ++ line ++ ":" ++ column ++ "".pushn ' ' (4 - column.length) ++
    " " ++ t.basicText

/-- A report of a lexical error. -/
def LexError.report (e : LexError) (path source : String) : Report :=
  { path, source, span := e.span, message := e.fault.message, label := e.fault.label }

namespace TokenFormat

def token (f : TokenFormat) (t : Token) : String :=
  match f with
  | basic => t.basicText
  | debug => t.dump.inline
  | pretty => t.prettyText

/-- The text of an error. Reports are drawn in the pretty format only. -/
def error (draw : Drawing) (f : TokenFormat) (path source : String) (e : LexError) : String :=
  match f with
  | basic => e.text
  | debug => e.dump.inline
  | pretty => (e.report path source).render draw

end TokenFormat

end Scriptlet
