import Scriptlet.Parse.Statement

/-! Parsers: tokens that are read step by step, and whole programs. -/
namespace Scriptlet

/-- The end of input behind a list of tokens that does not hold one. It stands at the end of the
last token, with the position of that token. -/
def endOfTokens (tokens : List Token) : Token :=
  match tokens.getLast? with
  | some t => ⟨.eof, "", none, Span.between t.span.stop t.span.stop, t.position⟩
  | none => ⟨.eof, "", none, ⟨0, 0⟩, ⟨1, 1⟩⟩

/-- A list of tokens, the index of the next one, and the errors so far. -/
structure Parser where
  tokens : List Token
  index : Nat
  errors : List ParseError

namespace Parser

/-- A parser in front of the first token. -/
def ofTokens (tokens : List Token) : Parser := ⟨tokens, 0, []⟩

/-- What stands for the end of input behind the last token. -/
def stop (p : Parser) : Token := endOfTokens p.tokens

/-- All tokens from the next one on. -/
def rest (p : Parser) : List Token := p.tokens.drop p.index

variable {α : Type}

/-- One step of reading. -/
def step (p : Parser) (read : Parse α) : Except Halt α × Parser :=
  let r := read p.stop p.rest
  (r.result, ⟨p.tokens, p.tokens.length - r.rest.length, p.errors ++ r.errors⟩)

/-- A step of a reader that does not stop at errors; `default` is never needed then. -/
def stepD (p : Parser) (read : Parse α) (default : α) : α × Parser :=
  let (a, p) := p.step read
  (a.toOption.getD default, p)

/-- The next statement, if one is left and it has no fault. -/
def statement? (p : Parser) : Option Stmt × Parser := p.stepD Parse.nextStatement none

/-- An expression, if the next tokens start with one. -/
def expression? (p : Parser) : Option Expr × Parser := p.stepD (Parse.attempt Parse.expression) none

/-- The rest of the program. -/
def program (p : Parser) : Program × Parser := p.stepD Parse.program []

end Parser

/-- The program that a list of tokens stands for, and all errors found in it. -/
def parse (tokens : List Token) : Program × List ParseError :=
  let (program, p) := (Parser.ofTokens tokens).program
  (program, p.errors)

end Scriptlet
