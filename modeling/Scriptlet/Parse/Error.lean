import Scriptlet.Token.Basic
import Scriptlet.Report.Basic

/-! What can be wrong with a list of tokens. -/
namespace Scriptlet

/-- A place in the grammar where one kind of token has to stand. -/
inductive Expectation where
  | variableName | declarationEnd | functionName | openParameters | parameterName | parameterColon
  | closeParameters | loopVariable | loopIn | rangeDot | returnEnd | openBlock | closeBlock
  | expressionEnd | closeArguments | closeIndex | propertyName | contextIf | contextName
  | contextEquals | closeParen
deriving DecidableEq, Repr

namespace Expectation

/-- The kind of token that has to stand there. -/
def kind : Expectation → TokenKind
  | variableName | functionName | parameterName | loopVariable | propertyName | contextName =>
    .identifier
  | declarationEnd | returnEnd | expressionEnd => .symbol .semicolon
  | openParameters => .symbol .leftParen
  | closeParameters | closeArguments | closeParen => .symbol .rightParen
  | parameterColon => .symbol .colon
  | loopIn => .keyword .inKw
  | rangeDot => .symbol .dot
  | openBlock => .symbol .leftBrace
  | closeBlock => .symbol .rightBrace
  | closeIndex => .symbol .rightBracket
  | contextIf => .keyword .ifKw
  | contextEquals => .symbol .equal

def message : Expectation → String
  | variableName => "Expect variable name"
  | declarationEnd => "Expect ';' after variable declaration"
  | functionName => "Expect function name"
  | openParameters => "Expect '(' after function name"
  | parameterName => "Expect parameter name"
  | parameterColon => "Expect ':' after parameter name"
  | closeParameters => "Expect ')' after parameters"
  | loopVariable => "Expect loop variable name"
  | loopIn => "Expect 'in' after loop variable"
  | rangeDot => "Expect '..' in range"
  | returnEnd => "Expect ';' after return value"
  | openBlock => "Expect '\x7b'"
  | closeBlock => "Expect '\x7d'"
  | expressionEnd => "Expect ';' after expression"
  | closeArguments => "Expect ')' after arguments"
  | closeIndex => "Expect ']' after array index"
  | propertyName => "Expect property name after '.'"
  | contextIf => "Expected 'if' for context conditional"
  | contextName => "Expected 'context' identifier"
  | contextEquals => "Expected '==' in context conditional"
  | closeParen => "Expect ')' after expression"

end Expectation

inductive ParseFault where
  | unexpectedToken (expected : Expectation)
  | expectedExpression
  | invalidAssignmentTarget
  | expectedTypeName
  | expectedContextString
deriving DecidableEq, Repr

namespace ParseFault

def message : ParseFault → String
  | unexpectedToken x => x.message
  | expectedExpression => "Expect expression"
  | invalidAssignmentTarget => "Invalid assignment target"
  | expectedTypeName => "Expected type name"
  | expectedContextString => "Expected context string (\"dev\", \"prod\", or \"test\")"

/-- The note that a report puts beside the faulty token. -/
def label : ParseFault → String
  | unexpectedToken x => "Expected " ++ x.kind.name ++ " here"
  | expectedExpression => "Not the start of an expression"
  | invalidAssignmentTarget => "Cannot assign to this"
  | expectedTypeName => "Expected an identifier"
  | expectedContextString => "Expected a string literal"

def dump : ParseFault → Dump
  | unexpectedToken x =>
    .record "UnexpectedToken" [("expected", .atom x.kind.dumpName), ("message", .string x.message)]
  | expectedExpression => .atom "ExpectedExpression"
  | invalidAssignmentTarget => .atom "InvalidAssignmentTarget"
  | expectedTypeName => .atom "ExpectedTypeName"
  | expectedContextString => .atom "ExpectedContextString"

end ParseFault

/-- A fault with the place and the text of the token it was found at. -/
structure ParseError where
  fault : ParseFault
  span : Span
  position : Position
  lexeme : String
deriving DecidableEq

namespace ParseError

def atToken (fault : ParseFault) (t : Token) : ParseError := ⟨fault, t.span, t.position, t.lexeme⟩

def text (e : ParseError) : String :=
  e.position.text ++ ": " ++ e.fault.message ++ " (got '" ++ e.lexeme ++ "')"

def dump (e : ParseError) : Dump :=
  .record "ParserError"
    [("kind", e.fault.dump), ("span", e.span.dump), ("line", .nat e.position.line),
     ("column", .nat e.position.column), ("lexeme", .string e.lexeme)]

def report (e : ParseError) (path source : String) : Report :=
  { path, source, span := e.span, message := e.fault.message, label := e.fault.label }

end ParseError

end Scriptlet
