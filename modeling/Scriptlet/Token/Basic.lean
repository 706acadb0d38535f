import Scriptlet.Token.Kind
import Scriptlet.Value.Basic

/-! Tokens, and what can be wrong with them. -/
namespace Scriptlet

/-- A piece of source text with its kind and place. -/
structure Token where
  kind : TokenKind
  /-- The exact source text. -/
  lexeme : String
  /-- The value that the token denotes. -/
  literal : Option Value
  span : Span
  /-- Where the first character stands. -/
  position : Position
deriving DecidableEq

/-- Token dumps spell out line and column as two fields. -/
def Token.dump (t : Token) : Dump :=
  .record "Token"
    [("kind", .atom t.kind.dumpName), ("lexeme", .string t.lexeme),
     ("literal", .option (t.literal.map Value.dump)), ("span", t.span.dump),
     ("line", .nat t.position.line), ("column", .nat t.position.column)]

/-- What is wrong with a piece of source text. -/
inductive LexFault where
  | unrecognized (c : Char)
  | unclosedString
  | unknownEscape (c : Char)
  | unknownDirective (name : String)
  | integerOutOfRange
deriving DecidableEq

namespace LexFault

def message : LexFault → String
  | unrecognized c => "Unexpected character: " ++ String.singleton c
  | unclosedString => "Unterminated string"
  | unknownEscape c => "Unknown escape sequence: \\" ++ String.singleton c
  | unknownDirective name => "Unknown annotation: " ++ name
  | integerOutOfRange => "Integer literal out of range"

/-- The note that a report puts beside the faulty text. -/
def label : LexFault → String
  | unrecognized _ => "Not a valid token"
  | unclosedString => "String starts here"
  | unknownEscape _ => "In this string"
  | unknownDirective _ => "Not a known annotation"
  | integerOutOfRange => "Does not fit in 64 bits"

def dump : LexFault → Dump
  | unrecognized c => .apply "Unrecognized" [.atom (Text.quotedChar c)]
  | unclosedString => .atom "UnclosedString"
  | unknownEscape c => .apply "UnknownEscape" [.atom (Text.quotedChar c)]
  | unknownDirective name => .apply "UnknownAnnotation" [.string name]
  | integerOutOfRange => .atom "IntegerOutOfRange"

end LexFault

/-- A fault at its place, which is that of the token it was found in. -/
structure LexError where
  fault : LexFault
  span : Span
  position : Position
deriving DecidableEq

namespace LexError

def text (e : LexError) : String := e.position.text ++ ": " ++ e.fault.message

def dump (e : LexError) : Dump :=
  .record "LexicalError"
    [("kind", e.fault.dump), ("span", e.span.dump), ("line", .nat e.position.line),
     ("column", .nat e.position.column)]

end LexError

end Scriptlet
