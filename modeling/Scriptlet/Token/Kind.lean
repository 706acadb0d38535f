/-! The kinds of tokens: keywords, directives, symbols and the rest. -/
namespace Scriptlet

inductive Keyword where
  | letKw | mutKw | fnKw | ifKw | elseKw | whileKw | forKw | inKw | returnKw | importKw | exportKw
  | withKw | capabilitiesKw | capsuleKw | dslKw | fallbackKw | retryKw | contextKw | overKw | tagKw
  | didKw | evolvingKw | nilKw | andKw | orKw | notKw | observableKw | subscribeKw | emitKw
  | transitionKw | timelineKw | verifyKw | proofKw | hasProofKw
deriving DecidableEq, Repr

namespace Keyword

/-- The word as it stands in a source text. -/
def word : Keyword → String
  | letKw => "let" | mutKw => "mut" | fnKw => "fn" | ifKw => "if" | elseKw => "else"
  | whileKw => "while" | forKw => "for" | inKw => "in" | returnKw => "return"
  | importKw => "import" | exportKw => "export" | withKw => "with"
  | capabilitiesKw => "capabilities" | capsuleKw => "capsule" | dslKw => "dsl"
  | fallbackKw => "fallback" | retryKw => "retry" | contextKw => "context" | overKw => "over"
  | tagKw => "tag" | didKw => "did" | evolvingKw => "evolving" | nilKw => "nil" | andKw => "and"
  | orKw => "or" | notKw => "not" | observableKw => "observable" | subscribeKw => "subscribe"
  | emitKw => "emit" | transitionKw => "transition" | timelineKw => "timeline"
  | verifyKw => "verify" | proofKw => "proof" | hasProofKw => "has_proof"

def all : List Keyword :=
  [letKw, mutKw, fnKw, ifKw, elseKw, whileKw, forKw, inKw, returnKw, importKw, exportKw, withKw,
   capabilitiesKw, capsuleKw, dslKw, fallbackKw, retryKw, contextKw, overKw, tagKw, didKw,
   evolvingKw, nilKw, andKw, orKw, notKw, observableKw, subscribeKw, emitKw, transitionKw,
   timelineKw, verifyKw, proofKw, hasProofKw]

def ofWord? (w : String) : Option Keyword := all.find? (·.word == w)

/-- The name in token lists: the word in capitals. -/
def name : Keyword → String
  | tagKw => "TAG_KEYWORD"
  | k => k.word.toUpper

/-- The name in dumps. -/
def dumpName : Keyword → String
  | hasProofKw => "KeywordHasProof"
  | k => "Keyword" ++ k.word.capitalize

end Keyword

/-- Execution models that a source text can ask for. -/
inductive Directive where
  | sync | async | parallel | reactive | temporal
deriving DecidableEq, Repr

namespace Directive

def word : Directive → String
  | sync => "sync" | async => "async" | parallel => "parallel" | reactive => "reactive"
  | temporal => "temporal"

def all : List Directive := [sync, async, parallel, reactive, temporal]

/-- The directive written as `@` and the given word. -/
def ofWord? (w : String) : Option Directive := all.find? (·.word == w)

def name (a : Directive) : String := "AT_" ++ a.word.toUpper

def dumpName (a : Directive) : String := "At" ++ a.word.capitalize

end Directive

/-- Operators, punctuation and brackets. -/
inductive Symbol where
  | plus | minus | star | slash | percent | assign | plusAssign | minusAssign | arrow | fatArrow
  | bang | equal | notEqual | less | lessEqual | greater | greaterEqual | semicolon | comma | dot
  | colon | doubleColon | question | leftParen | rightParen | leftBrace | rightBrace | leftBracket
  | rightBracket
deriving DecidableEq, Repr

namespace Symbol

/-- The characters of a symbol. -/
def chars : Symbol → List Char
  | plus => ['+'] | minus => ['-'] | star => ['*'] | slash => ['/'] | percent => ['%']
  | assign => ['='] | plusAssign => ['+', '='] | minusAssign => ['-', '='] | arrow => ['-', '>']
  | fatArrow => ['=', '>'] | bang => ['!'] | equal => ['=', '='] | notEqual => ['!', '=']
  | less => ['<'] | lessEqual => ['<', '='] | greater => ['>'] | greaterEqual => ['>', '=']
  | semicolon => [';'] | comma => [','] | dot => ['.'] | colon => [':']
  | doubleColon => [':', ':'] | question => ['?'] | leftParen => ['('] | rightParen => [')']
  | leftBrace => ['{'] | rightBrace => ['}'] | leftBracket => ['['] | rightBracket => [']']

/-- All symbols, those of two characters first. -/
def all : List Symbol :=
  [plusAssign, minusAssign, arrow, fatArrow, equal, notEqual, lessEqual, greaterEqual, doubleColon,
   plus, minus, star, slash, percent, assign, bang, less, greater, semicolon, comma, dot, colon,
   question, leftParen, rightParen, leftBrace, rightBrace, leftBracket, rightBracket]

/-- The longest symbol at the start of a text. -/
def ofStart? (cs : List Char) : Option Symbol := all.find? (·.chars.isPrefixOf cs)

/-- The name in token lists. -/
def name : Symbol → String
  | plus => "PLUS" | minus => "MINUS" | star => "MULTIPLY" | slash => "DIVIDE"
  | percent => "MODULO" | assign => "ASSIGN" | plusAssign => "PLUS_ASSIGN"
  | minusAssign => "MINUS_ASSIGN" | arrow => "ARROW" | fatArrow => "FAT_ARROW" | bang => "NOT"
  | equal => "EQUAL" | notEqual => "NOT_EQUAL" | less => "LESS" | lessEqual => "LESS_EQUAL"
  | greater => "GREATER" | greaterEqual => "GREATER_EQUAL" | semicolon => "SEMICOLON"
  | comma => "COMMA" | dot => "DOT" | colon => "COLON" | doubleColon => "DOUBLE_COLON"
  | question => "QUESTION" | leftParen => "LEFT_PAREN" | rightParen => "RIGHT_PAREN"
  | leftBrace => "LEFT_BRACE" | rightBrace => "RIGHT_BRACE" | leftBracket => "LEFT_BRACKET"
  | rightBracket => "RIGHT_BRACKET"

/-- The name in dumps. -/
def dumpName : Symbol → String
  | plus => "Plus" | minus => "Minus" | star => "Star" | slash => "Slash" | percent => "Percent"
  | assign => "Assign" | plusAssign => "PlusEqual" | minusAssign => "MinusEqual"
  | arrow => "Arrow" | fatArrow => "FatArrow" | bang => "Bang" | equal => "EqualEqual"
  | notEqual => "BangEqual" | less => "LessThan" | lessEqual => "LessThanEqual"
  | greater => "GreaterThan" | greaterEqual => "GreaterThanEqual" | semicolon => "Semicolon"
  | comma => "Comma" | dot => "Dot" | colon => "Colon" | doubleColon => "DoubleColon"
  | question => "Question" | leftParen => "LeftParenthesis" | rightParen => "RightParenthesis"
  | leftBrace => "LeftBrace" | rightBrace => "RightBrace" | leftBracket => "LeftBracket"
  | rightBracket => "RightBracket"

end Symbol

inductive TokenKind where
  | integer | float | string | boolean | identifier
  | keyword (k : Keyword)
  | directive (a : Directive)
  | symbol (s : Symbol)
  /-- A `#` that starts no tag. -/
  | hash
  /-- A `#` with a name. -/
  | tag
  | newline | comment | error | eof
deriving DecidableEq, Repr

namespace TokenKind

/-- The name in token lists. -/
def name : TokenKind → String
  | integer => "INTEGER" | float => "FLOAT" | string => "STRING" | boolean => "BOOLEAN"
  | identifier => "IDENTIFIER"
  | keyword k => k.name
  | directive a => a.name
  | symbol s => s.name
  | hash => "HASH" | tag => "TAG" | newline => "NEWLINE" | comment => "COMMENT" | error => "ERROR"
  | eof => "EOF"

/-- The name in dumps. -/
def dumpName : TokenKind → String
  | integer => "Integer" | float => "Float" | string => "String" | boolean => "Boolean"
  | identifier => "Ident"
  | keyword k => k.dumpName
  | directive a => a.dumpName
  | symbol s => s.dumpName
  | hash => "Hash" | tag => "Tag" | newline => "Newline" | comment => "Comment" | error => "Error"
  | eof => "Eof"

/-- The keywords at which a new statement can be expected after an error. -/
def startsDeclaration : TokenKind → Bool
  | keyword .fnKw | keyword .letKw | keyword .ifKw | keyword .whileKw | keyword .forKw
  | keyword .returnKw => true
  | _ => false

end TokenKind

end Scriptlet
