import Scriptlet.Token.Basic

/-! The lexical grammar: the first lexeme of a text, regardless of where the text stands. -/
namespace Scriptlet

/-- What a piece of text is read as. -/
structure Reading where
  kind : TokenKind
  literal : Option Value
  faults : List LexFault
deriving DecidableEq

namespace Reading

def plain (kind : TokenKind) : Reading := ⟨kind, none, []⟩

def integer (n : Nat) : Reading := ⟨.integer, some (.integer n), []⟩

def float (x : Float) : Reading := ⟨.float, some (.float x), []⟩

def bool (b : Bool) : Reading := ⟨.boolean, some (.bool b), []⟩

def faulty (fault : LexFault) : Reading := ⟨.error, none, [fault]⟩

end Reading

/-- A piece of text, what it is read as, and the text behind it. -/
structure Lexeme where
  reading : Reading
  text : List Char
  rest : List Char
deriving DecidableEq

namespace Scan

def isBlank (c : Char) : Bool := c == ' ' || c == '\t' || c == '\r'

def isWordStart (c : Char) : Bool := c.isAlpha || c == '_'

def isWordChar (c : Char) : Bool := c.isAlpha || c.isDigit || c == '_'

def isTagChar (c : Char) : Bool := isWordChar c || c == ':'

/-- The longest start of a text in a class of characters, read as `f` says. -/
def run (p : Char → Bool) (f : List Char → Reading) (cs : List Char) : Lexeme :=
  ⟨f (cs.takeWhile p), cs.takeWhile p, cs.dropWhile p⟩

/-- A lexeme with one more character in front. -/
def behind (c : Char) (l : Lexeme) : Lexeme := ⟨l.reading, c :: l.text, l.rest⟩

/-- One unit between the quotes of a string: a character, or a backslash and a character. -/
inductive StringUnit where
  | plain (c : Char)
  | escape (c : Char)
deriving DecidableEq

namespace StringUnit

/-- The characters of the unit. -/
def chars : StringUnit → List Char
  | plain c => [c]
  | escape c => ['\\', c]

/-- The character that an escape stands for, if it is a known one. -/
def escapeValue? : Char → Option Char
  | 'n' => some '\n'
  | 't' => some '\t'
  | 'r' => some '\r'
  | '\\' => some '\\'
  | '"' => some '"'
  | _ => none

/-- The character that the unit stands for. An unknown escape stands for its second character. -/
def value : StringUnit → Char
  | plain c => c
  | escape c => (escapeValue? c).getD c

def fault? : StringUnit → Option LexFault
  | plain _ => none
  | escape c => if (escapeValue? c).isSome then none else some (.unknownEscape c)

end StringUnit

/-- The units up to the closing quote, and the text behind it. -/
def stringBody : List Char → Option (List StringUnit × List Char)
  | [] => none
  | '"' :: cs => some ([], cs)
  | ['\\'] => none
  | '\\' :: c :: cs => (stringBody cs).map fun (us, rest) => (.escape c :: us, rest)
  | c :: cs => (stringBody cs).map fun (us, rest) => (.plain c :: us, rest)

def readString (us : List StringUnit) : Reading :=
  ⟨.string, some (.string (String.ofList (us.map StringUnit.value))), us.filterMap StringUnit.fault?⟩

/-- The string whose opening quote stands before `cs`. -/
def string (cs : List Char) : Lexeme :=
  match stringBody cs with
  | some (us, rest) => ⟨readString us, '"' :: us.flatMap StringUnit.chars ++ ['"'], rest⟩
  | none => ⟨.faulty .unclosedString, '"' :: cs, []⟩

/-- The greatest integer literal, `2 ^ 63 - 1`. -/
def maxInteger : Nat := 9223372036854775807

def readInteger (digits : List Char) : Reading :=
  if Nat.ofDigitChars 10 digits 0 ≤ maxInteger then .integer (Nat.ofDigitChars 10 digits 0)
  else .faulty .integerOutOfRange

/-- The float nearest to the decimal number with these digits before and behind the point. -/
def readFloat (whole fraction : List Char) : Reading :=
  .float (.ofScientific (Nat.ofDigitChars 10 (whole ++ fraction) 0) true fraction.length)

/-- Digits, and a fraction if a point with a digit behind it follows. -/
def number (cs : List Char) : Lexeme :=
  match cs.dropWhile Char.isDigit with
  | '.' :: d :: ds =>
    if d.isDigit then
      ⟨readFloat (cs.takeWhile Char.isDigit) ((d :: ds).takeWhile Char.isDigit),
        cs.takeWhile Char.isDigit ++ '.' :: (d :: ds).takeWhile Char.isDigit,
        (d :: ds).dropWhile Char.isDigit⟩
    else run Char.isDigit readInteger cs
  | _ => run Char.isDigit readInteger cs

/-- A keyword, a truth value or an identifier. -/
def readWord (w : List Char) : Reading :=
  if String.ofList w = "true" then .bool true
  else if String.ofList w = "false" then .bool false
  else match Keyword.ofWord? (String.ofList w) with
    | some k => .plain (.keyword k)
    | none => .plain .identifier

/-- A directive, from the word behind its `@`. -/
def readDirective (w : List Char) : Reading :=
  match Directive.ofWord? (String.ofList w) with
  | some a => .plain (.directive a)
  | none => .faulty (.unknownDirective (String.ofList ('@' :: w)))

/-- The tag or hash sign whose `#` stands before `cs`. -/
def tag (cs : List Char) : Lexeme :=
  if cs.head?.any isWordStart then behind '#' (run isTagChar (fun _ => .plain .tag) cs)
  else ⟨.plain .hash, ['#'], cs⟩

/-- A block comment behind its opening: what belongs to it, and the rest. It runs to the first
closing mark, or to the end of the text. -/
def blockComment : List Char → Lexeme
  | [] => ⟨.plain .comment, [], []⟩
  | '*' :: '/' :: cs => ⟨.plain .comment, ['*', '/'], cs⟩
  | c :: cs => behind c (blockComment cs)

/-- A symbol, or a character that starts nothing. -/
def symbol (c : Char) (cs : List Char) : Lexeme :=
  match Symbol.ofStart? (c :: cs) with
  | some s => ⟨.plain (.symbol s), s.chars, (c :: cs).drop s.chars.length⟩
  | none => ⟨.faulty (.unrecognized c), [c], cs⟩

/-- The lexeme at the start of a text that does not begin with a blank. -/
def lexeme : List Char → Lexeme
  | [] => ⟨.plain .eof, [], []⟩
  | '\n' :: cs => ⟨.plain .newline, ['\n'], cs⟩
  | '"' :: cs => string cs
  | '@' :: cs => behind '@' (run isWordChar readDirective cs)
  | '#' :: cs => tag cs
  | '/' :: '/' :: cs =>
    behind '/' (behind '/' (run (· ≠ '\n') (fun _ => .plain .comment) cs))
  | '/' :: '*' :: cs => behind '/' (behind '*' (blockComment cs))
  | c :: cs =>
    if c.isDigit then number (c :: cs)
    else if isWordStart c then run isWordChar readWord (c :: cs)
    else symbol c cs

end Scan

end Scriptlet
