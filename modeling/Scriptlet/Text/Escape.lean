import Scriptlet.Text.Printable
import Scriptlet.Text.Marks

/-! Escaped text: quotes, backslashes and characters that cannot be shown. -/
namespace Scriptlet.Text

/-- The code point of a character between braces, in lower-case hexadecimal without leading
zeros. -/
def codeEscape (c : Char) : List Char :=
  ['\\', 'u', '\x7b'] ++ Nat.toDigits 16 c.toNat ++ ['\x7d']

/-- One character of an escaped text. `quotes` are the quotes to be escaped, and `mark` says whether
a combining mark is written by its code point. -/
def escapeChar (quotes : List Char) (mark : Bool) (c : Char) : List Char :=
  if c == Char.ofNat 0 then ['\\', '0']
  else if c == '\t' then ['\\', 't']
  else if c == '\r' then ['\\', 'r']
  else if c == '\n' then ['\\', 'n']
  else if c == '\\' || quotes.contains c then ['\\', c]
  else if (mark && isMark c) || !isPrintable c then codeEscape c
  else [c]

/-- A text between double quotes; single quotes stand as they are. -/
def quoted (s : String) : String :=
  String.ofList ('"' :: s.toList.flatMap (escapeChar ['"'] true) ++ ['"'])

/-- A character between single quotes; the double quote stands as it is. -/
def quotedChar (c : Char) : String :=
  String.ofList ('\'' :: escapeChar ['\''] true c ++ ['\''])

/-- A text with both kinds of quotes escaped and none around it. A combining mark is written by its
code point only at the start, where it has nothing to combine with. -/
def escaped (s : String) : String :=
  match s.toList with
  | [] => ""
  | c :: cs =>
    String.ofList (escapeChar ['\'', '"'] true c ++ cs.flatMap (escapeChar ['\'', '"'] false))

end Scriptlet.Text
