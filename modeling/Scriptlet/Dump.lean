import Scriptlet.Text.Escape
import Scriptlet.Span

/-! Structured dumps of data, on one line or expanded with one item a line. -/
namespace Scriptlet

/-- A value to be dumped. -/
inductive Dump where
  | atom (text : String)
  | labelled (label : String) (value : Dump)
  /-- Items between brackets, with blanks inside the brackets on one line if `spaced`. -/
  | group (opening closing : String) (spaced : Bool) (items : List Dump)

namespace Dump

/-- A record with named fields. -/
def record (name : String) (fields : List (String × Dump)) : Dump :=
  group (name ++ " \x7b") "\x7d" true (fields.map fun (label, value) => labelled label value)

/-- A constructor applied to arguments. -/
def apply (name : String) (arguments : List Dump) : Dump :=
  group (name ++ "(") ")" false arguments

def list (items : List Dump) : Dump := group "[" "]" false items

/-- An optional value. -/
def option : Option Dump → Dump
  | none => atom "None"
  | some d => apply "Some" [d]

def nat (n : Nat) : Dump := atom (toString n)

def string (s : String) : Dump := atom (Text.quoted s)

def bool (b : Bool) : Dump := atom (if b then "true" else "false")

mutual

/-- The dump on one line. -/
def inline : Dump → String
  | atom text => text
  | labelled label value => label ++ ": " ++ value.inline
  | group opening closing spaced items =>
    let blank := if spaced then " " else ""
    opening ++ blank ++ String.intercalate ", " (inlineAll items) ++ blank ++ closing

def inlineAll : List Dump → List String
  | [] => []
  | d :: ds => d.inline :: inlineAll ds

end

mutual

/-- The dump with every item on a line of its own, four blanks deeper than its group. -/
def expanded (indent : Nat) : Dump → String
  | atom text => text
  | labelled label value => label ++ ": " ++ value.expanded indent
  | group opening closing _ items =>
    if items.isEmpty then opening ++ closing
    else opening ++ "\n" ++ expandedAll (indent + 4) items ++ "".pushn ' ' indent ++ closing

def expandedAll (indent : Nat) : List Dump → String
  | [] => ""
  | d :: ds => "".pushn ' ' indent ++ d.expanded indent ++ ",\n" ++ expandedAll indent ds

end

end Dump

/-- Spans in dumps. -/
def Span.dump (s : Span) : Dump := .record "Span" [("start", .nat s.start), ("length", .nat s.length)]

end Scriptlet
