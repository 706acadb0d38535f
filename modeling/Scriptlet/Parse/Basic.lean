import Scriptlet.Parse.Error

/-! Reading from a list of tokens: results, recorded errors, and the basic steps. -/
namespace Scriptlet

/-- Why reading stops without a result: at a fault in the tokens, or because a bound on the number
of steps is used up. -/
inductive Halt where
  | fault (e : ParseError)
  | exhausted

/-- What reading gives: a result or the reason why there is none, the errors recorded on the way,
and the tokens that are left. -/
structure Reply (α : Type) where
  result : Except Halt α
  errors : List ParseError
  rest : List Token

/-- A reader of tokens. The list holds all tokens from the next one on, whether an end of input
stands among them or not; the first argument stands for what is behind the last one. -/
def Parse (α : Type) : Type := Token → List Token → Reply α

namespace Parse

variable {α β : Type}

instance : Monad Parse where
  pure a := fun _ ts => ⟨.ok a, [], ts⟩
  bind x f := fun stop ts =>
    match x stop ts with
    | ⟨.error h, errors, rest⟩ => ⟨.error h, errors, rest⟩
    | ⟨.ok a, errors, rest⟩ =>
      let r := f a stop rest
      ⟨r.result, errors ++ r.errors, r.rest⟩

/-- Stops because a bound is used up. -/
def exhausted : Parse α := fun _ ts => ⟨.error .exhausted, [], ts⟩

/-- The next token, or what stands behind the last one. -/
def current : Parse Token := fun stop ts => ⟨.ok (ts.headD stop), [], ts⟩

/-- Whether a test of the tokens succeeds. -/
def looks (test : List Token → Bool) : Parse Bool := fun _ ts => ⟨.ok (test ts), [], ts⟩

/-- Whether the next token is of the given kind. -/
def check (k : TokenKind) : Parse Bool := looks fun ts => ts.head?.any (·.kind = k)

/-- Records an error at a token and goes on. -/
def reportAt (fault : ParseFault) (t : Token) : Parse Unit := fun _ ts =>
  ⟨.ok (), [.atToken fault t], ts⟩

/-- Records an error at the next token and goes on. -/
def report (fault : ParseFault) : Parse Unit := do reportAt fault (← current)

/-- Stops with an error at the next token. -/
def fail (fault : ParseFault) : Parse α := fun stop ts =>
  ⟨.error (.fault (.atToken fault (ts.headD stop))), [], ts⟩

/-- Takes the next token if `f` accepts it. -/
def take? (f : Token → Option β) : Parse (Option β) := fun _ ts =>
  match ts with
  | [] => ⟨.ok none, [], []⟩
  | t :: rest =>
    match f t with
    | none => ⟨.ok none, [], t :: rest⟩
    | some b => ⟨.ok (some b), [], rest⟩

/-- Skips a token, unless it is the end of input. -/
def advance : Parse Unit := do
  let _ ← take? fun t => if t.kind = .eof then none else some t

/-- Takes the next token if it is of the given kind. -/
def accept? (k : TokenKind) : Parse (Option Token) :=
  take? fun t => if t.kind = k then some t else none

/-- Takes the next token if it is of the given kind, and says whether it was. -/
def accept (k : TokenKind) : Parse Bool := do return (← accept? k).isSome

/-- Takes the next token if it is of the given kind. At another one the fault is recorded. -/
def require (k : TokenKind) (fault : ParseFault) : Parse (Option Token) := do
  match ← accept? k with
  | some t => return some t
  | none => report fault; return none

/-- Takes the expected token. If another one stands there, the error is recorded and that one is
given instead, without being taken. -/
def expect (x : Expectation) : Parse Token := do
  match ← require x.kind (.unexpectedToken x) with
  | some t => return t
  | none => current

def skipNewlines : Parse Unit := fun _ ts => ⟨.ok (), [], ts.dropWhile (·.kind = .newline)⟩

/-- No token is left, or an end of input is the next one. -/
def atEnd (ts : List Token) : Bool := ts.head?.all (·.kind = .eof)

/-- The tokens from which reading goes on after an error: at least one is dropped, up to and
including a semicolon or up to a token that starts a declaration. An end of input is not dropped. -/
def synchronize : List Token → List Token
  | [] => []
  | t :: ts =>
    if t.kind = .eof then t :: ts
    else if t.kind = .symbol .semicolon || ts.head?.any (·.kind.startsDeclaration) then ts
    else synchronize ts

/-- Records the error that stopped a reader, instead of stopping, and goes on from the tokens that
`resume` gives. -/
def catchFault (resume : List Token → List Token) (p : Parse α) : Parse (Option α) := fun stop ts =>
  match p stop ts with
  | ⟨.ok a, errors, rest⟩ => ⟨.ok (some a), errors, rest⟩
  | ⟨.error (.fault e), errors, rest⟩ => ⟨.ok none, errors ++ [e], resume rest⟩
  | ⟨.error .exhausted, errors, rest⟩ => ⟨.error .exhausted, errors, rest⟩

/-- Records the error that stopped a reader and goes on where it stopped. -/
def attempt (p : Parse α) : Parse (Option α) := catchFault id p

/-- Records the error that stopped a reader and goes on behind the faulty statement. -/
def recover (p : Parse α) : Parse (Option α) := catchFault synchronize p

/-- One or more items with commas between them, when less than `n` tokens are left. -/
def commaList (item : Parse α) : Nat → Parse (List α)
  | 0 => exhausted
  | n + 1 => do
    let a ← item
    if ← accept (.symbol .comma) then return a :: (← commaList item n) else return [a]

end Parse

end Scriptlet
