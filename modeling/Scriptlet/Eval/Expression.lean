import Scriptlet.Value.Arithmetic
import Scriptlet.Eval.Scopes
import Scriptlet.Eval.Builtin

/-! Evaluating expressions. -/
namespace Scriptlet

/-- The state of a running program. -/
structure Machine where
  scopes : Scopes
  console : Console
deriving DecidableEq

/-- A machine without variables and with these lines to read. -/
def Machine.ofLines (lines : List String) : Machine := ⟨.empty, .ofLines lines⟩

/-- A computation that may fail. Its effects stay when it does. -/
abbrev Eval := ExceptT RuntimeError (StateM Machine)

/-- A result of an operation that belongs to the node at `p`. -/
def Eval.at {α : Type} (p : Position) : Except Fault α → Eval α
  | .ok a => pure a
  | .error fault => throw ⟨fault, p⟩

/-- The value of a variable. -/
def Eval.lookup (p : Position) (id : String) : Eval Value := do
  match (← get).scopes.get? id with
  | some v => return v
  | none => throw ⟨.undefinedVariable id, p⟩

/-- Gives a new value to a variable. The assignment has that value too. -/
def Eval.assign (p : Position) (id : String) (v : Value) : Eval Value := do
  let m ← get
  let scopes ← Eval.at p (m.scopes.assign id v)
  set { m with scopes }
  return v

def Eval.builtin (p : Position) (b : Builtin) (arguments : List Value) : Eval Value := do
  let m ← get
  let r := b.call arguments m.console
  set { m with console := r.2 }
  Eval.at p r.1

mutual

/-- The value of an expression. Both operands of every binary operator are evaluated, from left to
right. What is wrong with a target or a callee shows before anything inside is evaluated. -/
def Expr.eval (w : Arithmetic) : Expr → Eval Value
  | .literal _ v => return v
  | .name p id => Eval.lookup p id
  | .binary p op l r => do
    let a ← l.eval w
    let b ← r.eval w
    Eval.at p (w.binary op a b)
  | .assign p t e =>
    match t.name? with
    | some id => do Eval.assign p id (← e.eval w)
    | none => throw ⟨.invalidAssignmentTarget, p⟩
  | .unary p op e => do Eval.at p (w.unary op (← e.eval w))
  | .call p f args =>
    match f.name? with
    | some id =>
      match Builtin.named? id with
      | some b => do Eval.builtin p b (← Expr.evalAll w args)
      | none => throw ⟨.undefinedFunction id, p⟩
    | none => throw ⟨.complexCallee, p⟩
  | .index p _ _ => throw ⟨.notImplemented .arrayAccess, p⟩
  | .member p _ _ => throw ⟨.notImplemented .memberAccess, p⟩
  | .context p _ _ => throw ⟨.notImplemented .contextConditionals, p⟩

/-- The values of expressions, from left to right. -/
def Expr.evalAll (w : Arithmetic) : List Expr → Eval (List Value)
  | [] => return []
  | e :: es => do
    let v ← e.eval w
    return v :: (← Expr.evalAll w es)

end

end Scriptlet
