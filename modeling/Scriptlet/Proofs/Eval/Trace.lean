import Scriptlet.Proofs.Eval.Outcome

/-! The operators that a run applies, one after the other. -/
namespace Scriptlet

/-- An operator about to be applied: its node, the values of its operands, and the machine at that
moment. -/
structure Application where
  node : Expr
  operands : List Value
  machine : Machine

/-- The applications that a computation makes on a machine. -/
abbrev Trace := Machine → List Application

namespace Exec

variable {α β : Type}

/-- The trace of a sequence. Its second part is reached only if the first one succeeds. -/
def traceThen (x : Exec α) (first : Trace) (second : α → Trace) : Trace := fun m =>
  first m ++ match x m with
    | some (.ok a, m') => second a m'
    | _ => []

/-- The trace of a loop with fewer than `limit` repetitions. -/
def traceLoop (condition : Eval Bool) (body : Exec Unit) (test inside : Trace) : Nat → Trace
  | 0 => fun _ => []
  | limit + 1 => traceThen (ofEval condition) test fun
    | true => traceThen body inside fun _ => traceLoop condition body test inside limit
    | false => fun _ => []

end Exec

mutual

/-- The operators that are applied when the expression is evaluated. -/
def Expr.trace (w : Arithmetic) : Expr → Trace
  | .binary p op l r =>
    Exec.traceThen (Exec.ofEval (l.eval w)) (l.trace w) fun a =>
      Exec.traceThen (Exec.ofEval (r.eval w)) (r.trace w) fun b m =>
        [⟨.binary p op l r, [a, b], m⟩]
  | .assign _ t e => if t.name?.isSome then e.trace w else fun _ => []
  | .unary p op e =>
    Exec.traceThen (Exec.ofEval (e.eval w)) (e.trace w) fun a m => [⟨.unary p op e, [a], m⟩]
  | .call _ f args =>
    if (f.name?.bind Builtin.named?).isSome then Expr.traceAll w args else fun _ => []
  | _ => fun _ => []

def Expr.traceAll (w : Arithmetic) : List Expr → Trace
  | [] => fun _ => []
  | e :: es => Exec.traceThen (Exec.ofEval (e.eval w)) (e.trace w) fun _ => Expr.traceAll w es

end

def Declaration.trace (w : Arithmetic) (d : Declaration) : Trace :=
  match d.initial with
  | some e => e.trace w
  | none => fun _ => []

mutual

/-- The operators that are applied when the statement runs. -/
def Stmt.trace (w : Arithmetic) (limit : Nat) : Stmt → Trace
  | .expr _ e => e.trace w
  | .declare _ d => d.trace w
  | .block _ body => fun m => Stmt.traceAll w limit body { m with scopes := m.scopes.enter }
  | .ifThen _ c s =>
    Exec.traceThen (Exec.ofEval (c.test w)) (c.trace w) fun
      | true => s.trace w limit
      | false => fun _ => []
  | .ifElse _ c s f =>
    Exec.traceThen (Exec.ofEval (c.test w)) (c.trace w) fun
      | true => s.trace w limit
      | false => f.trace w limit
  | .whileLoop _ c b =>
    Exec.traceLoop (c.test w) (b.exec w limit) (c.trace w) (b.trace w limit) limit
  | _ => fun _ => []

def Stmt.traceAll (w : Arithmetic) (limit : Nat) : List Stmt → Trace
  | [] => fun _ => []
  | s :: ss => Exec.traceThen (s.exec w limit) (s.trace w limit) fun _ => Stmt.traceAll w limit ss

end

namespace Exec

variable {α : Type}

theorem traceThen_nil (x : Exec α) (t : Trace) : traceThen x t (fun _ _ => []) = t := by
  funext m
  unfold traceThen
  split <;> simp

end Exec

end Scriptlet
