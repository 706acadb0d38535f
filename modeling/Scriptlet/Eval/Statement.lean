import Scriptlet.Eval.Expression

/-! Running statements. Loops are given a limit of iterations, so that running is total. -/
namespace Scriptlet

/-- A computation that may fail, or that has no result because a loop reached its limit. -/
abbrev Exec := ExceptT RuntimeError (StateT Machine Option)

namespace Exec

/-- Expressions contain no loops. -/
def ofEval {α : Type} (x : Eval α) : Exec α := fun m => some (x m)

/-- A computation in a scope of its own, which is left also when the computation fails. -/
def inScope (x : Exec Unit) : Exec Unit := fun m =>
  (x { m with scopes := m.scopes.enter }).map fun (r, m) => (r, { m with scopes := m.scopes.exit })

/-- Repeats `body` as long as `condition` holds, with fewer than `limit` repetitions. -/
def loop (condition : Eval Bool) (body : Exec Unit) :
    Nat → Machine → Option (Except RuntimeError Unit × Machine)
  | 0, _ => none
  | limit + 1, m =>
    match condition m with
    | (.error e, m) => some (.error e, m)
    | (.ok false, m) => some (.ok (), m)
    | (.ok true, m) =>
      match body m with
      | some (.ok (), m) => loop condition body limit m
      | r => r

end Exec

/-- Whether an expression counts as true. -/
def Expr.test (w : Arithmetic) (e : Expr) : Eval Bool := do return (← e.eval w).isTruthy

/-- The value that a declaration gives to its variable; without an initial value it is zero. -/
def Declaration.value (w : Arithmetic) (d : Declaration) : Eval Value :=
  match d.initial with
  | some e => e.eval w
  | none => return .integer 0

/-- Tells that a function was read. Its name is not bound, and its body never runs. -/
def Machine.announce (m : Machine) (name : String) : Machine :=
  let line := "Function '" ++ name ++ "' defined (not yet executable)"
  { m with console := m.console.writeLine line }

mutual

/-- Runs a statement. Only blocks open a scope. -/
def Stmt.exec (w : Arithmetic) (limit : Nat) : Stmt → Exec Unit
  | .expr _ e => do let _ ← Exec.ofEval (e.eval w)
  | .declare _ d => do
    let v ← Exec.ofEval (d.value w)
    modify fun m => { m with scopes := m.scopes.declare d.name v }
  | .block _ body => Exec.inScope (Stmt.execAll w limit body)
  | .function _ s _ => modify (·.announce s.name)
  | .ret p _ => throw ⟨.notImplemented .returnStatements, p⟩
  | .ifThen _ c s => do if ← Exec.ofEval (c.test w) then s.exec w limit
  | .ifElse _ c s f => do if ← Exec.ofEval (c.test w) then s.exec w limit else f.exec w limit
  | .whileLoop _ c b => Exec.loop (c.test w) (b.exec w limit) limit
  | .forRange p _ _ _ _ => throw ⟨.notImplemented .forLoops, p⟩

/-- Runs statements one after the other, up to the first failure. -/
def Stmt.execAll (w : Arithmetic) (limit : Nat) : List Stmt → Exec Unit
  | [] => return ()
  | s :: ss => do
    s.exec w limit
    Stmt.execAll w limit ss

end

/-- Runs a program on a machine. There is no result if a loop reached the limit. -/
def Program.run (limit : Nat) (p : Program) (m : Machine) :
    Option (Except RuntimeError Unit × Machine) :=
  Stmt.execAll .word limit p m

end Scriptlet
