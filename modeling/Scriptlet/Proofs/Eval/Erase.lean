import Scriptlet.Proofs.Eval.Outcome
import Scriptlet.Proofs.Tree.Erase

/-! Positions do not steer evaluation: they only turn up in errors. -/
namespace Scriptlet

variable {α β : Type}

/-- The error without its position. -/
def RuntimeError.erase (e : RuntimeError) : RuntimeError := { e with position := default }

namespace Eval

/-- The computation whose error has no position. -/
def erase (x : Eval α) : Eval α := fun m => ((x m).1.mapError RuntimeError.erase, (x m).2)

theorem erase_pure (a : α) : erase (pure a) = pure a := rfl

theorem erase_throw (e : RuntimeError) : erase (throw e : Eval α) = throw e.erase := rfl

theorem erase_bind (x : Eval α) (f : α → Eval β) :
    erase (x >>= f) = x.erase >>= fun a => (f a).erase := by
  funext m
  rw [bind_apply, erase, erase, bind_apply]
  rcases x m with ⟨e | a, m'⟩ <;> rfl

theorem erase_at (p : Position) (r : Except Fault α) : erase (Eval.at p r) = Eval.at default r := by
  cases r <;> rfl

theorem erase_lookup (p : Position) (id : String) :
    erase (Eval.lookup p id) = Eval.lookup default id := by
  funext m
  rw [erase, lookup_apply, lookup_apply]
  cases m.scopes.get? id <;> rfl

theorem erase_assign (p : Position) (id : String) (v : Value) :
    erase (Eval.assign p id v) = Eval.assign default id v := by
  funext m
  rw [erase, assign_apply, assign_apply]
  cases m.scopes.assign id v <;> rfl

theorem erase_builtin (p : Position) (b : Builtin) (vs : List Value) :
    erase (Eval.builtin p b vs) = Eval.builtin default b vs := by
  funext m
  rw [erase, builtin_apply, builtin_apply]
  cases (b.call vs m.console).1 <;> rfl

end Eval

open Eval in
mutual

/-- An expression without positions evaluates as the expression does, but for the position of an
error. -/
theorem Expr.eval_erase (w : Arithmetic) : ∀ e : Expr, e.erase.eval w = Eval.erase (e.eval w)
  | .literal _ v => by rw [Expr.erase, Expr.eval, Expr.eval, erase_pure]
  | .name p id => by rw [Expr.erase, Expr.eval, Expr.eval, erase_lookup]
  | .binary p op l r => by
    simp only [Expr.erase, Expr.eval, erase_bind, erase_at, l.eval_erase w, r.eval_erase w]
  | .assign p t e => by
    rw [Expr.erase, Expr.eval, Expr.eval, Expr.name?_erase]
    cases t.name? with
    | none => rfl
    | some id => simp only [erase_bind, erase_assign, e.eval_erase w]
  | .unary p op e => by
    simp only [Expr.erase, Expr.eval, erase_bind, erase_at, e.eval_erase w]
  | .call p f args => by
    rw [Expr.erase, Expr.eval, Expr.eval, Expr.name?_erase]
    cases f.name? with
    | none => rfl
    | some id =>
      dsimp only
      cases Builtin.named? id with
      | none => rfl
      | some b => simp only [erase_bind, erase_builtin, Expr.evalAll_erase w args]
  | .index p a i => by rw [Expr.erase, Expr.eval, Expr.eval, erase_throw]; rfl
  | .member p e field => by rw [Expr.erase, Expr.eval, Expr.eval, erase_throw]; rfl
  | .context p e s => by rw [Expr.erase, Expr.eval, Expr.eval, erase_throw]; rfl

theorem Expr.evalAll_erase (w : Arithmetic) :
    ∀ es : List Expr, Expr.evalAll w (Expr.eraseAll es) = Eval.erase (Expr.evalAll w es)
  | [] => by rw [Expr.eraseAll, Expr.evalAll, erase_pure]
  | e :: es => by
    simp only [Expr.eraseAll, Expr.evalAll, erase_bind, erase_pure, e.eval_erase w,
      Expr.evalAll_erase w es]

end

open Eval in
theorem Expr.test_erase (w : Arithmetic) (e : Expr) : e.erase.test w = Eval.erase (e.test w) := by
  simp only [Expr.test, erase_bind, erase_pure, e.eval_erase w]

theorem Declaration.value_erase (w : Arithmetic) (d : Declaration) :
    d.erase.value w = Eval.erase (d.value w) := by
  unfold Declaration.value Declaration.erase
  cases d.initial with
  | none => rfl
  | some e => exact e.eval_erase w

namespace Exec

/-- The computation whose error has no position. -/
def erase (x : Exec α) : Exec α := fun m =>
  (x m).map fun (r, m) => (r.mapError RuntimeError.erase, m)

theorem erase_bind (x : Exec α) (f : α → Exec β) :
    erase (x >>= f) = x.erase >>= fun a => (f a).erase := by
  funext m
  rw [bind_apply, erase, erase, bind_apply]
  rcases x m with _ | ⟨e | a, m'⟩ <;> rfl

theorem erase_ofEval (x : Eval α) : erase (ofEval x) = ofEval x.erase := rfl

theorem erase_inScope (x : Exec Unit) : erase (inScope x) = inScope x.erase := by
  funext m
  simp only [erase, inScope]
  rcases x { m with scopes := m.scopes.enter } with _ | ⟨r, m'⟩ <;> rfl

theorem erase_loop (c : Eval Bool) (x : Exec Unit) (limit : Nat) :
    erase (loop c x limit) = loop c.erase x.erase limit := by
  induction limit with
  | zero => rfl
  | succ limit ih =>
    rw [loop_succ, loop_succ, erase_bind, erase_ofEval]
    refine bind_congr fun b => ?_
    cases b with
    | false => rfl
    | true => rw [if_pos rfl, if_pos rfl, erase_bind, ih]

end Exec

open Exec in
mutual

theorem Stmt.exec_erase (w : Arithmetic) (limit : Nat) :
    ∀ s : Stmt, s.erase.exec w limit = Exec.erase (s.exec w limit)
  | .expr _ e => by
    simp only [Stmt.erase, Stmt.exec, erase_bind, erase_ofEval, e.eval_erase w]
    rfl
  | .declare _ d => by
    simp only [Stmt.erase, Stmt.exec, erase_bind, erase_ofEval, d.value_erase w]
    rfl
  | .block _ body => by
    rw [Stmt.erase, Stmt.exec, Stmt.exec, erase_inScope, Stmt.execAll_erase w limit body]
  | .function _ s _ => by
    rw [Stmt.erase, Stmt.exec, Stmt.exec]
    rfl
  | .ret p _ => by
    rw [Stmt.erase, Stmt.exec, Stmt.exec]
    rfl
  | .ifThen _ c s => by
    rw [Stmt.erase, Stmt.exec, Stmt.exec, erase_bind, erase_ofEval, c.test_erase w,
      s.exec_erase w limit]
    refine bind_congr fun b => ?_
    cases b <;> rfl
  | .ifElse _ c s f => by
    rw [Stmt.erase, Stmt.exec, Stmt.exec, erase_bind, erase_ofEval, c.test_erase w,
      s.exec_erase w limit, f.exec_erase w limit]
    refine bind_congr fun b => ?_
    cases b <;> rfl
  | .whileLoop _ c b => by
    rw [Stmt.erase, Stmt.exec, Stmt.exec, erase_loop, c.test_erase w, b.exec_erase w limit]
  | .forRange p _ _ _ _ => by
    rw [Stmt.erase, Stmt.exec, Stmt.exec]
    rfl

theorem Stmt.execAll_erase (w : Arithmetic) (limit : Nat) :
    ∀ ss : List Stmt, Stmt.execAll w limit (Stmt.eraseAll ss) = Exec.erase (Stmt.execAll w limit ss)
  | [] => by
    rw [Stmt.eraseAll, Stmt.execAll]
    rfl
  | s :: ss => by
    rw [Stmt.eraseAll, Stmt.execAll, Stmt.execAll, erase_bind, s.exec_erase w limit,
      Stmt.execAll_erase w limit ss]

end

end Scriptlet
