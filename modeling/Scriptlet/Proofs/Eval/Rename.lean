import Mathlib.Logic.Equiv.Basic
import Scriptlet.Proofs.Eval.Faults
import Scriptlet.Proofs.Eval.Outcome

/-! The names of variables carry no meaning, and they are not the names of functions. -/
namespace Scriptlet

mutual

/-- The expression with all variables renamed. The name of a callee is none. -/
def Expr.rename (f : String → String) : Expr → Expr
  | .literal p v => .literal p v
  | .name p x => .name p (f x)
  | .binary p op l r => .binary p op (l.rename f) (r.rename f)
  | .assign p t e => .assign p (t.rename f) (e.rename f)
  | .unary p op e => .unary p op (e.rename f)
  | .call p g args => .call p (if g.name?.isSome then g else g.rename f) (Expr.renameAll f args)
  | .index p a i => .index p (a.rename f) (i.rename f)
  | .member p e field => .member p (e.rename f) field
  | .context p e c => .context p (e.rename f) c

def Expr.renameAll (f : String → String) : List Expr → List Expr
  | [] => []
  | e :: es => e.rename f :: Expr.renameAll f es

end

def Declaration.rename (f : String → String) (d : Declaration) : Declaration :=
  { d with name := f d.name, initial := d.initial.map (Expr.rename f) }

mutual

/-- The statement with all variables renamed that it declares, reads or assigns to. Functions keep
their names. -/
def Stmt.rename (f : String → String) : Stmt → Stmt
  | .expr p e => .expr p (e.rename f)
  | .declare p d => .declare p (d.rename f)
  | .block p body => .block p (Stmt.renameAll f body)
  | .function p s body => .function p s (Stmt.renameAll f body)
  | .ret p v => .ret p (v.map (Expr.rename f))
  | .ifThen p c s => .ifThen p (c.rename f) (s.rename f)
  | .ifElse p c s t => .ifElse p (c.rename f) (s.rename f) (t.rename f)
  | .whileLoop p c b => .whileLoop p (c.rename f) (b.rename f)
  | .forRange p x a b s => .forRange p x (a.rename f) (b.rename f) (s.rename f)

def Stmt.renameAll (f : String → String) : List Stmt → List Stmt
  | [] => []
  | s :: ss => s.rename f :: Stmt.renameAll f ss

end

/-- The frame with its keys renamed. -/
def Frame.rename (f : String → String) (fr : Frame) : Frame := fr.map (Prod.map f id)

def Scopes.rename (f : String → String) (s : Scopes) : Scopes :=
  ⟨s.inner.rename f, s.outer.map (Frame.rename f)⟩

/-- The machine with all variables renamed. Its console stays as it is. -/
def Machine.rename (f : String → String) (m : Machine) : Machine :=
  { m with scopes := m.scopes.rename f }

/-- Only the fault of a missing variable names one. -/
def Fault.rename (f : String → String) : Fault → Fault
  | .undefinedVariable x => .undefinedVariable (f x)
  | fault => fault

def RuntimeError.rename (f : String → String) (e : RuntimeError) : RuntimeError :=
  { e with fault := e.fault.rename f }

theorem Fault.rename_eq_self {fault : Fault} (h : ¬ fault.IsMissing) (f : String → String) :
    fault.rename f = fault := by
  cases fault with
  | undefinedVariable x => exact absurd ⟨x, rfl⟩ h
  | _ => rfl

theorem Expr.name?_rename (f : String → String) (e : Expr) :
    (e.rename f).name? = e.name?.map f := by
  cases e <;> simp [Expr.rename, Expr.name?]

/-- A callee that is a name stays that name, and one that is none does not become one. -/
theorem Expr.name?_callee (f : String → String) (g : Expr) :
    (if g.name?.isSome then g else g.rename f).name? = g.name? := by
  split
  · rfl
  · rename_i hg
    have hnone : g.name? = none := by simpa using hg
    rw [Expr.name?_rename, hnone]
    rfl

section Injective

variable {f : String → String} (hf : Function.Injective f)

include hf

namespace Frame

theorem get?_rename (fr : Frame) (x : String) : (fr.rename f).get? (f x) = fr.get? x := by
  induction fr with
  | nil => rfl
  | cons b fr ih =>
    obtain ⟨n, v⟩ := b
    have hcons : Frame.rename f ((n, v) :: fr) = (f n, v) :: Frame.rename f fr := rfl
    unfold get? at ih ⊢
    rw [hcons, List.lookup_cons, List.lookup_cons, ih]
    by_cases hx : x = n
    · simp [hx]
    · have hfx : f x ≠ f n := fun h => hx (hf h)
      simp [beq_eq_false_iff_ne.2 hx, beq_eq_false_iff_ne.2 hfx]

theorem contains_rename (fr : Frame) (x : String) :
    (fr.rename f).contains (f x) = fr.contains x := by
  simp [contains, rename, List.any_map, Function.comp_def, hf.beq_eq]

theorem insert_rename (fr : Frame) (x : String) (v : Value) :
    (fr.insert x v).rename f = (fr.rename f).insert (f x) v := by
  induction fr with
  | nil => rfl
  | cons b fr ih =>
    obtain ⟨n, u⟩ := b
    have hcons : Frame.rename f ((n, u) :: fr) = (f n, u) :: Frame.rename f fr := rfl
    by_cases hn : n = x
    · have hfn : f n = f x := congrArg f hn
      rw [hcons, insert, insert, if_pos hn, if_pos hfn]
      rfl
    · have hfn : f n ≠ f x := fun h => hn (hf h)
      rw [hcons, insert, insert, if_neg hn, if_neg hfn, ← ih]
      rfl

end Frame

namespace Scopes

theorem get?_rename (s : Scopes) (x : String) : (s.rename f).get? (f x) = s.get? x := by
  have hframes : (s.rename f).frames = s.frames.map (Frame.rename f) := rfl
  have hget : (fun fr : Frame => (fr.rename f).get? (f x)) = fun fr => fr.get? x :=
    funext fun fr => fr.get?_rename hf x
  rw [get?, get?, hframes, List.findSome?_map]
  exact congrArg (s.frames.findSome? ·) hget

private theorem declare_rename (s : Scopes) (x : String) (v : Value) :
    (s.declare x v).rename f = (s.rename f).declare (f x) v := by
  simp only [declare, rename, Frame.insert_rename hf]

private theorem assignFrames_rename (x : String) (v : Value) (fs : List Frame) :
    assignFrames (f x) v (fs.map (Frame.rename f)) =
      (assignFrames x v fs).map (List.map (Frame.rename f)) := by
  induction fs with
  | nil => rfl
  | cons fr fs ih =>
    rw [List.map_cons, assignFrames, assignFrames, fr.contains_rename hf, ih]
    by_cases hx : fr.contains x
    · rw [if_pos hx, if_pos hx, Option.map_some, List.map_cons, fr.insert_rename hf]
    · rw [if_neg hx, if_neg hx, Option.map_map, Option.map_map]
      rfl

private theorem assign_rename (s : Scopes) (x : String) (v : Value) :
    (s.rename f).assign (f x) v =
      ((s.assign x v).map (Scopes.rename f)).mapError (Fault.rename f) := by
  have hcontains : (s.rename f).inner.contains (f x) = s.inner.contains x :=
    s.inner.contains_rename hf x
  have houter : assignFrames (f x) v (s.rename f).outer =
      (assignFrames x v s.outer).map (List.map (Frame.rename f)) :=
    assignFrames_rename hf x v s.outer
  rw [assign, assign, hcontains, houter]
  by_cases hx : s.inner.contains x
  · have hinsert := s.inner.insert_rename hf x v
    rw [if_pos hx, if_pos hx]
    simp only [Except.map, Except.mapError, rename, hinsert]
  · rw [if_neg hx, if_neg hx]
    cases assignFrames x v s.outer <;> rfl

end Scopes

end Injective

namespace Exec

variable {α β : Type} {f : String → String}

/-- On a renamed machine the second computation does what the first one does, but for names. -/
def Renames (f : String → String) (x y : Exec α) : Prop :=
  ∀ m, y (m.rename f) =
    (x m).map fun (r, m') => (r.mapError (RuntimeError.rename f), m'.rename f)

theorem renames_pure (a : α) : Renames f (pure a) (pure a) := fun _ => rfl

theorem renames_throw (e : RuntimeError) :
    Renames f (throw e : Exec α) (throw (e.rename f)) := fun _ => rfl

theorem Renames.bind {x y : Exec α} {g h : α → Exec β} (hx : Renames f x y)
    (hg : ∀ a, Renames f (g a) (h a)) : Renames f (x >>= g) (y >>= h) := by
  intro m
  rw [bind_apply, bind_apply, hx m]
  rcases x m with _ | ⟨e | a, m'⟩
  · rfl
  · rfl
  · exact hg a m'

/-- An operation that cannot miss a variable does not depend on names. -/
theorem renames_at (p : Position) {r : Except Fault α}
    (hr : ∀ fault, r = .error fault → ¬ fault.IsMissing) :
    Renames f (ofEval (Eval.at p r)) (ofEval (Eval.at p r)) := by
  cases r with
  | ok a => exact renames_pure a
  | error fault =>
    have hfault : fault.rename f = fault := Fault.rename_eq_self (hr fault rfl) f
    have hthrow := renames_throw (α := α) (f := f) ⟨fault, p⟩
    rw [RuntimeError.rename, hfault] at hthrow
    exact hthrow

theorem renames_lookup (hf : Function.Injective f) (p : Position) (x : String) :
    Renames f (ofEval (Eval.lookup p x)) (ofEval (Eval.lookup p (f x))) := by
  intro m
  have hget : (m.rename f).scopes.get? (f x) = m.scopes.get? x := m.scopes.get?_rename hf x
  rw [ofEval, ofEval, Eval.lookup_apply, Eval.lookup_apply, hget]
  cases m.scopes.get? x <;> rfl

theorem renames_assign (hf : Function.Injective f) (p : Position) (x : String) (v : Value) :
    Renames f (ofEval (Eval.assign p x v)) (ofEval (Eval.assign p (f x) v)) := by
  intro m
  have hassign : (m.rename f).scopes.assign (f x) v =
      ((m.scopes.assign x v).map (Scopes.rename f)).mapError (Fault.rename f) :=
    m.scopes.assign_rename hf x v
  rw [ofEval, ofEval, Eval.assign_apply, Eval.assign_apply, hassign]
  cases m.scopes.assign x v <;> rfl

theorem renames_builtin (p : Position) (b : Builtin) (vs : List Value) :
    Renames f (ofEval (Eval.builtin p b vs)) (ofEval (Eval.builtin p b vs)) := by
  intro m
  have hconsole : (m.rename f).console = m.console := rfl
  rw [ofEval, ofEval, Eval.builtin_apply, Eval.builtin_apply, hconsole]
  cases hc : (b.call vs m.console).1 with
  | ok v => rfl
  | error fault =>
    have hfault : fault.rename f = fault :=
      Fault.rename_eq_self (Builtin.not_isMissing (Builtin.mem_faults hc)) f
    simp only [Except.mapError, Option.map_some, RuntimeError.rename, hfault]
    rfl

theorem Renames.inScope {x y : Exec Unit} (h : Renames f x y) :
    Renames f (inScope x) (inScope y) := by
  intro m
  have henter : ({ m.rename f with scopes := (m.rename f).scopes.enter } : Machine) =
      Machine.rename f { m with scopes := m.scopes.enter } := rfl
  have hexit (s : Scopes) : (s.rename f).exit = s.exit.rename f := by
    cases hs : s.outer <;> simp [Scopes.exit, Scopes.rename, hs]
  simp only [Exec.inScope, henter, h _]
  rcases x { m with scopes := m.scopes.enter } with _ | ⟨r, m'⟩
  · rfl
  · simp only [Option.map_some, Machine.rename, hexit]

theorem Renames.ite {x x' y y' : Exec α} (hx : Renames f x x') (hy : Renames f y y') (b : Bool) :
    Renames f (if b then x else y) (if b then x' else y') := by
  cases b with
  | true => exact hx
  | false => exact hy

/-- Two loops whose conditions and bodies correspond take the same turns. -/
theorem Renames.loop {c c' : Eval Bool} {x y : Exec Unit} (hc : Renames f (ofEval c) (ofEval c'))
    (hx : Renames f x y) (limit : Nat) : Renames f (loop c x limit) (loop c' y limit) := by
  induction limit with
  | zero => exact fun _ => rfl
  | succ limit ih =>
    rw [loop_succ, loop_succ]
    exact hc.bind ((hx.bind fun _ => ih).ite (renames_pure ()))

end Exec

section Trees

open Exec

variable {f : String → String}

mutual

/-- An expression with renamed variables evaluates as the expression does. -/
theorem Expr.renames_eval (hf : Function.Injective f) :
    ∀ e : Expr, Renames f (ofEval (e.eval .word)) (ofEval ((e.rename f).eval .word))
  | .literal _ v => renames_pure v
  | .name p x => renames_lookup hf p x
  | .binary p op l r => by
    simp only [Expr.rename, Expr.eval, ofEval_bind]
    refine (l.renames_eval hf).bind fun a => (r.renames_eval hf).bind fun b => ?_
    exact renames_at p fun fault hr => BinaryOp.not_isMissing (BinaryOp.mem_faults hr)
  | .assign p t e => by
    rw [Expr.rename, Expr.eval, Expr.eval, Expr.name?_rename]
    cases t.name? with
    | none => exact renames_throw _
    | some x =>
      simp only [Option.map_some, ofEval_bind]
      exact (e.renames_eval hf).bind fun v => renames_assign hf p x v
  | .unary p op e => by
    simp only [Expr.rename, Expr.eval, ofEval_bind]
    refine (e.renames_eval hf).bind fun a => ?_
    exact renames_at p fun fault hr => UnaryOp.not_isMissing (UnaryOp.mem_faults hr)
  | .call p g args => by
    rw [Expr.rename, Expr.eval, Expr.eval, Expr.name?_callee]
    cases g.name? with
    | none => exact renames_throw _
    | some x =>
      dsimp only
      cases Builtin.named? x with
      | none => exact renames_throw _
      | some b =>
        simp only [ofEval_bind]
        exact (Expr.renames_evalAll hf args).bind fun vs => renames_builtin p b vs
  | .index .. => renames_throw _
  | .member .. => renames_throw _
  | .context .. => renames_throw _

theorem Expr.renames_evalAll (hf : Function.Injective f) :
    ∀ es : List Expr,
      Renames f (ofEval (Expr.evalAll .word es)) (ofEval (Expr.evalAll .word (Expr.renameAll f es)))
  | [] => renames_pure []
  | e :: es => by
    simp only [Expr.renameAll, Expr.evalAll, ofEval_bind]
    refine (e.renames_eval hf).bind fun v => ?_
    exact (Expr.renames_evalAll hf es).bind fun vs => renames_pure (v :: vs)

end

theorem Expr.renames_test (hf : Function.Injective f) (e : Expr) :
    Renames f (ofEval (e.test .word)) (ofEval ((e.rename f).test .word)) := by
  simp only [Expr.test, ofEval_bind]
  exact (e.renames_eval hf).bind fun v => renames_pure v.isTruthy

theorem Declaration.renames_value (hf : Function.Injective f) (d : Declaration) :
    Renames f (ofEval (d.value .word)) (ofEval ((d.rename f).value .word)) := by
  unfold Declaration.value Declaration.rename
  cases d.initial with
  | none => exact renames_pure _
  | some e => exact e.renames_eval hf

theorem Exec.renames_declare (hf : Function.Injective f) (x : String) (v : Value) :
    Renames f (modify fun m => { m with scopes := m.scopes.declare x v })
      (modify fun m => { m with scopes := m.scopes.declare (f x) v }) := by
  intro m
  have hdeclare := m.scopes.declare_rename hf x v
  change some (Except.ok (), ({ m.rename f with scopes := (m.scopes.rename f).declare (f x) v } :
    Machine)) = _
  rw [← hdeclare]
  rfl

mutual

/-- A statement with renamed variables runs as the statement does. -/
theorem Stmt.renames_exec (hf : Function.Injective f) (limit : Nat) :
    ∀ s : Stmt, Renames f (s.exec .word limit) ((s.rename f).exec .word limit)
  | .expr _ e => (e.renames_eval hf).bind fun _ => renames_pure ()
  | .declare _ d => (d.renames_value hf).bind fun v => renames_declare hf d.name v
  | .block _ body => (Stmt.renames_execAll hf limit body).inScope
  | .function _ _ _ => fun _ => rfl
  | .ret _ _ => renames_throw _
  | .ifThen _ c s =>
    (c.renames_test hf).bind ((s.renames_exec hf limit).ite (renames_pure ()))
  | .ifElse _ c s t =>
    (c.renames_test hf).bind ((s.renames_exec hf limit).ite (t.renames_exec hf limit))
  | .whileLoop _ c b => (c.renames_test hf).loop (b.renames_exec hf limit) limit
  | .forRange .. => renames_throw _

theorem Stmt.renames_execAll (hf : Function.Injective f) (limit : Nat) :
    ∀ ss : List Stmt,
      Renames f (Stmt.execAll .word limit ss) (Stmt.execAll .word limit (Stmt.renameAll f ss))
  | [] => renames_pure ()
  | s :: ss => (s.renames_exec hf limit).bind fun _ => Stmt.renames_execAll hf limit ss

end

end Trees

/-- Renaming all variables of a program and of the machine it runs on, so that different names stay
different, renames the variables of the machine behind it and the one that an error misses, and
changes nothing else. -/
theorem Program.run_rename (f : String → String) (hf : Function.Injective f) (p : Program)
    (limit : Nat) (m : Machine) :
    Program.run limit (Stmt.renameAll f p) (m.rename f) =
      (p.run limit m).map fun (r, m') => (r.mapError (RuntimeError.rename f), m'.rename f) :=
  Stmt.renames_execAll hf limit p m

/-- `{ let y = length(x); print(y); x = 0; }` and `y;` with these names for its variables. -/
def crossing (x y : String) : Program :=
  [.block ⟨1, 1⟩
      [.declare ⟨1, 3⟩
          ⟨y, none, some (.call ⟨1, 11⟩ (.name ⟨1, 11⟩ "length") [.name ⟨1, 18⟩ x]), false⟩,
        .expr ⟨1, 22⟩ (.call ⟨1, 22⟩ (.name ⟨1, 22⟩ "print") [.name ⟨1, 28⟩ y]),
        .expr ⟨1, 32⟩ (.assign ⟨1, 34⟩ (.name ⟨1, 32⟩ x) (.literal ⟨1, 36⟩ (.integer 0)))],
    .expr ⟨2, 1⟩ (.name ⟨2, 1⟩ y)]

/-- Variables called `print` and `length` do not hide the functions. -/
theorem run_rename_crossing :
    let f := (Equiv.swap "x" "print").trans (Equiv.swap "y" "length")
    Function.Injective f ∧ Stmt.renameAll f (crossing "x" "y") = crossing "print" "length" ∧
      (crossing "print" "length").run 1 ⟨⟨[("print", .string "ab")], []⟩, .ofLines []⟩ =
        some (.error ⟨.undefinedVariable "length", ⟨2, 1⟩⟩,
          ⟨⟨[("print", .integer 0)], []⟩, ⟨"2\n", [], 0⟩⟩) := by
  intro f
  have hrename : Stmt.renameAll f (crossing "x" "y") = crossing "print" "length" := rfl
  have hsource : (crossing "x" "y").run 1 ⟨⟨[("x", .string "ab")], []⟩, .ofLines []⟩ =
      some (.error ⟨.undefinedVariable "y", ⟨2, 1⟩⟩,
        ⟨⟨[("x", .integer 0)], []⟩, ⟨"2\n", [], 0⟩⟩) := rfl
  have hrun := Program.run_rename f f.injective (crossing "x" "y") 1
    ⟨⟨[("x", .string "ab")], []⟩, .ofLines []⟩
  rw [hrename, hsource] at hrun
  exact ⟨f.injective, hrename, hrun⟩

end Scriptlet
