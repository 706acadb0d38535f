import Scriptlet.Proofs.Eval.Faults
import Scriptlet.Proofs.Eval.Outcome
import Scriptlet.Proofs.Tree.Erase

/-! Run-time errors blame the node that failed: it is one that the run evaluates, and its shape
explains the fault. -/
namespace Scriptlet

/-- A node of a program tree. -/
inductive Node where
  | expr (e : Expr)
  | stmt (s : Stmt)

def Node.pos : Node → Position
  | expr e => e.pos
  | stmt s => s.pos

mutual

/-- The nodes that evaluating the expression can come to. What stands in an index, in a member or in
a context condition is never evaluated, and neither is a target or a callee. -/
def Expr.evaluated : Expr → List Node
  | x@(.binary _ _ l r) => .expr x :: (l.evaluated ++ r.evaluated)
  | x@(.assign _ t e) => .expr x :: if t.name?.isSome then e.evaluated else []
  | x@(.unary _ _ e) => .expr x :: e.evaluated
  | x@(.call _ f args) =>
    .expr x :: if (f.name?.bind Builtin.named?).isSome then Expr.allEvaluated args else []
  | x => [.expr x]

def Expr.allEvaluated : List Expr → List Node
  | [] => []
  | e :: es => e.evaluated ++ Expr.allEvaluated es

end

mutual

/-- The nodes that running the statement can come to. Function bodies never run, and what stands in
a `for` or `return` statement is never evaluated. -/
def Stmt.evaluated : Stmt → List Node
  | x@(.expr _ e) => .stmt x :: e.evaluated
  | x@(.declare _ d) => .stmt x :: d.initial.toList.flatMap Expr.evaluated
  | x@(.block _ body) => .stmt x :: Stmt.allEvaluated body
  | x@(.ifThen _ c s) => .stmt x :: (c.evaluated ++ s.evaluated)
  | x@(.ifElse _ c s f) => .stmt x :: (c.evaluated ++ (s.evaluated ++ f.evaluated))
  | x@(.whileLoop _ c b) => .stmt x :: (c.evaluated ++ b.evaluated)
  | x => [.stmt x]

def Stmt.allEvaluated : List Stmt → List Node
  | [] => []
  | s :: ss => s.evaluated ++ Stmt.allEvaluated ss

end

/-- The operation that a binary operator stands for, if it does not take values of every kind. -/
def BinaryOp.operation? : BinaryOp → Option Operation
  | add => some .addition
  | sub => some .subtraction
  | mul => some .multiplication
  | div => some .division
  | mod => some .modulo
  | lt | le | gt | ge => some .comparison
  | eq | ne | and | or => none

def UnaryOp.operation? : UnaryOp → Option SignOperation
  | negate => some .negation
  | plus => some .plus
  | not => none

/-- The built-in function whose arguments can be wrong in this way. -/
def ArgumentFault.builtin : ArgumentFault → Builtin
  | lengthCount | lengthText => .length
  | substringCount | substringText | substringStart | substringLength => .substring

/-- The fault is one that a node of this shape can have. -/
inductive Node.Explains : Node → Fault → Prop where
  | name {p : Position} {x : String} : Explains (.expr (.name p x)) (.undefinedVariable x)
  | assign {p q : Position} {x : String} {e : Expr} :
    Explains (.expr (.assign p (.name q x) e)) (.undefinedVariable x)
  | operands {p : Position} {op : BinaryOp} {o : Operation} {l r : Expr}
      (h : op.operation? = some o) : Explains (.expr (.binary p op l r)) (.invalidOperands o)
  | division {p : Position} {l r : Expr} : Explains (.expr (.binary p .div l r)) .divisionByZero
  | modulo {p : Position} {l r : Expr} : Explains (.expr (.binary p .mod l r)) .moduloByZero
  | overflow {p : Position} {op : BinaryOp} {l r : Expr}
      (h : op ∈ [.add, .sub, .mul, .div, .mod]) :
    Explains (.expr (.binary p op l r)) .integerOverflow
  | negateOverflow {p : Position} {e : Expr} :
    Explains (.expr (.unary p .negate e)) .integerOverflow
  | operand {p : Position} {op : UnaryOp} {o : SignOperation} {e : Expr}
      (h : op.operation? = some o) : Explains (.expr (.unary p op e)) (.invalidOperand o)
  | function {p q : Position} {f : String} {args : List Expr} (h : ∀ b : Builtin, b.name ≠ f) :
    Explains (.expr (.call p (.name q f) args)) (.undefinedFunction f)
  | callee {p : Position} {f : Expr} {args : List Expr} (h : ∀ q x, f ≠ .name q x) :
    Explains (.expr (.call p f args)) .complexCallee
  | argument {p q : Position} {a : ArgumentFault} {b : Builtin} {args : List Expr}
      (h : a.builtin = b) : Explains (.expr (.call p (.name q b.name) args)) (.invalidArgument a)
  | index {p : Position} {a i : Expr} :
    Explains (.expr (.index p a i)) (.notImplemented .arrayAccess)
  | member {p : Position} {e : Expr} {field : String} :
    Explains (.expr (.member p e field)) (.notImplemented .memberAccess)
  | context {p : Position} {e : Expr} {c : String} :
    Explains (.expr (.context p e c)) (.notImplemented .contextConditionals)
  | ret {p : Position} {v : Option Expr} :
    Explains (.stmt (.ret p v)) (.notImplemented .returnStatements)
  | forRange {p : Position} {x : String} {a b : Expr} {s : Stmt} :
    Explains (.stmt (.forRange p x a b s)) (.notImplemented .forLoops)
  | target {p : Position} {t e : Expr} (h : ∀ q x, t ≠ .name q x) :
    Explains (.expr (.assign p t e)) .invalidAssignmentTarget

/-- The error stands at one of the nodes, which explains it. -/
def RuntimeError.Blames (ns : List Node) (e : RuntimeError) : Prop :=
  ∃ n ∈ ns, n.pos = e.position ∧ n.Explains e.fault

namespace RuntimeError

variable {e : RuntimeError} {ns ns' : List Node}

theorem Blames.mono (h : e.Blames ns) (hsub : ns ⊆ ns') : e.Blames ns' := by
  obtain ⟨n, hn, hpos, hexplains⟩ := h
  exact ⟨n, hsub hn, hpos, hexplains⟩

/-- A node is blamed for a fault of its own. -/
theorem blames_head {n : Node} {fault : Fault} (h : n.Explains fault) :
    Blames (n :: ns) ⟨fault, n.pos⟩ := ⟨n, .head _, rfl, h⟩

end RuntimeError

namespace Node

variable {p : Position} {fault : Fault}

theorem explains_binary {op : BinaryOp} (h : fault ∈ op.faults) (l r : Expr) :
    Explains (.expr (.binary p op l r)) fault := by
  cases op with
  | add | sub | mul =>
    simp only [BinaryOp.faults, List.mem_cons, List.not_mem_nil, or_false] at h
    rcases h with rfl | rfl
    · exact .operands rfl
    · exact .overflow (by decide)
  | div =>
    simp only [BinaryOp.faults, List.mem_cons, List.not_mem_nil, or_false] at h
    rcases h with rfl | rfl | rfl
    · exact .operands rfl
    · exact .division
    · exact .overflow (by decide)
  | mod =>
    simp only [BinaryOp.faults, List.mem_cons, List.not_mem_nil, or_false] at h
    rcases h with rfl | rfl | rfl
    · exact .operands rfl
    · exact .modulo
    · exact .overflow (by decide)
  | lt | le | gt | ge =>
    rw [BinaryOp.faults, List.mem_singleton] at h
    rw [h]
    exact .operands rfl
  | eq | ne | and | or => cases h

theorem explains_unary {op : UnaryOp} (h : fault ∈ op.faults) (e : Expr) :
    Explains (.expr (.unary p op e)) fault := by
  cases op with
  | not => cases h
  | negate =>
    simp only [UnaryOp.faults, List.mem_cons, List.not_mem_nil, or_false] at h
    rcases h with rfl | rfl
    · exact .operand rfl
    · exact .negateOverflow
  | plus =>
    rw [UnaryOp.faults, List.mem_singleton] at h
    rw [h]
    exact .operand rfl

theorem explains_builtin {b : Builtin} (h : fault ∈ b.faults) (q : Position) (args : List Expr) :
    Explains (.expr (.call p (.name q b.name) args)) fault := by
  cases b with
  | print | input => cases h
  | length =>
    simp only [Builtin.faults, List.mem_cons, List.not_mem_nil, or_false] at h
    rcases h with rfl | rfl <;> exact .argument rfl
  | substring =>
    simp only [Builtin.faults, List.mem_cons, List.not_mem_nil, or_false] at h
    rcases h with rfl | rfl | rfl | rfl <;> exact .argument rfl

end Node

theorem Scopes.assign_eq_error {s : Scopes} {id : String} {v : Value} {fault : Fault}
    (h : s.assign id v = .error fault) : fault = .undefinedVariable id := by
  unfold assign at h
  split at h
  · cases h
  · split at h
    · cases h
    · cases h
      rfl

namespace Exec

variable {α β : Type} {P Q : RuntimeError → Prop} {x : Exec α} {f : α → Exec β}

/-- Whenever the computation fails, its error has the property. -/
def Raises (P : RuntimeError → Prop) (x : Exec α) : Prop :=
  ∀ m e m', x m = some (.error e, m') → P e

theorem Raises.mono (h : Raises P x) (hPQ : ∀ e, P e → Q e) : Raises Q x :=
  fun m e m' hx => hPQ e (h m e m' hx)

theorem raises_pure (a : α) : Raises P (pure a) := nofun

theorem raises_throw {e : RuntimeError} (h : P e) : Raises P (throw e : Exec α) := by
  intro m e' m' hx
  cases hx
  exact h

theorem Raises.bind (hx : Raises P x) (hf : ∀ a, Raises P (f a)) : Raises P (x >>= f) := by
  intro m e m' h
  obtain ⟨e', he, heq⟩ | ⟨a, m₁, _, ha⟩ := bind_eq_some.1 h
  · cases heq
    exact hx m e m' he
  · exact hf a m₁ e m' ha

theorem raises_at {p : Position} {r : Except Fault α}
    (h : ∀ fault, r = .error fault → P ⟨fault, p⟩) : Raises P (ofEval (Eval.at p r)) := by
  cases r with
  | ok a => exact raises_pure a
  | error fault => exact raises_throw (h fault rfl)

theorem raises_lookup {p : Position} {id : String} (h : P ⟨.undefinedVariable id, p⟩) :
    Raises P (ofEval (Eval.lookup p id)) := by
  intro m e m' he
  rw [ofEval_eq_some, Eval.lookup_apply] at he
  split at he
  · cases he
  · cases he
    exact h

theorem raises_assign {p : Position} {id : String} (h : P ⟨.undefinedVariable id, p⟩) (v : Value) :
    Raises P (ofEval (Eval.assign p id v)) := by
  intro m e m' he
  rw [ofEval_eq_some, Eval.assign_apply] at he
  split at he
  · cases he
  · rename_i fault hfault
    cases he
    rw [Scopes.assign_eq_error hfault]
    exact h

theorem raises_builtin {p : Position} {b : Builtin} (h : ∀ fault ∈ b.faults, P ⟨fault, p⟩)
    (vs : List Value) : Raises P (ofEval (Eval.builtin p b vs)) := by
  intro m e m' he
  rw [ofEval_eq_some, Eval.builtin_apply] at he
  cases hc : (b.call vs m.console).1 with
  | ok v =>
    rw [hc] at he
    cases he
  | error fault =>
    rw [hc] at he
    cases he
    exact h fault (Builtin.mem_faults hc)

theorem Raises.inScope {x : Exec Unit} (hx : Raises P x) : Raises P (inScope x) := by
  intro m e m' h
  obtain ⟨m₁, h₁, _⟩ := inScope_eq_some.1 h
  exact hx _ e m₁ h₁

theorem Raises.ite {x y : Exec α} (hx : Raises P x) (hy : Raises P y) (b : Bool) :
    Raises P (if b then x else y) := by
  cases b with
  | true => exact hx
  | false => exact hy

/-- However often a loop is repeated, its errors are those of its condition and of its body. -/
theorem Raises.loop {condition : Eval Bool} {body : Exec Unit}
    (hc : Raises P (ofEval condition)) (hb : Raises P body) (limit : Nat) :
    Raises P (loop condition body limit) := by
  induction limit with
  | zero => nofun
  | succ limit ih =>
    rw [loop_succ]
    exact hc.bind ((hb.bind fun _ => ih).ite (raises_pure ()))

end Exec

section Trees

open Exec RuntimeError

variable {ns ns' : List Node}

theorem Exec.Raises.within {α : Type} {x : Exec α} (h : Raises (Blames ns) x) (hsub : ns ⊆ ns') :
    Raises (Blames ns') x := h.mono fun _ he => he.mono hsub

mutual

/-- An evaluation blames the node whose own step failed. -/
theorem Expr.raises_eval :
    ∀ e : Expr, Raises (Blames e.evaluated) (ofEval (e.eval .word))
  | .literal _ v => raises_pure v
  | .name p x => raises_lookup (blames_head .name)
  | .binary p op l r => by
    have hl : l.evaluated ⊆ (Expr.binary p op l r).evaluated := by simp [Expr.evaluated]
    have hr : r.evaluated ⊆ (Expr.binary p op l r).evaluated := by simp [Expr.evaluated]
    simp only [Expr.eval, ofEval_bind]
    refine ((l.raises_eval).within hl).bind fun a => ((r.raises_eval).within hr).bind fun b => ?_
    exact raises_at fun fault hf => blames_head (Node.explains_binary (BinaryOp.mem_faults hf) l r)
  | .assign p t e => by
    rw [Expr.eval]
    cases ht : t.name? with
    | none =>
      refine raises_throw (blames_head (.target fun q x hx => ?_))
      rw [hx] at ht
      cases ht
    | some x =>
      obtain ⟨q, rfl⟩ := Expr.name?_eq_some ht
      have he : e.evaluated ⊆ (Expr.assign p (.name q x) e).evaluated := by
        simp [Expr.evaluated, Expr.name?]
      simp only [ofEval_bind]
      exact ((e.raises_eval).within he).bind fun v => raises_assign (blames_head .assign) v
  | .unary p op e => by
    have he : e.evaluated ⊆ (Expr.unary p op e).evaluated := by simp [Expr.evaluated]
    simp only [Expr.eval, ofEval_bind]
    refine ((e.raises_eval).within he).bind fun a => ?_
    exact raises_at fun fault hf => blames_head (Node.explains_unary (UnaryOp.mem_faults hf) e)
  | .call p f args => by
    rw [Expr.eval]
    cases hf : f.name? with
    | none =>
      refine raises_throw (blames_head (.callee fun q x hx => ?_))
      rw [hx] at hf
      cases hf
    | some x =>
      obtain ⟨q, rfl⟩ := Expr.name?_eq_some hf
      dsimp only
      cases hb : Builtin.named? x with
      | none =>
        refine raises_throw (blames_head (.function fun b hx => ?_))
        rw [Builtin.named?_eq_some.2 hx] at hb
        cases hb
      | some b =>
        have hargs : Expr.allEvaluated args ⊆ (Expr.call p (.name q x) args).evaluated := by
          simp [Expr.evaluated, Expr.name?, hb]
        obtain rfl := Builtin.named?_eq_some.1 hb
        simp only [ofEval_bind]
        refine ((Expr.raises_evalAll args).within hargs).bind fun vs => raises_builtin ?_ vs
        exact fun fault hfault => blames_head (Node.explains_builtin hfault q args)
  | .index .. => raises_throw (blames_head .index)
  | .member .. => raises_throw (blames_head .member)
  | .context .. => raises_throw (blames_head .context)

theorem Expr.raises_evalAll :
    ∀ es : List Expr, Raises (Blames (Expr.allEvaluated es)) (ofEval (Expr.evalAll .word es))
  | [] => raises_pure []
  | e :: es => by
    have he : e.evaluated ⊆ Expr.allEvaluated (e :: es) := by simp [Expr.allEvaluated]
    have hes : Expr.allEvaluated es ⊆ Expr.allEvaluated (e :: es) := by simp [Expr.allEvaluated]
    simp only [Expr.evalAll, ofEval_bind]
    refine ((e.raises_eval).within he).bind fun v => ?_
    exact ((Expr.raises_evalAll es).within hes).bind fun vs => raises_pure (v :: vs)

end

theorem Expr.raises_test (e : Expr) :
    Raises (Blames e.evaluated) (ofEval (e.test .word)) := by
  simp only [Expr.test, ofEval_bind]
  exact (e.raises_eval).bind fun v => raises_pure v.isTruthy

theorem Declaration.raises_value (d : Declaration) :
    Raises (Blames (d.initial.toList.flatMap Expr.evaluated)) (ofEval (d.value .word)) := by
  unfold Declaration.value
  cases d.initial with
  | none => exact raises_pure _
  | some e =>
    rw [Option.toList_some, List.flatMap_singleton]
    exact e.raises_eval

mutual

/-- Running a statement passes on the errors of its parts and adds those of statements that cannot
run. -/
theorem Stmt.raises_exec (limit : Nat) :
    ∀ s : Stmt, Raises (Blames s.evaluated) (s.exec .word limit)
  | .expr p e => by
    have he : e.evaluated ⊆ (Stmt.expr p e).evaluated := by simp [Stmt.evaluated]
    exact ((e.raises_eval).within he).bind fun _ => raises_pure ()
  | .declare p d => by
    have hd : d.initial.toList.flatMap Expr.evaluated ⊆ (Stmt.declare p d).evaluated := by
      rw [Stmt.evaluated]
      exact List.subset_cons_self _ _
    exact ((d.raises_value).within hd).bind fun v => nofun
  | .block p body => by
    have hbody : Stmt.allEvaluated body ⊆ (Stmt.block p body).evaluated := by
      simp [Stmt.evaluated]
    exact ((Stmt.raises_execAll limit body).within hbody).inScope
  | .function _ _ _ => nofun
  | .ret .. => raises_throw (blames_head .ret)
  | .ifThen p c s => by
    have hc : c.evaluated ⊆ (Stmt.ifThen p c s).evaluated := by simp [Stmt.evaluated]
    have hs : s.evaluated ⊆ (Stmt.ifThen p c s).evaluated := by simp [Stmt.evaluated]
    refine ((c.raises_test).within hc).bind fun b => ?_
    exact ((s.raises_exec limit).within hs).ite (raises_pure ()) b
  | .ifElse p c s f => by
    have hc : c.evaluated ⊆ (Stmt.ifElse p c s f).evaluated := by simp [Stmt.evaluated]
    have hs : s.evaluated ⊆ (Stmt.ifElse p c s f).evaluated :=
      fun n hn => by simp [Stmt.evaluated, hn]
    have hf : f.evaluated ⊆ (Stmt.ifElse p c s f).evaluated :=
      fun n hn => by simp [Stmt.evaluated, hn]
    refine ((c.raises_test).within hc).bind fun b => ?_
    exact ((s.raises_exec limit).within hs).ite ((f.raises_exec limit).within hf) b
  | .whileLoop p c b => by
    have hc : c.evaluated ⊆ (Stmt.whileLoop p c b).evaluated := by simp [Stmt.evaluated]
    have hb : b.evaluated ⊆ (Stmt.whileLoop p c b).evaluated := by simp [Stmt.evaluated]
    exact ((c.raises_test).within hc).loop ((b.raises_exec limit).within hb) limit
  | .forRange .. => raises_throw (blames_head .forRange)

theorem Stmt.raises_execAll (limit : Nat) :
    ∀ ss : List Stmt, Raises (Blames (Stmt.allEvaluated ss)) (Stmt.execAll .word limit ss)
  | [] => raises_pure ()
  | s :: ss => by
    have hs : s.evaluated ⊆ Stmt.allEvaluated (s :: ss) := by simp [Stmt.allEvaluated]
    have hss : Stmt.allEvaluated ss ⊆ Stmt.allEvaluated (s :: ss) := by simp [Stmt.allEvaluated]
    refine ((s.raises_exec limit).within hs).bind fun _ => ?_
    exact (Stmt.raises_execAll limit ss).within hss

end

end Trees

/-- If a program fails, then at a node that it evaluates, whose shape explains the fault. -/
theorem Program.run_blames (p : Program) (limit : Nat) (m : Machine) (e : RuntimeError)
    (m' : Machine) (h : p.run limit m = some (.error e, m')) :
    ∃ n ∈ Stmt.allEvaluated p, n.pos = e.position ∧ n.Explains e.fault :=
  Stmt.raises_execAll limit p m e m' h

/-- `let v = "ab";` and `while v { print(length(v)); v = 0 - 1; }` -/
def kindChange : Program :=
  [.declare ⟨1, 1⟩ ⟨"v", none, some (.literal ⟨1, 9⟩ (.string "ab")), false⟩,
    .whileLoop ⟨2, 1⟩ (.name ⟨2, 7⟩ "v")
      (.block ⟨2, 9⟩
        [.expr ⟨2, 11⟩ (.call ⟨2, 11⟩ (.name ⟨2, 11⟩ "print")
            [.call ⟨2, 17⟩ (.name ⟨2, 17⟩ "length") [.name ⟨2, 24⟩ "v"]]),
          .expr ⟨2, 29⟩ (.assign ⟨2, 31⟩ (.name ⟨2, 29⟩ "v")
            (.binary ⟨2, 35⟩ .sub (.literal ⟨2, 33⟩ (.integer 0))
              (.literal ⟨2, 37⟩ (.integer 1))))])]

/-- In the second turn the inner call fails, not the outer one. -/
theorem run_blames_kindChange :
    let e : RuntimeError := ⟨.invalidArgument .lengthText, ⟨2, 17⟩⟩
    let m' : Machine := ⟨⟨[("v", .integer (-1))], []⟩, ⟨"2\n", [], 0⟩⟩
    kindChange.run 3 (.ofLines []) = some (.error e, m') ∧
      ∃ n ∈ Stmt.allEvaluated kindChange, n.pos = ⟨2, 17⟩ ∧
        n.Explains (.invalidArgument .lengthText) := by
  intro e m'
  have hrun : kindChange.run 3 (.ofLines []) = some (.error e, m') := rfl
  exact ⟨hrun, Program.run_blames kindChange 3 (.ofLines []) e m' hrun⟩

end Scriptlet
