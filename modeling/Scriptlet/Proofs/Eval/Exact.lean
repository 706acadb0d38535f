import Scriptlet.Proofs.Eval.Faults
import Scriptlet.Proofs.Eval.Words

/-! Computing with words against computing with all integers: the same run, or an overflow where the
exact result is no word. -/
namespace Scriptlet

/-- What a binary operator gives on integers of any size. A quotient is cut off toward zero, and a
remainder has the sign of the dividend. -/
def BinaryOp.exact : BinaryOp → Int → Int → Except Fault Value
  | add, a, b => .ok (.integer (a + b))
  | sub, a, b => .ok (.integer (a - b))
  | mul, a, b => .ok (.integer (a * b))
  | div, a, b => if b = 0 then .error .divisionByZero else .ok (.integer (a.tdiv b))
  | mod, a, b => if b = 0 then .error .moduloByZero else .ok (.integer (a.tmod b))
  | eq, a, b => .ok (.bool (a == b))
  | ne, a, b => .ok (.bool (a != b))
  | lt, a, b => .ok (.bool (a < b))
  | le, a, b => .ok (.bool (a ≤ b))
  | gt, a, b => .ok (.bool (b < a))
  | ge, a, b => .ok (.bool (b ≤ a))
  | and, a, b => .ok (.bool (a != 0 && b != 0))
  | or, a, b => .ok (.bool (a != 0 || b != 0))

/-- What a unary operator gives on integers of any size. -/
def UnaryOp.exact : UnaryOp → Int → Value
  | not, n => .bool (n == 0)
  | negate, n => .integer (-n)
  | plus, n => .integer n

/-- The arithmetic of all integers. Other operands are treated as in programs. -/
def Arithmetic.exact : Arithmetic where
  unary
    | op, .integer n => .ok (op.exact n)
    | op, a => op.apply a
  binary
    | op, .integer a, .integer b => op.exact a b
    | op, a, b => op.apply a b

/-- The integer that must be a word for an operation on words to have a result. For a remainder it
is the quotient that counts. -/
def BinaryOp.exactInt? : BinaryOp → Int → Int → Option Int
  | add, a, b => some (a + b)
  | sub, a, b => some (a - b)
  | mul, a, b => some (a * b)
  | div, a, b | mod, a, b => some (a.tdiv b)
  | _, _, _ => none

namespace Application

/-- The exact integer that the application comes to, or its quotient for a remainder. -/
def exactInt? (a : Application) : Option Int :=
  match a.node, a.operands with
  | .binary _ op _ _, [.integer m, .integer n] => op.exactInt? m n
  | .unary _ .negate _, [.integer n] => some (-n)
  | _, _ => none

/-- The node stands at the position, and what it comes to is no word. -/
def Overflows (a : Application) (p : Position) : Prop :=
  a.node.pos = p ∧ ∃ n, a.exactInt? = some n ∧ ¬ (-2 ^ 63 ≤ n ∧ n < 2 ^ 63)

end Application

/-- An operation on words against the exact one: the same result, or an overflow where the exact
integer is no word. -/
def ExactTo (exactInt? : Option Int) (word exact : Except Fault Value) : Prop :=
  exact = word ∧ word ≠ .error .integerOverflow ∨
    word = .error .integerOverflow ∧ ∃ n, exactInt? = some n ∧ ¬ (-2 ^ 63 ≤ n ∧ n < 2 ^ 63)

variable {exactInt? : Option Int} {r : Except Fault Value}

theorem exactTo_rfl (h : r ≠ .error .integerOverflow) : ExactTo exactInt? r r := .inl ⟨rfl, h⟩

theorem exactTo_ok (v : Value) : ExactTo exactInt? (.ok v) (.ok v) := exactTo_rfl nofun

theorem Value.exactTo_ofInt (n : Int) : ExactTo (some n) (ofInt n) (.ok (.integer n)) := by
  unfold ofInt
  by_cases h : fitsWord n
  · rw [if_pos h]
    exact exactTo_ok _
  · rw [if_neg h]
    exact .inr ⟨rfl, n, rfl, mt fitsWord_iff.2 h⟩

theorem BinaryOp.exactTo_integers (op : BinaryOp) (m n : Int) :
    ExactTo (op.exactInt? m n) (op.apply (.integer m) (.integer n)) (op.exact m n) := by
  cases op with
  | add | sub | mul => exact Value.exactTo_ofInt _
  | div =>
    simp only [apply, Value.divide, BinaryOp.exact]
    by_cases hn : n = 0
    · rw [if_pos hn, if_pos hn]
      exact exactTo_rfl (by simp)
    · rw [if_neg hn, if_neg hn]
      exact Value.exactTo_ofInt _
  | mod =>
    simp only [apply, Value.modulo, BinaryOp.exact]
    by_cases hn : n = 0
    · rw [if_pos hn, if_pos hn]
      exact exactTo_rfl (by simp)
    · rw [if_neg hn, if_neg hn]
      by_cases hq : Value.fitsWord (m.tdiv n)
      · rw [if_pos hq]
        exact exactTo_ok _
      · rw [if_neg hq]
        exact .inr ⟨rfl, _, rfl, mt Value.fitsWord_iff.2 hq⟩
  | lt | le | gt | ge | eq | ne | and | or => exact exactTo_ok _

/-- Only integers can overflow. -/
theorem BinaryOp.apply_ne_overflow (op : BinaryOp) {a b : Value}
    (h : ∀ m n, ¬ (a = .integer m ∧ b = .integer n)) : op.apply a b ≠ .error .integerOverflow := by
  cases op with
  | add | sub | mul =>
    simp only [apply, Value.add, Value.subtract, Value.multiply]
    split
    · rename_i m n
      exact absurd ⟨rfl, rfl⟩ (h m n)
    all_goals simp
  | div | mod =>
    simp only [apply, Value.divide, Value.modulo]
    split
    · rename_i m n
      exact absurd ⟨rfl, rfl⟩ (h m n)
    · split <;> simp
    · simp
  | lt | le | gt | ge =>
    simp only [apply, Value.lessThan, Value.lessEqual, Value.greaterThan, Value.greaterEqual,
      Value.compare]
    split <;> simp
  | eq | ne | and | or => simp [apply]

theorem BinaryOp.exactTo_apply (p : Position) (op : BinaryOp) (l r : Expr) (a b : Value)
    (m : Machine) : ExactTo (Application.exactInt? ⟨.binary p op l r, [a, b], m⟩)
      (op.apply a b) (Arithmetic.exact.binary op a b) := by
  by_cases h : ∃ i j, a = .integer i ∧ b = .integer j
  · obtain ⟨i, j, rfl, rfl⟩ := h
    exact op.exactTo_integers i j
  · have hsame : Arithmetic.exact.binary op a b = op.apply a b := by
      simp only [Arithmetic.exact]
      split
      · rename_i i j
        exact absurd ⟨i, j, rfl, rfl⟩ h
      · rfl
    rw [hsame]
    exact exactTo_rfl (op.apply_ne_overflow fun i j hij => h ⟨i, j, hij⟩)

theorem UnaryOp.exactTo_apply (p : Position) (op : UnaryOp) (e : Expr) (a : Value) (m : Machine) :
    ExactTo (Application.exactInt? ⟨.unary p op e, [a], m⟩) (op.apply a)
      (Arithmetic.exact.unary op a) := by
  cases a with
  | integer n =>
    cases op with
    | not =>
      refine .inl ⟨?_, by simp [apply]⟩
      simp [Arithmetic.exact, UnaryOp.exact, apply, Value.logicalNot, Value.isTruthy, bne]
    | plus => exact exactTo_ok _
    | negate => exact Value.exactTo_ofInt _
  | float _ | string _ | bool _ =>
    cases op <;> exact exactTo_rfl (by simp [apply, Value.negate, Value.plus])

theorem Builtin.call_ne_overflow (b : Builtin) (vs : List Value) (c : Console) :
    (b.call vs c).1 ≠ .error .integerOverflow := by
  intro h
  have hmem := mem_faults h
  cases b <;> simp [faults] at hmem

namespace Exec

variable {α β : Type} {x y : Exec α} {f g : α → Exec β} {t u : Trace} {tf tg : α → Trace}

/-- The first computation runs on words and the second one on all integers. They come to the same,
by the same applications of operators; or the first one overflows, and the second one reaches the
application that does not fit into a word after the same ones before it. -/
def Exact (x y : Exec α) (t u : Trace) : Prop := ∀ m,
  (y m = x m ∧ u m = t m ∧ ∀ e m', x m = some (.error e, m') → e.fault ≠ .integerOverflow) ∨
  ∃ e m' as a bs, x m = some (.error e, m') ∧ e.fault = .integerOverflow ∧
    t m = as ++ [a] ∧ u m = as ++ a :: bs ∧ a.Overflows e.position

theorem exact_rfl (h : ∀ m e m', x m = some (.error e, m') → e.fault ≠ .integerOverflow) :
    Exact x x t t := fun m => .inl ⟨rfl, rfl, h m⟩

theorem exact_pure (a : α) : Exact (pure a) (pure a) t t := exact_rfl nofun

theorem exact_throw {e : RuntimeError} (h : e.fault ≠ .integerOverflow) :
    Exact (throw e : Exec α) (throw e) t t := by
  refine exact_rfl ?_
  rintro m _ _ ⟨⟩
  exact h

theorem Exact.bind (hx : Exact x y t u) (hf : ∀ a, Exact (f a) (g a) (tf a) (tg a)) :
    Exact (x >>= f) (y >>= g) (traceThen x t tf) (traceThen y u tg) := by
  intro m
  rcases hx m with ⟨hy, hu, hne⟩ | ⟨e, m', as, a, bs, he, hk, ht, hu, ha⟩
  · simp only [bind_apply, traceThen, hy, hu]
    rcases hxm : x m with _ | ⟨e | a, m₁⟩
    · exact .inl ⟨rfl, rfl, nofun⟩
    · refine .inl ⟨rfl, rfl, ?_⟩
      rintro _ _ ⟨⟩
      exact hne e m₁ hxm
    · rcases hf a m₁ with ⟨hg, htg, hne'⟩ | ⟨e, m', as, b, bs, he, hk, ht, hu, hb⟩
      · exact .inl ⟨hg, congrArg (t m ++ ·) htg, hne'⟩
      · exact .inr ⟨e, m', t m ++ as, b, bs, he, hk, by simp [ht], by simp [hu], hb⟩
  · obtain ⟨cs, hcs⟩ : ∃ cs, traceThen y u tg m = u m ++ cs := ⟨_, rfl⟩
    refine .inr ⟨e, m', as, a, bs ++ cs, by rw [bind_apply, he], hk, ?_, ?_, ha⟩
    · simp [traceThen, he, ht]
    · simp [hcs, hu]

/-- Behind the last operator a computation may go on without applying any. -/
theorem Exact.quiet (hx : Exact x y t u) (hf : ∀ a, Exact (f a) (g a) (fun _ => []) (fun _ => [])) :
    Exact (x >>= f) (y >>= g) t u := by
  rw [← traceThen_nil x t, ← traceThen_nil y u]
  exact hx.bind hf

/-- An operation on values, with its application as the only one. -/
theorem exact_at (p : Position) {node : Expr} (hp : node.pos = p) (vs : List Value)
    {word exact : Except Fault Value}
    (h : ∀ m, ExactTo (Application.exactInt? ⟨node, vs, m⟩) word exact) :
    Exact (ofEval (Eval.at p word)) (ofEval (Eval.at p exact)) (fun m => [⟨node, vs, m⟩])
      fun m => [⟨node, vs, m⟩] := by
  intro m
  rcases h m with ⟨rfl, hne⟩ | ⟨rfl, hn⟩
  · refine .inl ⟨rfl, rfl, fun e m' he hk => ?_⟩
    rw [ofEval_eq_some, Eval.at_apply] at he
    cases exact with
    | ok v => cases he
    | error fault =>
      cases he
      exact hne (congrArg _ hk)
  · exact .inr ⟨⟨.integerOverflow, p⟩, m, [], _, [], rfl, rfl, rfl, rfl, hp, hn⟩

theorem exact_lookup (p : Position) (id : String) :
    Exact (ofEval (Eval.lookup p id)) (ofEval (Eval.lookup p id)) t t := by
  refine exact_rfl fun m e m' he => ?_
  rw [ofEval_eq_some, Eval.lookup_apply] at he
  split at he <;> cases he
  nofun

theorem exact_assign (p : Position) (id : String) (v : Value) :
    Exact (ofEval (Eval.assign p id v)) (ofEval (Eval.assign p id v)) t t := by
  refine exact_rfl fun m e m' he => ?_
  rw [ofEval_eq_some, Eval.assign_apply] at he
  split at he
  · cases he
  · rename_i fault hs
    cases he
    unfold Scopes.assign at hs
    split at hs
    · cases hs
    · split at hs <;> cases hs
      nofun

theorem exact_builtin (p : Position) (b : Builtin) (vs : List Value) :
    Exact (ofEval (Eval.builtin p b vs)) (ofEval (Eval.builtin p b vs)) t t := by
  refine exact_rfl fun m e m' he hk => ?_
  rw [ofEval_eq_some, Eval.builtin_apply] at he
  have hne := b.call_ne_overflow vs m.console
  cases hc : (b.call vs m.console).1 with
  | ok v =>
    rw [hc] at he
    cases he
  | error fault =>
    rw [hc] at he hne
    cases he
    exact hne (congrArg _ hk)

theorem Exact.inScope {x y : Exec Unit} (h : Exact x y t u) :
    Exact (inScope x) (inScope y) (fun m => t { m with scopes := m.scopes.enter })
      fun m => u { m with scopes := m.scopes.enter } := by
  intro m
  rcases h { m with scopes := m.scopes.enter } with ⟨hy, hu, hne⟩ | ⟨e, m', as, a, bs, he, hrest⟩
  · refine .inl ⟨by simp only [Exec.inScope, hy], hu, fun e m' he => ?_⟩
    obtain ⟨m₁, hm₁, _⟩ := inScope_eq_some.1 he
    exact hne e m₁ hm₁
  · exact .inr ⟨e, _, as, a, bs, inScope_eq_some.2 ⟨m', he, rfl⟩, hrest⟩

theorem Exact.loop {c d : Eval Bool} {x y : Exec Unit} {tc td : Trace}
    (hc : Exact (ofEval c) (ofEval d) tc td) (hx : Exact x y t u) (limit : Nat) :
    Exact (loop c x limit) (loop d y limit) (traceLoop c x tc t limit)
      (traceLoop d y td u limit) := by
  induction limit with
  | zero => exact fun m => .inl ⟨rfl, rfl, nofun⟩
  | succ limit ih =>
    rw [loop_succ, loop_succ]
    refine hc.bind fun b => ?_
    cases b with
    | true => exact hx.bind fun _ => ih
    | false => exact exact_pure ()

end Exec

open Exec in
mutual

theorem Expr.exact_eval : ∀ e : Expr, Exact (ofEval (e.eval .word)) (ofEval (e.eval .exact))
    (e.trace .word) (e.trace .exact)
  | .literal _ v => exact_pure v
  | .name p id => exact_lookup p id
  | .binary p op l r => by
    rw [Expr.eval, Expr.eval, Expr.trace, Expr.trace, ofEval_bind, ofEval_bind]
    refine l.exact_eval.bind fun a => ?_
    rw [ofEval_bind, ofEval_bind]
    exact r.exact_eval.bind fun b => exact_at p rfl [a, b] (op.exactTo_apply p l r a b)
  | .assign p t e => by
    rw [Expr.eval, Expr.eval, Expr.trace, Expr.trace]
    cases t.name? with
    | some id =>
      rw [Option.isSome_some, if_pos rfl, if_pos rfl, ofEval_bind, ofEval_bind]
      exact e.exact_eval.quiet fun v => exact_assign p id v
    | none =>
      rw [Option.isSome_none, if_neg nofun, if_neg nofun]
      exact exact_throw nofun
  | .unary p op e => by
    rw [Expr.eval, Expr.eval, Expr.trace, Expr.trace, ofEval_bind, ofEval_bind]
    exact e.exact_eval.bind fun a => exact_at p rfl [a] (op.exactTo_apply p e a)
  | .call p f args => by
    rw [Expr.eval, Expr.eval, Expr.trace, Expr.trace]
    cases f.name? with
    | some id =>
      rw [Option.bind_some]
      dsimp only
      cases Builtin.named? id with
      | some b =>
        rw [Option.isSome_some, if_pos rfl, if_pos rfl, ofEval_bind, ofEval_bind]
        exact (Expr.exact_evalAll args).quiet fun vs => exact_builtin p b vs
      | none =>
        rw [Option.isSome_none, if_neg nofun, if_neg nofun]
        exact exact_throw nofun
    | none =>
      rw [Option.bind_none, Option.isSome_none, if_neg nofun, if_neg nofun]
      exact exact_throw nofun
  | .index .. | .member .. | .context .. => exact_throw nofun

theorem Expr.exact_evalAll : ∀ es : List Expr,
    Exact (ofEval (Expr.evalAll .word es)) (ofEval (Expr.evalAll .exact es))
      (Expr.traceAll .word es) (Expr.traceAll .exact es)
  | [] => exact_pure []
  | e :: es => by
    rw [Expr.evalAll, Expr.evalAll, Expr.traceAll, Expr.traceAll, ofEval_bind, ofEval_bind]
    refine e.exact_eval.bind fun v => ?_
    rw [ofEval_bind, ofEval_bind]
    exact (Expr.exact_evalAll es).quiet fun vs => exact_pure (v :: vs)

end

open Exec in
theorem Expr.exact_test (c : Expr) : Exact (ofEval (c.test .word)) (ofEval (c.test .exact))
    (c.trace .word) (c.trace .exact) := by
  rw [Expr.test, Expr.test, ofEval_bind, ofEval_bind]
  exact c.exact_eval.quiet fun v => exact_pure v.isTruthy

open Exec in
theorem Declaration.exact_value (d : Declaration) :
    Exact (ofEval (d.value .word)) (ofEval (d.value .exact)) (d.trace .word)
      (d.trace .exact) := by
  unfold Declaration.value Declaration.trace
  cases d.initial with
  | some e => exact e.exact_eval
  | none => exact exact_pure _

open Exec in
mutual

theorem Stmt.exact_exec (limit : Nat) : ∀ s : Stmt,
    Exact (s.exec .word limit) (s.exec .exact limit) (s.trace .word limit)
      (s.trace .exact limit)
  | .expr _ e => by
    rw [Stmt.exec, Stmt.exec, Stmt.trace, Stmt.trace]
    exact e.exact_eval.quiet fun _ => exact_pure ()
  | .declare _ d => by
    rw [Stmt.exec, Stmt.exec, Stmt.trace, Stmt.trace]
    exact d.exact_value.quiet fun v => exact_rfl nofun
  | .block _ body => (Stmt.exact_execAll limit body).inScope
  | .function .. => exact_rfl nofun
  | .ret .. => exact_throw nofun
  | .ifThen _ c s => by
    rw [Stmt.exec, Stmt.exec, Stmt.trace, Stmt.trace]
    refine c.exact_test.bind fun b => ?_
    cases b with
    | true => exact s.exact_exec limit
    | false => exact exact_pure ()
  | .ifElse _ c s f => by
    rw [Stmt.exec, Stmt.exec, Stmt.trace, Stmt.trace]
    refine c.exact_test.bind fun b => ?_
    cases b with
    | true => exact s.exact_exec limit
    | false => exact f.exact_exec limit
  | .whileLoop _ c b => c.exact_test.loop (b.exact_exec limit) limit
  | .forRange .. => exact_throw nofun

theorem Stmt.exact_execAll (limit : Nat) : ∀ ss : List Stmt,
    Exact (Stmt.execAll .word limit ss) (Stmt.execAll .exact limit ss)
      (Stmt.traceAll .word limit ss) (Stmt.traceAll .exact limit ss)
  | [] => exact_pure ()
  | s :: ss => by
    rw [Stmt.execAll, Stmt.execAll, Stmt.traceAll, Stmt.traceAll]
    exact (s.exact_exec limit).bind fun _ => Stmt.exact_execAll limit ss

end

/-- A quotient of words that is no word is that of the least word by minus one. -/
theorem tdiv_overflow {a b : Int} (ha : (Value.integer a).IsWord)
    (hq : ¬ (-2 ^ 63 ≤ a.tdiv b ∧ a.tdiv b < 2 ^ 63)) : a = -2 ^ 63 ∧ b = -1 := by
  have habs : (a.tdiv b).natAbs = a.natAbs / b.natAbs := Int.natAbs_tdiv a b
  simp only [Value.IsWord] at ha
  rcases Nat.lt_trichotomy b.natAbs 1 with hlt | hone | hgt
  · rw [Nat.lt_one_iff.1 hlt, Nat.div_zero] at habs
    omega
  · rcases Int.natAbs_eq_iff.1 hone with rfl | rfl
    · rw [Int.natCast_one, Int.tdiv_one] at hq
      exact absurd ha hq
    · rw [Int.natCast_one, Int.tdiv_neg, Int.tdiv_one] at hq
      exact ⟨by omega, rfl⟩
  · have hhalf : a.natAbs / b.natAbs ≤ a.natAbs / 2 := Nat.div_le_div_left hgt (by decide)
    omega

/-- Only the least word by minus one overflows in a remainder. -/
theorem Application.operands_of_mod {a : Application} {p q : Position} {l r : Expr}
    (h : a.Overflows p) (hn : a.node = .binary q .mod l r) (hw : ∀ v ∈ a.operands, v.IsWord) :
    a.operands = [.integer (-2 ^ 63), .integer (-1)] := by
  obtain ⟨_, n, hexact, hout⟩ := h
  unfold exactInt? at hexact
  split at hexact
  · rename_i x y hnode hops
    rw [hn] at hnode
    cases hnode
    cases hexact
    rw [hops] at hw ⊢
    obtain ⟨rfl, rfl⟩ := tdiv_overflow (hw (.integer x) (by simp)) hout
    rfl
  · rename_i hnode _
    rw [hn] at hnode
    cases hnode
  · cases hexact

/-- A run on words that ends without an overflow is the run on all integers. One that ends with an
overflow applied the same operators, to the same operands and on the same machines, up to the one
at which the run on all integers gets no word; for a remainder that is its quotient, and with
operands of 64 bits only the least word by minus one has such a quotient. -/
theorem Program.run_exact (limit : Nat) (p : Program) (m : Machine) :
    (∀ r m', Program.run limit p m = some (r, m') →
      (∀ e, r = .error e → e.fault ≠ .integerOverflow) →
      Stmt.execAll .exact limit p m = some (r, m')) ∧
    ∀ e m', Program.run limit p m = some (.error e, m') → e.fault = .integerOverflow →
      ∃ as a bs, Stmt.traceAll .word limit p m = as ++ [a] ∧
        Stmt.traceAll .exact limit p m = as ++ a :: bs ∧ a.Overflows e.position ∧
        (m.scopes.Words → Stmt.AllWords p → (∀ v ∈ a.operands, v.IsWord) ∧
          ∀ q l r, a.node = .binary q .mod l r →
            a.operands = [.integer (-2 ^ 63), .integer (-1)]) := by
  have hexact := Stmt.exact_execAll limit p m
  constructor
  · intro r m' hr hne
    rcases hexact with ⟨hsame, _, _⟩ | ⟨e, m₁, _, _, _, he, hk, _⟩
    · exact hsame.trans hr
    · rw [Program.run, he] at hr
      cases hr
      exact absurd hk (hne e rfl)
  · intro e m' hr hk
    rcases hexact with ⟨_, _, hne⟩ | ⟨e', m₁, as, a, bs, he, _, ht, hu, ha⟩
    · exact absurd hk (hne e m' hr)
    · rw [Program.run, he] at hr
      cases hr
      refine ⟨as, a, bs, ht, hu, ha, fun hm hp => ?_⟩
      have hmem : a ∈ Stmt.traceAll .word limit p m := by simp [ht]
      have hw := (Stmt.worded_execAll limit p hp m hm).1 a hmem
      exact ⟨hw, fun q l r hn => Application.operands_of_mod ha hn hw⟩

/-- `x % -1;` fails at its operator on the least word, and `x % 2;` is exact. -/
theorem run_exact_least :
    let rem (e : Expr) : Program := [.expr ⟨1, 1⟩ (.binary ⟨1, 3⟩ .mod (.name ⟨1, 1⟩ "x") e)]
    let one : Expr := .unary ⟨1, 5⟩ .negate (.literal ⟨1, 6⟩ (.integer 1))
    let two : Expr := .literal ⟨1, 5⟩ (.integer 2)
    let m : Machine := ⟨⟨[("x", .integer (-2 ^ 63))], []⟩, .ofLines []⟩
    (Program.run 1 (rem one) m = some (.error ⟨.integerOverflow, ⟨1, 3⟩⟩, m) ∧
      ∃ as a bs, Stmt.traceAll .word 1 (rem one) m = as ++ [a] ∧
        Stmt.traceAll .exact 1 (rem one) m = as ++ a :: bs ∧ a.Overflows ⟨1, 3⟩ ∧
        ∀ v ∈ a.operands, v.IsWord) ∧
    Program.run 1 (rem two) m = some (.ok (), m) ∧
    Stmt.execAll .exact 1 (rem two) m = some (.ok (), m) := by
  intro rem one two m
  have hone : Program.run 1 (rem one) m = some (.error ⟨.integerOverflow, ⟨1, 3⟩⟩, m) := rfl
  have htwo : Program.run 1 (rem two) m = some (.ok (), m) := rfl
  have hm : m.scopes.Words := by simp [m, Scopes.Words, Scopes.frames, Value.IsWord]
  have hp : Stmt.AllWords (rem one) := by
    simp [rem, one, Stmt.AllWords, Stmt.Words, Expr.Words, Value.IsWord]
  obtain ⟨as, a, bs, ht, hu, ha, hw⟩ := (Program.run_exact 1 (rem one) m).2 _ _ hone rfl
  exact ⟨⟨hone, as, a, bs, ht, hu, ha, (hw hm hp).1⟩, htwo,
    (Program.run_exact 1 (rem two) m).1 _ _ htwo (by simp)⟩

end Scriptlet
