import Scriptlet.Proofs.Eval.Outcome

/-! The effects that code names. What holds of every single step with one of some effects holds of
all runs of code that names no others. -/
namespace Scriptlet

/-- What code can do to a machine, as the code names it. -/
inductive Effect where
  | assign (name : String)
  | declare (name : String)
  | call (function : String)
  | define (function : String)
deriving DecidableEq, Repr

mutual

/-- The effects that are named anywhere in the expression, also where it is never evaluated. -/
def Expr.effects : Expr → List Effect
  | .literal .. | .name .. => []
  | .binary _ _ a b | .index _ a b => a.effects ++ b.effects
  | .assign _ t e => t.name?.toList.map .assign ++ (t.effects ++ e.effects)
  | .unary _ _ e | .member _ e _ | .context _ e _ => e.effects
  | .call _ f args => f.name?.toList.map .call ++ (f.effects ++ Expr.allEffects args)

def Expr.allEffects : List Expr → List Effect
  | [] => []
  | e :: es => e.effects ++ Expr.allEffects es

end

def Declaration.effects (d : Declaration) : List Effect :=
  .declare d.name :: d.initial.toList.flatMap Expr.effects

mutual

/-- The effects that are named anywhere in the statement, function bodies included. -/
def Stmt.effects : Stmt → List Effect
  | .expr _ e => e.effects
  | .declare _ d => d.effects
  | .block _ body => Stmt.allEffects body
  | .function _ f body => .define f.name :: Stmt.allEffects body
  | .ret _ v => v.toList.flatMap Expr.effects
  | .ifThen _ c s | .whileLoop _ c s => c.effects ++ s.effects
  | .ifElse _ c s f => c.effects ++ (s.effects ++ f.effects)
  | .forRange _ _ a b s => a.effects ++ (b.effects ++ s.effects)

def Stmt.allEffects : List Stmt → List Effect
  | [] => []
  | s :: ss => s.effects ++ Stmt.allEffects ss

end

namespace Exec

/-- A property of computations that sequences keep, and that the single steps of an expression have
if their effects are among those of `P`. -/
structure Admits (P : Effect → Prop) (Q : ∀ α : Type, Exec α → Prop) : Prop where
  result {α : Type} (a : α) : Q α (pure a)
  failure {α : Type} (e : RuntimeError) : Q α (throw e)
  seq {α β : Type} {x : Exec α} {f : α → Exec β} (hx : Q α x) (hf : ∀ a, Q β (f a)) : Q β (x >>= f)
  lookup (p : Position) (id : String) : Q Value (ofEval (Eval.lookup p id))
  assign {id : String} (p : Position) (hp : P (.assign id)) (v : Value) :
    Q Value (ofEval (Eval.assign p id v))
  call {b : Builtin} (p : Position) (hp : P (.call b.name)) (vs : List Value) :
    Q Value (ofEval (Eval.builtin p b vs))

/-- A property that the steps of statements have too, and that scopes keep. A loop that reaches its
limit counts as a step. -/
structure AdmitsAll (P : Effect → Prop) (Q : ∀ α : Type, Exec α → Prop) : Prop
    extends Admits P Q where
  declare {id : String} (hp : P (.declare id)) (v : Value) :
    Q Unit (modify fun m => { m with scopes := m.scopes.declare id v })
  define {f : String} (hp : P (.define f)) : Q Unit (modify (·.announce f))
  scope {x : Exec Unit} (hx : Q Unit x) : Q Unit (inScope x)
  unfinished : Q Unit fun _ => none

variable {α : Type} {P : Effect → Prop} {Q : ∀ α : Type, Exec α → Prop}

theorem Admits.operation (h : Admits P Q) (p : Position) (r : Except Fault α) :
    Q α (ofEval (Eval.at p r)) := by
  cases r with
  | ok a => exact h.result a
  | error fault => exact h.failure ⟨fault, p⟩

theorem AdmitsAll.branch (h : AdmitsAll P Q) {c : Eval Bool} {x y : Exec Unit}
    (hc : Q Bool (ofEval c)) (hx : Q Unit x) (hy : Q Unit y) :
    Q Unit (ofEval c >>= fun b => if b then x else y) := by
  refine h.seq hc fun b => ?_
  cases b with
  | true => exact hx
  | false => exact hy

theorem AdmitsAll.loop (h : AdmitsAll P Q) {c : Eval Bool} {x : Exec Unit}
    (hc : Q Bool (ofEval c)) (hx : Q Unit x) (limit : Nat) : Q Unit (Exec.loop c x limit) := by
  induction limit with
  | zero => exact h.unfinished
  | succ limit ih =>
    have hturn : Q Unit (x >>= fun _ => Exec.loop c x limit) := h.seq hx fun _ => ih
    rw [loop_succ]
    exact h.branch hc hturn (h.result ())

end Exec

section Trees

open Exec

variable {P : Effect → Prop} {Q : ∀ α : Type, Exec α → Prop}

mutual

/-- Evaluation has an admitted property if the expression names no other effects. -/
theorem Expr.admits_eval (h : Admits P Q) (w : Arithmetic) :
    ∀ e : Expr, (∀ a ∈ e.effects, P a) → Q Value (ofEval (e.eval w))
  | .literal _ v, _ => h.result v
  | .name p id, _ => h.lookup p id
  | .binary p op l r, he => by
    rw [Expr.effects, List.forall_mem_append] at he
    simp only [Expr.eval, ofEval_bind]
    exact h.seq (l.admits_eval h w he.1) fun a => h.seq (r.admits_eval h w he.2) fun b =>
      h.operation p (w.binary op a b)
  | .assign p t e, he => by
    rw [Expr.effects, List.forall_mem_append, List.forall_mem_append] at he
    obtain ⟨htarget, _, hvalue⟩ := he
    rw [Expr.eval]
    cases ht : t.name? with
    | none => exact h.failure _
    | some id =>
      have hid : P (.assign id) := htarget _ (by simp [ht])
      simp only [ofEval_bind]
      exact h.seq (e.admits_eval h w hvalue) fun v => h.assign p hid v
  | .unary p op e, he => by
    simp only [Expr.eval, ofEval_bind]
    exact h.seq (e.admits_eval h w he) fun v => h.operation p (w.unary op v)
  | .call p f args, he => by
    rw [Expr.effects, List.forall_mem_append, List.forall_mem_append] at he
    obtain ⟨hcallee, _, hargs⟩ := he
    rw [Expr.eval]
    cases hf : f.name? with
    | none => exact h.failure _
    | some id =>
      dsimp only
      cases hb : Builtin.named? id with
      | none => exact h.failure _
      | some b =>
        have hname : P (.call b.name) := by
          rw [Builtin.named?_eq_some.1 hb]
          exact hcallee _ (by simp [hf])
        simp only [ofEval_bind]
        exact h.seq (Expr.admits_evalAll h w args hargs) fun vs => h.call p hname vs
  | .index .., _ | .member .., _ | .context .., _ => h.failure _

theorem Expr.admits_evalAll (h : Admits P Q) (w : Arithmetic) :
    ∀ es : List Expr, (∀ a ∈ Expr.allEffects es, P a) → Q (List Value) (ofEval (Expr.evalAll w es))
  | [], _ => h.result []
  | e :: es, he => by
    rw [Expr.allEffects, List.forall_mem_append] at he
    simp only [Expr.evalAll, ofEval_bind]
    exact h.seq (e.admits_eval h w he.1) fun v =>
      h.seq (Expr.admits_evalAll h w es he.2) fun vs => h.result (v :: vs)

end

theorem Expr.admits_test (h : Admits P Q) (w : Arithmetic) (e : Expr) (he : ∀ a ∈ e.effects, P a) :
    Q Bool (ofEval (e.test w)) := by
  simp only [Expr.test, ofEval_bind]
  exact h.seq (e.admits_eval h w he) fun v => h.result v.isTruthy

theorem Declaration.admits_value (h : Admits P Q) (w : Arithmetic) (d : Declaration)
    (hd : ∀ a ∈ d.effects, P a) : Q Value (ofEval (d.value w)) := by
  unfold Declaration.value
  cases he : d.initial with
  | none => exact h.result _
  | some e =>
    refine e.admits_eval h w fun a ha => hd a (List.mem_cons_of_mem _ ?_)
    simpa [he] using ha

mutual

/-- Running has an admitted property if the statement names no other effects. -/
theorem Stmt.admits_exec (h : AdmitsAll P Q) (w : Arithmetic) (limit : Nat) :
    ∀ s : Stmt, (∀ a ∈ s.effects, P a) → Q Unit (s.exec w limit)
  | .expr _ e, hs => h.seq (e.admits_eval h.toAdmits w hs) fun _ => h.result ()
  | .declare _ d, hs => by
    have hname : P (.declare d.name) := hs _ List.mem_cons_self
    exact h.seq (d.admits_value h.toAdmits w hs) fun v => h.declare hname v
  | .block _ body, hs => h.scope (Stmt.admits_execAll h w limit body hs)
  | .function _ _ _, hs => h.define (hs _ List.mem_cons_self)
  | .ret .., _ => h.failure _
  | .ifThen _ c s, hs => by
    rw [Stmt.effects, List.forall_mem_append] at hs
    exact h.branch (c.admits_test h.toAdmits w hs.1) (s.admits_exec h w limit hs.2) (h.result ())
  | .ifElse _ c s f, hs => by
    rw [Stmt.effects, List.forall_mem_append, List.forall_mem_append] at hs
    obtain ⟨hc, hs, hf⟩ := hs
    exact h.branch (c.admits_test h.toAdmits w hc) (s.admits_exec h w limit hs)
      (f.admits_exec h w limit hf)
  | .whileLoop _ c b, hs => by
    rw [Stmt.effects, List.forall_mem_append] at hs
    exact h.loop (c.admits_test h.toAdmits w hs.1) (b.admits_exec h w limit hs.2) limit
  | .forRange .., _ => h.failure _

theorem Stmt.admits_execAll (h : AdmitsAll P Q) (w : Arithmetic) (limit : Nat) :
    ∀ ss : List Stmt, (∀ a ∈ Stmt.allEffects ss, P a) → Q Unit (Stmt.execAll w limit ss)
  | [], _ => h.result ()
  | s :: ss, hs => by
    rw [Stmt.allEffects, List.forall_mem_append] at hs
    exact h.seq (s.admits_exec h w limit hs.1) fun _ => Stmt.admits_execAll h w limit ss hs.2

end

end Trees

section Relations

variable {α : Type} {P : Effect → Prop} {R : Machine → Machine → Prop}

/-- The machine behind a computation is related to the one before it. -/
def Eval.Keeps (R : Machine → Machine → Prop) (x : Eval α) : Prop := ∀ m, R m (x m).2

/-- Whenever the computation returns, also by a failure, the machine behind it is related to the one
before it. -/
def Exec.Keeps (R : Machine → Machine → Prop) (x : Exec α) : Prop :=
  ∀ m r m', x m = some (r, m') → R m m'

theorem Exec.keeps_ofEval {x : Eval α} : Exec.Keeps R (ofEval x) ↔ Eval.Keeps R x := by
  constructor
  · intro h m
    exact h m (x m).1 (x m).2 rfl
  · intro h m r m' hx
    have hm := h m
    rw [ofEval_eq_some.1 hx] at hm
    exact hm

/-- A relation that holds between a machine and itself, and along the assignments and the calls of
built-in functions that are among the effects of `P`. -/
structure Eval.Allows (P : Effect → Prop) (R : Machine → Machine → Prop) : Prop where
  refl (m : Machine) : R m m
  trans {m₁ m₂ m₃ : Machine} (h₁ : R m₁ m₂) (h₂ : R m₂ m₃) : R m₁ m₃
  assign {m : Machine} {id : String} {v : Value} {s : Scopes} (hp : P (.assign id))
      (h : m.scopes.assign id v = .ok s) : R m { m with scopes := s }
  call {b : Builtin} (hp : P (.call b.name)) (m : Machine) (vs : List Value) :
    R m { m with console := (b.call vs m.console).2 }

/-- A relation that allows the effects of `P` to statements too, and that does not see scopes which
are entered and left. -/
structure Exec.Allows (P : Effect → Prop) (R : Machine → Machine → Prop) : Prop
    extends Eval.Allows P R where
  declare {id : String} (hp : P (.declare id)) (m : Machine) (v : Value) :
    R m { m with scopes := m.scopes.declare id v }
  define {f : String} (hp : P (.define f)) (m : Machine) : R m (m.announce f)
  scope {m m₁ : Machine} (h : R { m with scopes := m.scopes.enter } m₁) :
    R m { m₁ with scopes := m₁.scopes.exit }

theorem Eval.Allows.admits (h : Eval.Allows P R) : Exec.Admits P fun _ x => Exec.Keeps R x where
  result a := by
    rintro m _ _ ⟨⟩
    exact h.refl m
  failure e := by
    rintro m _ _ ⟨⟩
    exact h.refl m
  seq hx hf := by
    intro m r m' hm
    obtain ⟨e, he, _⟩ | ⟨a, m₁, ha, hm⟩ := Exec.bind_eq_some.1 hm
    · exact hx m _ m' he
    · exact h.trans (hx m _ m₁ ha) (hf a m₁ r m' hm)
  lookup p id := by
    refine Exec.keeps_ofEval.2 fun m => ?_
    rw [Eval.lookup_apply]
    split <;> exact h.refl m
  assign p hp v := by
    refine Exec.keeps_ofEval.2 fun m => ?_
    rw [Eval.assign_apply]
    split
    · rename_i s hs
      exact h.assign hp hs
    · exact h.refl m
  call p hp vs := by
    refine Exec.keeps_ofEval.2 fun m => ?_
    rw [Eval.builtin_apply]
    exact h.call hp m vs

theorem Exec.Allows.admitsAll (h : Exec.Allows P R) :
    Exec.AdmitsAll P fun _ x => Exec.Keeps R x where
  toAdmits := h.toAllows.admits
  declare hp v := by
    rintro m _ _ ⟨⟩
    exact h.declare hp m v
  define hp := by
    rintro m _ _ ⟨⟩
    exact h.define hp m
  scope hx := by
    intro m r m' hm
    obtain ⟨m₁, h₁, rfl⟩ := Exec.inScope_eq_some.1 hm
    exact h.scope (hx _ r m₁ h₁)
  unfinished := nofun

namespace Eval.Allows

/-- Evaluation keeps a relation that allows its effects. -/
theorem keeps_eval (h : Eval.Allows P R) (w : Arithmetic) (e : Expr) (he : ∀ a ∈ e.effects, P a) :
    Keeps R (e.eval w) := Exec.keeps_ofEval.1 (e.admits_eval h.admits w he)

theorem keeps_test (h : Eval.Allows P R) (w : Arithmetic) (e : Expr) (he : ∀ a ∈ e.effects, P a) :
    Keeps R (e.test w) := Exec.keeps_ofEval.1 (e.admits_test h.admits w he)

theorem keeps_value (h : Eval.Allows P R) (w : Arithmetic) (d : Declaration)
    (hd : ∀ a ∈ d.effects, P a) : Keeps R (d.value w) :=
  Exec.keeps_ofEval.1 (d.admits_value h.admits w hd)

end Eval.Allows

end Relations

end Scriptlet
