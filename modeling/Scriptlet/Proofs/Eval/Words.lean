import Mathlib.Algebra.Group.Int.Defs
import Mathlib.Algebra.Group.Nat.Defs
import Scriptlet.Proofs.Eval.Slices
import Scriptlet.Proofs.Eval.Trace

/-! Integers of 64 bits stay integers of 64 bits: programs that are written with them compute with
nothing else. -/
namespace Scriptlet

/-- An integer lies between `-2 ^ 63` and `2 ^ 63 - 1`; other values are not restricted. -/
def Value.IsWord : Value → Prop
  | integer n => -2 ^ 63 ≤ n ∧ n < 2 ^ 63
  | _ => True

/-- All variables have values of 64 bits. -/
def Scopes.Words (s : Scopes) : Prop := ∀ f ∈ s.frames, ∀ b ∈ f, b.2.IsWord

mutual

/-- All literals in the expression have 64 bits. -/
def Expr.Words : Expr → Prop
  | .literal _ v => v.IsWord
  | .name .. => True
  | .binary _ _ l r => l.Words ∧ r.Words
  | .assign _ t e => t.Words ∧ e.Words
  | .unary _ _ e => e.Words
  | .call _ f args => f.Words ∧ Expr.AllWords args
  | .index _ a i => a.Words ∧ i.Words
  | .member _ e _ => e.Words
  | .context _ e _ => e.Words

def Expr.AllWords : List Expr → Prop
  | [] => True
  | e :: es => e.Words ∧ Expr.AllWords es

end

mutual

/-- All literals in the statement have 64 bits. -/
def Stmt.Words : Stmt → Prop
  | .expr _ e => e.Words
  | .declare _ d => ∀ e ∈ d.initial, Expr.Words e
  | .block _ body | .function _ _ body => Stmt.AllWords body
  | .ret _ value => ∀ e ∈ value, Expr.Words e
  | .ifThen _ c s => c.Words ∧ s.Words
  | .ifElse _ c s f => c.Words ∧ s.Words ∧ f.Words
  | .whileLoop _ c b => c.Words ∧ b.Words
  | .forRange _ _ a b s => a.Words ∧ b.Words ∧ s.Words

def Stmt.AllWords : List Stmt → Prop
  | [] => True
  | s :: ss => s.Words ∧ Stmt.AllWords ss

end

theorem Value.fitsWord_iff {n : Int} : Value.fitsWord n ↔ -2 ^ 63 ≤ n ∧ n < 2 ^ 63 := by
  simp [Value.fitsWord]
  omega

namespace Value

theorem isWord_ofInt {n : Int} {v : Value} (h : ofInt n = .ok v) : v.IsWord := by
  unfold ofInt at h
  split at h
  · rename_i hn
    cases h
    exact Value.fitsWord_iff.1 hn
  · cases h

private theorem isWord_tmod {a b : Int} (hb : (integer b).IsWord) (hb0 : b ≠ 0) :
    (integer (a.tmod b)).IsWord := by
  have hlt : (a.tmod b).natAbs < b.natAbs := by
    rw [Int.natAbs_tmod]
    exact Nat.mod_lt _ (Int.natAbs_pos.2 hb0)
  simp only [IsWord] at hb ⊢
  omega

end Value

theorem BinaryOp.isWord_apply (op : BinaryOp) {a b v : Value} (hb : b.IsWord)
    (h : op.apply a b = .ok v) : v.IsWord := by
  cases op with
  | add | sub | mul =>
    simp only [apply, Value.add, Value.subtract, Value.multiply] at h
    split at h
    · exact Value.isWord_ofInt h
    all_goals cases h <;> trivial
  | div =>
    simp only [apply, Value.divide] at h
    split at h
    · split at h
      · cases h
      · exact Value.isWord_ofInt h
    · split at h <;> cases h
      trivial
    · cases h
  | mod =>
    simp only [apply, Value.modulo] at h
    split at h
    · split at h
      · cases h
      · rename_i hb0
        split at h <;> cases h
        exact Value.isWord_tmod hb hb0
    · split at h <;> cases h
      trivial
    · cases h
  | lt | le | gt | ge =>
    simp only [apply, Value.lessThan, Value.lessEqual, Value.greaterThan, Value.greaterEqual,
      Value.compare] at h
    split at h <;> cases h <;> trivial
  | eq | ne | and | or =>
    cases h
    trivial

theorem UnaryOp.isWord_apply (op : UnaryOp) {a v : Value} (ha : a.IsWord)
    (h : op.apply a = .ok v) : v.IsWord := by
  cases op with
  | not =>
    cases h
    trivial
  | negate =>
    simp only [apply, Value.negate] at h
    split at h
    · exact Value.isWord_ofInt h
    · cases h
      trivial
    · cases h
  | plus =>
    simp only [apply, Value.plus] at h
    split at h <;> cases h
    · exact ha
    · trivial

theorem Builtin.isWord_lengthOf {vs : List Value} {v : Value} (h : lengthOf vs = .ok v) :
    v.IsWord := by
  unfold lengthOf at h
  split at h <;> cases h
  rename_i s
  have hpos : 0 < 18446744073709551616 := by decide
  have hlo := Int.le_bmod (x := s.length) hpos
  have hhi := Int.bmod_lt (x := s.length) hpos
  exact ⟨by omega, by omega⟩

theorem Builtin.isWord_substringOf {vs : List Value} {v : Value} (h : substringOf vs = .ok v) :
    v.IsWord := by
  have hpart (text start : Value) (most : Option Value)
      (h : substringOf.part text start most = .ok v) : v.IsWord := by
    obtain ⟨u, hu⟩ | ⟨argument, _, he⟩ := part_cases text start most
    · cases hu.symm.trans h
      trivial
    · cases he.symm.trans h
  unfold substringOf at h
  split at h
  · exact hpart _ _ _ h
  · exact hpart _ _ _ h
  · cases h

/-- Whatever a built-in function returns has 64 bits. -/
theorem Builtin.isWord_call (b : Builtin) {vs : List Value} {c : Console} {v : Value}
    (h : (b.call vs c).1 = .ok v) : v.IsWord := by
  cases b with
  | print =>
    cases h
    exact ⟨by decide, by decide⟩
  | input =>
    cases h
    trivial
  | length => exact isWord_lengthOf h
  | substring => exact isWord_substringOf h

namespace Frame

private theorem mem_insert {f : Frame} {name : String} {v : Value} {b : String × Value}
    (h : b ∈ f.insert name v) : b = (name, v) ∨ b ∈ f := by
  induction f with
  | nil =>
    simp only [insert, List.mem_singleton] at h
    exact .inl h
  | cons a f ih =>
    unfold insert at h
    split at h
    · rename_i hn
      rcases List.mem_cons.1 h with rfl | h
      · exact .inl (by rw [hn])
      · exact .inr (.tail _ h)
    · rcases List.mem_cons.1 h with rfl | h
      · exact .inr (.head _)
      · exact (ih h).imp_right (.tail _)

private theorem mem_of_get? {f : Frame} {name : String} {v : Value} (h : f.get? name = some v) :
    ∃ b ∈ f, b.2 = v := by
  obtain ⟨as, bs, rfl, _⟩ := List.lookup_eq_some_iff.1 h
  exact ⟨(name, v), by simp, rfl⟩

theorem words_insert {f : Frame} (hf : ∀ b ∈ f, b.2.IsWord) {name : String} {v : Value}
    (hv : v.IsWord) : ∀ b ∈ f.insert name v, b.2.IsWord := by
  intro b hb
  rcases mem_insert hb with rfl | hb
  · exact hv
  · exact hf b hb

end Frame

namespace Scopes.Words

variable {s t : Scopes} {name : String} {v : Value}

theorem get? (h : s.Words) (hv : s.get? name = some v) : v.IsWord := by
  obtain ⟨f, hf, hv⟩ := List.exists_of_findSome?_eq_some hv
  obtain ⟨b, hb, rfl⟩ := Frame.mem_of_get? hv
  exact h f hf b hb

theorem declare (h : s.Words) (hv : v.IsWord) : (s.declare name v).Words := by
  obtain ⟨hi, ho⟩ := List.forall_mem_cons.1 h
  exact List.forall_mem_cons.2 ⟨Frame.words_insert hi hv, ho⟩

theorem enter (h : s.Words) : s.enter.Words := List.forall_mem_cons.2 ⟨nofun, h⟩

theorem exit (h : s.Words) : s.exit.Words := by
  obtain ⟨inner, outer⟩ := s
  cases outer with
  | nil => exact h
  | cons f fs => exact (List.forall_mem_cons.1 h).2

theorem assignFrames {fs gs : List Frame} (h : ∀ f ∈ fs, ∀ b ∈ f, b.2.IsWord) (hv : v.IsWord)
    (hg : Scopes.assignFrames name v fs = some gs) : ∀ f ∈ gs, ∀ b ∈ f, b.2.IsWord := by
  induction fs generalizing gs with
  | nil => cases hg
  | cons f fs ih =>
    obtain ⟨hf, hfs⟩ := List.forall_mem_cons.1 h
    unfold Scopes.assignFrames at hg
    split at hg
    · cases hg
      exact List.forall_mem_cons.2 ⟨Frame.words_insert hf hv, hfs⟩
    · obtain ⟨gs, hgs, rfl⟩ := Option.map_eq_some_iff.1 hg
      exact List.forall_mem_cons.2 ⟨hf, ih hfs hgs⟩

theorem assign (h : s.Words) (hv : v.IsWord) (ht : s.assign name v = .ok t) : t.Words := by
  obtain ⟨hi, ho⟩ := List.forall_mem_cons.1 h
  unfold Scopes.assign at ht
  split at ht
  · cases ht
    exact List.forall_mem_cons.2 ⟨Frame.words_insert hi hv, ho⟩
  · split at ht
    · rename_i fs hfs
      cases ht
      exact List.forall_mem_cons.2 ⟨hi, assignFrames ho hv hfs⟩
    · cases ht

end Scopes.Words

namespace Exec

variable {α β : Type} {x : Exec α} {f : α → Exec β} {t : Trace} {u : α → Trace} {P : α → Prop}
  {Q : β → Prop}

/-- From variables of 64 bits, the computation applies operators to values of 64 bits only, keeps
the variables so whenever it returns, and has a result as `P` says. -/
def Worded (x : Exec α) (t : Trace) (P : α → Prop) : Prop :=
  ∀ m, m.scopes.Words → (∀ a ∈ t m, ∀ v ∈ a.operands, v.IsWord) ∧
    ∀ r m', x m = some (r, m') → m'.scopes.Words ∧ ∀ a, r = .ok a → P a

theorem Worded.bind (hx : Worded x t P) (hf : ∀ a, P a → Worded (f a) (u a) Q) :
    Worded (x >>= f) (traceThen x t u) Q := by
  intro m hm
  obtain ⟨ht, hr⟩ := hx m hm
  constructor
  · intro a ha
    rcases List.mem_append.1 ha with ha | ha
    · exact ht a ha
    · split at ha
      · rename_i b m₁ he
        obtain ⟨hm₁, hb⟩ := hr _ _ he
        exact (hf b (hb b rfl) m₁ hm₁).1 a ha
      · cases ha
  · intro r m' h
    obtain ⟨e, he, rfl⟩ | ⟨a, m₁, he, h⟩ := bind_eq_some.1 h
    · exact ⟨(hr _ _ he).1, nofun⟩
    · obtain ⟨hm₁, ha⟩ := hr _ _ he
      exact (hf a (ha a rfl) m₁ hm₁).2 r m' h

/-- Behind the last operator a computation may go on without applying any. -/
theorem Worded.quiet (hx : Worded x t P) (hf : ∀ a, P a → Worded (f a) (fun _ => []) Q) :
    Worded (x >>= f) t Q := by
  rw [← traceThen_nil x t]
  exact hx.bind hf

theorem worded_pure {a : α} (h : P a) : Worded (pure a) (fun _ => []) P := by
  intro m hm
  refine ⟨nofun, ?_⟩
  rintro r m' ⟨⟩
  exact ⟨hm, by rintro _ ⟨⟩; exact h⟩

theorem worded_throw (e : RuntimeError) : Worded (throw e : Exec α) (fun _ => []) P := by
  intro m hm
  refine ⟨nofun, ?_⟩
  rintro r m' ⟨⟩
  exact ⟨hm, nofun⟩

theorem worded_modify {g : Machine → Machine} (h : ∀ m, m.scopes.Words → (g m).scopes.Words) :
    Worded (modify g) (fun _ => []) fun _ => True := by
  intro m hm
  refine ⟨nofun, ?_⟩
  rintro r m' ⟨⟩
  exact ⟨h m hm, fun _ _ => trivial⟩

/-- An operation that belongs to a node, with the operators that are applied in it. -/
theorem worded_at (p : Position) {r : Except Fault α}
    (ht : ∀ m, ∀ a ∈ t m, ∀ v ∈ a.operands, v.IsWord)
    (h : ∀ a, r = .ok a → P a) : Worded (ofEval (Eval.at p r)) t P := by
  intro m hm
  refine ⟨ht m, fun r' m' he => ?_⟩
  rw [ofEval_eq_some, Eval.at_apply] at he
  cases he
  refine ⟨hm, fun a ha => ?_⟩
  cases r with
  | ok b =>
    cases ha
    exact h _ rfl
  | error _ => cases ha

theorem worded_lookup (p : Position) (id : String) :
    Worded (ofEval (Eval.lookup p id)) (fun _ => []) Value.IsWord := by
  intro m hm
  refine ⟨nofun, fun r m' h => ?_⟩
  rw [ofEval_eq_some, Eval.lookup_apply] at h
  split at h
  · rename_i v hv
    cases h
    exact ⟨hm, by rintro _ ⟨⟩; exact hm.get? hv⟩
  · cases h
    exact ⟨hm, nofun⟩

theorem worded_assign (p : Position) (id : String) {v : Value} (hv : v.IsWord) :
    Worded (ofEval (Eval.assign p id v)) (fun _ => []) Value.IsWord := by
  intro m hm
  refine ⟨nofun, fun r m' h => ?_⟩
  rw [ofEval_eq_some, Eval.assign_apply] at h
  split at h
  · rename_i s hs
    cases h
    exact ⟨hm.assign hv hs, by rintro _ ⟨⟩; exact hv⟩
  · cases h
    exact ⟨hm, nofun⟩

theorem worded_builtin (p : Position) (b : Builtin) (vs : List Value) :
    Worded (ofEval (Eval.builtin p b vs)) (fun _ => []) Value.IsWord := by
  intro m hm
  refine ⟨nofun, fun r m' h => ?_⟩
  rw [ofEval_eq_some, Eval.builtin_apply] at h
  cases h
  refine ⟨hm, fun v hv => ?_⟩
  cases hc : (b.call vs m.console).1 with
  | ok u =>
    rw [hc] at hv
    cases hv
    exact b.isWord_call hc
  | error e =>
    rw [hc] at hv
    cases hv

theorem Worded.inScope {x : Exec Unit} (h : Worded x t fun _ => True) :
    Worded (inScope x) (fun m => t { m with scopes := m.scopes.enter }) fun _ => True := by
  intro m hm
  obtain ⟨ht, hr⟩ := h { m with scopes := m.scopes.enter } hm.enter
  refine ⟨ht, fun r m' h => ?_⟩
  obtain ⟨m₁, hm₁, rfl⟩ := inScope_eq_some.1 h
  exact ⟨(hr _ _ hm₁).1.exit, fun _ _ => trivial⟩

theorem Worded.loop {condition : Eval Bool} {body : Exec Unit} {test inside : Trace}
    (hc : Worded (ofEval condition) test fun _ => True) (hb : Worded body inside fun _ => True)
    (limit : Nat) :
    Worded (loop condition body limit) (traceLoop condition body test inside limit)
      fun _ => True := by
  induction limit with
  | zero => exact fun m hm => ⟨nofun, nofun⟩
  | succ limit ih =>
    rw [loop_succ]
    refine hc.bind fun b _ => ?_
    cases b with
    | true => exact hb.bind fun _ _ => ih
    | false => exact worded_pure trivial

end Exec

open Exec in
mutual

theorem Expr.worded_eval : ∀ e : Expr, e.Words →
    Worded (ofEval (e.eval .word)) (e.trace .word) Value.IsWord
  | .literal _ v, h => worded_pure h
  | .name p id, _ => worded_lookup p id
  | .binary p op l r, h => by
    rw [Expr.eval, Expr.trace, ofEval_bind]
    refine (l.worded_eval h.1).bind fun a ha => ?_
    rw [ofEval_bind]
    refine (r.worded_eval h.2).bind fun b hb => ?_
    refine worded_at p (fun m x hx => ?_) fun v hv => op.isWord_apply hb hv
    cases List.mem_singleton.1 hx
    simpa using ⟨ha, hb⟩
  | .assign p t e, h => by
    rw [Expr.eval, Expr.trace]
    split
    · rename_i id ht
      rw [ofEval_bind, ht, Option.isSome_some, if_pos rfl]
      exact (e.worded_eval h.2).quiet fun v hv => worded_assign p id hv
    · rename_i ht
      rw [ht, Option.isSome_none, if_neg (by decide)]
      exact worded_throw _
  | .unary p op e, h => by
    rw [Expr.eval, Expr.trace, ofEval_bind]
    refine (e.worded_eval h).bind fun a ha => ?_
    refine worded_at p (fun m x hx => ?_) fun v hv => op.isWord_apply ha hv
    cases List.mem_singleton.1 hx
    simpa using ha
  | .call p f args, h => by
    rw [Expr.eval, Expr.trace]
    split
    · rename_i id hf
      rw [hf, Option.bind_some]
      split
      · rename_i b hb
        rw [ofEval_bind, hb, Option.isSome_some, if_pos rfl]
        exact (Expr.worded_evalAll args h.2).quiet fun vs _ => worded_builtin p b vs
      · rename_i hb
        rw [hb, Option.isSome_none, if_neg (by decide)]
        exact worded_throw _
    · rename_i hf
      rw [hf, Option.bind_none, Option.isSome_none, if_neg (by decide)]
      exact worded_throw _
  | .index .., _ | .member .., _ | .context .., _ => worded_throw _

theorem Expr.worded_evalAll : ∀ es : List Expr, Expr.AllWords es →
    Worded (ofEval (Expr.evalAll .word es)) (Expr.traceAll .word es) fun _ => True
  | [], _ => worded_pure trivial
  | e :: es, h => by
    rw [Expr.evalAll, Expr.traceAll, ofEval_bind]
    refine (e.worded_eval h.1).bind fun v _ => ?_
    rw [ofEval_bind]
    exact (Expr.worded_evalAll es h.2).quiet fun vs _ => worded_pure trivial

end

open Exec in
theorem Expr.worded_test (c : Expr) (h : c.Words) :
    Worded (ofEval (c.test .word)) (c.trace .word) fun _ => True := by
  rw [Expr.test, ofEval_bind]
  exact (c.worded_eval h).quiet fun v _ => worded_pure trivial

open Exec in
theorem Declaration.worded_value (d : Declaration) (h : ∀ e ∈ d.initial, Expr.Words e) :
    Worded (ofEval (d.value .word)) (d.trace .word) Value.IsWord := by
  rw [Declaration.value, Declaration.trace]
  cases he : d.initial with
  | some e => exact e.worded_eval (h e he)
  | none =>
    have hzero : (Value.integer 0).IsWord := ⟨by decide, by decide⟩
    exact worded_pure hzero

open Exec in
mutual

theorem Stmt.worded_exec (limit : Nat) : ∀ s : Stmt, s.Words →
    Worded (s.exec .word limit) (s.trace .word limit) fun _ => True
  | .expr _ e, h => by
    rw [Stmt.exec, Stmt.trace]
    exact (e.worded_eval h).quiet fun _ _ => worded_pure trivial
  | .declare _ d, h => by
    rw [Stmt.exec, Stmt.trace]
    exact (d.worded_value h).quiet fun v hv => worded_modify fun m hm => hm.declare hv
  | .block _ body, h => (Stmt.worded_execAll limit body h).inScope
  | .function .., _ => worded_modify fun _ hm => hm
  | .ret .., _ => worded_throw _
  | .ifThen _ c s, h => by
    rw [Stmt.exec, Stmt.trace]
    refine (c.worded_test h.1).bind fun b _ => ?_
    cases b with
    | true => exact s.worded_exec limit h.2
    | false => exact worded_pure trivial
  | .ifElse _ c s f, h => by
    rw [Stmt.exec, Stmt.trace]
    refine (c.worded_test h.1).bind fun b _ => ?_
    cases b with
    | true => exact s.worded_exec limit h.2.1
    | false => exact f.worded_exec limit h.2.2
  | .whileLoop _ c b, h => (c.worded_test h.1).loop (b.worded_exec limit h.2) limit
  | .forRange .., _ => worded_throw _

theorem Stmt.worded_execAll (limit : Nat) : ∀ ss : List Stmt, Stmt.AllWords ss →
    Worded (Stmt.execAll .word limit ss) (Stmt.traceAll .word limit ss) fun _ => True
  | [], _ => worded_pure trivial
  | s :: ss, h => by
    rw [Stmt.execAll, Stmt.traceAll]
    exact (s.worded_exec limit h.1).bind fun _ _ => Stmt.worded_execAll limit ss h.2

end

end Scriptlet
