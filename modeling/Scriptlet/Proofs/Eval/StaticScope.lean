import Scriptlet.Proofs.Eval.Faults
import Scriptlet.Proofs.Eval.ScopeNames

/-! Static scope checking: where every name is declared before it is used, no run looks for a
variable that is not there. -/
namespace Scriptlet

mutual

/-- Whether all names that are read or assigned to are known. The name of a callee is not read, and
neither is what stands in an index, in a member or in a context condition. -/
def Expr.scoped (known : String → Bool) : Expr → Bool
  | .literal .. => true
  | .name _ id => known id
  | .binary _ _ l r => l.scoped known && r.scoped known
  | .assign _ t e => t.name?.all known && e.scoped known
  | .unary _ _ e => e.scoped known
  | .call _ _ args => Expr.allScoped known args
  | .index .. | .member .. | .context .. => true

def Expr.allScoped (known : String → Bool) : List Expr → Bool
  | [] => true
  | e :: es => e.scoped known && Expr.allScoped known es

end

/-- The names that are known behind a statement of a list. Only a `let` of that list adds one, not
those in a block, a branch or the body of a loop. -/
def Stmt.knownAfter (known : String → Bool) : Stmt → String → Bool
  | .declare _ d => fun x => known x || d.name == x
  | _ => known

mutual

/-- Whether all names that the statement reads or assigns to are known, or declared in it before.
Function bodies, `for` loops and `return` statements do not run and so read nothing. -/
def Stmt.scoped (known : String → Bool) : Stmt → Bool
  | .expr _ e => e.scoped known
  | .declare _ d => d.initial.all (Expr.scoped known)
  | .block _ body => Stmt.allScoped known body
  | .ifThen _ c s => c.scoped known && s.scoped known
  | .ifElse _ c s f => c.scoped known && s.scoped known && f.scoped known
  | .whileLoop _ c b => c.scoped known && b.scoped known
  | .function .. | .ret .. | .forRange .. => true

def Stmt.allScoped (known : String → Bool) : List Stmt → Bool
  | [] => true
  | s :: ss => s.scoped known && Stmt.allScoped (s.knownAfter known) ss

end

/-- The names that are known behind a list of statements. -/
def Stmt.knownAfterAll (known : String → Bool) (ss : List Stmt) : String → Bool :=
  ss.foldl Stmt.knownAfter known

theorem Stmt.knownAfter_of_known {known : String → Bool} {x : String} (s : Stmt) (h : known x) :
    s.knownAfter known x := by
  cases s with
  | declare p d => simp [knownAfter, h]
  | _ => exact h

theorem Frame.isSome_get? (f : Frame) (x : String) : (f.get? x).isSome = f.contains x := by
  induction f with
  | nil => rfl
  | cons b f ih =>
    obtain ⟨n, v⟩ := b
    by_cases hx : x = n
    · simp [get?, contains, hx]
    · have hn : (x == n) = false := by simpa using hx
      have hn' : (n == x) = false := by simpa using Ne.symm hx
      simpa [get?, contains, List.lookup_cons, hn, hn'] using ih

namespace Scopes

/-- Whether some frame binds the name. -/
def binds (s : Scopes) (x : String) : Bool := s.frames.any (·.contains x)

/-- All known names are bound. -/
def Knows (s : Scopes) (known : String → Bool) : Prop := ∀ x, known x → s.binds x

variable {s t : Scopes} {x : String} {known : String → Bool}

private theorem binds_eq_names (s : Scopes) (x : String) : s.binds x = s.names.any (· x) := by
  rw [binds, names, List.any_map]
  rfl

theorem binds_iff : s.binds x ↔ s.inner.contains x ∨ (s.outer.map Frame.contains).any (· x) := by
  rw [binds_eq_names, names, frames, List.map_cons, List.any_cons, Bool.or_eq_true]

/-- A bound name has a value. -/
theorem get?_of_binds (h : s.binds x) : ∃ v, s.get? x = some v := by
  rw [← Option.isSome_iff_exists, get?, List.isSome_findSome?]
  simpa only [binds, Frame.isSome_get?] using h

private theorem assignFrames_of_any {fs : List Frame} (h : fs.any (·.contains x)) (v : Value) :
    ∃ gs, assignFrames x v fs = some gs := by
  induction fs with
  | nil => cases h
  | cons f fs ih =>
    rw [List.any_cons, Bool.or_eq_true] at h
    unfold assignFrames
    split
    · exact ⟨_, rfl⟩
    · rename_i hf
      obtain ⟨gs, hgs⟩ := ih (h.resolve_left hf)
      exact ⟨f :: gs, by rw [hgs]; rfl⟩

/-- A bound name can be assigned to. -/
theorem assign_of_binds (h : s.binds x) (v : Value) : ∃ t, s.assign x v = .ok t := by
  rw [binds, frames, List.any_cons, Bool.or_eq_true] at h
  unfold assign
  split
  · exact ⟨_, rfl⟩
  · rename_i hi
    obtain ⟨fs, hfs⟩ := assignFrames_of_any (h.resolve_left hi) v
    exact ⟨_, by rw [hfs]⟩

theorem Gains.binds_iff {added : String → Prop} (h : s.Gains added t) :
    t.binds x ↔ s.binds x ∨ added x := by
  rw [Scopes.binds_iff, Scopes.binds_iff, h.inner x, h.outer, or_right_comm]

theorem Gains.knows {added : String → Prop} (h : s.Gains added t) (hs : s.Knows known) :
    t.Knows known := fun x hx => h.binds_iff.2 (.inl (hs x hx))

theorem Knows.of_names (hs : s.Knows known) (h : t.names = s.names) : t.Knows known :=
  (gains_of_names h).knows hs

theorem Knows.enter (hs : s.Knows known) : s.enter.Knows known := by
  intro x hx
  have hb : s.frames.any (·.contains x) := hs x hx
  rw [binds, frames, Scopes.enter, List.any_cons, hb, Bool.or_true]

end Scopes

namespace Exec

variable {α β : Type} {known after later : String → Bool} {x : Exec α} {f : α → Exec β}

/-- Where the names of `known` are bound, the computation misses no variable; if it succeeds, the
names of `after` are bound. -/
def Finds (known after : String → Bool) (x : Exec α) : Prop :=
  ∀ m r m', m.scopes.Knows known → x m = some (r, m') →
    (∀ e, r = .error e → ¬ e.fault.IsMissing) ∧ (∀ a, r = .ok a → m'.scopes.Knows after)

/-- What a computation guarantees for more names holds for fewer. -/
theorem Finds.mono (h : Finds known later x) (hle : ∀ z, after z → later z) :
    Finds known after x := by
  intro m r m' hm hx
  obtain ⟨herror, hok⟩ := h m r m' hm hx
  exact ⟨herror, fun a ha z hz => hok a ha z (hle z hz)⟩

theorem Finds.bind (hx : Finds known after x) (hf : ∀ a, Finds after later (f a)) :
    Finds known later (x >>= f) := by
  intro m r m' hm h
  obtain ⟨e, he, rfl⟩ | ⟨a, m₁, ha, h⟩ := bind_eq_some.1 h
  · refine ⟨fun e' he' => ?_, nofun⟩
    cases he'
    exact (hx m _ m' hm he).1 e rfl
  · exact hf a m₁ r m' ((hx m _ m₁ hm ha).2 a rfl) h

theorem finds_pure (a : α) : Finds known known (pure a) := by
  rintro m _ _ hm ⟨⟩
  exact ⟨nofun, fun _ _ => hm⟩

theorem finds_throw {e : RuntimeError} (he : ¬ e.fault.IsMissing) :
    Finds known after (throw e : Exec α) := by
  rintro m _ _ _ ⟨⟩
  refine ⟨fun e' he' => ?_, nofun⟩
  cases he'
  exact he

/-- An evaluation binds the names that were bound before it, whether it succeeds or not. -/
theorem finds_ofEval {y : Eval α}
    (hk : Eval.Keeps (fun m m' => m'.scopes.names = m.scopes.names) y)
    (hy : ∀ m e m', m.scopes.Knows known → y m = (.error e, m') → ¬ e.fault.IsMissing) :
    Finds known known (ofEval y) := by
  intro m r m' hm h
  rw [ofEval_eq_some] at h
  have hnames := hk m
  rw [h] at hnames
  refine ⟨fun e he => ?_, fun _ _ => hm.of_names hnames⟩
  rw [he] at h
  exact hy m e m' hm h

theorem finds_at (p : Position) {r : Except Fault α}
    (hr : ∀ fault, r = .error fault → ¬ fault.IsMissing) :
    Finds known known (ofEval (Eval.at p r)) := by
  cases r with
  | ok a => exact finds_pure a
  | error fault => exact finds_throw (hr fault rfl)

theorem finds_lookup (p : Position) {id : String} (h : known id) :
    Finds known known (ofEval (Eval.lookup p id)) := by
  refine finds_ofEval (keeps_ofEval.1 (allows_names.admits.lookup p id)) fun m e m' hm he => ?_
  obtain ⟨v, hv⟩ := Scopes.get?_of_binds (hm id h)
  rw [Eval.lookup_apply, hv] at he
  cases he

theorem finds_assign (p : Position) {id : String} (h : known id) (v : Value) :
    Finds known known (ofEval (Eval.assign p id v)) := by
  refine finds_ofEval (keeps_ofEval.1 (allows_names.admits.assign p trivial v)) ?_
  intro m e m' hm he
  obtain ⟨s, hs⟩ := Scopes.assign_of_binds (hm id h) v
  rw [Eval.assign_apply, hs] at he
  cases he

theorem finds_builtin (p : Position) (b : Builtin) (vs : List Value) :
    Finds known known (ofEval (Eval.builtin p b vs)) := by
  refine finds_ofEval (keeps_ofEval.1 (allows_names.admits.call p trivial vs)) fun m e m' _ he => ?_
  rw [Eval.builtin_apply] at he
  cases hc : (b.call vs m.console).1 with
  | ok v =>
    rw [hc] at he
    cases he
  | error fault =>
    rw [hc] at he
    cases he
    exact Builtin.not_isMissing (Builtin.mem_faults hc)

/-- A scope is left as it was entered, so that what was known is known again. -/
theorem Finds.inScope {x : Exec Unit} {added : String → Machine → Prop} (hx : Finds known after x)
    (hb : Binds x added) : Finds known known (inScope x) := by
  intro m r m' hm h
  have hgains := binds_inScope hb m r m' h
  obtain ⟨m₁, h₁, _⟩ := inScope_eq_some.1 h
  exact ⟨(hx { m with scopes := m.scopes.enter } r m₁ hm.enter h₁).1, fun _ _ => hgains.knows hm⟩

theorem Finds.ite {x y : Exec α} (hx : Finds known after x) (hy : Finds known after y) (b : Bool) :
    Finds known after (if b then x else y) := by
  cases b with
  | true => exact hx
  | false => exact hy

/-- The known names are an invariant of a loop, however often it is repeated. -/
theorem finds_loop {condition : Eval Bool} {body : Exec Unit}
    (hc : Finds known known (ofEval condition)) (hb : Finds known known body) (limit : Nat) :
    Finds known known (loop condition body limit) := by
  induction limit with
  | zero => nofun
  | succ limit ih =>
    rw [loop_succ]
    exact hc.bind (Finds.ite (hb.bind fun _ => ih) (finds_pure ()))

end Exec

open Exec in
mutual

theorem Expr.finds_eval {known : String → Bool} :
    ∀ e : Expr, e.scoped known → Finds known known (ofEval (e.eval .word))
  | .literal _ v, _ => finds_pure v
  | .name p id, h => finds_lookup p h
  | .binary p op l r, h => by
    rw [Expr.scoped, Bool.and_eq_true] at h
    simp only [Expr.eval, ofEval_bind]
    refine (l.finds_eval h.1).bind fun a => (r.finds_eval h.2).bind fun b => ?_
    exact finds_at p fun fault hf => BinaryOp.not_isMissing (BinaryOp.mem_faults hf)
  | .assign p t e, h => by
    rw [Expr.scoped, Bool.and_eq_true] at h
    rw [Expr.eval]
    cases ht : t.name? with
    | none => exact finds_throw nofun
    | some id =>
      rw [ht] at h
      simp only [ofEval_bind]
      exact (e.finds_eval h.2).bind fun v => finds_assign p h.1 v
  | .unary p op e, h => by
    simp only [Expr.eval, ofEval_bind]
    refine (e.finds_eval h).bind fun a => ?_
    exact finds_at p fun fault hf => UnaryOp.not_isMissing (UnaryOp.mem_faults hf)
  | .call p f args, h => by
    rw [Expr.eval]
    cases f.name? with
    | none => exact finds_throw nofun
    | some id =>
      dsimp only
      cases Builtin.named? id with
      | none => exact finds_throw nofun
      | some b =>
        simp only [ofEval_bind]
        exact (Expr.finds_evalAll args h).bind fun vs => finds_builtin p b vs
  | .index .., _ | .member .., _ | .context .., _ => finds_throw nofun

theorem Expr.finds_evalAll {known : String → Bool} :
    ∀ es : List Expr, Expr.allScoped known es → Finds known known (ofEval (Expr.evalAll .word es))
  | [], _ => finds_pure []
  | e :: es, h => by
    rw [Expr.allScoped, Bool.and_eq_true] at h
    simp only [Expr.evalAll, ofEval_bind]
    exact (e.finds_eval h.1).bind fun v =>
      (Expr.finds_evalAll es h.2).bind fun vs => finds_pure (v :: vs)

end

open Exec in
theorem Expr.finds_test {known : String → Bool} {e : Expr} (h : e.scoped known) :
    Finds known known (ofEval (e.test .word)) := by
  simp only [Expr.test, ofEval_bind]
  exact (e.finds_eval h).bind fun v => finds_pure v.isTruthy

open Exec in
theorem Declaration.finds_value {known : String → Bool} {d : Declaration}
    (h : d.initial.all (Expr.scoped known)) : Finds known known (ofEval (d.value .word)) := by
  unfold Declaration.value
  cases hd : d.initial with
  | none => exact finds_pure _
  | some e =>
    rw [hd] at h
    exact e.finds_eval h

open Exec in
/-- A `let` makes its own name known. -/
theorem Exec.finds_declare {known : String → Bool} (p : Position) (d : Declaration) (v : Value) :
    Finds known (Stmt.knownAfter known (.declare p d))
      (modify fun m => { m with scopes := m.scopes.declare d.name v }) := by
  rintro m _ _ hm ⟨⟩
  refine ⟨nofun, fun _ _ z hz => ?_⟩
  have hgains := m.scopes.gains_declare d.name v
  rw [Stmt.knownAfter, Bool.or_eq_true, beq_iff_eq] at hz
  exact hgains.binds_iff.2 (hz.imp_left (hm z))

open Exec in
mutual

/-- A statement whose names are known misses no variable, and keeps the promise of its `let`. -/
theorem Stmt.finds_exec {known : String → Bool} (limit : Nat) :
    ∀ s : Stmt, s.scoped known → Finds known (s.knownAfter known) (s.exec .word limit)
  | .expr _ e, h => (e.finds_eval h).bind fun _ => finds_pure ()
  | .declare p d, h => (d.finds_value h).bind fun v => finds_declare p d v
  | .block _ body, h =>
    (Stmt.finds_execAll limit body h).inScope (Stmt.binds_execAll .word limit body)
  | .function _ s _, _ => by
    rintro m _ _ hm ⟨⟩
    exact ⟨nofun, fun _ _ => hm⟩
  | .ret .., _ => finds_throw nofun
  | .ifThen _ c s, h => by
    rw [Stmt.scoped, Bool.and_eq_true] at h
    have hs := (s.finds_exec limit h.2).mono fun _ => s.knownAfter_of_known
    exact (c.finds_test h.1).bind (hs.ite (finds_pure ()))
  | .ifElse _ c s f, h => by
    rw [Stmt.scoped, Bool.and_eq_true, Bool.and_eq_true] at h
    have hs := (s.finds_exec limit h.1.2).mono fun _ => s.knownAfter_of_known
    have hf := (f.finds_exec limit h.2).mono fun _ => f.knownAfter_of_known
    exact (c.finds_test h.1.1).bind (hs.ite hf)
  | .whileLoop _ c b, h => by
    rw [Stmt.scoped, Bool.and_eq_true] at h
    have hb := (b.finds_exec limit h.2).mono fun _ => b.knownAfter_of_known
    exact finds_loop (c.finds_test h.1) hb limit
  | .forRange .., _ => finds_throw nofun

theorem Stmt.finds_execAll {known : String → Bool} (limit : Nat) :
    ∀ ss : List Stmt, Stmt.allScoped known ss →
      Finds known (Stmt.knownAfterAll known ss) (Stmt.execAll .word limit ss)
  | [], _ => finds_pure ()
  | s :: ss, h => by
    rw [Stmt.allScoped, Bool.and_eq_true] at h
    exact (s.finds_exec limit h.1).bind fun _ => Stmt.finds_execAll limit ss h.2

end

/-- A program whose names are all bound on the machine, or declared before they are used, does not
fail for want of a variable, however its loops go and whatever it reads. -/
theorem Program.run_scoped (p : Program) (m : Machine) (hp : Stmt.allScoped m.scopes.binds p)
    (limit : Nat) (e : RuntimeError) (m' : Machine) (h : p.run limit m = some (.error e, m'))
    (id : String) : e.fault ≠ .undefinedVariable id := by
  have hfinds := Stmt.finds_execAll limit p hp
  obtain ⟨herror, _⟩ := hfinds m (.error e) m' (fun x hx => hx) h
  exact fun hid => herror e rfl ⟨id, hid⟩

/-- `let i = 0;` and `while i < n { let j = i; i = j + 1; print(n / (2 - j)); }` -/
def countingProgram : Program :=
  [.declare ⟨1, 1⟩ ⟨"i", none, some (.literal ⟨1, 9⟩ (.integer 0)), false⟩,
    .whileLoop ⟨2, 1⟩ (.binary ⟨2, 9⟩ .lt (.name ⟨2, 7⟩ "i") (.name ⟨2, 11⟩ "n"))
      (.block ⟨2, 13⟩
        [.declare ⟨2, 15⟩ ⟨"j", none, some (.name ⟨2, 23⟩ "i"), false⟩,
          .expr ⟨2, 26⟩ (.assign ⟨2, 28⟩ (.name ⟨2, 26⟩ "i")
            (.binary ⟨2, 32⟩ .add (.name ⟨2, 30⟩ "j") (.literal ⟨2, 34⟩ (.integer 1)))),
          .expr ⟨2, 37⟩ (.call ⟨2, 37⟩ (.name ⟨2, 37⟩ "print")
            [.binary ⟨2, 45⟩ .div (.name ⟨2, 43⟩ "n")
              (.binary ⟨2, 50⟩ .sub (.literal ⟨2, 48⟩ (.integer 2)) (.name ⟨2, 52⟩ "j"))])])]

/-- It fails in the third turn, by a division. -/
theorem run_scoped_countingProgram :
    let m : Machine := ⟨⟨[], [[("n", .integer 4)]]⟩, .ofLines []⟩
    let e : RuntimeError := ⟨.divisionByZero, ⟨2, 45⟩⟩
    let m' : Machine := ⟨⟨[("i", .integer 3)], [[("n", .integer 4)]]⟩, ⟨"2\n4\n", [], 0⟩⟩
    Stmt.allScoped m.scopes.binds countingProgram ∧
      countingProgram.run 5 m = some (.error e, m') ∧ ∀ id, e.fault ≠ .undefinedVariable id := by
  intro m e m'
  have hscoped : Stmt.allScoped m.scopes.binds countingProgram := by decide
  have hrun : countingProgram.run 5 m = some (.error e, m') := rfl
  exact ⟨hscoped, hrun, Program.run_scoped countingProgram m hscoped 5 e m' hrun⟩

end Scriptlet
