import Scriptlet.Proofs.Eval.Effects

/-! Which names running can bind: those of `let` statements, in the innermost frame only. -/
namespace Scriptlet

namespace Frame

theorem contains_insert (f : Frame) (name x : String) (v : Value) :
    (f.insert name v).contains x = (f.contains x || name == x) := by
  induction f with
  | nil => simp [insert, contains]
  | cons b f ih =>
    obtain ⟨n, u⟩ := b
    unfold insert
    split
    · rename_i hn
      simp only [contains, List.any_cons, hn]
      cases name == x <;> simp
    · simp only [contains, List.any_cons] at ih ⊢
      rw [ih, Bool.or_assoc]

/-- A new value for a bound name binds no other name. -/
theorem contains_insert_of_contains {f : Frame} {name : String} (h : f.contains name) (v : Value) :
    (f.insert name v).contains = f.contains := by
  funext x
  rw [contains_insert]
  by_cases hx : name = x
  · subst hx
    simp [h]
  · simp [hx]

end Frame

namespace Scopes

/-- The names that each frame binds. -/
def names (s : Scopes) : List (String → Bool) := s.frames.map Frame.contains

/-- The names that `added` holds of have come into the innermost frame, and nothing but values has
changed otherwise. -/
structure Gains (added : String → Prop) (s t : Scopes) : Prop where
  inner (x : String) : t.inner.contains x ↔ s.inner.contains x ∨ added x
  outer : t.outer.map Frame.contains = s.outer.map Frame.contains

variable {s t u : Scopes} {added more : String → Prop}

theorem names_eq_iff :
    t.names = s.names ↔ t.inner.contains = s.inner.contains ∧
      t.outer.map Frame.contains = s.outer.map Frame.contains := by
  simp only [names, frames, List.map_cons, List.cons.injEq]

private theorem depth_eq_of_names (h : t.names = s.names) : t.depth = s.depth := by
  have hl := congrArg List.length h
  simpa [names, frames, depth] using hl

theorem gains_of_names (h : t.names = s.names) : s.Gains (fun _ => False) t := by
  obtain ⟨hi, ho⟩ := names_eq_iff.1 h
  exact ⟨fun x => by simp [hi], ho⟩

namespace Gains

theorem names_eq (h : s.Gains added t) (ha : ∀ x, ¬ added x) : t.names = s.names := by
  refine names_eq_iff.2 ⟨funext fun x => Bool.eq_iff_iff.2 ?_, h.outer⟩
  rw [h.inner x, or_iff_left (ha x)]

theorem depth_eq (h : s.Gains added t) : t.depth = s.depth := by
  have hl := congrArg List.length h.outer
  simpa [depth] using hl

theorem congr (h : s.Gains added t) (ha : ∀ x, more x ↔ added x) : s.Gains more t :=
  ⟨fun x => by rw [h.inner x, ha x], h.outer⟩

theorem trans (h₁ : s.Gains added t) (h₂ : t.Gains more u) :
    s.Gains (fun x => added x ∨ more x) u :=
  ⟨fun x => by rw [h₂.inner x, h₁.inner x, or_assoc], h₂.outer.trans h₁.outer⟩

end Gains

theorem gains_declare (s : Scopes) (name : String) (v : Value) :
    s.Gains (name = ·) (s.declare name v) :=
  ⟨fun x => by simp [declare, Frame.contains_insert], rfl⟩

/-- Leaving a scope that was entered before forgets what was bound in it. -/
theorem names_exit (h : s.enter.Gains added t) : t.exit.names = s.names := by
  have ho : t.outer.map Frame.contains = s.frames.map Frame.contains := h.outer
  cases hf : t.outer with
  | nil => simp [hf, frames] at ho
  | cons f fs =>
    rw [hf] at ho
    simpa [exit, hf, names, frames] using ho

private theorem map_assignFrames {β : Type} {g : Frame → β} {name : String} {v : Value}
    {fs gs : List Frame} (h : assignFrames name v fs = some gs)
    (hg : ∀ f : Frame, f.contains name → g (f.insert name v) = g f) : gs.map g = fs.map g := by
  induction fs generalizing gs with
  | nil => cases h
  | cons f fs ih =>
    unfold assignFrames at h
    split at h
    · rename_i hf
      cases h
      rw [List.map_cons, List.map_cons, hg f hf]
    · obtain ⟨gs, hgs, rfl⟩ := Option.map_eq_some_iff.1 h
      rw [List.map_cons, List.map_cons, ih hgs]

/-- An assignment keeps all of a frame that a new value for a bound name keeps. -/
theorem map_frames_assign {β : Type} {g : Frame → β} {name : String} {v : Value}
    (h : s.assign name v = .ok t) (hg : ∀ f : Frame, f.contains name → g (f.insert name v) = g f) :
    t.frames.map g = s.frames.map g := by
  unfold assign at h
  split at h
  · rename_i hi
    cases h
    simp only [frames, List.map_cons, hg _ hi]
  · split at h
    · rename_i fs hfs
      cases h
      simp only [frames, List.map_cons, map_assignFrames hfs hg]
    · cases h

theorem names_assign {name : String} {v : Value} (h : s.assign name v = .ok t) :
    t.names = s.names :=
  map_frames_assign h fun _ hf => Frame.contains_insert_of_contains hf v

end Scopes

/-- Expressions assign and call, which binds no name in any frame. -/
theorem allows_names :
    Eval.Allows (fun _ => True) fun m m' => m'.scopes.names = m.scopes.names where
  refl _ := rfl
  trans h₁ h₂ := h₂.trans h₁
  assign _ h := Scopes.names_assign h
  call _ _ _ := rfl

theorem Expr.names_eval (w : Arithmetic) (e : Expr) :
    Eval.Keeps (fun m m' => m'.scopes.names = m.scopes.names) (e.eval w) :=
  allows_names.keeps_eval w e fun _ _ => trivial

theorem Expr.names_test (w : Arithmetic) (e : Expr) :
    Eval.Keeps (fun m m' => m'.scopes.names = m.scopes.names) (e.test w) :=
  allows_names.keeps_test w e fun _ _ => trivial

theorem Declaration.names_value (w : Arithmetic) (d : Declaration) :
    Eval.Keeps (fun m m' => m'.scopes.names = m.scopes.names) (d.value w) :=
  allows_names.keeps_value w d fun _ _ => trivial

/-- The body of a loop that is entered on the first machine starts on the second one. -/
inductive Exec.Reaches (condition : Eval Bool) (body : Exec Unit) : Machine → Machine → Prop where
  | now {m m₁ : Machine} (hc : condition m = (.ok true, m₁)) : Reaches condition body m m₁
  | later {m m₁ m₂ m₃ : Machine} (hc : condition m = (.ok true, m₁))
      (hb : body m₁ = some (.ok (), m₂)) (h : Reaches condition body m₂ m₃) :
    Reaches condition body m m₃

mutual

/-- Running the statement on the machine binds `x` by a `let` that is in no block of it. -/
def Stmt.Binds (w : Arithmetic) (limit : Nat) (x : String) : Stmt → Machine → Prop
  | .declare _ d, m => d.name = x ∧ ∃ v, (d.value w m).1 = .ok v
  | .ifThen _ c s, m => (c.test w m).1 = .ok true ∧ s.Binds w limit x (c.test w m).2
  | .ifElse _ c s f, m =>
    (c.test w m).1 = .ok true ∧ s.Binds w limit x (c.test w m).2 ∨
      (c.test w m).1 = .ok false ∧ f.Binds w limit x (c.test w m).2
  | .whileLoop _ c b, m =>
    ∃ m₁, Exec.Reaches (c.test w) (b.exec w limit) m m₁ ∧ b.Binds w limit x m₁
  | _, _ => False

/-- Running the statements binds `x` by a `let` that is in no block of them. -/
def Stmt.BindsAll (w : Arithmetic) (limit : Nat) (x : String) : List Stmt → Machine → Prop
  | [], _ => False
  | s :: ss, m =>
    s.Binds w limit x m ∨
      ∃ m₁, s.exec w limit m = some (.ok (), m₁) ∧ Stmt.BindsAll w limit x ss m₁

end

namespace Exec

variable {α : Type} {x y : Exec Unit} {condition : Eval Bool} {m m₁ m₂ : Machine}
  {added more : String → Machine → Prop}

theorem not_reaches (hc : (condition m).1 ≠ .ok true) : ¬ Reaches condition x m m₂ := by
  rintro (h | ⟨h, _, _⟩)
  · exact hc (by rw [h])
  · exact hc (by rw [h])

/-- Once its condition holds, a loop runs its body and goes on behind it. -/
theorem reaches_iff (hc : condition m = (.ok true, m₁)) :
    Reaches condition x m m₂ ↔
      m₂ = m₁ ∨ ∃ m', x m₁ = some (.ok (), m') ∧ Reaches condition x m' m₂ := by
  constructor
  · rintro (h | ⟨h, hb, hr⟩)
    · rw [hc] at h
      cases h
      exact .inl rfl
    · rw [hc] at h
      cases h
      exact .inr ⟨_, hb, hr⟩
  · rintro (rfl | ⟨m', hb, hr⟩)
    · exact .now hc
    · exact .later hc hb hr

/-- What a computation does to the frames whenever it returns, by the names that it binds. -/
def Binds (x : Exec Unit) (added : String → Machine → Prop) : Prop :=
  ∀ m r m', x m = some (r, m') → m.scopes.Gains (added · m) m'.scopes

theorem Binds.congr (h : Binds x added) (ha : ∀ z m, more z m ↔ added z m) : Binds x more :=
  fun m r m' hx => (h m r m' hx).congr fun z => ha z m

theorem binds_pure : Binds (pure ()) fun _ _ => False := by
  rintro m _ _ ⟨⟩
  exact Scopes.gains_of_names rfl

theorem binds_throw (e : RuntimeError) : Binds (throw e) fun _ _ => False := by
  rintro m _ _ ⟨⟩
  exact Scopes.gains_of_names rfl

theorem binds_seq (hx : Binds x added) (hy : Binds y more) :
    Binds (do x; y) fun z m => added z m ∨ ∃ m₁, x m = some (.ok (), m₁) ∧ more z m₁ := by
  intro m r m' h
  obtain ⟨e, hm, rfl⟩ | ⟨_, m₁, hm, h⟩ := bind_eq_some.1 h
  · refine (hx _ _ _ hm).congr fun z => ?_
    simp [hm]
  · refine ((hx _ _ _ hm).trans (hy _ _ _ h)).congr fun z => ?_
    simp [hm]

/-- Behind an expression that binds nothing, only its value and effects matter. -/
theorem binds_ofEval {e : Eval α} {f : α → Exec Unit} {added : α → String → Machine → Prop}
    (he : Eval.Keeps (fun m m' => m'.scopes.names = m.scopes.names) e)
    (hf : ∀ a, Binds (f a) (added a)) :
    Binds (ofEval e >>= f) fun z m => ∃ a, (e m).1 = .ok a ∧ added a z (e m).2 := by
  intro m r m' h
  have hn := Scopes.gains_of_names (he m)
  obtain ⟨e', hm, rfl⟩ | ⟨a, m₁, hm, h⟩ := bind_eq_some.1 h
  · rw [ofEval_eq_some] at hm
    rw [hm] at hn
    refine hn.congr fun z => ?_
    simp [hm]
  · rw [ofEval_eq_some] at hm
    rw [hm] at hn
    refine (hn.trans (hf a _ _ _ h)).congr fun z => ?_
    simp [hm]

theorem binds_inScope (hx : Binds x added) : Binds (inScope x) fun _ _ => False := by
  intro m r m' h
  obtain ⟨m₁, hm, rfl⟩ := inScope_eq_some.1 h
  exact Scopes.gains_of_names (Scopes.names_exit (hx _ _ _ hm))

/-- A test chooses what runs, and with it what is bound. -/
theorem binds_ite (hx : Binds x added) (hy : Binds y more) (b : Bool) :
    Binds (if b then x else y) fun z m => b = true ∧ added z m ∨ b = false ∧ more z m := by
  cases b with
  | true => exact hx.congr fun z m => by simp
  | false => exact hy.congr fun z m => by simp

/-- A loop binds what its body binds in any of its iterations. -/
theorem binds_loop (hc : Eval.Keeps (fun m m' => m'.scopes.names = m.scopes.names) condition)
    (hx : Binds x added) (limit : Nat) :
    Binds (loop condition x limit) fun z m => ∃ m₁, Reaches condition x m m₁ ∧ added z m₁ := by
  induction limit with
  | zero => nofun
  | succ limit ih =>
    intro m r m' h
    have hn := Scopes.gains_of_names (hc m)
    -- The two ways to leave the loop before its body: nothing is reached, so nothing is bound.
    have hstop (hne : (condition m).1 ≠ .ok true) :
        m.scopes.Gains (fun z => ∃ m₁, Reaches condition x m m₁ ∧ added z m₁)
          (condition m).2.scopes :=
      hn.congr fun z => iff_false_intro fun ⟨_, hr, _⟩ => not_reaches hne hr
    unfold loop at h
    split at h
    · rename_i he
      cases h
      rw [he] at hstop
      exact hstop nofun
    · rename_i he
      cases h
      rw [he] at hstop
      exact hstop nofun
    · rename_i m₁ he
      rw [he] at hn
      split at h
      · rename_i m₂ hb
        refine ((hn.trans (hx _ _ _ hb)).trans (ih _ _ _ h)).congr fun z => ?_
        simp [reaches_iff he, hb, or_and_right, exists_or]
      · rename_i hb
        refine (hn.trans (hx _ _ _ h)).congr fun z => ?_
        have hne : ∀ m', x m₁ ≠ some (.ok (), m') := fun m' hm' => hb m' hm'
        simp [reaches_iff he, hne]

end Exec

open Exec in
mutual

theorem Stmt.binds_exec (w : Arithmetic) (limit : Nat) :
    ∀ s : Stmt, Exec.Binds (s.exec w limit) fun x m => s.Binds w limit x m
  | .expr _ e => by
    refine (binds_ofEval (e.names_eval w) fun _ => binds_pure).congr fun z m => ?_
    simp [Stmt.Binds]
  | .declare _ d => by
    have hd (v : Value) : Exec.Binds
        (modify fun m => { m with scopes := m.scopes.declare d.name v }) fun z _ => d.name = z := by
      rintro m _ _ ⟨⟩
      exact m.scopes.gains_declare d.name v
    refine (binds_ofEval (d.names_value w) hd).congr fun z m => ?_
    simp [Stmt.Binds, and_comm]
  | .block _ body => by
    refine (binds_inScope (Stmt.binds_execAll w limit body)).congr fun z m => ?_
    simp [Stmt.Binds]
  | .function _ s _ => by
    rintro m _ _ ⟨⟩
    exact (Scopes.gains_of_names rfl).congr fun z => by simp [Stmt.Binds]
  | .ret .. => (binds_throw _).congr fun z m => by simp [Stmt.Binds]
  | .ifThen _ c s => by
    refine (binds_ofEval (c.names_test w)
      (binds_ite (s.binds_exec w limit) binds_pure)).congr fun z m => ?_
    simp [Stmt.Binds]
  | .ifElse _ c s f => by
    refine (binds_ofEval (c.names_test w)
      (binds_ite (s.binds_exec w limit) (f.binds_exec w limit))).congr fun z m => ?_
    simp [Stmt.Binds, or_comm]
  | .whileLoop _ c b => by
    refine (binds_loop (c.names_test w) (b.binds_exec w limit) limit).congr
      fun z m => ?_
    simp [Stmt.Binds]
  | .forRange .. => (binds_throw _).congr fun z m => by simp [Stmt.Binds]

theorem Stmt.binds_execAll (w : Arithmetic) (limit : Nat) :
    ∀ ss : List Stmt, Exec.Binds (Stmt.execAll w limit ss) fun x m => Stmt.BindsAll w limit x ss m
  | [] => binds_pure.congr fun z m => by simp [Stmt.BindsAll]
  | s :: ss => by
    refine (binds_seq (s.binds_exec w limit) (Stmt.binds_execAll w limit ss)).congr fun z m => ?_
    simp [Stmt.BindsAll]

end

/-- Whenever a statement or a program returns, also by a failure, the frames are as many as before,
the outer ones bind the same names, and the innermost one binds the same names and those of the
`let` statements that ran outside blocks. A block, a failed `let` and an expression bind nothing. -/
theorem exec_names (w : Arithmetic) (limit : Nat) (m : Machine) :
    (∀ s r m', Stmt.exec w limit s m = some (r, m') →
      m'.scopes.depth = m.scopes.depth ∧ m.scopes.Gains (s.Binds w limit · m) m'.scopes) ∧
    (∀ p r m', Program.run limit p m = some (r, m') →
      m'.scopes.depth = m.scopes.depth ∧
        m.scopes.Gains (Stmt.BindsAll .word limit · p m) m'.scopes) ∧
    (∀ pos body r m', (Stmt.block pos body).exec w limit m = some (r, m') →
      m'.scopes.names = m.scopes.names) ∧
    (∀ pos d e m', d.value w m = (.error e, m') →
      (Stmt.declare pos d).exec w limit m = some (.error e, m') ∧
        m'.scopes.names = m.scopes.names) ∧
    ∀ e : Expr, (e.eval w m).2.scopes.names = m.scopes.names ∧
      (e.eval w m).2.scopes.depth = m.scopes.depth := by
  refine ⟨fun s r m' h => ?_, fun p r m' h => ?_, fun pos body r m' h => ?_,
    fun pos d e m' h => ?_, fun e => ?_⟩
  · have hg := s.binds_exec w limit m r m' h
    exact ⟨hg.depth_eq, hg⟩
  · have hg := Stmt.binds_execAll .word limit p m r m' h
    exact ⟨hg.depth_eq, hg⟩
  · have hg := (Stmt.block pos body).binds_exec w limit m r m' h
    exact hg.names_eq fun x => by simp [Stmt.Binds]
  · have hn := d.names_value w m
    rw [h] at hn
    refine ⟨?_, hn⟩
    rw [Stmt.exec, Exec.bind_eq_some]
    exact .inl ⟨e, Exec.ofEval_eq_some.2 h, rfl⟩
  · have hn := e.names_eval w m
    exact ⟨hn, Scopes.depth_eq_of_names hn⟩

/-- `let z = g / 0;` -/
def failingLet : Declaration :=
  ⟨"z", none,
    some (.binary ⟨2, 31⟩ .div (.name ⟨2, 29⟩ "g") (.literal ⟨2, 33⟩ (.integer 0))), false⟩

/-- The block `let x = y; g = x; let z = g / 0;` -/
def failingBlock : Stmt :=
  .block ⟨2, 1⟩
    [.declare ⟨2, 3⟩ ⟨"x", none, some (.name ⟨2, 11⟩ "y"), false⟩,
      .expr ⟨2, 14⟩ (.assign ⟨2, 16⟩ (.name ⟨2, 14⟩ "g") (.name ⟨2, 18⟩ "x")),
      .declare ⟨2, 21⟩ failingLet]

/-- With `let y = x;` before the block, `y` stays bound and the names of the block do not. -/
theorem exec_names_failingBlock :
    let p : Program := [.declare ⟨1, 1⟩ ⟨"y", none, some (.name ⟨1, 9⟩ "x"), false⟩, failingBlock]
    let e : RuntimeError := ⟨.divisionByZero, ⟨2, 31⟩⟩
    let m : Machine := ⟨⟨[("x", .integer 1)], [[("g", .integer 0)]]⟩, .ofLines []⟩
    let m₁ := { m with scopes := m.scopes.declare "y" (.integer 1) }
    let m₂ : Machine :=
      ⟨⟨[("x", .integer 1), ("y", .integer 1)], [[("g", .integer 1)]]⟩, .ofLines []⟩
    (Program.run 1 p m = some (.error e, m₂) ∧ m₂.scopes.depth = m.scopes.depth ∧
      m.scopes.Gains (Stmt.BindsAll .word 1 · p m) m₂.scopes) ∧
    (failingBlock.exec .word 1 m₁ = some (.error e, m₂) ∧ m₂.scopes.depth = m₁.scopes.depth ∧
      m₂.scopes.names = m₁.scopes.names) ∧
    (Stmt.declare ⟨2, 21⟩ failingLet).exec .word 1 m = some (.error e, m) := by
  intro p e m m₁ m₂
  have hp : Program.run 1 p m = some (.error e, m₂) := rfl
  have hb : failingBlock.exec .word 1 m₁ = some (.error e, m₂) := rfl
  have hd : failingLet.value .word m = (.error e, m) := rfl
  obtain ⟨_, hrun, _, hlet, _⟩ := exec_names .word 1 m
  obtain ⟨hexec, _, hblock, _, _⟩ := exec_names .word 1 m₁
  exact ⟨⟨hp, hrun p _ _ hp⟩, ⟨hb, (hexec _ _ _ hb).1, hblock _ _ _ _ hb⟩, (hlet _ _ _ _ hd).1⟩

end Scriptlet
