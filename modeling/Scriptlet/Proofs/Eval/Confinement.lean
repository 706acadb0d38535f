import Scriptlet.Proofs.Eval.BindingLog

/-! Effects are confined to what the code names: other variables keep their values, and without a
call that prints or reads the console stays as it is. -/
namespace Scriptlet

namespace Scopes

variable {s t : Scopes} {x name : String}

/-- What each frame has for a variable. -/
def values (s : Scopes) (x : String) : List (Option Value) := s.frames.map (·.get? x)

theorem get?_eq_of_values (h : t.values x = s.values x) : t.get? x = s.get? x := by
  have hget (u : Scopes) : u.get? x = (u.values x).findSome? id := by
    rw [values, List.findSome?_map]
    rfl
  rw [hget, hget, h]

theorem values_assign {v : Value} (h : s.assign name v = .ok t) (hx : name ≠ x) :
    t.values x = s.values x :=
  map_frames_assign h fun f _ => by rw [f.get?_insert, if_neg hx]

theorem values_declare (s : Scopes) (v : Value) (hx : name ≠ x) :
    (s.declare name v).values x = s.values x := by
  have hinner : (s.inner.insert name v).get? x = s.inner.get? x := by
    rw [Frame.get?_insert, if_neg hx]
  simp only [values, frames, declare, List.map_cons, hinner]

/-- Leaving a scope uncovers the frames below it, which are those from before it was entered. -/
theorem values_exit (h : (t.values x).tail = s.values x) : t.exit.values x = s.values x := by
  have houter : t.outer.map (·.get? x) = s.frames.map (·.get? x) := h
  unfold exit
  cases hf : t.outer with
  | nil => simp [hf, frames] at houter
  | cons f fs =>
    rw [hf] at houter
    exact houter

end Scopes

/-- Whatever is neither assigned to nor declared stays the same in every frame. -/
theorem allows_values (x : String) :
    Exec.Allows (fun a => a ≠ .assign x ∧ a ≠ .declare x)
      fun m m' => m'.scopes.values x = m.scopes.values x where
  refl _ := rfl
  trans h₁ h₂ := h₂.trans h₁
  assign hp h := Scopes.values_assign h fun hx => hp.1 (congrArg _ hx)
  call _ _ _ := rfl
  declare hp m v := m.scopes.values_declare v fun hx => hp.2 (congrArg _ hx)
  define _ _ := rfl
  scope h := Scopes.values_exit (congrArg List.tail h)

/-- A `let` reaches the innermost frame only, so that the others change by assignments alone. -/
theorem allows_outer_values (x : String) :
    Exec.Allows (· ≠ .assign x)
      fun m m' => (m'.scopes.values x).tail = (m.scopes.values x).tail where
  refl _ := rfl
  trans h₁ h₂ := h₂.trans h₁
  assign hp h := congrArg List.tail (Scopes.values_assign h fun hx => hp (congrArg _ hx))
  call _ _ _ := rfl
  declare _ _ _ := rfl
  define _ _ := rfl
  scope h := congrArg List.tail (Scopes.values_exit h)

theorem Builtin.call_console {b : Builtin} (hprint : b ≠ print) (hinput : b ≠ input)
    (vs : List Value) (c : Console) : (b.call vs c).2 = c := by
  cases b with
  | print => exact absurd rfl hprint
  | input => exact absurd rfl hinput
  | length | substring => rfl

/-- An effect that neither prints nor reads. -/
def Effect.Silent (a : Effect) : Prop := a ≠ .call "print" ∧ a ≠ .call "input"

theorem Effect.Silent.call_console {b : Builtin} (h : Silent (.call b.name)) (vs : List Value)
    (c : Console) : (b.call vs c).2 = c := by
  obtain ⟨hprint, hinput⟩ := h
  refine Builtin.call_console ?_ ?_ vs c
  · rintro rfl
    exact hprint rfl
  · rintro rfl
    exact hinput rfl

theorem Effect.silent_of_not_mem {as : List Effect} (hprint : .call "print" ∉ as)
    (hinput : .call "input" ∉ as) : ∀ a ∈ as, a.Silent :=
  fun _ ha => ⟨ne_of_mem_of_not_mem ha hprint, ne_of_mem_of_not_mem ha hinput⟩

theorem allows_console :
    Exec.Allows (fun a => a.Silent ∧ ∀ f, a ≠ .define f) fun m m' => m'.console = m.console where
  refl _ := rfl
  trans h₁ h₂ := h₂.trans h₁
  assign _ _ := rfl
  call hp m vs := hp.1.call_console vs m.console
  declare _ _ _ := rfl
  define hp _ := absurd rfl (hp.2 _)
  scope h := h

theorem allows_eq :
    Eval.Allows (fun a => a.Silent ∧ ∀ x, a ≠ .assign x) fun m m' => m' = m where
  refl _ := rfl
  trans h₁ h₂ := h₂.trans h₁
  assign hp _ := absurd rfl (hp.2 _)
  call hp m vs := by rw [hp.1.call_console vs m.console]

/-- Whenever a statement returns, also by a failure, a variable that it neither assigns to nor
declares has the value from before, and so has one that a block declares but does not assign to.
Without calls of `print` and `input`, a statement that declares no function leaves the console as it
was, and an expression that does not assign leaves the whole machine. -/
theorem exec_confined (w : Arithmetic) (limit : Nat) (m : Machine) :
    (∀ s r m', Stmt.exec w limit s m = some (r, m') →
      (∀ x, Effect.assign x ∉ s.effects → Effect.declare x ∉ s.effects →
        m'.scopes.get? x = m.scopes.get? x) ∧
      (Effect.call "print" ∉ s.effects → Effect.call "input" ∉ s.effects →
        (∀ f, Effect.define f ∉ s.effects) → m'.console = m.console)) ∧
    (∀ pos body r m', (Stmt.block pos body).exec w limit m = some (r, m') →
      ∀ x, Effect.assign x ∉ (Stmt.block pos body).effects →
        m'.scopes.get? x = m.scopes.get? x) ∧
    ∀ e : Expr, (∀ x, Effect.assign x ∉ e.effects) → Effect.call "print" ∉ e.effects →
      Effect.call "input" ∉ e.effects → (e.eval w m).2 = m := by
  refine ⟨fun s r m' h => ⟨fun x hassign hdeclare => ?_, fun hprint hinput hdefine => ?_⟩,
    fun pos body r m' h x hassign => ?_, fun e hassign hprint hinput => ?_⟩
  · have hkeeps := s.admits_exec (allows_values x).admitsAll w limit fun a ha =>
      ⟨ne_of_mem_of_not_mem ha hassign, ne_of_mem_of_not_mem ha hdeclare⟩
    exact Scopes.get?_eq_of_values (hkeeps m r m' h)
  · have hsilent := Effect.silent_of_not_mem hprint hinput
    have hkeeps := s.admits_exec allows_console.admitsAll w limit fun a ha =>
      ⟨hsilent a ha, fun f => ne_of_mem_of_not_mem ha (hdefine f)⟩
    exact hkeeps m r m' h
  · -- The body may declare the variable in the frame that is left, but not below it.
    have hkeeps := Stmt.admits_execAll (allows_outer_values x).admitsAll w limit body fun a ha =>
      ne_of_mem_of_not_mem ha hassign
    obtain ⟨m₁, hbody, rfl⟩ := Exec.inScope_eq_some.1 h
    exact Scopes.get?_eq_of_values (Scopes.values_exit (hkeeps _ r m₁ hbody))
  · have hsilent := Effect.silent_of_not_mem hprint hinput
    have hkeeps := allows_eq.keeps_eval w e fun a ha =>
      ⟨hsilent a ha, fun x => ne_of_mem_of_not_mem ha (hassign x)⟩
    exact hkeeps m

/-- The block `let x = g; g = g - 1; y / g;` -/
def countdownBlock : Stmt :=
  .block ⟨1, 9⟩
    [.declare ⟨1, 11⟩ ⟨"x", none, some (.name ⟨1, 19⟩ "g"), false⟩,
      .expr ⟨1, 22⟩ (.assign ⟨1, 24⟩ (.name ⟨1, 22⟩ "g")
        (.binary ⟨1, 28⟩ .sub (.name ⟨1, 26⟩ "g") (.literal ⟨1, 30⟩ (.integer 1)))),
      .expr ⟨1, 33⟩ (.binary ⟨1, 35⟩ .div (.name ⟨1, 33⟩ "y") (.name ⟨1, 37⟩ "g"))]

/-- As the body of `while g` it fails in the second turn, behind which `y` and the outer `x` have
their values and nothing is written. -/
theorem exec_confined_countdownBlock :
    let s := Stmt.whileLoop ⟨1, 1⟩ (.name ⟨1, 7⟩ "g") countdownBlock
    let e := Expr.binary ⟨1, 35⟩ .div (.name ⟨1, 33⟩ "y") (.name ⟨1, 37⟩ "g")
    let machine (g : Int) : Machine :=
      ⟨⟨[("x", .integer 7)], [[("g", .integer g), ("y", .integer 5)]]⟩, .ofLines ["a"]⟩
    let m := machine 2
    let m₁ := machine 1
    let m₂ := machine 0
    let fault : RuntimeError := ⟨.divisionByZero, ⟨1, 35⟩⟩
    (s.exec .word 3 m = some (.error fault, m₂) ∧
      Effect.assign "y" ∉ s.effects ∧ Effect.declare "y" ∉ s.effects ∧
      m₂.scopes.get? "y" = m.scopes.get? "y" ∧ m₂.console = m.console) ∧
    (countdownBlock.exec .word 3 m = some (.ok (), m₁) ∧
      Effect.declare "x" ∈ countdownBlock.effects ∧ Effect.assign "x" ∉ countdownBlock.effects ∧
      m₁.scopes.get? "x" = m.scopes.get? "x") ∧
    e.effects = [] ∧ (e.eval .word m₂).1 = .error fault ∧ (e.eval .word m₂).2 = m₂ := by
  intro s e machine m m₁ m₂ fault
  have hloop : s.exec .word 3 m = some (.error fault, m₂) := rfl
  have hblock : countdownBlock.exec .word 3 m = some (.ok (), m₁) := rfl
  have heffects : s.effects = [.declare "x", .assign "g"] := rfl
  have hbody : countdownBlock.effects = [.declare "x", .assign "g"] := rfl
  have hexpr : e.effects = [] := rfl
  obtain ⟨hexec, hscope, _⟩ := exec_confined .word 3 m
  obtain ⟨_, _, heval⟩ := exec_confined .word 3 m₂
  obtain ⟨hvalue, hconsole⟩ := hexec s _ _ hloop
  have hassign : Effect.assign "y" ∉ s.effects := by simp [heffects]
  have hdeclare : Effect.declare "y" ∉ s.effects := by simp [heffects]
  have houter : Effect.assign "x" ∉ countdownBlock.effects := by simp [hbody]
  refine ⟨⟨hloop, hassign, hdeclare, hvalue "y" hassign hdeclare, hconsole ?_ ?_ ?_⟩,
    ⟨hblock, by simp [hbody], houter, hscope _ _ _ _ hblock "x" houter⟩,
    hexpr, rfl, heval e ?_ ?_ ?_⟩
  · simp [heffects]
  · simp [heffects]
  · simp [heffects]
  · simp [hexpr]
  · simp [hexpr]
  · simp [hexpr]

end Scriptlet
