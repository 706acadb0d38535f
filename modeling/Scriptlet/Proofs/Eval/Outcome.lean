import Scriptlet.Eval.Statement

/-! What operations, sequences, scopes and loops come to. -/
namespace Scriptlet

theorem Builtin.named?_eq_some {x : String} {b : Builtin} : named? x = some b ↔ b.name = x := by
  constructor
  · intro h
    simpa using List.find?_some h
  · rintro rfl
    cases b <;> rfl

variable {α β : Type}

namespace Eval

theorem bind_apply (x : Eval α) (f : α → Eval β) (m : Machine) :
    (x >>= f) m = match x m with
      | (.ok a, m') => f a m'
      | (.error e, m') => (.error e, m') := by
  simp only [bind, ExceptT.bind, ExceptT.mk, StateT.bind]
  rcases x m with ⟨_ | _, m'⟩ <;> rfl

theorem at_apply (p : Position) (r : Except Fault α) (m : Machine) :
    Eval.at p r m = (r.mapError (⟨·, p⟩), m) := by
  cases r <;> rfl

theorem lookup_apply (p : Position) (id : String) (m : Machine) :
    Eval.lookup p id m = match m.scopes.get? id with
      | some v => (.ok v, m)
      | none => (.error ⟨.undefinedVariable id, p⟩, m) := by
  change (match m.scopes.get? id with
    | some v => pure v
    | none => throw ⟨.undefinedVariable id, p⟩ : Eval Value) m = _
  cases m.scopes.get? id <;> rfl

theorem assign_apply (p : Position) (id : String) (v : Value) (m : Machine) :
    Eval.assign p id v m = match m.scopes.assign id v with
      | .ok s => (.ok v, { m with scopes := s })
      | .error fault => (.error ⟨fault, p⟩, m) := by
  change (Eval.at p (m.scopes.assign id v) >>= fun s =>
    (do set { m with scopes := s }; return v : Eval Value)) m = _
  rw [bind_apply, at_apply]
  cases m.scopes.assign id v <;> rfl

theorem builtin_apply (p : Position) (b : Builtin) (vs : List Value) (m : Machine) :
    Eval.builtin p b vs m = ((b.call vs m.console).1.mapError (⟨·, p⟩),
      { m with console := (b.call vs m.console).2 }) :=
  at_apply p (b.call vs m.console).1 { m with console := (b.call vs m.console).2 }

end Eval

namespace Exec

variable {m m' : Machine} {r : Except RuntimeError β}

theorem bind_apply (x : Exec α) (f : α → Exec β) (m : Machine) :
    (x >>= f) m = match x m with
      | some (.ok a, m') => f a m'
      | some (.error e, m') => some (.error e, m')
      | none => none := by
  simp only [bind, ExceptT.bind, ExceptT.mk, StateT.bind]
  rcases x m with _ | ⟨_ | _, m'⟩ <;> rfl

/-- A sequence ends with the failure of its first part or with what the second part comes to. -/
theorem bind_eq_some {x : Exec α} {f : α → Exec β} :
    (x >>= f) m = some (r, m') ↔
      (∃ e, x m = some (.error e, m') ∧ r = .error e) ∨
      ∃ a m₁, x m = some (.ok a, m₁) ∧ f a m₁ = some (r, m') := by
  rw [bind_apply]
  rcases x m with _ | ⟨e | a, m₁⟩
  · simp
  · simp [and_assoc, and_comm, eq_comm]
  · simp [and_assoc]

theorem ofEval_eq_some {x : Eval β} : ofEval x m = some (r, m') ↔ x m = (r, m') := by
  simp [ofEval]

theorem inScope_eq_some {x : Exec Unit} {r : Except RuntimeError Unit} :
    inScope x m = some (r, m') ↔
      ∃ m₁, x { m with scopes := m.scopes.enter } = some (r, m₁) ∧
        m' = { m₁ with scopes := m₁.scopes.exit } := by
  simp only [inScope, Option.map_eq_some_iff, Prod.mk.injEq, Prod.exists]
  constructor
  · rintro ⟨r, m₁, hx, rfl, rfl⟩
    exact ⟨m₁, hx, rfl⟩
  · rintro ⟨m₁, hx, rfl⟩
    exact ⟨r, m₁, hx, rfl, rfl⟩

theorem ofEval_bind (x : Eval α) (f : α → Eval β) :
    ofEval (x >>= f) = ofEval x >>= fun a => ofEval (f a) := by
  funext m
  simp only [ofEval, Eval.bind_apply, bind_apply]
  rcases x m with ⟨_ | _, m'⟩ <;> rfl

theorem loop_succ (condition : Eval Bool) (body : Exec Unit) (limit : Nat) :
    loop condition body (limit + 1) =
      ofEval condition >>= fun b =>
        if b then body >>= fun _ => loop condition body limit else pure () := by
  funext m
  rw [loop, bind_apply, ofEval]
  rcases condition m with ⟨e | b, m₁⟩
  · rfl
  · cases b with
    | false => rfl
    | true =>
      dsimp only
      rw [if_pos rfl, bind_apply]
      rcases body m₁ with _ | ⟨e | u, m₂⟩ <;> rfl

end Exec

end Scriptlet
