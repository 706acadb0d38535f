import Scriptlet.Value.Arithmetic
import Scriptlet.Eval.Builtin
import Scriptlet.Proofs.Eval.Slices

/-! Which faults operators and built-in functions can have. -/
namespace Scriptlet

/-- The faults that a binary operator can have. -/
def BinaryOp.faults : BinaryOp → List Fault
  | add => [.invalidOperands .addition, .integerOverflow]
  | sub => [.invalidOperands .subtraction, .integerOverflow]
  | mul => [.invalidOperands .multiplication, .integerOverflow]
  | div => [.invalidOperands .division, .divisionByZero, .integerOverflow]
  | mod => [.invalidOperands .modulo, .moduloByZero, .integerOverflow]
  | lt | le | gt | ge => [.invalidOperands .comparison]
  | eq | ne | and | or => []

/-- The faults that a unary operator can have. -/
def UnaryOp.faults : UnaryOp → List Fault
  | not => []
  | negate => [.invalidOperand .negation, .integerOverflow]
  | plus => [.invalidOperand .plus]

/-- The faults that a built-in function can have, all of them in its arguments. -/
def Builtin.faults : Builtin → List Fault
  | print | input => []
  | length => [.invalidArgument .lengthCount, .invalidArgument .lengthText]
  | substring =>
    [.invalidArgument .substringCount, .invalidArgument .substringText,
      .invalidArgument .substringStart, .invalidArgument .substringLength]

variable {a b : Value} {fault : Fault}

theorem Value.eq_overflow_of_ofInt {n : Int} (h : ofInt n = .error fault) :
    fault = .integerOverflow := by
  unfold ofInt at h
  split at h <;> cases h
  rfl

theorem BinaryOp.mem_faults {op : BinaryOp} (h : op.apply a b = .error fault) :
    fault ∈ op.faults := by
  cases op with
  | add | sub | mul =>
    simp only [apply, Value.add, Value.subtract, Value.multiply] at h
    split at h
    · simp [faults, Value.eq_overflow_of_ofInt h]
    all_goals cases h <;> simp [faults]
  | div =>
    simp only [apply, Value.divide] at h
    split at h
    · split at h
      · cases h
        simp [faults]
      · simp [faults, Value.eq_overflow_of_ofInt h]
    · split at h <;> cases h
      simp [faults]
    · cases h
      simp [faults]
  | mod =>
    simp only [apply, Value.modulo] at h
    split at h
    · split at h
      · cases h
        simp [faults]
      · split at h <;> cases h
        simp [faults]
    · split at h <;> cases h
      simp [faults]
    · cases h
      simp [faults]
  | lt | le | gt | ge =>
    simp only [apply, Value.lessThan, Value.lessEqual, Value.greaterThan, Value.greaterEqual,
      Value.compare] at h
    split at h <;> cases h
    simp [faults]
  | eq | ne | and | or => cases h

theorem UnaryOp.mem_faults {op : UnaryOp} (h : op.apply a = .error fault) :
    fault ∈ op.faults := by
  cases op with
  | not => cases h
  | negate =>
    simp only [apply, Value.negate] at h
    split at h
    · simp [faults, Value.eq_overflow_of_ofInt h]
    · cases h
    · cases h
      simp [faults]
  | plus =>
    simp only [apply, Value.plus] at h
    split at h <;> cases h
    simp [faults]

theorem Builtin.mem_faults {f : Builtin} {vs : List Value} {c : Console}
    (h : (f.call vs c).1 = .error fault) : fault ∈ f.faults := by
  cases f with
  | print | input => cases h
  | length =>
    simp only [call, lengthOf] at h
    split at h <;> cases h <;> simp [faults]
  | substring =>
    have hpart (text start : Value) (most : Option Value)
        (h : substringOf.part text start most = .error fault) : fault ∈ substring.faults := by
      obtain ⟨u, hu⟩ | ⟨argument, hmem, he⟩ := part_cases text start most
      · cases hu.symm.trans h
      · cases he.symm.trans h
        exact List.mem_cons_of_mem _ (List.mem_map_of_mem hmem)
    simp only [call, substringOf] at h
    split at h
    · exact hpart _ _ _ h
    · exact hpart _ _ _ h
    · cases h
      simp [faults]

/-- The fault of a variable that is not there. -/
def Fault.IsMissing (fault : Fault) : Prop := ∃ id, fault = .undefinedVariable id

theorem BinaryOp.not_isMissing {op : BinaryOp} {fault : Fault} (h : fault ∈ op.faults) :
    ¬ fault.IsMissing := by
  rintro ⟨id, rfl⟩
  cases op <;> simp [faults] at h

theorem UnaryOp.not_isMissing {op : UnaryOp} {fault : Fault} (h : fault ∈ op.faults) :
    ¬ fault.IsMissing := by
  rintro ⟨id, rfl⟩
  cases op <;> simp [faults] at h

theorem Builtin.not_isMissing {b : Builtin} {fault : Fault} (h : fault ∈ b.faults) :
    ¬ fault.IsMissing := by
  rintro ⟨id, rfl⟩
  cases b <;> simp [faults] at h

end Scriptlet
