import Scriptlet.Proofs.Eval.Words

/-! Quotient and remainder of words: they exist together, and together they give back the
dividend. -/
namespace Scriptlet.Value

variable {a b : Int}

/-- Of all quotients of words, only that of the least one by `-1` is no word. -/
theorem isWord_tdiv_iff (ha : (integer a).IsWord) (hb : b ≠ 0) :
    (integer (a.tdiv b)).IsWord ↔ ¬ (a = -2 ^ 63 ∧ b = -1) := by
  simp only [IsWord] at ha ⊢
  by_cases hone : b = -1
  · rw [hone, Int.tdiv_neg, Int.tdiv_one]
    omega
  · refine ⟨fun _ h => hone h.2, fun _ => ?_⟩
    by_cases hpos : b = 1
    · rw [hpos, Int.tdiv_one]
      exact ha
    · -- A divisor of at least two halves the dividend.
      have hhalf : (a.tdiv b).natAbs ≤ a.natAbs / 2 := by
        rw [Int.natAbs_tdiv]
        exact Nat.div_le_div_left (by omega) (by decide)
      omega

/-- The remainder is zero or lies on the same side of zero as the dividend, and no further away. -/
theorem tmod_between (a b : Int) :
    (0 ≤ a → 0 ≤ a.tmod b ∧ a.tmod b ≤ a) ∧ (a ≤ 0 → a ≤ a.tmod b ∧ a.tmod b ≤ 0) := by
  have hle : (a.tmod b).natAbs ≤ a.natAbs := by
    rw [Int.natAbs_tmod]
    exact Nat.mod_le _ _
  refine ⟨fun h => ?_, fun h => ?_⟩
  · have hnonneg := Int.tmod_nonneg b h
    omega
  · have hnonneg := Int.tmod_nonneg b (Int.neg_nonneg_of_nonpos h)
    rw [Int.neg_tmod] at hnonneg
    omega

/-- What the quotient covers of the dividend is a word. -/
theorem isWord_tdiv_mul (ha : (integer a).IsWord) : (integer (a.tdiv b * b)).IsWord := by
  have hsum := Int.tdiv_mul_add_tmod a b
  obtain ⟨hnonneg, hnonpos⟩ := tmod_between a b
  simp only [IsWord] at ha ⊢
  omega

private theorem tmod_eq_zero_or_sign (a b : Int) : a.tmod b = 0 ∨ (a.tmod b).sign = a.sign := by
  rw [← Int.sign_eq_zero_iff_zero, Int.sign_tmod]
  split
  · exact .inl rfl
  · exact .inr rfl

theorem ofInt_of_isWord {n : Int} (h : (integer n).IsWord) : ofInt n = .ok (integer n) :=
  if_pos (Value.fitsWord_iff.2 h)

/-- Division of words, by cases. -/
theorem divide_integers (ha : (integer a).IsWord) :
    divide (integer a) (integer b) =
      if b = 0 then .error .divisionByZero
      else if a = -2 ^ 63 ∧ b = -1 then .error .integerOverflow
      else .ok (integer (a.tdiv b)) := by
  rw [divide]
  split
  · rfl
  · rename_i hb
    have hword := (Value.fitsWord_iff (n := a.tdiv b)).trans (isWord_tdiv_iff ha hb)
    simp only [ofInt, hword, ite_not]

/-- The remainder of words, by the same cases. -/
theorem modulo_integers (ha : (integer a).IsWord) :
    modulo (integer a) (integer b) =
      if b = 0 then .error .moduloByZero
      else if a = -2 ^ 63 ∧ b = -1 then .error .integerOverflow
      else .ok (integer (a.tmod b)) := by
  rw [modulo]
  split
  · rfl
  · rename_i hb
    have hword := (Value.fitsWord_iff (n := a.tdiv b)).trans (isWord_tdiv_iff ha hb)
    simp only [hword, ite_not]

/-- A word has a quotient exactly if it has a remainder: unless the divisor is zero, which is
reported as such, or the quotient is the one that is no word. Then quotient times divisor plus
remainder is the dividend, without overflow on the way; and the remainder is smaller than the
divisor and has the sign of the dividend, if it is not zero. -/
theorem divide_modulo (a b : Int) (ha : (integer a).IsWord) :
    ((∃ q, divide (integer a) (integer b) = .ok q) ↔ ¬ (b = 0 ∨ a = -2 ^ 63 ∧ b = -1)) ∧
    ((∃ r, modulo (integer a) (integer b) = .ok r) ↔ ¬ (b = 0 ∨ a = -2 ^ 63 ∧ b = -1)) ∧
    (∀ q r, divide (integer a) (integer b) = .ok q →
      modulo (integer a) (integer b) = .ok r →
      (∃ p, q.multiply (integer b) = .ok p ∧ p.add r = .ok (integer a)) ∧
      ∃ n, r = integer n ∧ n.natAbs < b.natAbs ∧ (n = 0 ∨ n.sign = a.sign)) ∧
    (b = 0 → divide (integer a) (integer b) = .error .divisionByZero ∧
      modulo (integer a) (integer b) = .error .moduloByZero) := by
  rw [divide_integers ha, modulo_integers ha]
  by_cases hzero : b = 0
  · simp [hzero]
  by_cases hleast : a = -2 ^ 63 ∧ b = -1
  · simp [hleast]
  · have hsome : ¬ (b = 0 ∨ a = -2 ^ 63 ∧ b = -1) := not_or.2 ⟨hzero, hleast⟩
    rw [if_neg hzero, if_neg hzero, if_neg hleast, if_neg hleast]
    refine ⟨⟨fun _ => hsome, fun _ => ⟨_, rfl⟩⟩, ⟨fun _ => hsome, fun _ => ⟨_, rfl⟩⟩, ?_,
      fun h => absurd h hzero⟩
    rintro _ _ ⟨⟩ ⟨⟩
    refine ⟨⟨_, ofInt_of_isWord (isWord_tdiv_mul ha), ?_⟩, _, rfl, ?_, tmod_eq_zero_or_sign a b⟩
    · rw [add, Int.tdiv_mul_add_tmod, ofInt_of_isWord ha]
    · rw [Int.natAbs_tmod]
      exact Nat.mod_lt _ (Int.natAbs_pos.2 hzero)

/-- The least word by a positive divisor: both results are negative. -/
theorem divide_modulo_least :
    let least : Int := -9223372036854775808
    (integer least).IsWord ∧
      divide (integer least) (integer 3) = .ok (integer (-3074457345618258602)) ∧
      modulo (integer least) (integer 3) = .ok (integer (-2)) ∧
      ∃ p, multiply (integer (-3074457345618258602)) (integer 3) = .ok p ∧
        p.add (integer (-2)) = .ok (integer least) := by
  intro least
  have hleast : (integer least).IsWord := ⟨by decide, by decide⟩
  have hquotient : divide (integer least) (integer 3) =
      .ok (integer (-3074457345618258602)) := rfl
  have hremainder : modulo (integer least) (integer 3) = .ok (integer (-2)) := rfl
  obtain ⟨_, _, hback, _⟩ := divide_modulo least 3 hleast
  exact ⟨hleast, hquotient, hremainder, (hback _ _ hquotient hremainder).1⟩

end Scriptlet.Value
