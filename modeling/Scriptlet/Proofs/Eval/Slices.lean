import Mathlib.Algebra.Group.Int.Defs
import Mathlib.Algebra.Group.Nat.Defs
import Scriptlet.Eval.Builtin
import Scriptlet.Value.Arithmetic

/-! Parts of texts: which characters `substring` picks, and how its results fit together with each
other and with `length`. -/
namespace Scriptlet

/-- `u` is made of the characters of `s` from index `i` on and before index `j`. -/
structure IsSlice (s : String) (i j : Nat) (u : String) : Prop where
  length_eq : u.length = j - i
  char_eq (k : Nat) (h : k < j - i) : u.toList[k]? = s.toList[i + k]?

namespace Builtin

variable {s t : String} {i j n m : Int}

private theorem size?_of_nonneg (h : 0 ≤ n) : size? n = some n.toNat := if_pos h

private theorem size?_of_neg (h : n < 0) : size? n = none := if_neg (Int.not_le.2 h)

private theorem difference_of_le {a b : Nat} (h : b ≤ a) : difference a b = .ok (a - b) := if_pos h

/-- The characters that a slice is made of, with no regard to the end of the text. -/
def cut (s : String) (start : Nat) (most : Option Int) : String :=
  let rest := s.toList.drop start
  match most with
  | none => String.ofList rest
  | some n => String.ofList (rest.take n.toNat)

theorem cut_some (s : String) (start : Nat) (n : Int) :
    (cut s start (some n)).toList = (s.toList.drop start).take n.toNat := String.toList_ofList

private theorem cut_none (s : String) (start : Nat) :
    (cut s start none).toList = s.toList.drop start := String.toList_ofList

/-- No characters are left behind the end of a text. -/
theorem cut_past {start : Nat} (h : s.length ≤ start) (most : Option Int) :
    cut s start most = "" := by
  have hnil : s.toList.drop start = [] :=
    List.drop_eq_nil_of_le (Nat.le_trans (Nat.le_of_eq String.length_toList) h)
  cases most with
  | none => rw [cut, hnil]
  | some n => rw [cut, hnil, List.take_nil]

/-- From a start in the text there is no overflow, and keeping to the end of it takes nothing
away. -/
theorem slice_eq_cut {start : Nat} (h : start ≤ s.length) (most : Option Int) :
    slice s start most = .ok (cut s start most) := by
  have hlength : (s.toList.drop start).length = s.length - start := by
    rw [List.length_drop, String.length_toList]
  cases most with
  | none =>
    rw [slice, difference_of_le h, cut, ← hlength]
    exact congrArg (Except.ok ∘ String.ofList) (List.take_length (l := s.toList.drop start))
  | some n =>
    by_cases hn : 0 ≤ n
    · have htake : (s.toList.drop start).take (min n.toNat (s.length - start)) =
          (s.toList.drop start).take n.toNat := by
        rw [← hlength, ← List.take_eq_take_min]
      simp only [slice, size?_of_nonneg hn, difference_of_le h, cut]
      exact congrArg (Except.ok ∘ String.ofList) htake
    · have hzero : n.toNat = 0 := by omega
      simp only [slice, size?_of_neg (Int.not_le.1 hn), cut, hzero, List.take_zero]

/-- A part of a text is a text, or an argument is not of its kind. -/
theorem part_cases (text start : Value) (most : Option Value) :
    (∃ u, substringOf.part text start most = .ok (.string u)) ∨
      ∃ fault ∈ [ArgumentFault.substringText, .substringStart, .substringLength],
        substringOf.part text start most = .error (.invalidArgument fault) := by
  unfold substringOf.part
  split
  · split
    · exact .inl ⟨"", rfl⟩
    · rename_i s i _ start _
      by_cases h : s.length ≤ start
      · rw [if_pos h]
        exact .inl ⟨"", rfl⟩
      · have hle : start ≤ s.length := Nat.le_of_not_le h
        rw [if_neg h]
        split
        · exact .inl ⟨_, by rw [slice_eq_cut hle]; rfl⟩
        · exact .inl ⟨_, by rw [slice_eq_cut hle]; rfl⟩
        · exact .inr ⟨.substringLength, by decide, rfl⟩
  · exact .inr ⟨.substringStart, by decide, rfl⟩
  · exact .inr ⟨.substringText, by decide, rfl⟩

/-- The bound is not looked at where the start lies outside the text. -/
theorem part_outside (h : ¬ (0 ≤ i ∧ i < s.length)) (most : Option Value) :
    substringOf.part (.string s) (.integer i) most = .ok (.string "") := by
  simp only [substringOf.part]
  by_cases hi : 0 ≤ i
  · have hpast : s.length ≤ i.toNat := by omega
    simp only [size?_of_nonneg hi, if_pos hpast]
  · simp only [size?_of_neg (Int.not_le.1 hi)]

theorem part_inside (h : 0 ≤ i ∧ i < s.length) (most : Option Int) :
    substringOf.part (.string s) (.integer i) (most.map .integer) =
      .ok (.string (cut s i.toNat most)) := by
  have hin : ¬ s.length ≤ i.toNat := by omega
  cases most with
  | none =>
    simp only [substringOf.part, size?_of_nonneg h.1, if_neg hin, Option.map_none,
      slice_eq_cut (Nat.le_of_not_le hin)]
    rfl
  | some n =>
    simp only [substringOf.part, size?_of_nonneg h.1, if_neg hin, Option.map_some,
      slice_eq_cut (Nat.le_of_not_le hin)]
    rfl

theorem part_bad (h : 0 ≤ i ∧ i < s.length) {v : Value} (hv : ∀ k, v ≠ .integer k) :
    substringOf.part (.string s) (.integer i) (some v) =
      .error (.invalidArgument .substringLength) := by
  have hin : ¬ s.length ≤ i.toNat := by omega
  cases v with
  | integer k => exact absurd rfl (hv k)
  | _ => simp only [substringOf.part, size?_of_nonneg h.1, if_neg hin]

/-- Behind a start that is not negative, the end of the text needs no case of its own. -/
theorem part_eq (hi : 0 ≤ i) (most : Option Int) :
    substringOf.part (.string s) (.integer i) (most.map .integer) =
      .ok (.string (cut s i.toNat most)) := by
  by_cases hs : i < s.length
  · exact part_inside ⟨hi, hs⟩ most
  · rw [part_outside (by omega), cut_past (by omega)]

theorem substringOf_three (hi : 0 ≤ i) (n : Int) :
    substringOf [.string s, .integer i, .integer n] = .ok (.string (cut s i.toNat (some n))) :=
  part_eq hi (some n)

theorem substringOf_two (hi : 0 ≤ i) :
    substringOf [.string s, .integer i] = .ok (.string (cut s i.toNat none)) :=
  part_eq hi none

theorem isSlice_cut (hi : 0 ≤ i) (hs : i < s.length) (hn : 0 ≤ n) :
    IsSlice s i.toNat (min (i + n) s.length).toNat (cut s i.toNat (some n)) := by
  have hlength : s.toList.length = s.length := String.length_toList
  constructor
  · rw [← String.length_toList, cut_some, List.length_take, List.length_drop, hlength]
    omega
  · intro k hk
    rw [cut_some, List.getElem?_take_of_lt (by omega), List.getElem?_drop]

theorem substringOf_isSlice (s : String) (i n : Int) :
    ∃ u, substringOf [.string s, .integer i, .integer n] = .ok (.string u) ∧
      (0 ≤ i ∧ i < s.length ∧ 0 ≤ n → IsSlice s i.toNat (min (i + n) s.length).toNat u) ∧
      (¬ (0 ≤ i ∧ i < s.length ∧ 0 ≤ n) → u = "") := by
  by_cases hin : 0 ≤ i ∧ i < s.length
  · refine ⟨_, part_inside hin (some n), fun h => isSlice_cut h.1 h.2.1 h.2.2, fun h => ?_⟩
    have hn : n.toNat = 0 := by omega
    rw [← String.toList_inj, cut_some, hn]
    rfl
  · exact ⟨"", part_outside hin (some (.integer n)), fun h => absurd ⟨h.1, h.2.1⟩ hin, fun _ => rfl⟩

/-- Two parts that meet make up the text. -/
theorem cut_append (s : String) (n : Int) :
    cut s 0 (some n) ++ cut s n.toNat none = s := by
  rw [← String.toList_inj, String.toList_append, cut_some, cut_none, List.drop_zero,
    List.take_append_drop]

/-- A part of a part is a part. -/
theorem cut_cut (s : String) (a b : Nat) (n m : Int) (h : (b : Int) ≤ n) :
    cut (cut s a (some n)) b (some m) = cut s (a + b) (some (min m (n - b))) := by
  have hcount : (min m (n - b)).toNat = min m.toNat (n.toNat - b) := by omega
  rw [← String.toList_inj, cut_some, cut_some, cut_some, List.drop_take, List.drop_drop,
    List.take_take, hcount]

theorem lengthOf_string (h : s.length < 2 ^ 63) :
    lengthOf [.string s] = .ok (.integer s.length) := by
  have hmod : Int.bmod s.length 18446744073709551616 = s.length := by
    apply Int.bmod_eq_of_le <;> omega
  rw [lengthOf, hmod]

end Builtin

open Builtin in
/-- The laws of `substring` and `length`. No size overflows, and the sum of start and count is the
exact one, also where it is no integer of 64 bits. -/
theorem substring_algebra (s t : String) :
    (∀ i n : Int, ∃ u, substringOf [.string s, .integer i, .integer n] = .ok (.string u) ∧
      (0 ≤ i ∧ i < s.length ∧ 0 ≤ n → IsSlice s i.toNat (min (i + n) s.length).toNat u) ∧
      (¬ (0 ≤ i ∧ i < s.length ∧ 0 ≤ n) → u = "")) ∧
    (∀ n : Int, 0 ≤ n →
      (do
        let front ← substringOf [.string s, .integer 0, .integer n]
        let back ← substringOf [.string s, .integer n]
        front.add back) = .ok (.string s)) ∧
    (∀ i n j m : Int, 0 ≤ i → 0 ≤ j → j ≤ n →
      (do
        let part ← substringOf [.string s, .integer i, .integer n]
        substringOf [part, .integer j, .integer m]) =
      substringOf [.string s, .integer (i + j), .integer (min m (n - j))]) ∧
    (s.length + t.length < 2 ^ 63 →
      (do lengthOf [← (Value.string s).add (.string t)]) =
        .ok (.integer (s.length + t.length)) ∧
      (do
        let m ← lengthOf [.string s]
        let n ← lengthOf [.string t]
        m.add n) = .ok (.integer (s.length + t.length))) ∧
    ∀ (i : Int) (v : Value), (∀ k, v ≠ .integer k) →
      ((∃ e, substringOf [.string s, .integer i, v] = .error e) ↔ 0 ≤ i ∧ i < s.length) := by
  refine ⟨substringOf_isSlice s, fun n hn => ?_, fun i n j m hi hj hn => ?_, fun h => ?_,
    fun i v hv => ⟨fun ⟨e, he⟩ => ?_, fun hin => ⟨_, part_bad hin hv⟩⟩⟩
  · rw [substringOf_three (Int.le_refl 0), substringOf_two hn]
    exact congrArg (Except.ok ∘ Value.string) (cut_append s n)
  · have hb : (j.toNat : Int) = j := Int.toNat_of_nonneg hj
    have hcut := cut_cut s i.toNat j.toNat n m (by omega)
    rw [hb, ← Int.toNat_add hi hj] at hcut
    rw [substringOf_three hi, substringOf_three (Int.add_nonneg hi hj), ← hcut]
    exact substringOf_three hj m
  · have hst : (s ++ t).length = s.length + t.length := String.length_append s t
    have hsum : Value.fitsWord ((s.length : Int) + t.length) := by
      simp only [Value.fitsWord, Bool.and_eq_true, decide_eq_true_eq]
      omega
    constructor
    · change lengthOf [.string (s ++ t)] = _
      rw [lengthOf_string (by omega), hst, Int.natCast_add]
    · rw [lengthOf_string (by omega), lengthOf_string (by omega)]
      exact if_pos hsum
  · by_cases hin : 0 ≤ i ∧ i < s.length
    · exact hin
    · cases he.symm.trans (part_outside hin (some v))

open Builtin in
/-- The end of the part lies past the end of the text and past the greatest integer; two parts meet
behind a character of two bytes; and a count that is no integer does not matter behind the end. -/
theorem substring_algebra_accent :
    let s := "h\u00e9llo"
    let most : Int := 9223372036854775807
    (0 ≤ (3 : Int) ∧ (3 : Int) < s.length ∧ 0 ≤ most ∧
      ∃ u, substringOf [.string s, .integer 3, .integer most] = .ok (.string u) ∧
        IsSlice s 3 5 u) ∧
    (do
      let front ← substringOf [.string s, .integer 0, .integer 2]
      let back ← substringOf [.string s, .integer 2]
      front.add back) = .ok (.string s) ∧
    (do
      let part ← substringOf [.string s, .integer 1, .integer 3]
      substringOf [part, .integer 2, .integer most]) =
      substringOf [.string s, .integer 3, .integer 1] ∧
    s.length + s.length < 2 ^ 63 ∧
    (do lengthOf [← (Value.string s).add (.string s)]) = .ok (.integer 10) ∧
    ((∃ e, substringOf [.string s, .integer 5, .string "x"] = .error e) ↔
      0 ≤ (5 : Int) ∧ (5 : Int) < s.length) := by
  intro s most
  have hlength : s.length = 5 := by decide
  obtain ⟨hslice, hmeet, hnested, hsum, hbad⟩ := substring_algebra s s
  obtain ⟨u, hu, hin, _⟩ := hslice 3 most
  have h3 : 0 ≤ (3 : Int) ∧ (3 : Int) < s.length ∧ 0 ≤ most := by decide
  have hpart := hin h3
  have hstop : (min (3 + most) s.length).toNat = 5 := by decide
  rw [hstop] at hpart
  have hfits : s.length + s.length < 2 ^ 63 := by
    rw [hlength]
    decide
  obtain ⟨hdouble, _⟩ := hsum hfits
  rw [hlength] at hdouble
  exact ⟨⟨h3.1, h3.2.1, h3.2.2, u, hu, hpart⟩, hmeet 2 (by decide),
    hnested 1 3 2 most (by decide) (by decide) (by decide), hfits, hdouble,
    hbad 5 (.string "x") nofun⟩

end Scriptlet
