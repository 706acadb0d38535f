import Scriptlet.Text.Escape

/-! How written texts come apart again: words with separators between them, runs of characters,
integers, and quoted texts, which end at their closing quote. -/
namespace Scriptlet.Text

/-- Joined words are the first one, and the others behind separators. -/
theorem toList_intercalate_cons (sep w : String) (ws : List String) :
    (String.intercalate sep (w :: ws)).toList =
      w.toList ++ ws.flatMap fun v => sep.toList ++ v.toList := by
  induction ws generalizing w with
  | nil => simp
  | cons v ws ih =>
    rw [String.intercalate_cons_cons, String.toList_append, String.toList_append, ih v]
    simp

/-- What is written can be split off the front of a longer text in one way only. -/
def PrefixFree {α : Type} (f : α → List Char) : Prop :=
  ∀ a b r r', f a ++ r = f b ++ r' → a = b ∧ r = r'

theorem takeWhile_append_of_stop {p : Char → Bool} {w r : List Char} (hw : ∀ c ∈ w, p c)
    (hr : ∀ c ∈ r.head?, ¬ p c) : (w ++ r).takeWhile p = w := by
  rw [List.takeWhile_append_of_pos hw]
  cases r with
  | nil => simp
  | cons c r =>
    have hc : ¬ p c := hr c rfl
    rw [List.takeWhile_cons_of_neg hc, List.append_nil]

/-- A run of characters of a class ends at the first other character. -/
theorem run_append_inj {p : Char → Bool} {w w' r r' : List Char} (hw : ∀ c ∈ w, p c)
    (hw' : ∀ c ∈ w', p c) (hr : ∀ c ∈ r.head?, ¬ p c) (hr' : ∀ c ∈ r'.head?, ¬ p c)
    (h : w ++ r = w' ++ r') : w = w' ∧ r = r' := by
  have hww : w = w' := by
    rw [← takeWhile_append_of_stop hw hr, h, takeWhile_append_of_stop hw' hr']
  subst hww
  exact ⟨rfl, List.append_cancel_left h⟩

section Decimal

theorem toList_repr (n : Nat) : ∃ c cs, n.repr.toList = c :: cs ∧ ∀ d ∈ c :: cs, d.isDigit := by
  have hdigits : n.repr.toList = Nat.toDigits 10 n := by
    rw [Nat.repr_eq_ofList_toDigits, String.toList_ofList]
  have hall : ∀ d ∈ n.repr.toList, d.isDigit := by
    intro d hd
    rw [hdigits] at hd
    exact Nat.isDigit_of_mem_toDigits (by decide) (by decide) hd
  obtain ⟨c, cs, hcs⟩ := List.exists_cons_of_ne_nil (hdigits ▸ Nat.toDigits_ne_nil)
  exact ⟨c, cs, hcs, hcs ▸ hall⟩

theorem ofDigitChars_repr (n : Nat) : Nat.ofDigitChars 10 n.repr.toList 0 = n := by
  rw [Nat.repr_eq_ofList_toDigits, String.toList_ofList, Nat.ofDigitChars_ten_toDigits]

/-- An integer is written with digits, behind a sign if it is negative. -/
theorem toList_toString_int (n : Int) : ∃ c cs, (toString n).toList = c :: cs ∧
    (c = '-' ∨ c.isDigit) ∧ ∀ d ∈ cs, d.isDigit := by
  rw [Int.toString_eq_repr, Int.repr_eq_if]
  split
  · obtain ⟨c, cs, hcs, hd⟩ := toList_repr n.toNat
    exact ⟨c, cs, hcs, .inr (hd c List.mem_cons_self), fun d h => hd d (List.mem_cons_of_mem c h)⟩
  · obtain ⟨c, cs, hcs, hd⟩ := toList_repr (-n).toNat
    exact ⟨'-', c :: cs, by simp [hcs], .inl rfl, hd⟩

/-- The integer that these characters stand for. -/
def integerOf : List Char → Int
  | '-' :: ds => -(Nat.ofDigitChars 10 ds 0 : Int)
  | ds => Nat.ofDigitChars 10 ds 0

theorem integerOf_toString (n : Int) : integerOf (toString n).toList = n := by
  rw [Int.toString_eq_repr, Int.repr_eq_if]
  split
  · obtain ⟨c, cs, hcs, hd⟩ := toList_repr n.toNat
    have hn : integerOf n.toNat.repr.toList = (n.toNat : Int) := by
      unfold integerOf
      split
      · rename_i ds hsign
        have hdigit := hd '-' (by rw [← hcs, hsign]; exact List.mem_cons_self)
        exact absurd hdigit (by decide)
      · rw [ofDigitChars_repr]
    omega
  · have hn : integerOf ("-" ++ (-n).toNat.repr).toList = -((-n).toNat : Int) := by
      rw [String.toList_append]
      change -(Nat.ofDigitChars 10 (-n).toNat.repr.toList 0 : Int) = _
      rw [ofDigitChars_repr]
    omega

theorem toString_int_inj {m n : Int} (h : toString m = toString n) : m = n := by
  rw [← integerOf_toString m, h, integerOf_toString]

end Decimal

section Hexadecimal

variable {m n : Nat}

theorem digitChar_inj (hm : m < 16) (hn : n < 16) (h : m.digitChar = n.digitChar) : m = n := by
  have hall : ∀ m < 16, ∀ n < 16, m.digitChar = n.digitChar → m = n := by decide
  exact hall m hm n hn h

private theorem brace_notMem_toDigits (n : Nat) : '\x7d' ∉ Nat.toDigits 16 n := by
  induction n using Nat.strongRecOn with
  | _ n ih
  rw [Nat.toDigits_eq_if (by decide)]
  split
  · simp
  · have hdiv : '\x7d' ∉ Nat.toDigits 16 (n / 16) := ih _ (by omega)
    simp [hdiv]

/-- A number is determined by its digits, the last of which is the rest by the base. -/
theorem toDigits_inj (h : Nat.toDigits 16 m = Nat.toDigits 16 n) : m = n := by
  induction m using Nat.strongRecOn generalizing n with
  | _ m ih
  have hlt : m < 16 ↔ n < 16 := by
    have hm := Nat.length_toDigits_le_iff (b := 16) (n := m) (k := 1) (by decide) (by decide)
    have hn := Nat.length_toDigits_le_iff (b := 16) (n := n) (k := 1) (by decide) (by decide)
    rw [h] at hm
    exact hm.symm.trans hn
  by_cases hm : m < 16
  · rw [Nat.toDigits_of_lt_base hm, Nat.toDigits_of_lt_base (hlt.1 hm)] at h
    exact digitChar_inj hm (hlt.1 hm) (List.singleton_inj.1 h)
  · have hm' : 16 ≤ m := Nat.not_lt.1 hm
    have hn' : 16 ≤ n := Nat.not_lt.1 (mt hlt.2 hm)
    rw [Nat.toDigits_of_base_le (by decide) hm', Nat.toDigits_of_base_le (by decide) hn',
      List.append_singleton_inj] at h
    have hdiv : m / 16 = n / 16 := ih _ (by omega) h.1
    have hmod : m % 16 = n % 16 :=
      digitChar_inj (Nat.mod_lt _ (by decide)) (Nat.mod_lt _ (by decide)) h.2
    omega

end Hexadecimal

/-- The character that a backslash and one more character stand for. -/
def shortEscape? : Char → Option Char
  | '0' => some (Char.ofNat 0)
  | 't' => some '\t'
  | 'r' => some '\r'
  | 'n' => some '\n'
  | '\\' => some '\\'
  | '"' => some '"'
  | _ => none

/-- A character is escaped in one of three ways, which the first two characters tell apart. -/
theorem escapeChar_cases (c : Char) :
    (escapeChar ['"'] true c = [c] ∧ c ≠ '\\' ∧ c ≠ '"') ∨
      (∃ d, escapeChar ['"'] true c = ['\\', d] ∧ shortEscape? d = some c) ∨
      escapeChar ['"'] true c = codeEscape c := by
  unfold escapeChar
  split
  · rename_i h
    exact .inr (.inl ⟨_, rfl, by rw [eq_of_beq h]; rfl⟩)
  split
  · rename_i h
    exact .inr (.inl ⟨_, rfl, by rw [eq_of_beq h]; rfl⟩)
  split
  · rename_i h
    exact .inr (.inl ⟨_, rfl, by rw [eq_of_beq h]; rfl⟩)
  split
  · rename_i h
    exact .inr (.inl ⟨_, rfl, by rw [eq_of_beq h]; rfl⟩)
  split
  · rename_i h
    have hc : c = '\\' ∨ c = '"' := by simpa using h
    rcases hc with rfl | rfl
    · exact .inr (.inl ⟨_, rfl, rfl⟩)
    · exact .inr (.inl ⟨_, rfl, rfl⟩)
  · rename_i h
    split
    · exact .inr (.inr rfl)
    · exact .inl ⟨rfl, by simpa using h⟩

private theorem codeEscape_prefixFree : PrefixFree codeEscape := by
  intro c d r r' h
  simp only [codeEscape, List.append_assoc] at h
  have hbody := List.append_cancel_left h
  have hstop : ∀ r : List Char, ∀ c ∈ (['\x7d'] ++ r).head?, ¬ (c != '\x7d') := by simp
  have hdigits : ∀ n, ∀ c ∈ Nat.toDigits 16 n, c != '\x7d' := by
    intro n c hc
    have hne : c ≠ '\x7d' := fun heq => brace_notMem_toDigits n (heq ▸ hc)
    simpa using hne
  obtain ⟨hcode, hrest⟩ := run_append_inj (hdigits _) (hdigits _) (hstop _) (hstop _) hbody
  have hcd : c.toNat = d.toNat := toDigits_inj hcode
  refine ⟨?_, List.append_cancel_left hrest⟩
  rw [← Char.ofNat_toNat c, hcd, Char.ofNat_toNat]

private theorem escapeChar_prefixFree : PrefixFree (escapeChar ['"'] true) := by
  intro c d r r' h
  rcases escapeChar_cases c with ⟨hc, hb, _⟩ | ⟨x, hc, hx⟩ | hc
  · rcases escapeChar_cases d with ⟨hd, _⟩ | ⟨y, hd, _⟩ | hd <;> rw [hc, hd] at h
    · simpa using h
    · exact absurd (List.cons.inj h).1 hb
    · exact absurd (List.cons.inj h).1 hb
  · rcases escapeChar_cases d with ⟨hd, hb, _⟩ | ⟨y, hd, hy⟩ | hd <;> rw [hc, hd] at h
    · exact absurd (List.cons.inj h).1.symm hb
    · cases h
      exact ⟨Option.some.inj (hx.symm.trans hy), rfl⟩
    · cases h
      cases hx
  · rcases escapeChar_cases d with ⟨hd, hb, _⟩ | ⟨y, hd, hy⟩ | hd <;> rw [hc, hd] at h
    · exact absurd (List.cons.inj h).1.symm hb
    · cases h
      cases hy
    · exact codeEscape_prefixFree c d r r' h

/-- No escaped character begins like the closing quote. -/
theorem escapeChar_eq_cons (c : Char) :
    ∃ d ds, escapeChar ['"'] true c = d :: ds ∧ d ≠ '"' := by
  rcases escapeChar_cases c with ⟨hc, _, hq⟩ | ⟨x, hc, _⟩ | hc
  · exact ⟨c, [], hc, hq⟩
  · exact ⟨'\\', [x], hc, by decide⟩
  · exact ⟨'\\', _, hc, by decide⟩

private theorem escapeAll_prefixFree :
    PrefixFree fun cs : List Char => cs.flatMap (escapeChar ['"'] true) ++ ['"'] := by
  intro cs ds r r' h
  induction cs generalizing ds with
  | nil =>
    cases ds with
    | nil => simpa using h
    | cons d ds =>
      obtain ⟨x, xs, hx, hq⟩ := escapeChar_eq_cons d
      simp only [List.flatMap_nil, List.flatMap_cons, hx] at h
      exact absurd (List.cons.inj h).1.symm hq
  | cons c cs ih =>
    cases ds with
    | nil =>
      obtain ⟨x, xs, hx, hq⟩ := escapeChar_eq_cons c
      simp only [List.flatMap_nil, List.flatMap_cons, hx] at h
      exact absurd (List.cons.inj h).1 hq
    | cons d ds =>
      simp only [List.flatMap_cons, List.append_assoc] at h ih
      obtain ⟨hcd, htail⟩ := escapeChar_prefixFree c d _ _ h
      obtain ⟨hcs, hr⟩ := ih ds htail
      exact ⟨by rw [hcd, hcs], hr⟩

theorem quoted_prefixFree : PrefixFree fun s => (quoted s).toList := by
  intro s t r r' h
  simp only [quoted, String.toList_ofList, List.cons_append, List.cons.injEq, true_and] at h
  obtain ⟨hst, hr⟩ := escapeAll_prefixFree _ _ _ _ h
  exact ⟨String.toList_inj.1 hst, hr⟩

theorem quoted_inj {s t : String} (h : quoted s = quoted t) : s = t := by
  have happend : (quoted s).toList ++ [] = (quoted t).toList ++ [] := by rw [h]
  exact (quoted_prefixFree s t [] [] happend).1

end Scriptlet.Text
