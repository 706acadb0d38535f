import Scriptlet.Proofs.Eval.Words
import Scriptlet.Proofs.Parse.ExpressionComplete
import Scriptlet.Proofs.Parse.StatementSound
import Scriptlet.Proofs.Text.Splitting
import Scriptlet.Proofs.Token.Locality

/-! Integers as texts: digits are read as the number that they write, as far as it fits, and what a
program prints for an integer is an expression with that value. -/
namespace Scriptlet

/-- The number that digits write: each of them counts as often as its place says. -/
def decimalValue : List Char → Nat
  | [] => 0
  | c :: cs => (c.toNat - '0'.toNat) * 10 ^ cs.length + decimalValue cs

theorem ofDigitChars_eq_decimalValue (ds : List Char) :
    Nat.ofDigitChars 10 ds 0 = decimalValue ds := by
  induction ds with
  | nil => rfl
  | cons c cs ih =>
    rw [Nat.ofDigitChars_cons, Nat.mul_zero, Nat.zero_add, Nat.ofDigitChars_eq_ofDigitChars_zero,
      ih, decimalValue, Nat.mul_comm]

/-- All the digits at the front of a text, where no fraction follows them. -/
structure DigitRun (ds rest : List Char) : Prop where
  ne_nil : ds ≠ []
  digits : ∀ c ∈ ds, c.isDigit
  maximal : ∀ c ∈ rest.head?, ¬ c.isDigit
  no_fraction : ∀ d more, rest = '.' :: d :: more → ¬ d.isDigit

namespace Scan

variable {ds rest : List Char}

private theorem readInteger_of_lt (h : decimalValue ds < 2 ^ 63) :
    readInteger ds = .integer (decimalValue ds) := by
  have hle : decimalValue ds ≤ maxInteger := Nat.le_of_lt_succ h
  rw [readInteger, ofDigitChars_eq_decimalValue, if_pos hle]

private theorem readInteger_of_le (h : 2 ^ 63 ≤ decimalValue ds) :
    readInteger ds = .faulty .integerOutOfRange := by
  have hlt : ¬ decimalValue ds ≤ maxInteger := Nat.not_le.2 h
  rw [readInteger, ofDigitChars_eq_decimalValue, if_neg hlt]

/-- The digits are one lexeme, however many they are. -/
theorem lexeme_digits (h : DigitRun ds rest) :
    lexeme (ds ++ rest) = ⟨readInteger ds, ds, rest⟩ := by
  have htake : (ds ++ rest).takeWhile Char.isDigit = ds :=
    Text.takeWhile_append_of_stop h.digits h.maximal
  have hdrop : (ds ++ rest).dropWhile Char.isDigit = rest := by
    have hall := List.takeWhile_append_dropWhile (p := Char.isDigit) (l := ds ++ rest)
    rw [htake] at hall
    exact List.append_cancel_left hall
  have hpoint : ∀ d more, (ds ++ rest).dropWhile Char.isDigit = '.' :: d :: more → ¬ d.isDigit := by
    rw [hdrop]
    exact h.no_fraction
  have hnumber : number (ds ++ rest) = ⟨readInteger ds, ds, rest⟩ := by
    rw [number_of_no_fraction hpoint, run, htake, hdrop]
  obtain ⟨c, cs, rfl⟩ := List.exists_cons_of_ne_nil h.ne_nil
  exact (lexeme_digit (cs ++ rest) (h.digits c List.mem_cons_self)).trans hnumber

/-- A minus sign before a digit is a symbol of its own. -/
theorem lexeme_minus {c : Char} (hc : c.isDigit) (cs : List Char) :
    lexeme ('-' :: c :: cs) = ⟨.plain (.symbol .minus), ['-'], c :: cs⟩ := by
  have hne : c ≠ '=' ∧ c ≠ '>' := by
    constructor
    · rintro rfl
      exact absurd hc (by decide)
    · rintro rfl
      exact absurd hc (by decide)
  have hsymbol : Symbol.ofStart? ('-' :: c :: cs) = some .minus := by
    simp [Symbol.ofStart?, Symbol.all, Symbol.chars, List.isPrefixOf, hne.1.symm, hne.2.symm]
  change symbol '-' (c :: cs) = _
  rw [symbol, hsymbol]
  rfl

end Scan

namespace Lexer

variable {l : Lexer} {bs ds rest : List Char}

/-- The next token is exactly the digits, and the lexer then stands before `rest`. The token is an
integer with the value that the digits write, or an error if that is no integer of 64 bits. -/
structure ReadsDigits (l : Lexer) (ds rest : List Char) : Prop where
  first : l.tokenize.1.head? = some l.next.1
  lexeme : l.next.1.lexeme = String.ofList ds
  rest : l.next.2.rest = rest
  integer : decimalValue ds ≤ 2 ^ 63 - 1 → l.next.1.kind = .integer ∧
    l.next.1.literal = some (.integer (decimalValue ds)) ∧ l.next.2.errors = l.errors
  error : 2 ^ 63 - 1 < decimalValue ds → l.next.1.kind = .error ∧ l.next.1.literal = none ∧
    l.next.2.errors = l.errors ++ [⟨.integerOutOfRange, l.next.1.span, l.next.1.position⟩]

private theorem ahead_of_digits (h : DigitRun ds rest) (hb : ∀ c ∈ bs, Scan.isBlank c)
    (hl : l.rest = bs ++ (ds ++ rest)) : l.ahead = ⟨Scan.readInteger ds, ds, rest⟩ := by
  obtain ⟨c, cs, rfl⟩ := List.exists_cons_of_ne_nil h.ne_nil
  have hc : ¬ Scan.isBlank c := by
    intro hb
    have hd := h.digits c List.mem_cons_self
    simp only [Scan.isBlank, Bool.or_eq_true, beq_iff_eq] at hb
    rcases hb with (rfl | rfl) | rfl
    all_goals exact absurd hd (by decide)
  have hdrop : l.rest.dropWhile Scan.isBlank = c :: cs ++ rest := by
    rw [hl, List.dropWhile_append_of_pos hb]
    exact List.dropWhile_cons_of_neg hc
  rw [ahead, hdrop, Scan.lexeme_digits h]

private theorem ahead_of_minus {c : Char} {cs : List Char} (hc : c.isDigit)
    (hl : l.rest = '-' :: c :: cs) :
    l.ahead = ⟨.plain (.symbol .minus), ['-'], c :: cs⟩ := by
  rw [ahead, hl]
  exact Scan.lexeme_minus hc cs

theorem readsDigits (h : DigitRun ds rest) (hb : ∀ c ∈ bs, Scan.isBlank c)
    (hl : l.rest = bs ++ (ds ++ rest)) : l.ReadsDigits ds rest := by
  have hahead := ahead_of_digits h hb hl
  have hlexeme : l.next.1.lexeme = String.ofList ds := by rw [lexeme_eq, hahead]
  have hrest : l.next.2.rest = rest := by rw [rest_next, hahead]
  by_cases hv : decimalValue ds < 2 ^ 63
  · rw [Scan.readInteger_of_lt hv] at hahead
    have hkind : l.ahead.reading.kind = .integer := by
      rw [hahead]
      rfl
    refine ⟨?_, hlexeme, hrest, fun _ => ⟨hkind, ?_, ?_⟩, fun hgt => ?_⟩
    · rw [tokenize_of_kept hkind (by decide)]
      rfl
    · rw [literal_next, hahead]
      rfl
    · rw [errors_next, hahead]
      exact List.append_nil _
    · omega
  · rw [Scan.readInteger_of_le (Nat.not_lt.1 hv)] at hahead
    have hkind : l.next.1.kind = .error := by
      rw [kind_next, hahead]
      rfl
    refine ⟨?_, hlexeme, hrest, fun hle => ?_, fun _ => ⟨hkind, ?_, ?_⟩⟩
    · rw [tokenize_of_error hkind]
      rfl
    · omega
    · rw [literal_next, hahead]
      rfl
    · rw [errors_next, hahead]
      rfl

/-- Digits that are the whole text are the only token before the end of input. -/
theorem tokenize_of_digits (h : DigitRun ds []) (hl : l.rest = ds)
    (hv : decimalValue ds ≤ 2 ^ 63 - 1) :
    ∃ t stop, l.tokenize.1 = [t, stop] ∧ l.tokenize.2.errors = l.errors ∧ t.kind = .integer ∧
      t.literal = some (.integer (decimalValue ds)) ∧ stop.kind = .eof := by
  have hread : l.ReadsDigits ds [] :=
    readsDigits h (List.forall_mem_nil _) (by rw [hl, List.append_nil, List.nil_append])
  obtain ⟨hkind, hliteral, herrors⟩ := hread.integer hv
  have hahead : l.ahead.reading.kind = .integer := hkind
  have hstop := ahead_of_nil hread.rest
  have heof : l.next.2.ahead.reading.kind = .eof := by
    rw [hstop]
    rfl
  rw [tokenize_of_kept hahead (by decide), tokenize_of_eof heof]
  refine ⟨l.next.1, l.next.2.next.1, rfl, ?_, hkind, hliteral, heof⟩
  rw [errors_next, hstop, ← herrors]
  exact List.append_nil _

/-- A minus sign and digits are two tokens, or one and an error. -/
theorem tokenize_of_minus (h : DigitRun ds rest) (hl : l.rest = '-' :: (ds ++ rest)) :
    l.next.1.kind = .symbol .minus ∧ l.next.2.rest = ds ++ rest ∧ l.next.2.errors = l.errors ∧
      l.tokenize = (l.next.1 :: l.next.2.tokenize.1, l.next.2.tokenize.2) := by
  obtain ⟨c, cs, rfl⟩ := List.exists_cons_of_ne_nil h.ne_nil
  have hahead := ahead_of_minus (h.digits c List.mem_cons_self) hl
  have hkind : l.ahead.reading.kind = .symbol .minus := by
    rw [hahead]
    rfl
  refine ⟨hkind, ?_, ?_, ?_⟩
  · rw [rest_next, hahead]
    rfl
  · rw [errors_next, hahead]
    exact List.append_nil _
  · exact tokenize_of_kept hkind (by decide)

end Lexer

/-- What is printed for an integer: digits for its absolute value, behind a sign if it is
negative. -/
theorem toList_text_integer (v : Int) : ∃ ds, DigitRun ds [] ∧ decimalValue ds = v.natAbs ∧
    (Value.integer v).text.toList = if v < 0 then '-' :: ds else ds := by
  obtain ⟨c, cs, hcs, hdigits⟩ := Text.toList_repr v.natAbs
  refine ⟨v.natAbs.repr.toList, ?_, ?_, ?_⟩
  · rw [hcs]
    exact ⟨List.cons_ne_nil c cs, hdigits, nofun, nofun⟩
  · rw [← ofDigitChars_eq_decimalValue, Nat.repr_eq_ofList_toDigits, String.toList_ofList,
      Nat.ofDigitChars_ten_toDigits]
  · rw [Value.text, Int.toString_eq_repr, Int.repr_eq_if]
    by_cases hv : v < 0
    · have habs : (-v).toNat = v.natAbs := by omega
      rw [if_neg (Int.not_le.2 hv), if_pos hv, habs, String.toList_append]
      rfl
    · have habs : v.toNat = v.natAbs := by omega
      rw [if_pos (Int.not_lt.1 hv), if_neg hv, habs]

/-- The text is an expression without any error, from its first token to its last, and on every
machine it has the given value. -/
def Denotes (source : String) (v : Value) : Prop :=
  (tokenize source).2 = [] ∧
    ∃ e p, (Parser.ofTokens (tokenize source).1).expression? = (some e, p) ∧
      Parse.atEnd p.rest ∧ p.errors = [] ∧ ∀ m, e.eval .word m = (.ok v, m)

section Reading

variable {t sign stop : Token} {n : Nat}

theorem derives_integer (hk : t.kind = .integer) (hn : t.literal = some (.integer n)) :
    Derives (.expr .primary (.literal t.position (.integer n))) [t] := by
  refine .literal ?_
  rw [Token.leaf?, hk, hn]

private theorem derives_negative (hs : sign.kind = .symbol .minus) (hk : t.kind = .integer)
    (hn : t.literal = some (.integer n)) :
    Derives (.expr .unary (.unary sign.position .negate (.literal t.position (.integer n))))
      [sign, t] := by
  have hsign : sign.kind ∈ UnaryOp.negate.kinds := by
    rw [hs]
    exact List.mem_singleton.2 rfl
  exact .unary hsign ((derives_integer hk hn).loosen (Level.rank_le_primary _))

private theorem eval_negative (p q : Position) (hn : n ≤ 2 ^ 63) (m : Machine) :
    (Expr.unary p .negate (.literal q (.integer n))).eval .word m =
      (.ok (.integer (-n)), m) := by
  have hholds : Value.fitsWord (-n : Int) := Value.fitsWord_iff.2 (by omega)
  change Eval.at p (Value.ofInt (-n)) m = _
  rw [Value.ofInt, if_pos hholds]
  rfl

end Reading

/-- A text whose tokens are an expression of the grammar, up to the end of input, has its value. -/
theorem denotes_of_derives {source : String} {v : Value} {ts : List Token} {l : Level} {e : Expr}
    {stop : Token} (htokens : (Lexer.ofString source).tokenize.1 = ts ++ [stop])
    (hstop : stop.kind = .eof) (herrors : (Lexer.ofString source).tokenize.2.errors = [])
    (hd : Derives (.expr l e) ts) (heval : ∀ m, e.eval .word m = (.ok v, m)) :
    Denotes source v := by
  have hstops : Level.assignment.Stops [stop] := Level.stops_cons (by simp [hstop])
  have hread : (Parser.ofTokens (tokenize source).1).expression? =
      (some e, ⟨ts ++ [stop], ts.length, []⟩) := by
    rw [tokenize, htokens, Parser.expression?_complete (hd.loosen (Nat.zero_le _)) hstops
      (List.cons_ne_nil stop []) rfl, Parser.ofTokens, Nat.zero_add]
  refine ⟨herrors, e, _, hread, ?_, rfl, heval⟩
  rw [Parser.rest, List.drop_left]
  simp [Parse.atEnd, hstop]

theorem denotes_of_nonneg {v : Int} (hv : 0 ≤ v) (hmax : v < 2 ^ 63) :
    Denotes (Value.integer v).text (.integer v) := by
  obtain ⟨ds, hds, hvalue, htext⟩ := toList_text_integer v
  rw [if_neg (Int.not_lt.2 hv)] at htext
  have hle : decimalValue ds ≤ 2 ^ 63 - 1 := by omega
  obtain ⟨t, stop, htokens, herrors, hkind, hliteral, hstop⟩ :=
    Lexer.tokenize_of_digits hds ((Lexer.rest_ofString _).trans htext) hle
  refine denotes_of_derives htokens hstop herrors (derives_integer hkind hliteral) fun m => ?_
  have hint : (decimalValue ds : Int) = v := by omega
  rw [hint]
  rfl

theorem denotes_of_neg {v : Int} (hv : v < 0) (hmin : -2 ^ 63 < v) :
    Denotes (Value.integer v).text (.integer v) := by
  obtain ⟨ds, hds, hvalue, htext⟩ := toList_text_integer v
  rw [if_pos hv, ← List.append_nil ds] at htext
  have hle : decimalValue ds ≤ 2 ^ 63 - 1 := by omega
  obtain ⟨hsign, hrest, hsilent, hminus⟩ :=
    Lexer.tokenize_of_minus hds ((Lexer.rest_ofString _).trans htext)
  rw [List.append_nil] at hrest
  obtain ⟨t, stop, hdigits, herrors, hkind, hliteral, hstop⟩ :=
    Lexer.tokenize_of_digits hds hrest hle
  rw [hsilent] at herrors
  have hd := derives_negative hsign hkind hliteral
  refine denotes_of_derives ?_ hstop ?_ hd fun m => ?_
  · rw [hminus, hdigits]
    rfl
  · rw [hminus, herrors]
    rfl
  · have hint : -(decimalValue ds : Int) = v := by omega
    rw [eval_negative _ _ (by omega) m, hint]

/-- The digits of the least integer are too large without their sign. -/
theorem not_denotes_least : ¬ Denotes (Value.integer (-2 ^ 63)).text (.integer (-2 ^ 63)) := by
  rintro ⟨hnone, _⟩
  obtain ⟨ds, hds, hvalue, htext⟩ := toList_text_integer (-2 ^ 63)
  rw [if_pos (by decide), ← List.append_nil ds] at htext
  obtain ⟨_, hrest, _, htokens⟩ :=
    Lexer.tokenize_of_minus hds ((Lexer.rest_ofString _).trans htext)
  have hread := Lexer.readsDigits hds (List.forall_mem_nil _) hrest
  have hgt : 2 ^ 63 - 1 < decimalValue ds := by
    rw [hvalue]
    decide
  obtain ⟨hkind, _, herrors⟩ := hread.error hgt
  rw [tokenize, htokens, Lexer.tokenize_of_error hkind, herrors] at hnone
  exact absurd hnone (by simp)

/-- All the digits that stand next, behind blanks or not, are read as the integer that they write,
however many they are, or as an error where that is no integer of 64 bits. What is printed for such
an integer is read without an error and has its value, except for the least one. -/
theorem integers_readBack :
    (∀ (l : Lexer) (bs ds rest : List Char), (∀ c ∈ bs, Scan.isBlank c) → DigitRun ds rest →
      l.rest = bs ++ (ds ++ rest) → l.ReadsDigits ds rest) ∧
    ∀ v : Int, (Value.integer v).IsWord →
      (Denotes (Value.integer v).text (.integer v) ↔ v ≠ -2 ^ 63) := by
  refine ⟨fun l bs ds rest hb hds => Lexer.readsDigits hds hb, fun v hword => ⟨?_, fun hne => ?_⟩⟩
  · rintro hread rfl
    exact not_denotes_least hread
  · obtain ⟨hmin, hmax⟩ := hword
    by_cases hv : v < 0
    · exact denotes_of_neg hv (by omega)
    · exact denotes_of_nonneg (Int.not_lt.1 hv) hmax

/-- A blank and zeros in front, and a point without a digit behind it; and the greatest integer with
a minus sign. -/
theorem integers_readBack_zeros :
    let l := Lexer.ofString " 007.x"
    let ds := ['0', '0', '7']
    let v : Int := -9223372036854775807
    ((∀ c ∈ [' '], Scan.isBlank c) ∧ DigitRun ds ['.', 'x'] ∧
      l.rest = [' '] ++ (ds ++ ['.', 'x']) ∧ decimalValue ds = 7 ∧ l.ReadsDigits ds ['.', 'x']) ∧
    (Value.integer v).IsWord ∧ v ≠ -2 ^ 63 ∧ (Value.integer v).text = "-9223372036854775807" ∧
      Denotes "-9223372036854775807" (.integer v) := by
  intro l ds v
  obtain ⟨hdigits, hback⟩ := integers_readBack
  have hds : DigitRun ds ['.', 'x'] := by
    refine ⟨List.cons_ne_nil _ _, ?_, fun c hc => ?_, fun d more hrest => ?_⟩
    · have hdigits : ('0').isDigit ∧ ('7').isDigit := by decide
      exact List.forall_mem_cons.2
        ⟨hdigits.1, List.forall_mem_cons.2 ⟨hdigits.1, List.forall_mem_singleton.2 hdigits.2⟩⟩
    · cases hc
      decide
    · cases hrest
      decide
  have hblank : ∀ c ∈ [' '], Scan.isBlank c := List.forall_mem_singleton.2 rfl
  have hl : l.rest = [' '] ++ (ds ++ ['.', 'x']) := by decide
  have hword : (Value.integer v).IsWord := ⟨by decide, by decide⟩
  have hne : v ≠ -2 ^ 63 := by decide
  have htext : (Value.integer v).text = "-9223372036854775807" := by decide +kernel
  have hread := (hback v hword).2 hne
  rw [htext] at hread
  exact ⟨⟨hblank, hds, hl, rfl, hdigits l [' '] ds _ hblank hds hl⟩, hword, hne, htext, hread⟩

end Scriptlet
