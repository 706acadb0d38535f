import Mathlib.Data.List.Infix
import Scriptlet.Proofs.Token.LongestMatch

/-! A lexeme is read from its own text: what follows can be cut off, and behind a separator anything
may follow. -/
namespace Scriptlet

namespace Lexeme

/-- The lexeme with more text behind it. -/
def followedBy (x : Lexeme) (more : List Char) : Lexeme := { x with rest := x.rest ++ more }

/-- The lexeme with nothing behind it. -/
def alone (x : Lexeme) : Lexeme := { x with rest := [] }

end Lexeme

/-- A block comment without a closing mark. -/
def OpenComment (w : List Char) : Prop := ∃ body, w = '/' :: '*' :: body ∧ ¬ ['*', '/'] <:+: body

theorem openComment_iff (w : List Char) :
    OpenComment w ↔ w.take 2 = ['/', '*'] ∧ ¬ ['*', '/'] <:+: w.drop 2 := by
  constructor
  · intro ⟨body, hw, hbody⟩
    rw [hw]
    exact ⟨rfl, hbody⟩
  · intro ⟨hw, hbody⟩
    refine ⟨w.drop 2, ?_, hbody⟩
    calc w = w.take 2 ++ w.drop 2 := (List.take_append_drop 2 w).symm
      _ = '/' :: '*' :: w.drop 2 := by rw [hw]; rfl

instance : DecidablePred OpenComment := fun w => decidable_of_iff _ (openComment_iff w).symm

namespace Scan

/-- A character that goes on with no word, number, tag or symbol. -/
structure Separates (sep : Char) : Prop where
  not_tagChar : isTagChar sep = false
  not_symbol (s : Symbol) : sep ∉ s.chars

theorem separates_newline : Separates '\n' where
  not_tagChar := rfl
  not_symbol s := by cases s <;> decide

theorem separates_space : Separates ' ' where
  not_tagChar := rfl
  not_symbol s := by cases s <;> decide

namespace Separates

variable {sep : Char}

theorem not_wordChar (h : Separates sep) : isWordChar sep = false :=
  (Bool.or_eq_false_iff.1 h.not_tagChar).1

private theorem not_wordStart (h : Separates sep) : isWordStart sep = false := by
  rw [Bool.eq_false_iff]
  intro hs
  have hw := isWordChar_of_isWordStart hs
  rw [h.not_wordChar] at hw
  cases hw

private theorem not_digit (h : Separates sep) : sep.isDigit = false := by
  have hw := h.not_wordChar
  rw [isWordChar, Bool.or_eq_false_iff, Bool.or_eq_false_iff] at hw
  exact hw.1.2

private theorem ne_dot (h : Separates sep) : sep ≠ '.' := fun he => h.not_symbol .dot (he ▸ .head _)

private theorem ne_slash (h : Separates sep) : sep ≠ '/' := fun he =>
  h.not_symbol .slash (he ▸ .head _)

private theorem ne_star (h : Separates sep) : sep ≠ '*' := fun he =>
  h.not_symbol .star (he ▸ .head _)

end Separates

section Behind

variable {sep : Char} {cs : List Char} {p : Char → Bool} (more : List Char)

theorem takeWhile_separator (hp : p sep = false) :
    (cs ++ sep :: more).takeWhile p = cs.takeWhile p := by
  induction cs with
  | nil => simp [hp]
  | cons c cs ih => by_cases hc : p c <;> simp [hc, ih]

theorem dropWhile_separator (hp : p sep = false) :
    (cs ++ sep :: more).dropWhile p = cs.dropWhile p ++ sep :: more := by
  induction cs with
  | nil => simp [hp]
  | cons c cs ih => by_cases hc : p c <;> simp [hc, ih]

theorem run_separator (hp : p sep = false) (f : List Char → Reading) :
    run p f (cs ++ sep :: more) = (run p f cs).followedBy (sep :: more) := by
  rw [run, takeWhile_separator more hp, dropWhile_separator more hp]
  rfl

theorem string_followedBy (h : (string cs).reading ≠ .faulty .unclosedString) (more : List Char) :
    string (cs ++ more) = (string cs).followedBy more := by
  cases hb : stringBody cs with
  | none =>
    rw [string, hb] at h
    exact absurd rfl h
  | some b =>
    obtain ⟨us, rest⟩ := b
    have hcs := stringBody_eq_some hb
    have hmore : stringBody (cs ++ more) = some (us, rest ++ more) := by
      rw [← hcs, List.append_assoc, List.cons_append]
      exact stringBody_flatMap (stringBody_plain hb) (rest ++ more)
    rw [string, string, hb, hmore]
    rfl

theorem number_of_fraction {d : Char} {ds : List Char}
    (h : cs.dropWhile Char.isDigit = '.' :: d :: ds) (hd : d.isDigit) : number cs =
      ⟨readFloat (cs.takeWhile Char.isDigit) ((d :: ds).takeWhile Char.isDigit),
        cs.takeWhile Char.isDigit ++ '.' :: (d :: ds).takeWhile Char.isDigit,
        (d :: ds).dropWhile Char.isDigit⟩ := by
  rw [number, h]
  exact if_pos hd

theorem number_of_no_fraction
    (h : ∀ d ds, cs.dropWhile Char.isDigit = '.' :: d :: ds → ¬ d.isDigit) :
    number cs = run Char.isDigit readInteger cs := by
  unfold number
  split
  · rename_i d ds heq
    exact if_neg (h d ds heq)
  · rfl

theorem number_separator (hsep : Separates sep) (cs : List Char) :
    number (cs ++ sep :: more) = (number cs).followedBy (sep :: more) := by
  have hn := hsep.not_digit
  have hdrop : (cs ++ sep :: more).dropWhile Char.isDigit =
      cs.dropWhile Char.isDigit ++ sep :: more := dropWhile_separator more hn
  by_cases h : ∃ d ds, cs.dropWhile Char.isDigit = '.' :: d :: ds ∧ d.isDigit
  · obtain ⟨d, ds, heq, hd⟩ := h
    rw [heq, List.cons_append, List.cons_append] at hdrop
    rw [number_of_fraction heq hd, number_of_fraction hdrop hd, takeWhile_separator more hn,
      ← List.cons_append, takeWhile_separator more hn, dropWhile_separator more hn]
    rfl
  · have hno : ∀ d ds, cs.dropWhile Char.isDigit = '.' :: d :: ds → ¬ d.isDigit :=
      fun d ds heq hd => h ⟨d, ds, heq, hd⟩
    rw [number_of_no_fraction hno, number_of_no_fraction, run_separator more hn]
    intro d ds heq hd
    rw [hdrop] at heq
    match hcs : cs.dropWhile Char.isDigit with
    | [] =>
      rw [hcs] at heq
      exact hsep.ne_dot (List.cons.inj heq).1
    | [c] =>
      rw [hcs] at heq
      cases heq
      rw [hn] at hd
      cases hd
    | c :: e :: es =>
      rw [hcs] at heq
      cases heq
      exact hno d es hcs hd

theorem tag_separator (hsep : Separates sep) (cs : List Char) :
    tag (cs ++ sep :: more) = (tag cs).followedBy (sep :: more) := by
  have hhead : (cs ++ sep :: more).head?.any isWordStart = cs.head?.any isWordStart := by
    cases cs with
    | nil => simp [hsep.not_wordStart]
    | cons c cs => rfl
  rw [tag, tag, hhead, run_separator more hsep.not_tagChar]
  split <;> rfl

/-- A closed comment stays as it is. -/
theorem blockComment_followedBy (h : ¬ OpenComment ('/' :: '*' :: (blockComment cs).text))
    (more : List Char) : blockComment (cs ++ more) = (blockComment cs).followedBy more := by
  have happ := blockComment_append cs
  rcases blockComment_cases cs with ⟨body, ht, hb⟩ | ⟨ht, hb⟩
  · rw [ht, List.append_assoc] at happ
    have hcs := blockComment_closed hb (blockComment cs).rest
    have hmore := blockComment_closed hb ((blockComment cs).rest ++ more)
    generalize (blockComment cs).rest = rest at happ hcs hmore
    subst happ
    rw [List.append_assoc]
    exact hmore.trans (congrArg (Lexeme.followedBy · more) hcs.symm)
  · rw [ht] at h
    exact absurd ⟨cs, rfl, hb⟩ h

theorem isPrefixOf_separator {w : List Char} (hw : sep ∉ w) (cs : List Char) :
    w.isPrefixOf (cs ++ sep :: more) = w.isPrefixOf cs := by
  induction w generalizing cs with
  | nil => simp
  | cons c w ih =>
    rw [List.mem_cons, not_or] at hw
    cases cs with
    | nil => simp [List.isPrefixOf, Ne.symm hw.1]
    | cons d cs => simp [List.isPrefixOf, ih hw.2]

theorem ofStart?_separator (hsep : Separates sep) (cs : List Char) :
    Symbol.ofStart? (cs ++ sep :: more) = Symbol.ofStart? cs := by
  unfold Symbol.ofStart?
  congr 1
  funext s
  exact isPrefixOf_separator more (hsep.not_symbol s) cs

theorem symbol_separator (hsep : Separates sep) (c : Char) (cs : List Char) :
    symbol c (cs ++ sep :: more) = (symbol c cs).followedBy (sep :: more) := by
  rw [symbol, symbol, ← List.cons_append, ofStart?_separator more hsep]
  cases hs : Symbol.ofStart? (c :: cs) with
  | none => rfl
  | some s =>
    have hpre : s.chars <+: c :: cs := by simpa using List.find?_some hs
    simp only [Lexeme.followedBy, List.drop_append_of_le_length hpre.length_le]

/-- What stands behind a separator does not change the lexeme before it, unless that is a string or
a block comment without an end. A line comment is ended by a newline only. -/
theorem lexeme_separator (hsep : Separates sep) (hne : cs ≠ [])
    (hs : (lexeme cs).reading ≠ .faulty .unclosedString)
    (hc : (lexeme cs).reading.kind = .comment → sep = '\n' ∧ ¬ OpenComment (lexeme cs).text) :
    lexeme (cs ++ sep :: more) = (lexeme cs).followedBy (sep :: more) := by
  fun_cases lexeme cs with
  | case1 => exact absurd rfl hne
  | case2 cs => rfl
  | case3 cs => exact string_followedBy hs _
  | case4 cs => exact congrArg (behind '@') (run_separator more hsep.not_wordChar _)
  | case5 cs => exact tag_separator more hsep cs
  | case6 cs =>
    obtain ⟨rfl, _⟩ := hc rfl
    exact congrArg (fun x => behind '/' (behind '/' x)) (run_separator more rfl _)
  | case7 cs =>
    have hkind : (blockComment cs).reading.kind = .comment := by rw [blockComment_reading]; rfl
    have hclosed := (hc hkind).2
    exact congrArg (fun x => behind '/' (behind '*' x)) (blockComment_followedBy hclosed _)
  | case8 c cs h₁ h₂ h₃ h₄ h₅ h₆ hd =>
    rw [List.cons_append, lexeme_digit _ hd, ← List.cons_append]
    exact number_separator more hsep (c :: cs)
  | case9 c cs h₁ h₂ h₃ h₄ h₅ h₆ hd hw =>
    rw [List.cons_append, lexeme_wordStart _ hw, ← List.cons_append]
    exact run_separator more hsep.not_wordChar _
  | case10 c cs h₁ h₂ h₃ h₄ h₅ h₆ hd hw =>
    have hslash (d : Char) (hd : sep ≠ d) (h : ∀ ds, c = '/' → cs = d :: ds → False) :
        ∀ ds, c = '/' → cs ++ sep :: more = d :: ds → False := by
      intro ds hslash heq
      cases cs with
      | nil => exact hd (List.cons.inj heq).1
      | cons e es => exact h es hslash (by rw [(List.cons.inj heq).1])
    rw [List.cons_append, lexeme.eq_8 c _ h₁ h₂ h₃ h₄ (hslash '/' hsep.ne_slash h₅)
      (hslash '*' hsep.ne_star h₆), if_neg hd, if_neg hw]
    exact symbol_separator more hsep c cs

end Behind

section Alone

variable {c : Char} {cs : List Char}

theorem dropWhile_takeWhile (p : Char → Bool) (cs : List Char) :
    (cs.takeWhile p).dropWhile p = [] :=
  List.dropWhile_eq_nil_iff.2 fun _ => List.mem_takeWhile_imp

theorem run_text (p : Char → Bool) (f : List Char → Reading) (cs : List Char) :
    run p f (run p f cs).text = (run p f cs).alone := by
  have ht : (cs.takeWhile p).takeWhile p = cs.takeWhile p := List.takeWhile_idem
  have hd := dropWhile_takeWhile p cs
  change run p f (cs.takeWhile p) = _
  rw [run, ht, hd]
  rfl

theorem string_text (cs : List Char) : lexeme (string cs).text = (string cs).alone := by
  cases hb : stringBody cs with
  | none =>
    have hs : string cs = ⟨.faulty .unclosedString, '"' :: cs, []⟩ := by rw [string, hb]
    rw [hs]
    exact hs
  | some b =>
    obtain ⟨us, rest⟩ := b
    have hs : string cs = ⟨readString us, '"' :: us.flatMap StringUnit.chars ++ ['"'], rest⟩ := by
      rw [string, hb]
    have hbody := stringBody_flatMap (stringBody_plain hb) []
    rw [hs]
    change string (us.flatMap StringUnit.chars ++ ['"']) = _
    rw [string, hbody]
    rfl

theorem number_text (cs : List Char) : number (number cs).text = (number cs).alone := by
  have ht : (cs.takeWhile Char.isDigit).takeWhile Char.isDigit = cs.takeWhile Char.isDigit :=
    List.takeWhile_idem
  by_cases h : ∃ d ds, cs.dropWhile Char.isDigit = '.' :: d :: ds ∧ d.isDigit
  · obtain ⟨d, ds, heq, hd⟩ := h
    have hfraction : (d :: ds).takeWhile Char.isDigit = d :: ds.takeWhile Char.isDigit :=
      List.takeWhile_cons_of_pos hd
    have hall : ∀ x ∈ cs.takeWhile Char.isDigit, x.isDigit := fun _ => List.mem_takeWhile_imp
    have hdot : ¬ Char.isDigit '.' := by decide
    have hx := number_of_fraction heq hd
    have hdrop : (number cs).text.dropWhile Char.isDigit =
        '.' :: d :: ds.takeWhile Char.isDigit := by
      rw [hx, hfraction, List.dropWhile_append_of_pos hall, List.dropWhile_cons_of_neg hdot]
    have htake : (number cs).text.takeWhile Char.isDigit = cs.takeWhile Char.isDigit := by
      rw [hx, List.takeWhile_append_of_pos hall, List.takeWhile_cons_of_neg hdot, List.append_nil]
    rw [number_of_fraction hdrop hd, htake, ← hfraction, List.takeWhile_idem,
      dropWhile_takeWhile, hx]
    rfl
  · have hno : ∀ d ds, cs.dropWhile Char.isDigit = '.' :: d :: ds → ¬ d.isDigit :=
      fun d ds heq hd => h ⟨d, ds, heq, hd⟩
    rw [number_of_no_fraction hno, ← run_text]
    apply number_of_no_fraction
    intro d ds heq
    change (cs.takeWhile Char.isDigit).dropWhile Char.isDigit = _ at heq
    rw [dropWhile_takeWhile] at heq
    cases heq

theorem tag_text (cs : List Char) : lexeme (tag cs).text = (tag cs).alone := by
  unfold tag
  split
  · rename_i h
    obtain ⟨c, hc, hw⟩ := (Option.any_eq_true _ _).1 h
    obtain ⟨ds, rfl⟩ := List.head?_eq_some_iff.1 hc
    have htag : isTagChar c := by
      rw [isTagChar, isWordChar_of_isWordStart hw, Bool.true_or]
    have hhead : ((c :: ds).takeWhile isTagChar).head?.any isWordStart := by
      rw [List.takeWhile_cons_of_pos htag]
      simpa using hw
    change tag ((c :: ds).takeWhile isTagChar) = _
    rw [tag, if_pos hhead]
    exact congrArg (behind '#') (run_text isTagChar _ (c :: ds))
  · rfl

theorem blockComment_text (cs : List Char) :
    blockComment (blockComment cs).text = (blockComment cs).alone := by
  rw [Lexeme.alone, blockComment_reading]
  rcases blockComment_cases cs with ⟨body, ht, hb⟩ | ⟨ht, hb⟩
  · rw [ht]
    exact blockComment_closed hb []
  · rw [ht]
    exact blockComment_unclosed hb

/-- A symbol stands alone; a character that starts nothing starts nothing alone either. -/
theorem symbol_text (h : lexeme [c] = symbol c []) (cs : List Char) :
    lexeme (symbol c cs).text = (symbol c cs).alone := by
  cases hs : Symbol.ofStart? (c :: cs) with
  | some s =>
    have hx : symbol c cs = ⟨.plain (.symbol s), s.chars, (c :: cs).drop s.chars.length⟩ := by
      rw [symbol, hs]
    rw [hx]
    cases s <;> rfl
  | none =>
    have hx : symbol c cs = ⟨.faulty (.unrecognized c), [c], cs⟩ := by rw [symbol, hs]
    have hnone : Symbol.ofStart? [c] = none := by
      rw [Symbol.ofStart?, List.find?_eq_none] at hs ⊢
      intro s hmem hpre
      have hlong : s.chars <+: c :: cs :=
        (List.isPrefixOf_iff_prefix.1 hpre).trans (List.prefix_append [c] cs)
      exact hs s hmem (List.isPrefixOf_iff_prefix.2 hlong)
    rw [hx, h, symbol, hnone]
    rfl

/-- A lexeme that is cut off from what follows it is read as before. -/
theorem lexeme_text (cs : List Char) : lexeme (lexeme cs).text = (lexeme cs).alone := by
  fun_cases lexeme cs with
  | case1 => rfl
  | case2 cs => rfl
  | case3 cs => exact string_text cs
  | case4 cs => exact congrArg (behind '@') (run_text isWordChar readDirective cs)
  | case5 cs => exact tag_text cs
  | case6 cs => exact congrArg (fun x => behind '/' (behind '/' x)) (run_text _ _ cs)
  | case7 cs => exact congrArg (fun x => behind '/' (behind '*' x)) (blockComment_text cs)
  | case8 c cs h₁ h₂ h₃ h₄ h₅ h₆ hd =>
    obtain ⟨ws, hws⟩ := digits_prefix_number (c :: cs)
    rw [List.takeWhile_cons_of_pos hd, List.cons_append] at hws
    rw [← number_text, ← hws]
    exact lexeme_digit _ hd
  | case9 c cs h₁ h₂ h₃ h₄ h₅ h₆ hd hw =>
    have htext : (run isWordChar readWord (c :: cs)).text = c :: cs.takeWhile isWordChar :=
      List.takeWhile_cons_of_pos (isWordChar_of_isWordStart hw)
    rw [← run_text, htext]
    exact lexeme_wordStart _ hw
  | case10 c cs h₁ h₂ h₃ h₄ h₅ h₆ hd hw =>
    refine symbol_text ?_ cs
    rw [lexeme.eq_8 c [] h₁ h₂ h₃ h₄ (by simp) (by simp), if_neg hd, if_neg hw]

end Alone

end Scan

end Scriptlet
