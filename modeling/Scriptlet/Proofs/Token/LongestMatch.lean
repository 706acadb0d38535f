import Mathlib.Algebra.Group.Nat.Defs
import Mathlib.Data.List.TakeWhile
import Scriptlet.Proofs.Token.Reading

/-! The lexical grammar as a relation, and the scanner as its longest match. -/
namespace Scriptlet

/-- A letter or an underscore. -/
def IsWordStart (c : Char) : Prop := c.isAlpha ∨ c = '_'

/-- A letter, a digit or an underscore. -/
def IsWordChar (c : Char) : Prop := c.isAlpha ∨ c.isDigit ∨ c = '_'

/-- The kind of a word: a truth value, a keyword of the table, or else an identifier. -/
inductive WordKind (w : List Char) : TokenKind → Prop where
  | boolean (h : w = "true".toList ∨ w = "false".toList) : WordKind w .boolean
  | keyword {k : Keyword} (h : w = k.word.toList) : WordKind w (.keyword k)
  | identifier (hb : w ≠ "true".toList ∧ w ≠ "false".toList)
      (hk : ∀ k : Keyword, w ≠ k.word.toList) : WordKind w .identifier

/-- The texts that are lexemes where `rest` follows, with their kinds. -/
inductive Lexical (rest : List Char) : List Char → TokenKind → Prop where
  | newline : Lexical rest ['\n'] .newline
  | string {us : List Scan.StringUnit} (hu : ∀ c, .plain c ∈ us → c ≠ '"' ∧ c ≠ '\\') :
    Lexical rest ('"' :: us.flatMap Scan.StringUnit.chars ++ ['"']) .string
  | integer {ds : List Char} (hne : ds ≠ []) (hd : ∀ c ∈ ds, c.isDigit)
      (hv : Nat.ofDigitChars 10 ds 0 < 2 ^ 63) : Lexical rest ds .integer
  | largeInteger {ds : List Char} (hne : ds ≠ []) (hd : ∀ c ∈ ds, c.isDigit)
      (hv : 2 ^ 63 ≤ Nat.ofDigitChars 10 ds 0) : Lexical rest ds .error
  | float {ds fs : List Char} (hds : ds ≠ []) (hd : ∀ c ∈ ds, c.isDigit) (hfs : fs ≠ [])
      (hf : ∀ c ∈ fs, c.isDigit) : Lexical rest (ds ++ '.' :: fs) .float
  | word {c : Char} {cs : List Char} {k : TokenKind} (hc : IsWordStart c)
      (hcs : ∀ x ∈ cs, IsWordChar x) (hk : WordKind (c :: cs) k) : Lexical rest (c :: cs) k
  | directive (a : Directive) : Lexical rest ('@' :: a.word.toList) (.directive a)
  | unknownDirective {cs : List Char} (hcs : ∀ x ∈ cs, IsWordChar x)
      (hk : ∀ a : Directive, cs ≠ a.word.toList) : Lexical rest ('@' :: cs) .error
  | hash : Lexical rest ['#'] .hash
  | tag {c : Char} {cs : List Char} (hc : IsWordStart c) (hcs : ∀ x ∈ cs, IsWordChar x ∨ x = ':') :
    Lexical rest ('#' :: c :: cs) .tag
  | lineComment {body : List Char} (hb : '\n' ∉ body) : Lexical rest ('/' :: '/' :: body) .comment
  /-- A block comment goes up to the first closing mark behind its opening. -/
  | blockComment {body : List Char} (hb : ¬ ['*', '/'] <:+: body ++ ['*']) :
    Lexical rest ('/' :: '*' :: body ++ ['*', '/']) .comment
  /-- Without a closing mark it goes up to the end of the text. -/
  | unclosedComment {body : List Char} (hb : ¬ ['*', '/'] <:+: body) (hr : rest = []) :
    Lexical rest ('/' :: '*' :: body) .comment
  | symbol (s : Symbol) : Lexical rest s.chars (.symbol s)

/-- The text begins with this lexeme of the grammar. -/
def Lexical.Begins (r w : List Char) (k : TokenKind) : Prop :=
  ∃ rest, r = w ++ rest ∧ Lexical rest w k

theorem Keyword.ofWord?_eq_some {w : String} {k : Keyword} : ofWord? w = some k ↔ k.word = w := by
  constructor
  · intro h
    simpa using List.find?_some h
  · rintro rfl
    cases k <;> rfl

theorem Directive.ofWord?_eq_some {w : String} {a : Directive} :
    ofWord? w = some a ↔ a.word = w := by
  constructor
  · intro h
    simpa using List.find?_some h
  · rintro rfl
    cases a <;> rfl

namespace Symbol

theorem mem_all (s : Symbol) : s ∈ all := by cases s <;> decide

private theorem chars_injective {s s' : Symbol} (h : s.chars = s'.chars) : s = s' := by
  have hs (s : Symbol) : ofStart? s.chars = some s := by cases s <;> rfl
  exact Option.some.inj ((hs s).symm.trans ((congrArg ofStart? h).trans (hs s')))

/-- Longer symbols stand before shorter ones in the table. -/
theorem pairwise_all : all.Pairwise fun s s' => s'.chars.length ≤ s.chars.length := by decide

/-- The first symbol of the table that fits is the longest one. -/
theorem length_le_of_ofStart? {cs : List Char} {s s' : Symbol} (h : ofStart? cs = some s)
    (hs : s'.chars <+: cs) : s'.chars.length ≤ s.chars.length := by
  obtain ⟨_, as, bs, hall, hbefore⟩ := List.find?_eq_some_iff_append.1 h
  have hmem : s' ∈ as ++ s :: bs := hall ▸ s'.mem_all
  have hsorted := hall ▸ pairwise_all
  rcases List.mem_append.1 hmem with ha | hb
  · have hno := hbefore s' ha
    simp [List.isPrefixOf_iff_prefix.2 hs] at hno
  · rcases List.mem_cons.1 hb with rfl | hb
    · exact Nat.le_refl _
    · exact (List.pairwise_cons.1 (List.pairwise_append.1 hsorted).2.1).1 s' hb

end Symbol

/-- The scanner found nothing of the grammar: a string without an end, or a character that starts
nothing. -/
def Reading.Lost (r : Reading) : Prop :=
  r = .faulty .unclosedString ∨ ∃ c, r = .faulty (.unrecognized c)

theorem Reading.Lost.kind_eq {r : Reading} (h : r.Lost) : r.kind = .error := by
  rcases h with rfl | ⟨c, rfl⟩ <;> rfl

theorem Reading.not_lost {r : Reading} (k : TokenKind) (hk : k ≠ .error) (hr : r.kind = k) :
    ¬ r.Lost := fun hl => hk (hr.symm.trans hl.kind_eq)

/-- What the scanner finds where the grammar has the lexeme `w`: that lexeme or a longer one. -/
structure Lexeme.Covers (x : Lexeme) (w : List Char) (k : TokenKind) : Prop where
  begins : w <+: x.text
  kind_eq : w = x.text → x.reading.kind = k
  found : ¬ x.reading.Lost

namespace Scan

variable {c : Char} {cs w rest : List Char} {k : TokenKind}

theorem isWordStart_iff : isWordStart c ↔ IsWordStart c := by simp [isWordStart, IsWordStart]

theorem isWordChar_iff : isWordChar c ↔ IsWordChar c := by simp [isWordChar, IsWordChar, or_assoc]

theorem isTagChar_iff : isTagChar c ↔ IsWordChar c ∨ c = ':' := by
  simp [isTagChar, isWordChar_iff]

theorem not_isDigit_of_isWordStart (h : isWordStart c) : ¬ c.isDigit := by
  simp only [isWordStart, Bool.or_eq_true, beq_iff_eq] at h
  rcases h with h | rfl
  · intro hd
    have hletter : (decide ('A'.val ≤ c.val ∧ c.val ≤ 'Z'.val) ||
      (decide ('a'.val ≤ c.val) && decide (c.val ≤ 'z'.val))) = true := h
    have hdigit : (decide ('0'.val ≤ c.val) && decide (c.val ≤ '9'.val)) = true := hd
    simp [UInt32.le_iff_toNat_le] at hletter hdigit
    omega
  · decide

theorem lexeme_digit (cs : List Char) (h : c.isDigit) : lexeme (c :: cs) = number (c :: cs) := by
  unfold lexeme
  split
  case h_8 heq =>
    cases heq
    rw [if_pos h]
  all_goals simp_all

theorem lexeme_wordStart (cs : List Char) (h : isWordStart c) :
    lexeme (c :: cs) = run isWordChar readWord (c :: cs) := by
  have hd := not_isDigit_of_isWordStart h
  unfold lexeme
  split
  case h_8 heq =>
    cases heq
    rw [if_neg hd, if_pos h]
  all_goals simp_all [isWordStart]

/-- Every symbol but the slash, which may open a comment, is looked up in the table. -/
theorem lexeme_symbol {s : Symbol} (h : s ≠ .slash) (rest : List Char) :
    ∃ c cs, s.chars = c :: cs ∧ lexeme (s.chars ++ rest) = symbol c (cs ++ rest) := by
  cases s with
  | slash => exact absurd rfl h
  | _ => exact ⟨_, _, rfl, rfl⟩

theorem run_covers {p : Char → Bool} {f : List Char → Reading} (hw : ∀ c ∈ w, p c)
    (hk : (f w).kind = k) (hf : ∀ v, ¬ (f v).Lost) : (run p f (w ++ rest)).Covers w k := by
  have ht : (run p f (w ++ rest)).text = w ++ rest.takeWhile p := List.takeWhile_append_of_pos hw
  refine ⟨ht ▸ List.prefix_append _ _, fun h => ?_, hf _⟩
  change (f (run p f (w ++ rest)).text).kind = k
  rw [← h, hk]

theorem behind_covers {x : Lexeme} (h : x.Covers w k) : (behind c x).Covers (c :: w) k where
  begins := List.cons_prefix_cons.2 ⟨rfl, h.begins⟩
  kind_eq hw := h.kind_eq (List.cons.inj hw).2
  found := h.found

theorem readWord_not_lost (w : List Char) : ¬ (readWord w).Lost := by
  intro h
  have hk := h.kind_eq
  unfold readWord at hk
  split at hk
  · cases hk
  · split at hk
    · cases hk
    · split at hk <;> cases hk

theorem readDirective_not_lost (w : List Char) : ¬ (readDirective w).Lost := by
  unfold readDirective
  split <;> simp [Reading.Lost, Reading.plain, Reading.faulty]

theorem readInteger_not_lost (w : List Char) : ¬ (readInteger w).Lost := by
  unfold readInteger
  split <;> simp [Reading.Lost, Reading.integer, Reading.faulty]

theorem ofList_eq_iff {s : String} : String.ofList w = s ↔ w = s.toList := by
  constructor
  · rintro rfl
    exact String.toList_ofList.symm
  · rintro rfl
    exact String.ofList_toList

theorem wordKind_readWord (w : List Char) : WordKind w (readWord w).kind := by
  unfold readWord
  split
  · rename_i h
    exact .boolean (.inl (ofList_eq_iff.1 h))
  · rename_i ht
    split
    · rename_i h
      exact .boolean (.inr (ofList_eq_iff.1 h))
    · rename_i hf
      split
      · rename_i k h
        exact .keyword (ofList_eq_iff.1 (Keyword.ofWord?_eq_some.1 h).symm)
      · rename_i h
        refine .identifier ⟨mt ofList_eq_iff.2 ht, mt ofList_eq_iff.2 hf⟩ fun k hk => ?_
        rw [Keyword.ofWord?_eq_some.2 (ofList_eq_iff.2 hk).symm] at h
        cases h

end Scan

theorem Keyword.word_not_bool (k : Keyword) :
    ¬ (k.word.toList = "true".toList ∨ k.word.toList = "false".toList) := by
  rw [String.toList_inj, String.toList_inj]
  cases k <;> decide

/-- A word has one kind. -/
theorem WordKind.unique {w : List Char} {k k' : TokenKind} (h : WordKind w k) (h' : WordKind w k') :
    k = k' := by
  cases h with
  | boolean h =>
    cases h' with
    | boolean => rfl
    | @keyword x hx => exact absurd (hx ▸ h) x.word_not_bool
    | identifier hb _ => exact absurd h (not_or.2 hb)
  | @keyword x hx =>
    cases h' with
    | boolean h' => exact absurd (hx ▸ h') x.word_not_bool
    | @keyword y hy =>
      have hxy : x.word = y.word := String.toList_inj.1 (hx.symm.trans hy)
      have hx' := Keyword.ofWord?_eq_some.2 hxy
      rw [Keyword.ofWord?_eq_some.2 rfl] at hx'
      rw [Option.some.inj hx']
    | identifier _ hk => exact absurd hx (hk x)
  | identifier hb hk =>
    cases h' with
    | boolean h' => exact absurd h' (not_or.2 hb)
    | @keyword x hx => exact absurd hx (hk x)
    | identifier => rfl

namespace Scan

variable {c : Char} {cs w rest : List Char} {k : TokenKind}

theorem stringBody_flatMap {us : List StringUnit} (h : ∀ c, .plain c ∈ us → c ≠ '"' ∧ c ≠ '\\')
    (rest : List Char) :
    stringBody (us.flatMap StringUnit.chars ++ '"' :: rest) = some (us, rest) := by
  induction us with
  | nil => rfl
  | cons u us ih =>
    have hus := ih fun c hc => h c (.tail _ hc)
    cases u with
    | escape c =>
      change (stringBody (us.flatMap StringUnit.chars ++ '"' :: rest)).map _ = _
      rw [hus]
      rfl
    | plain c =>
      obtain ⟨hq, hb⟩ := h c (.head _)
      change stringBody (c :: (us.flatMap StringUnit.chars ++ '"' :: rest)) = _
      rw [stringBody, hus]
      · rfl
      · exact hq
      · exact fun h _ => hb h
      · exact fun _ _ h _ => hb h

theorem lexeme_string {us : List StringUnit} (h : ∀ c, .plain c ∈ us → c ≠ '"' ∧ c ≠ '\\')
    (rest : List Char) : lexeme ('"' :: us.flatMap StringUnit.chars ++ ['"'] ++ rest) =
      ⟨readString us, '"' :: us.flatMap StringUnit.chars ++ ['"'], rest⟩ := by
  change string (us.flatMap StringUnit.chars ++ ['"'] ++ rest) = _
  rw [List.append_assoc, string, List.singleton_append, stringBody_flatMap h]

theorem string_covers {us : List StringUnit} (h : ∀ c, .plain c ∈ us → c ≠ '"' ∧ c ≠ '\\') :
    (lexeme ('"' :: us.flatMap StringUnit.chars ++ ['"'] ++ rest)).Covers
      ('"' :: us.flatMap StringUnit.chars ++ ['"']) .string := by
  rw [lexeme_string h]
  exact ⟨List.prefix_rfl, fun _ => rfl, Reading.not_lost .string (by simp) rfl⟩

theorem digits_prefix_number (cs : List Char) : cs.takeWhile Char.isDigit <+: (number cs).text := by
  unfold number
  split
  · split
    · exact List.prefix_append _ _
    · exact List.prefix_rfl
  · exact List.prefix_rfl

/-- A number without a point is an integer. -/
theorem number_eq_run (h : ∀ c ∈ (number cs).text, c.isDigit) :
    number cs = run Char.isDigit readInteger cs := by
  unfold number at h ⊢
  split
  · rename_i d ds heq
    split
    · rename_i hd
      simp only [heq, hd, if_true] at h
      exact absurd (h '.' (by simp)) (by decide)
    · rfl
  · rfl

theorem number_not_lost (cs : List Char) : ¬ (number cs).reading.Lost := by
  unfold number
  split
  · split
    · exact Reading.not_lost .float (by simp) rfl
    · exact readInteger_not_lost _
  · exact readInteger_not_lost _

theorem integer_covers (hne : w ≠ []) (hd : ∀ c ∈ w, c.isDigit) (hk : (readInteger w).kind = k) :
    (lexeme (w ++ rest)).Covers w k := by
  obtain ⟨c, ds, rfl⟩ := List.exists_cons_of_ne_nil hne
  rw [List.cons_append, lexeme_digit _ (hd c (.head _)), ← List.cons_append]
  refine ⟨?_, fun h => ?_, number_not_lost _⟩
  · have hp := digits_prefix_number (c :: ds ++ rest)
    rw [List.takeWhile_append_of_pos hd] at hp
    exact (List.prefix_append _ _).trans hp
  · have hdigits : ∀ x ∈ (number (c :: ds ++ rest)).text, x.isDigit := by
      rw [← h]
      exact hd
    rw [number_eq_run hdigits] at h ⊢
    exact (run_covers hd hk readInteger_not_lost).kind_eq h

theorem float_covers {ds fs : List Char} (hds : ds ≠ []) (hd : ∀ c ∈ ds, c.isDigit) (hfs : fs ≠ [])
    (hf : ∀ c ∈ fs, c.isDigit) :
    (lexeme (ds ++ '.' :: fs ++ rest)).Covers (ds ++ '.' :: fs) .float := by
  obtain ⟨c, ds, rfl⟩ := List.exists_cons_of_ne_nil hds
  obtain ⟨f, fs, rfl⟩ := List.exists_cons_of_ne_nil hfs
  have hx : number (c :: ds ++ '.' :: f :: fs ++ rest) =
      ⟨readFloat (c :: ds) ((f :: fs ++ rest).takeWhile Char.isDigit),
        c :: ds ++ '.' :: (f :: fs ++ rest).takeWhile Char.isDigit,
        (f :: fs ++ rest).dropWhile Char.isDigit⟩ := by
    have ht : (c :: ds ++ '.' :: (f :: fs ++ rest)).takeWhile Char.isDigit = c :: ds := by
      rw [List.takeWhile_append_of_pos hd]
      simp
    have hr : (c :: ds ++ '.' :: (f :: fs ++ rest)).dropWhile Char.isDigit =
        '.' :: (f :: fs ++ rest) := by
      rw [List.dropWhile_append_of_pos hd]
      simp
    rw [List.append_assoc]
    change number (c :: ds ++ '.' :: (f :: fs ++ rest)) = _
    rw [number, ht, hr]
    exact if_pos (hf f (.head _))
  change (lexeme (c :: (ds ++ '.' :: f :: fs ++ rest))).Covers _ _
  rw [lexeme_digit _ (hd c (.head _))]
  change (number (c :: ds ++ '.' :: f :: fs ++ rest)).Covers _ _
  rw [hx, List.takeWhile_append_of_pos hf]
  refine ⟨?_, fun _ => rfl, Reading.not_lost .float (by simp) rfl⟩
  exact ⟨rest.takeWhile Char.isDigit, by simp⟩

theorem tag_covers (hc : IsWordStart c) (hcs : ∀ x ∈ cs, IsWordChar x ∨ x = ':') :
    (lexeme ('#' :: c :: cs ++ rest)).Covers ('#' :: c :: cs) .tag := by
  have hstart : isWordStart c := isWordStart_iff.2 hc
  have htag : ∀ x ∈ c :: cs, isTagChar x := by
    refine List.forall_mem_cons.2 ⟨?_, fun x hx => isTagChar_iff.2 (hcs x hx)⟩
    exact isTagChar_iff.2 (.inl (isWordChar_iff.1 (isWordChar_of_isWordStart hstart)))
  have hx : lexeme ('#' :: c :: cs ++ rest) =
      behind '#' (run isTagChar (fun _ => .plain .tag) (c :: cs ++ rest)) := by
    change tag (c :: cs ++ rest) = _
    simp [tag, hstart]
  rw [hx]
  exact behind_covers (run_covers htag rfl fun _ => Reading.not_lost .tag (by simp) rfl)

theorem hash_covers : (lexeme (['#'] ++ rest)).Covers ['#'] .hash := by
  change (tag rest).Covers _ _
  unfold tag
  split
  · rename_i h
    obtain ⟨c, hc, hw⟩ := (Option.any_eq_true _ _).1 h
    obtain ⟨cs, rfl⟩ := List.head?_eq_some_iff.1 hc
    refine ⟨⟨_, rfl⟩, fun ht => ?_, Reading.not_lost .tag (by simp) rfl⟩
    have htag : isTagChar c :=
      isTagChar_iff.2 (.inl (isWordChar_iff.1 (isWordChar_of_isWordStart hw)))
    simp [behind, run, htag] at ht
  · exact ⟨List.prefix_rfl, fun _ => rfl, Reading.not_lost .hash (by simp) rfl⟩

theorem blockComment_closed {body : List Char} (hb : ¬ ['*', '/'] <:+: body ++ ['*'])
    (rest : List Char) : blockComment (body ++ '*' :: '/' :: rest) =
      ⟨.plain .comment, body ++ ['*', '/'], rest⟩ := by
  induction body with
  | nil => rfl
  | cons c body ih =>
    have hbody : ¬ ['*', '/'] <:+: body ++ ['*'] :=
      fun h => hb (h.trans (List.suffix_cons _ _).isInfix)
    have hnot (ds : List Char) (hc : c = '*') (hd : body ++ '*' :: '/' :: rest = '/' :: ds) :
        False := by
      subst hc
      cases body with
      | nil => cases hd
      | cons d body =>
        cases hd
        exact hb ⟨[], body ++ ['*'], rfl⟩
    rw [List.cons_append, blockComment, ih hbody]
    · rfl
    · exact hnot

theorem blockComment_unclosed {body : List Char} (hb : ¬ ['*', '/'] <:+: body) :
    blockComment body = ⟨.plain .comment, body, []⟩ := by
  induction body with
  | nil => rfl
  | cons c body ih =>
    rw [blockComment, ih fun h => hb (h.trans (List.suffix_cons _ _).isInfix)]
    · rfl
    · rintro ds rfl rfl
      exact hb ⟨[], ds, rfl⟩

theorem symbol_covers {s : Symbol} (h : s.chars <+: c :: cs) :
    (symbol c cs).Covers s.chars (.symbol s) := by
  have hsome : (Symbol.ofStart? (c :: cs)).isSome :=
    List.find?_isSome.2 ⟨s, s.mem_all, List.isPrefixOf_iff_prefix.2 h⟩
  obtain ⟨s', hs'⟩ := Option.isSome_iff_exists.1 hsome
  have hp : s'.chars <+: c :: cs := by simpa using List.find?_some hs'
  have hle := Symbol.length_le_of_ofStart? hs' h
  rw [symbol, hs']
  refine ⟨List.prefix_of_prefix_length_le h hp hle, fun hw => ?_, ?_⟩
  · rw [Symbol.chars_injective hw]
    rfl
  · exact Reading.not_lost (.symbol s') (by simp) rfl

theorem slash_covers : (lexeme (['/'] ++ rest)).Covers ['/'] (.symbol .slash) := by
  have hslash : (symbol '/' rest).Covers Symbol.slash.chars (.symbol .slash) :=
    symbol_covers ⟨rest, rfl⟩
  cases rest with
  | nil => exact hslash
  | cons d ds =>
    by_cases hl : d = '/'
    · subst hl
      refine ⟨⟨_, rfl⟩, nofun, Reading.not_lost .comment (by simp) rfl⟩
    · by_cases hb : d = '*'
      · subst hb
        refine ⟨⟨_, rfl⟩, nofun, ?_⟩
        change ¬ (blockComment ds).reading.Lost
        rw [blockComment_reading]
        exact Reading.not_lost .comment (by simp) rfl
      · have hx : lexeme ('/' :: d :: ds) = symbol '/' (d :: ds) := by
          rw [lexeme]
          · rfl
          all_goals simp_all
        rw [List.singleton_append, hx]
        exact hslash

theorem kind_readInteger_of_lt (h : Nat.ofDigitChars 10 w 0 < 2 ^ 63) :
    (readInteger w).kind = .integer := by
  have hle : Nat.ofDigitChars 10 w 0 ≤ maxInteger := Nat.le_of_lt_succ h
  rw [readInteger, if_pos hle]
  rfl

theorem kind_readInteger_of_le (h : 2 ^ 63 ≤ Nat.ofDigitChars 10 w 0) :
    (readInteger w).kind = .error := by
  have hlt : ¬ Nat.ofDigitChars 10 w 0 ≤ maxInteger := Nat.not_le.2 h
  rw [readInteger, if_neg hlt]
  rfl

theorem kind_readDirective (a : Directive) : (readDirective a.word.toList).kind = .directive a := by
  rw [readDirective, String.ofList_toList, Directive.ofWord?_eq_some.2 rfl]
  rfl

theorem kind_readDirective_of_ne (h : ∀ a : Directive, w ≠ a.word.toList) :
    (readDirective w).kind = .error := by
  have hnone : Directive.ofWord? (String.ofList w) = none := by
    refine Option.eq_none_iff_forall_ne_some.2 fun a ha => h a ?_
    exact ofList_eq_iff.1 (Directive.ofWord?_eq_some.1 ha).symm
  rw [readDirective, hnone]
  rfl

/-- No lexeme of the grammar at the start of a text is longer than the one that is scanned. -/
theorem covers_of_lexical (h : Lexical rest w k) : (lexeme (w ++ rest)).Covers w k := by
  have hplain (k : TokenKind) : ¬ (Reading.plain k).Lost := by
    simp [Reading.Lost, Reading.plain, Reading.faulty]
  cases h with
  | newline => exact ⟨List.prefix_rfl, fun _ => rfl, hplain _⟩
  | string hu => exact string_covers hu
  | integer hne hd hv => exact integer_covers hne hd (kind_readInteger_of_lt hv)
  | largeInteger hne hd hv => exact integer_covers hne hd (kind_readInteger_of_le hv)
  | float hds hd hfs hf => exact float_covers hds hd hfs hf
  | @word c cs k hc hcs hk =>
    have hstart : isWordStart c := isWordStart_iff.2 hc
    have hall : ∀ x ∈ c :: cs, isWordChar x :=
      List.forall_mem_cons.2
        ⟨isWordChar_of_isWordStart hstart, fun x hx => isWordChar_iff.2 (hcs x hx)⟩
    rw [List.cons_append, lexeme_wordStart _ hstart]
    exact run_covers hall ((wordKind_readWord _).unique hk) readWord_not_lost
  | directive a =>
    have hall : ∀ x ∈ a.word.toList, isWordChar x := by
      rw [← List.all_eq_true]
      cases a <;> rfl
    exact behind_covers (run_covers hall (kind_readDirective a) readDirective_not_lost)
  | unknownDirective hcs hk =>
    have hall := fun x hx => isWordChar_iff.2 (hcs x hx)
    exact behind_covers (run_covers hall (kind_readDirective_of_ne hk) readDirective_not_lost)
  | hash => exact hash_covers
  | tag hc hcs => exact tag_covers hc hcs
  | lineComment hb =>
    refine behind_covers (behind_covers (run_covers (fun x hx => ?_) rfl fun _ => hplain _))
    simpa using fun hn : x = '\n' => hb (hn ▸ hx)
  | @blockComment body hb =>
    have hx := blockComment_closed hb rest
    rw [List.append_assoc]
    refine behind_covers (behind_covers (x := blockComment (body ++ '*' :: '/' :: rest)) ?_)
    rw [hx]
    exact ⟨List.prefix_rfl, fun _ => rfl, hplain _⟩
  | @unclosedComment body hb hr =>
    subst hr
    rw [List.append_nil]
    refine behind_covers (behind_covers (x := blockComment body) ?_)
    rw [blockComment_unclosed hb]
    exact ⟨List.prefix_rfl, fun _ => rfl, hplain _⟩
  | symbol s =>
    by_cases hs : s = .slash
    · subst hs
      exact slash_covers
    · obtain ⟨c, cs, hc, hx⟩ := lexeme_symbol hs rest
      rw [hx]
      exact symbol_covers ⟨rest, by rw [hc]; rfl⟩

/-- The text that is scanned at the start of `cs` is a lexeme of the grammar, or the scanner is lost
there: in a string that never ends, or at a single character. -/
def Scanned (cs : List Char) (x : Lexeme) : Prop :=
  Lexical x.rest x.text x.reading.kind ∨
    x.reading.Lost ∧ x.text = if cs.head? = some '"' then cs else cs.take 1

theorem stringBody_plain {us : List StringUnit} (h : stringBody cs = some (us, rest)) :
    ∀ c, .plain c ∈ us → c ≠ '"' ∧ c ≠ '\\' := by
  fun_induction stringBody cs generalizing us with
  | case1 => simp at h
  | case2 => simp_all
  | case3 => simp at h
  | case4 c cs ih =>
    obtain ⟨⟨vs, r⟩, hv, he⟩ := Option.map_eq_some_iff.1 h
    cases he
    simpa using ih hv
  | case5 c cs hq hend hb ih =>
    obtain ⟨⟨vs, r⟩, hv, he⟩ := Option.map_eq_some_iff.1 h
    cases he
    intro d hd
    rcases List.mem_cons.1 hd with hd | hd
    · cases hd
      refine ⟨hq, fun hc => ?_⟩
      cases cs with
      | nil => exact hend hc rfl
      | cons d cs => exact hb d cs hc rfl
    · exact ih hv d hd

theorem scanned_string (cs : List Char) : Scanned ('"' :: cs) (string cs) := by
  unfold string
  split
  · rename_i us rest h
    exact .inl (.string (stringBody_plain h))
  · exact .inr ⟨.inl rfl, by simp⟩

theorem lexical_digits (hne : w ≠ []) (hd : ∀ c ∈ w, c.isDigit) :
    Lexical rest w (readInteger w).kind := by
  by_cases hv : Nat.ofDigitChars 10 w 0 < 2 ^ 63
  · rw [kind_readInteger_of_lt hv]
    exact .integer hne hd hv
  · rw [kind_readInteger_of_le (Nat.not_lt.1 hv)]
    exact .largeInteger hne hd (Nat.not_lt.1 hv)

theorem lexical_number (h : c.isDigit) :
    Lexical (number (c :: cs)).rest (number (c :: cs)).text (number (c :: cs)).reading.kind := by
  have hne : (c :: cs).takeWhile Char.isDigit ≠ [] := by simp [h]
  have hd : ∀ x ∈ (c :: cs).takeWhile Char.isDigit, x.isDigit := fun _ => List.mem_takeWhile_imp
  unfold number
  split
  · rename_i f fs _
    split
    · rename_i hf
      have hfs : (f :: fs).takeWhile Char.isDigit ≠ [] := by simp [hf]
      exact .float hne hd hfs fun _ => List.mem_takeWhile_imp
    · exact lexical_digits hne hd
  · exact lexical_digits hne hd

theorem lexical_word (h : isWordStart c) :
    Lexical rest ((c :: cs).takeWhile isWordChar)
      (readWord ((c :: cs).takeWhile isWordChar)).kind := by
  rw [List.takeWhile_cons_of_pos (isWordChar_of_isWordStart h)]
  refine .word (isWordStart_iff.1 h) (fun x hx => ?_) (wordKind_readWord _)
  exact isWordChar_iff.1 (List.mem_takeWhile_imp hx)

theorem lexical_directive (hw : ∀ c ∈ w, isWordChar c) :
    Lexical rest ('@' :: w) (readDirective w).kind := by
  by_cases ha : ∃ a : Directive, w = a.word.toList
  · obtain ⟨a, rfl⟩ := ha
    rw [kind_readDirective]
    exact .directive a
  · have hne := not_exists.1 ha
    rw [kind_readDirective_of_ne hne]
    exact .unknownDirective (fun x hx => isWordChar_iff.1 (hw x hx)) hne

theorem lexical_tag (cs : List Char) :
    Lexical (tag cs).rest (tag cs).text (tag cs).reading.kind := by
  unfold tag
  split
  · rename_i h
    obtain ⟨c, hc, hw⟩ := (Option.any_eq_true _ _).1 h
    obtain ⟨ds, rfl⟩ := List.head?_eq_some_iff.1 hc
    have hstart : IsWordStart c := isWordStart_iff.1 hw
    have htag : isTagChar c :=
      isTagChar_iff.2 (.inl (isWordChar_iff.1 (isWordChar_of_isWordStart hw)))
    have ht : (c :: ds).takeWhile isTagChar = c :: ds.takeWhile isTagChar :=
      List.takeWhile_cons_of_pos htag
    simp only [behind, run, ht]
    exact .tag hstart fun x hx => isTagChar_iff.1 (List.mem_takeWhile_imp hx)
  · exact .hash

theorem lexical_blockComment (cs : List Char) :
    Lexical (blockComment cs).rest ('/' :: '*' :: (blockComment cs).text) .comment := by
  rcases blockComment_cases cs with ⟨body, ht, hb⟩ | ⟨ht, hb⟩
  · rw [ht]
    exact .blockComment hb
  · rw [blockComment_unclosed hb]
    exact .unclosedComment hb rfl

theorem scanned_symbol (hq : c ≠ '"') : Scanned (c :: cs) (symbol c cs) := by
  unfold symbol
  split
  · exact .inl (.symbol _)
  · refine .inr ⟨.inr ⟨c, rfl⟩, ?_⟩
    simp [hq]

theorem scanned_lexeme (h : cs ≠ []) : Scanned cs (lexeme cs) := by
  unfold lexeme
  split
  · exact absurd rfl h
  · exact .inl .newline
  · exact scanned_string _
  · exact .inl (lexical_directive fun _ => List.mem_takeWhile_imp)
  · exact .inl (lexical_tag _)
  · refine .inl (.lineComment fun hn => ?_)
    simpa using List.mem_takeWhile_imp hn
  · rename_i ds
    refine .inl ?_
    change Lexical _ _ (blockComment ds).reading.kind
    rw [blockComment_reading]
    exact lexical_blockComment ds
  · rename_i c ds _ hq _ _ _ _
    split
    · exact .inl (lexical_number (by assumption))
    · split
      · exact .inl (lexical_word (by assumption))
      · exact scanned_symbol hq

end Scan

open Lexical in
/-- The next token is the longest lexeme of the grammar at the start of the text, behind blanks, and
of its kind. Where there is none, the token is an error: the whole text if that opens a string, and
else a single character. -/
theorem Lexer.next_longest (l : Lexer) (bs r : List Char) (hl : l.rest = bs ++ r)
    (hb : ∀ c ∈ bs, c = ' ' ∨ c = '\t' ∨ c = '\r')
    (hr : ∃ c ∈ r.head?, c ≠ ' ' ∧ c ≠ '\t' ∧ c ≠ '\r') :
    ((∃ w k, Begins r w k) →
      Begins r l.next.1.lexeme.toList l.next.1.kind ∧
      ∀ w k, Begins r w k → w.length ≤ l.next.1.lexeme.toList.length ∧
        (w = l.next.1.lexeme.toList → k = l.next.1.kind)) ∧
    ((¬ ∃ w k, Begins r w k) →
      l.next.1.kind = .error ∧
      l.next.1.lexeme.toList = if r.head? = some '"' then r else r.take 1) := by
  have hdrop : l.rest.dropWhile Scan.isBlank = r := by
    have hblank : ∀ c ∈ bs, Scan.isBlank c := fun c hc => by
      simpa [Scan.isBlank, or_assoc] using hb c hc
    obtain ⟨c, hc, hne⟩ := hr
    obtain ⟨cs, rfl⟩ := List.head?_eq_some_iff.1 hc
    have hnot : ¬ Scan.isBlank c := by simpa [Scan.isBlank, and_assoc] using hne
    rw [hl, List.dropWhile_append_of_pos hblank, List.dropWhile_cons_of_neg hnot]
  have hne : r ≠ [] := by
    rintro rfl
    obtain ⟨c, hc, _⟩ := hr
    cases hc
  have htext : l.next.1.lexeme.toList = (Scan.lexeme r).text := by
    rw [← hdrop]
    exact String.toList_ofList
  have hkind : l.next.1.kind = (Scan.lexeme r).reading.kind := by
    rw [← hdrop]
    rfl
  have happ := Scan.lexeme_append r
  have hcovers (w : List Char) (k : TokenKind) (h : Begins r w k) : (Scan.lexeme r).Covers w k := by
    obtain ⟨rest, rfl, h⟩ := h
    exact Scan.covers_of_lexical h
  rw [htext, hkind]
  constructor
  · rintro ⟨w, k, hw⟩
    refine ⟨?_, fun w k hw => ?_⟩
    · rcases Scan.scanned_lexeme hne with hx | ⟨hlost, _⟩
      · exact ⟨_, happ.symm, hx⟩
      · exact absurd hlost (hcovers w k hw).found
    · have hc := hcovers w k hw
      exact ⟨hc.begins.length_le, fun h => (hc.kind_eq h).symm⟩
  · intro hnone
    rcases Scan.scanned_lexeme hne with hx | ⟨hlost, ht⟩
    · exact absurd ⟨_, _, _, happ.symm, hx⟩ hnone
    · exact ⟨hlost.kind_eq, ht⟩

open Lexical in
/-- Two points end a number, although a point and a digit would go on with it. -/
theorem next_longest_range :
    let l := Lexer.ofString "\t1..2"
    let r := "1..2".toList
    Begins r ['1'] .integer ∧ l.next.1.lexeme = "1" ∧ l.next.1.kind = .integer ∧
      ∀ w k, Begins r w k → w.length ≤ 1 := by
  intro l r
  have h1 : Begins r ['1'] .integer :=
    ⟨['.', '.', '2'], rfl, .integer nofun (List.forall_mem_singleton.2 rfl) (by decide)⟩
  have hl : l.next.1.lexeme = "1" := by decide +kernel
  obtain ⟨_, hlongest⟩ :=
    (l.next_longest ['\t'] r rfl (List.forall_mem_singleton.2 (by decide)) ⟨'1', rfl, by decide⟩).1
      ⟨_, _, h1⟩
  refine ⟨h1, hl, by decide +kernel, fun w k hw => ?_⟩
  simpa [hl] using (hlongest w k hw).1

end Scriptlet
